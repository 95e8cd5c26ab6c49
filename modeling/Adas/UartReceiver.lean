import Adas.EventMachine
import Adas.UartFrame
import Adas.WindowScanner

/-!
# The receiver of the safety frames

The robot polls its serial port.  Whatever has arrived goes to the end of a
buffer, and every frame found in the buffer is published as a state.  A byte
that does not start a frame is dropped, and so is the first byte of a window
with a wrong CRC.  The receiver has its own CRC, which agrees with that of the
sender.
-/

namespace Adas.Turtlebot

open UartFrame (Byte crcBit crcByte crc8 stateByte frameOf)

namespace UartSafetyReceiver

def kMagic : Nat := 0xA5

/-- One turn of the inner loop of `crc8_atm`, over unbounded integers. -/
def crcTurn (crc : Nat) : Nat :=
  if crc &&& 0x80 ≠ 0 then ((crc <<< 1) ^^^ 0x07) &&& 0xFF
  else (crc <<< 1) &&& 0xFF

def crc8Atm (data : List Byte) : Nat :=
  data.foldl (fun crc value => crcTurn^[8] (crc ^^^ value.toNat)) 0

/-- A state byte of which there is no state counts as `STOP`. -/
def safeState (state : Byte) : Int :=
  if state.toNat ∈ [0, 1, 2] then state.toNat else 2

/-- What `_poll` makes of the first three bytes of its buffer. -/
def readFrame : List Byte → Option Int
  | [magic, state, receivedCrc] =>
      if magic.toNat ≠ kMagic then
        none
      else if crc8Atm [magic, state] ≠ receivedCrc.toNat then
        none
      else
        some (safeState state)
  | _ => none

def frames : WindowScanner Byte Int where
  size := 3
  positive := by decide
  read := readFrame

end UartSafetyReceiver

open UartSafetyReceiver

structure UartSafetyReceiver where
  buffer : List Byte := []
  deriving DecidableEq, Repr

namespace UartSafetyReceiver

/-- `_poll` with the bytes that wait at the port, and the states it publishes. -/
def poll (receiver : UartSafetyReceiver) (waiting : List Byte) :
    UartSafetyReceiver × List Int :=
  let scanned := frames.scan 0 (receiver.buffer ++ waiting)
  (⟨scanned.2⟩, scanned.1.map Prod.snd)

/-- The receiver as a machine that reads what waits at each poll. -/
def machine : EventMachine UartSafetyReceiver (List Byte) (List Int) where
  init := {}
  step := poll

/-- All that is published over a run of polls. -/
def published (polls : List (List Byte)) : List Int :=
  (machine.outputsFrom machine.init polls).flatten

section Polls

theorem outputsFrom_flatten {receiver : UartSafetyReceiver}
    (short : receiver.buffer.length < frames.size) (polls : List (List Byte)) :
    (machine.outputsFrom receiver polls).flatten =
      frames.values (receiver.buffer ++ polls.flatten) := by
  induction polls generalizing receiver with
  | nil =>
      rw [List.flatten_nil, List.append_nil, WindowScanner.values,
        WindowScanner.scan_short short]
      rfl
  | cons waiting polls ih =>
      have left : (machine.next receiver waiting).buffer.length < frames.size :=
        WindowScanner.length_scan_rest 0 (receiver.buffer ++ waiting)
      rw [EventMachine.outputsFrom_cons, List.flatten_cons, List.flatten_cons,
        ← List.append_assoc, (WindowScanner.values_append _ _).1, ih left]
      rfl

/-- What is published depends on the bytes alone, not on how the polls cut
them. -/
theorem published_eq (polls : List (List Byte)) :
    published polls = frames.values polls.flatten :=
  outputsFrom_flatten (by decide) polls

end Polls

section Checksum

theorem crcTurn_toNat : ∀ crc : Byte, crcTurn crc.toNat = (crcBit crc).toNat := by
  decide

theorem crcTurn_iterate (turns : Nat) (crc : Byte) :
    crcTurn^[turns] crc.toNat = (crcBit^[turns] crc).toNat := by
  induction turns generalizing crc with
  | zero => rfl
  | succ turns ih =>
      rw [Function.iterate_succ_apply, Function.iterate_succ_apply, crcTurn_toNat,
        ih]

/-- Sender and receiver compute the same CRC. -/
theorem crc8Atm_eq (data : List Byte) :
    crc8Atm data = (crc8 (some data)).toNat := by
  have fromCrc : ∀ crc : Byte,
      data.foldl (fun crc value => crcTurn^[8] (crc ^^^ value.toNat)) crc.toNat =
        (data.foldl crcByte crc).toNat := by
    induction data with
    | nil => exact fun _ => rfl
    | cons value data ih =>
        intro crc
        rw [List.foldl_cons, List.foldl_cons, ← BitVec.toNat_xor, crcTurn_iterate,
          ih]
        rfl
  exact fromCrc 0

end Checksum

end UartSafetyReceiver

end Adas.Turtlebot
