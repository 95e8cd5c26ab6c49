import Adas.UartFrame
import Mathlib.Data.List.Basic

/-!
# The serial port of the board

The system's `write` may take fewer bytes than it is given, so the port calls it
until it has taken all of them.  When a call fails, the bytes that were taken before
it are on the line already.  Of a frame, then, either everything is written, or a
proper prefix and the port says that it failed.
-/

namespace Adas.Control

open UartFrame (Byte frameOf kFrameSize)

namespace PosixUartPort

/-- What one call of the system's `write` does. -/
inductive WriteResult where
  | wrote (count : Nat)
  | interrupted
  | failed
  deriving DecidableEq, Repr

/-- The loop of `write`: the bytes that reach the device and the answer, or
`none` while the loop has not ended. -/
def writeLoop : List Byte → List WriteResult → Option (List Byte × Bool)
  | [], _ => some ([], true)
  | _ :: _, [] => none
  | byte :: data, .wrote count :: results =>
      (writeLoop ((byte :: data).drop count) results).map fun rest =>
        ((byte :: data).take count ++ rest.1, rest.2)
  | byte :: data, .interrupted :: results => writeLoop (byte :: data) results
  | _ :: _, .failed :: _ => some ([], false)

/-- `write` on an open port. -/
def write (data : List Byte) (results : List WriteResult) :
    Option (List Byte × Bool) :=
  if data = [] then some ([], false) else writeLoop data results

/-- Only a prefix can have been written, and `true` means that it is all. -/
theorem writeLoop_sent {data sent : List Byte} {results : List WriteResult}
    {complete : Bool} (written : writeLoop data results = some (sent, complete)) :
    ∃ count, sent = data.take count ∧
      (complete = true ↔ data.length ≤ count) := by
  induction results generalizing data sent with
  | nil =>
      cases data with
      | nil =>
          simp only [writeLoop, Option.some.injEq, Prod.mk.injEq] at written
          obtain ⟨rfl, rfl⟩ := written
          exact ⟨0, rfl, by simp⟩
      | cons byte data => simp [writeLoop] at written
  | cons result results ih =>
      cases data with
      | nil =>
          simp only [writeLoop, Option.some.injEq, Prod.mk.injEq] at written
          obtain ⟨rfl, rfl⟩ := written
          exact ⟨0, rfl, by simp⟩
      | cons byte data =>
          cases result with
          | wrote count =>
              simp only [writeLoop, Option.map_eq_some_iff] at written
              obtain ⟨⟨rest, answer⟩, more, equal⟩ := written
              obtain ⟨rfl, rfl⟩ := Prod.mk.inj equal
              obtain ⟨further, rfl, all⟩ := ih more
              refine ⟨count + further, List.take_add.symm, all.trans ?_⟩
              rw [List.length_drop]
              omega
          | interrupted => exact ih written
          | failed =>
              simp only [writeLoop, Option.some.injEq, Prod.mk.injEq] at written
              obtain ⟨rfl, rfl⟩ := written
              exact ⟨0, rfl, by simp⟩

end PosixUartPort

/-- How the write of a frame ends: the device has taken all of it, or the write
fails after its first bytes. -/
inductive WriteEnd where
  | complete
  | failed (sent : Fin kFrameSize)
  deriving DecidableEq, Repr

/-- The answer of the port. -/
def WriteEnd.accepted : WriteEnd → Bool
  | .complete => true
  | .failed _ => false

/-- What of a frame reaches the line. -/
def WriteEnd.taken (ending : WriteEnd) (frame : List Byte) : List Byte :=
  match ending with
  | .complete => frame
  | .failed sent => frame.take sent

/-- The serial port: the bytes that have reached the line so far. -/
structure UartPort where
  bytes : List Byte := []
  deriving DecidableEq, Repr

/-- `write` of a frame. -/
def UartPort.write (port : UartPort) (ending : WriteEnd) (frame : List Byte) :
    UartPort × Bool :=
  ({ bytes := port.bytes ++ ending.taken frame }, ending.accepted)

/-- Whatever the system does with a frame, its write ends in one of the ways. -/
theorem exists_writeEnd {state : Safety.State} {results : List PosixUartPort.WriteResult}
    {sent : List Byte} {answer : Bool}
    (written : PosixUartPort.write (frameOf state) results = some (sent, answer)) :
    ∃ ending : WriteEnd, ending.taken (frameOf state) = sent ∧
      ending.accepted = answer := by
  rw [PosixUartPort.write, if_neg (by simp [frameOf])] at written
  obtain ⟨count, rfl, all⟩ := PosixUartPort.writeLoop_sent written
  have size : (frameOf state).length = kFrameSize := rfl
  rw [size] at all
  by_cases whole : kFrameSize ≤ count
  · exact ⟨.complete, (List.take_of_length_le (size ▸ whole)).symm, (all.mpr whole).symm⟩
  · refine ⟨.failed ⟨count, Nat.lt_of_not_le whole⟩, rfl, ?_⟩
    exact (Bool.eq_false_iff.mpr fun accepted => whole (all.mp accepted)).symm

end Adas.Control
