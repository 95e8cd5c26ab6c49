import Adas.EventMachine
import Adas.UartPort

/-!
# The periodic safety transmitter

Two threads share the transmitter under one mutex.  The classifier publishes
decisions; the sender ticks, looks at the age of the last decision and sends
a frame.  A decision that enters `stop` is sent at once, besides the periodic
frames.  Each call is one event here, so a list of events is an interleaving
of the two threads.
-/

namespace Adas.Control

open Safety (State)
open UartFrame (Byte encode frameOf kFrameSize)

namespace SafetyTransmitter

structure Config where
  decisionTimeoutMs : Nat := 500
  deriving DecidableEq, Repr

/-- The `uint64_t` counters. -/
structure Stats where
  framesSent : BitVec 64 := 0
  sendFailures : BitVec 64 := 0
  staleEvents : BitVec 64 := 0
  immediateStops : BitVec 64 := 0
  deriving DecidableEq, Repr

/-- A call of one of the two threads.  `ending` is how a write during the call
ends. -/
inductive Event where
  | publish (state : State) (decidedAtMs nowMs : Nat) (ending : WriteEnd)
  | tick (nowMs : Nat) (ending : WriteEnd)
  deriving DecidableEq, Repr

/-- A call of `sendLocked`: the state and how the write of its frame ended. -/
structure Sending where
  state : State
  ending : WriteEnd
  deriving DecidableEq, Repr

/-- The port took the frame. -/
def Sending.accepted (sending : Sending) : Bool :=
  sending.ending.accepted

/-- What of the frame reached the line. -/
def Sending.bytes (sending : Sending) : List Byte :=
  sending.ending.taken (frameOf sending.state)

end SafetyTransmitter

open SafetyTransmitter (Config Stats Event Sending)

structure SafetyTransmitter where
  published : State := .stop
  lastSent : State := .stop
  decidedAtMs : Nat := 0
  decisionSeen : Bool := false
  stats : Stats := {}
  port : UartPort := {}
  deriving DecidableEq, Repr

namespace SafetyTransmitter

/-- The clock of the call. -/
def Event.nowMs : Event → Nat
  | .publish _ _ nowMs _ => nowMs
  | .tick nowMs _ => nowMs

def Event.isTick : Event → Bool
  | .publish .. => false
  | .tick .. => true

/-- `sendLocked`, with its answer. -/
def sendLocked (transmitter : SafetyTransmitter) (state : State)
    (ending : WriteEnd) : SafetyTransmitter × Bool :=
  match encode state (some kFrameSize) with
  | none =>
      ({ transmitter with
        stats := { transmitter.stats with
          sendFailures := transmitter.stats.sendFailures + 1 } }, false)
  | some frame =>
      let written := transmitter.port.write ending frame
      if written.2 then
        ({ transmitter with
          stats := { transmitter.stats with
            framesSent := transmitter.stats.framesSent + 1 }
          lastSent := state
          port := written.1 }, true)
      else
        ({ transmitter with
          stats := { transmitter.stats with
            sendFailures := transmitter.stats.sendFailures + 1 }
          port := written.1 }, false)

/-- `publish`, with the frame it sends, if any. -/
def publish (transmitter : SafetyTransmitter) (state : State)
    (decidedAtMs : Nat) (ending : WriteEnd) :
    SafetyTransmitter × Option Sending :=
  let enteringStop := state = .stop ∧ transmitter.published ≠ .stop
  let recorded := { transmitter with
    published := state, decidedAtMs := decidedAtMs, decisionSeen := true }
  if enteringStop then
    let counted := { recorded with
      stats := { recorded.stats with
        immediateStops := recorded.stats.immediateStops + 1 } }
    let sent := counted.sendLocked state ending
    (sent.1, some ⟨state, ending⟩)
  else
    (recorded, none)

/-- The decision is missing or too old. -/
def stale (config : Config) (transmitter : SafetyTransmitter) (nowMs : Nat) :
    Bool :=
  transmitter.decisionSeen = false ∨
    (transmitter.decidedAtMs ≤ nowMs ∧
      config.decisionTimeoutMs ≤ nowMs - transmitter.decidedAtMs)

/-- `tick`, with the frame it sends. -/
def tick (config : Config) (transmitter : SafetyTransmitter) (nowMs : Nat)
    (ending : WriteEnd) : SafetyTransmitter × Option Sending :=
  let checked :=
    if transmitter.stale config nowMs ∧ transmitter.published ≠ .stop then
      { transmitter with
        stats := { transmitter.stats with
          staleEvents := transmitter.stats.staleEvents + 1 } }
    else
      transmitter
  let state :=
    if transmitter.stale config nowMs then .stop else transmitter.published
  let sent := checked.sendLocked state ending
  (sent.1, some ⟨state, ending⟩)

def step (config : Config) (transmitter : SafetyTransmitter) :
    Event → SafetyTransmitter × Option Sending
  | .publish state decidedAtMs _ ending =>
      transmitter.publish state decidedAtMs ending
  | .tick nowMs ending => transmitter.tick config nowMs ending

/-- The transmitter as a machine that reads the calls of both threads. -/
def machine (config : Config) :
    EventMachine SafetyTransmitter Event (Option Sending) where
  init := {}
  step := step config

section Sends

variable (transmitter : SafetyTransmitter) (state : State)

/-- A frame the port takes. -/
theorem sendLocked_complete :
    transmitter.sendLocked state .complete =
      ({ transmitter with
          stats := { transmitter.stats with
            framesSent := transmitter.stats.framesSent + 1 }
          lastSent := state
          port := { bytes := transmitter.port.bytes ++ frameOf state } }, true) :=
  rfl

/-- A frame whose write fails. -/
theorem sendLocked_failed (sent : Fin kFrameSize) :
    transmitter.sendLocked state (.failed sent) =
      ({ transmitter with
          stats := { transmitter.stats with
            sendFailures := transmitter.stats.sendFailures + 1 }
          port := { bytes := transmitter.port.bytes ++ (frameOf state).take sent } },
        false) :=
  rfl

variable (ending : WriteEnd)

@[simp]
theorem sendLocked_bytes :
    (transmitter.sendLocked state ending).1.port.bytes =
      transmitter.port.bytes ++ ending.taken (frameOf state) := by
  cases ending <;> rfl

@[simp]
theorem sendLocked_published :
    (transmitter.sendLocked state ending).1.published =
      transmitter.published := by
  cases ending <;> rfl

@[simp]
theorem sendLocked_decidedAtMs :
    (transmitter.sendLocked state ending).1.decidedAtMs =
      transmitter.decidedAtMs := by
  cases ending <;> rfl

@[simp]
theorem sendLocked_decisionSeen :
    (transmitter.sendLocked state ending).1.decisionSeen =
      transmitter.decisionSeen := by
  cases ending <;> rfl

@[simp]
theorem sendLocked_immediateStops :
    (transmitter.sendLocked state ending).1.stats.immediateStops =
      transmitter.stats.immediateStops := by
  cases ending <;> rfl

end Sends

end SafetyTransmitter

end Adas.Control
