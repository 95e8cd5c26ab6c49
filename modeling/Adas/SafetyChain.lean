import Adas.CmdVelArbiter
import Adas.SafetyTransmitter
import Adas.UartLink

/-!
# From the decision to the wheels

The transmitter on the board, the serial line, the receiver on the robot, the
topic between the robot's nodes and the arbiter, put together.  The line keeps
what has been written until the receiver polls it, the first bytes of a frame whose
write failed too.  The receiver publishes what a poll has found, one message after
the other, before it polls again, and the arbiter may take messages in between.  The
topic may lose any message that was not taken, whatever its queues keep.
-/

namespace Adas.SafetyChain

open Control (SafetyTransmitter)
open Control.SafetyTransmitter (Sending)
open Turtlebot (CmdVelArbiter Joy Twist UartSafetyReceiver)
open UartFrame (Byte)
open Turtlebot.UartSafetyReceiver (Written)

variable (F : Type) [FloatOps F]

structure Chain where
  transmitter : SafetyTransmitter := {}
  wire : List Byte := []
  receiver : UartSafetyReceiver := {}
  publishing : List Int := []
  topic : List Int := []
  arbiter : CmdVelArbiter F := {}

/-- A call on the board; a poll that finds so many bytes; the next message of the
receiver; the loss of a message in the topic; the callback for a safety state; or
another callback of the arbiter. -/
inductive Event where
  | transmit (call : SafetyTransmitter.Event)
  | poll (waiting : Nat)
  | publish
  | lose (index : Nat)
  | deliver (now : F)
  | joy (msg : Joy F) (now : F)
  | manual (msg : Twist F) (now : F)
  | timer (now : F)

/-- What a step shows: a call and what it sent, a message that the topic lost, a
message that the arbiter takes with the command it causes, and the command of a
tick. -/
inductive Happening where
  | quiet
  | called (call : SafetyTransmitter.Event) (sending : Option Sending)
  | lost (data : Int)
  | delivered (data : Int) (now : F) (twist : Option (Twist F))
  | commanded (now : F) (twist : Twist F)
  deriving DecidableEq, Repr

variable {F}

/-- The command to the wheels in a step, with its time. -/
def Happening.command : Happening F → Option (F × Twist F)
  | .delivered _ now twist => twist.map fun twist => (now, twist)
  | .commanded now twist => some (now, twist)
  | _ => none

/-- What reaches the line in a call. -/
def onLine (sending : Option Sending) : Option Written :=
  sending.map fun sending => .ofWrite sending.state sending.ending

variable (config : SafetyTransmitter.Config) (params : CmdVelArbiter.Params F)

/-- A callback of the arbiter other than that for the safety state. -/
def callback (chain : Chain F) (event : CmdVelArbiter.Event F) : Chain F :=
  { chain with arbiter := (CmdVelArbiter.step params chain.arbiter event).1 }

def step (chain : Chain F) : Event F → Chain F × Happening F
  | .transmit call =>
      let called := SafetyTransmitter.step config chain.transmitter call
      let arriving := (onLine called.2).toList.flatMap Written.bytes
      ({ chain with transmitter := called.1, wire := chain.wire ++ arriving },
        .called call called.2)
  | .poll waiting =>
      match chain.publishing with
      | [] =>
          let polled := chain.receiver.poll (chain.wire.take waiting)
          ({ chain with
            wire := chain.wire.drop waiting
            receiver := polled.1
            publishing := polled.2 }, .quiet)
      | _ :: _ => (chain, .quiet)
  | .publish =>
      match chain.publishing with
      | [] => (chain, .quiet)
      | data :: publishing =>
          ({ chain with publishing := publishing, topic := chain.topic ++ [data] },
            .quiet)
  | .lose index =>
      match chain.topic[index]? with
      | none => (chain, .quiet)
      | some data => ({ chain with topic := chain.topic.eraseIdx index }, .lost data)
  | .deliver now =>
      match chain.topic with
      | [] => (chain, .quiet)
      | data :: topic =>
          ({ callback params chain (.onSafety data now) with topic := topic },
            .delivered data now (chain.arbiter.onSafety data now).2)
  | .joy msg now => (callback params chain (.onJoy msg now), .quiet)
  | .manual msg now => (callback params chain (.onManual msg now), .quiet)
  | .timer now =>
      (callback params chain (.timer now),
        .commanded now (CmdVelArbiter.timerCb params chain.arbiter now).2)

def machine : EventMachine (Chain F) (Event F) (Happening F) where
  init := {}
  step := step config params

end Adas.SafetyChain
