import Adas.EventMachine
import Adas.FloatOps

/-!
# The velocity arbiter of the robot

The arbiter combines a controller with the safety state and publishes velocity
commands.  Three subscriptions only record messages, except that a `stop` is
published at once; a timer looks at what has been recorded and publishes a
twist.  Every callback is one event here and carries the clock it reads.
-/

namespace Adas.Turtlebot

open FloatOps (lit lt le eq abs)

variable {F : Type} [FloatOps F]

structure Vector3 (F : Type) [FloatOps F] where
  x : F := lit 0
  y : F := lit 0
  z : F := lit 0
  deriving DecidableEq, Repr

structure Twist (F : Type) [FloatOps F] where
  linear : Vector3 F := {}
  angular : Vector3 F := {}
  deriving DecidableEq, Repr

structure Joy (F : Type) where
  axes : List F
  buttons : List Int
  deriving DecidableEq, Repr

inductive SafetyState where
  | clear
  | slow
  | stop
  deriving DecidableEq, Repr

/-- The member of the enumeration with the given value. -/
def SafetyState.ofInt? : Int → Option SafetyState
  | 0 => some .clear
  | 1 => some .slow
  | 2 => some .stop
  | _ => none

/-- `max(a, b)`: the first argument unless the second is greater. -/
def pyMax (first second : F) : F :=
  if lt first second then second else first

/-- `min(a, b)`: the first argument unless the second is smaller. -/
def pyMin (first second : F) : F :=
  if lt second first then second else first

namespace CmdVelArbiter

def kLinearAxis : Nat := 1
def kAngularAxis : Nat := 0
def kDeadmanBtn : Nat := 4
def kABtn : Nat := 0
def kBBtn : Nat := 1
def kXBtn : Nat := 2
def kYBtn : Nat := 3
def kEstopBtn : Nat := 6

def kMaxLinear : F := lit 0.22
def kMaxAngular : F := lit 2.84
def kNeutralThresh : F := lit 0.05

/-- The ROS parameters as they are set. -/
structure Params (F : Type) [FloatOps F] where
  safetyTimeoutSec : F := lit 2
  joyTimeoutSec : F := lit 1
  slowLinearMax : F := lit 0.05
  slowAngularMax : F := lit 0.30
  linearAxisSign : F := lit (-1)
  stickDeadzone : F := lit 0.12
  cardinalSnapRatio : F := lit 0.45
  noJoyMode : Bool := false
  deriving DecidableEq, Repr

/-- `_stick_deadzone`, limited to the range in which rescaling makes sense. -/
def Params.limitedDeadzone (params : Params F) : F :=
  pyMax (lit 0) (pyMin (lit 0.95) params.stickDeadzone)

/-- `_cardinal_snap_ratio`, limited to a proportion. -/
def Params.limitedSnapRatio (params : Params F) : F :=
  pyMax (lit 0) (pyMin (lit 1) params.cardinalSnapRatio)

/-- A callback, with its message and the clock it reads. -/
inductive Event (F : Type) [FloatOps F] where
  | onSafety (data : Int) (now : F)
  | onJoy (msg : Joy F) (now : F)
  | onManual (msg : Twist F) (now : F)
  | timer (now : F)
  deriving DecidableEq, Repr

end CmdVelArbiter

open CmdVelArbiter

structure CmdVelArbiter (F : Type) [FloatOps F] where
  safety : SafetyState := .stop
  safetyStamp : F := lit 0
  joy : Option (Joy F) := none
  joyStamp : F := lit 0
  requireResume : Bool := false
  seenNeutral : Bool := false
  prevSafety : SafetyState := .stop
  estop : Bool := false
  prevEstopBtn : Bool := false
  manualTwist : Twist F := {}
  manualStamp : F := lit 0
  deriving DecidableEq, Repr

namespace CmdVelArbiter

section Controls

variable (params : Params F) (arbiter : CmdVelArbiter F)

def axis (index : Nat) : F :=
  match arbiter.joy with
  | none => lit 0
  | some msg => msg.axes.getD index (lit 0)

def btn (index : Nat) : Bool :=
  match arbiter.joy with
  | none => false
  | some msg => decide (msg.buttons.getD index 0 ≠ 0)

/-- `float(self._btn(idx))`. -/
def btnValue (index : Nat) : F :=
  if arbiter.btn index then lit 1 else lit 0

def applyDeadzone (value : F) : F :=
  let magnitude := abs value
  if le magnitude params.limitedDeadzone then
    lit 0
  else
    let scaled :=
      (magnitude - params.limitedDeadzone) / (lit 1 - params.limitedDeadzone)
    if lt (lit 0) value then pyMin (lit 1) scaled else -pyMin (lit 1) scaled

/-- The linear and angular input: a face button gives an exact cardinal
command, otherwise the stick is corrected. -/
def directionInput : F × F :=
  let buttonLinear := arbiter.btnValue kYBtn - arbiter.btnValue kABtn
  let buttonAngular := arbiter.btnValue kXBtn - arbiter.btnValue kBBtn
  if !eq buttonLinear (lit 0) || !eq buttonAngular (lit 0) then
    (buttonLinear, buttonAngular)
  else
    let linear :=
      applyDeadzone params (params.linearAxisSign * arbiter.axis kLinearAxis)
    let angular := applyDeadzone params (arbiter.axis kAngularAxis)
    if lt (abs angular) (abs linear) then
      if le (abs angular) (abs linear * params.limitedSnapRatio) then
        (linear, lit 0)
      else
        (linear, angular)
    else if lt (abs linear) (abs angular) then
      if le (abs linear) (abs angular * params.limitedSnapRatio) then
        (lit 0, angular)
      else
        (linear, angular)
    else
      (linear, angular)

/-- The two values the resume gate looks at. -/
def input : F × F :=
  if params.noJoyMode then
    (arbiter.manualTwist.linear.x, arbiter.manualTwist.angular.z)
  else
    directionInput params arbiter

/-- Both axes are within the neutral zone. -/
def isNeutral (values : F × F) : Bool :=
  lt (abs values.1) kNeutralThresh && lt (abs values.2) kNeutralThresh

/-- `max(-limit, min(limit, value))`. -/
def limitTo (limit value : F) : F :=
  pyMax (-limit) (pyMin limit value)

/-- The command for the given velocities, limited while the state is `slow`. -/
def buildTwist (linear angular : F) : Twist F :=
  if arbiter.safety = .slow then
    { linear := { x := limitTo params.slowLinearMax linear }
      angular := { z := limitTo params.slowAngularMax angular } }
  else
    { linear := { x := linear }, angular := { z := angular } }

end Controls

section Callbacks

variable (params : Params F) (arbiter : CmdVelArbiter F)

def armResume : CmdVelArbiter F :=
  { arbiter with requireResume := true, seenNeutral := false }

def onSafety (data : Int) (now : F) :
    CmdVelArbiter F × Option (Twist F) :=
  let recorded := { arbiter with
    safety := (SafetyState.ofInt? data).getD .stop, safetyStamp := now }
  if recorded.safety = .stop then
    (recorded.armResume, some {})
  else
    (recorded, none)

def onJoy (msg : Joy F) (now : F) : CmdVelArbiter F :=
  { arbiter with joy := some msg, joyStamp := now }

def onManual (msg : Twist F) (now : F) : CmdVelArbiter F :=
  { arbiter with manualTwist := msg, manualStamp := now }

def safetyStale (now : F) : Bool :=
  lt params.safetyTimeoutSec (now - arbiter.safetyStamp)

/-- The resume gate: whether the input may pass, and the gate after it.  Only
an input that follows a neutral one opens a gate that is required. -/
def resumeGate (values : F × F) : CmdVelArbiter F × Bool :=
  let atNeutral := isNeutral values
  if arbiter.requireResume then
    let looked :=
      if atNeutral then { arbiter with seenNeutral := true } else arbiter
    if looked.seenNeutral && !atNeutral then
      ({ looked with requireResume := false }, true)
    else
      (looked, false)
  else
    (arbiter, true)

def manualTimedOut (now : F) : Bool :=
  lt params.joyTimeoutSec (now - arbiter.manualStamp)

def joyTimedOut (now : F) : Bool :=
  lt params.joyTimeoutSec (now - arbiter.joyStamp)

/-- The timer in `no_joy_mode`. -/
def timerNoJoy (now : F) : CmdVelArbiter F × Twist F :=
  if arbiter.safetyStale params now then
    (arbiter.armResume, {})
  else if arbiter.safety = .stop then
    (arbiter.armResume, {})
  else if arbiter.manualTimedOut params now then
    (arbiter.armResume, {})
  else
    let msg := arbiter.manualTwist
    let gated := arbiter.resumeGate (msg.linear.x, msg.angular.z)
    if gated.2 then
      (gated.1, gated.1.buildTwist params msg.linear.x msg.angular.z)
    else
      (gated.1, {})

/-- The software e-stop toggles when its button is seen going down. -/
def toggleEstop : CmdVelArbiter F :=
  match arbiter.joy with
  | none => arbiter
  | some _ =>
      let btnVal := arbiter.btn kEstopBtn
      let toggled :=
        if btnVal && !arbiter.prevEstopBtn then
          { arbiter with estop := !arbiter.estop }
        else
          arbiter
      { toggled with prevEstopBtn := btnVal }

/-- The gate is armed when a tick first sees the end of a stop. -/
def leaveStop : CmdVelArbiter F :=
  let armed :=
    if arbiter.prevSafety = .stop ∧ arbiter.safety ≠ .stop then
      arbiter.armResume
    else
      arbiter
  { armed with prevSafety := arbiter.safety }

/-- The timer with a controller. -/
def timerJoy (now : F) : CmdVelArbiter F × Twist F :=
  let toggled := arbiter.toggleEstop
  if toggled.estop then
    (toggled, {})
  else if toggled.joyTimedOut params now then
    (toggled.armResume, {})
  else if !toggled.btn kDeadmanBtn then
    (toggled, {})
  else if toggled.safetyStale params now then
    (toggled.armResume, {})
  else
    let left := toggled.leaveStop
    if left.safety = .stop then
      (left.armResume, {})
    else
      let raw := directionInput params left
      let gated := left.resumeGate raw
      if gated.2 then
        (gated.1, gated.1.buildTwist params (raw.1 * kMaxLinear)
          (raw.2 * kMaxAngular))
      else
        (gated.1, {})

def timerCb (now : F) : CmdVelArbiter F × Twist F :=
  if params.noJoyMode then
    arbiter.timerNoJoy params now
  else
    arbiter.timerJoy params now

/-- One callback.  The manual topic is subscribed only in `no_joy_mode`. -/
def step : Event F → CmdVelArbiter F × Option (Twist F)
  | .onSafety data now => arbiter.onSafety data now
  | .onJoy msg now => (arbiter.onJoy msg now, none)
  | .onManual msg now =>
      if params.noJoyMode then (arbiter.onManual msg now, none)
      else (arbiter, none)
  | .timer now =>
      let ticked := arbiter.timerCb params now
      (ticked.1, some ticked.2)

end Callbacks

/-- The arbiter as a machine that reads callbacks and publishes twists. -/
def machine (params : Params F) :
    EventMachine (CmdVelArbiter F) (Event F) (Option (Twist F)) where
  init := {}
  step := step params

end CmdVelArbiter

end Adas.Turtlebot
