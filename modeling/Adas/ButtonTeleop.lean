import Mathlib.Tactic.Linarith
import Adas.CmdVelArbiterRuns

/-!
# The button teleop and the arbiter it feeds

In the deployed configuration the arbiter runs without a controller of its own.
A second node turns the last controller message into a manual command and
publishes it at a fixed rate, so what the arbiter times out is this node and
not the controller.  Here the two nodes run together, and the time since the
last controller message is followed through both.
-/

namespace Adas.Turtlebot

open FloatOps (lit lt le eq abs)

variable {F : Type} [FloatOps F]

namespace ButtonTeleop

def A : Nat := 0
def B : Nat := 1
def X : Nat := 2
def Y : Nat := 3
def AX_LR : Nat := 0
def AX_FB : Nat := 1

def SIGN_FB : F := lit (-1)
def SIGN_LR : F := lit 1
def LIN : F := lit 0.1
def ANG : F := lit 0.5
def DEADZONE : F := lit 0.15

/-- The period of the timer that publishes. -/
def period : F := lit 0.05

end ButtonTeleop

structure ButtonTeleop (F : Type) where
  buttons : List Int := []
  axes : List F := []
  deriving DecidableEq, Repr

namespace ButtonTeleop

def cb (_teleop : ButtonTeleop F) (msg : Joy F) : ButtonTeleop F :=
  { buttons := msg.buttons, axes := msg.axes }

/-- `b[index]` as a condition. -/
def pressed (teleop : ButtonTeleop F) (index : Nat) : Bool :=
  decide (teleop.buttons.getD index 0 ≠ 0)

/-- The command for the last message: the stick first, then the buttons. -/
def publish (teleop : ButtonTeleop F) : Twist F :=
  let lr := teleop.axes.getD AX_LR (lit 0)
  let fb := teleop.axes.getD AX_FB (lit 0)
  if lt DEADZONE (abs fb) || lt DEADZONE (abs lr) then
    { linear := { x := LIN * SIGN_FB * fb }
      angular := { z := ANG * SIGN_LR * lr } }
  else if Y < teleop.buttons.length then
    let linear :=
      if teleop.pressed Y then LIN
      else if teleop.pressed A then -LIN
      else lit 0
    let angular :=
      if teleop.pressed X then ANG
      else if teleop.pressed B then -ANG
      else lit 0
    { linear := { x := linear }, angular := { z := angular } }
  else
    {}

end ButtonTeleop

/-- The nodes that run on the robot. -/
structure Deployed (F : Type) [FloatOps F] where
  teleop : ButtonTeleop F := {}
  arbiter : CmdVelArbiter F := {}
  deriving DecidableEq, Repr

namespace Deployed

open CmdVelArbiter (Params)

/-- A callback of either node, with the clock it reads. -/
inductive Event (F : Type) where
  | onSafety (data : Int) (now : F)
  | onJoy (msg : Joy F) (now : F)
  | teleopPublish (now : F)
  | timer (now : F)
  deriving DecidableEq, Repr

variable (params : Params F)

/-- One callback.  Both nodes hear the controller, and the arbiter hears what
the teleop publishes. -/
def step (state : Deployed F) : Event F → Deployed F × Option (Twist F)
  | .onSafety data now =>
      let stepped := state.arbiter.step params (.onSafety data now)
      ({ state with arbiter := stepped.1 }, stepped.2)
  | .onJoy msg now =>
      let stepped := state.arbiter.step params (.onJoy msg now)
      ({ teleop := state.teleop.cb msg, arbiter := stepped.1 }, stepped.2)
  | .teleopPublish now =>
      let stepped :=
        state.arbiter.step params (.onManual state.teleop.publish now)
      ({ state with arbiter := stepped.1 }, stepped.2)
  | .timer now =>
      let stepped := state.arbiter.step params (.timer now)
      ({ state with arbiter := stepped.1 }, stepped.2)

def machine : EventMachine (Deployed F) (Event F) (Option (Twist F)) where
  init := {}
  step := step params

/-- The nodes before the event at `index` of a run. -/
def deployedAt (events : List (Event F)) (index : Nat) : Deployed F :=
  (machine params).stateAt events index

/-- The event at `index` of a run publishes the twist on `/cmd_vel`. -/
def Publishes (events : List (Event F)) (index : Nat) (twist : Twist F) : Prop :=
  ∃ event, events[index]? = some event ∧
    (step params (deployedAt params events index) event).2 = some twist

end Deployed

namespace CmdVelArbiter

/-- The limits of the `slow` state are not negative. -/
structure CapsNonneg (params : Params ℚ) : Prop where
  linear : 0 ≤ params.slowLinearMax
  angular : 0 ≤ params.slowAngularMax

theorem CapsNonneg.keepsZero {params : Params ℚ} (caps : CapsNonneg params) :
    KeepsZero params :=
  keepsZero_iff.mpr ⟨caps.linear, caps.angular⟩

end CmdVelArbiter

namespace Deployed

open CmdVelArbiter (Params CapsNonneg)

variable {params : Params ℚ} {events : List (Event ℚ)} {index : Nat}

/-- Before `index` a controller message arrived at or after `since`. -/
def JoySince (events : List (Event ℚ)) (index : Nat) (since : ℚ) : Prop :=
  ∃ before < index, ∃ msg arrivedAt,
    events[before]? = some (.onJoy msg arrivedAt) ∧ since ≤ arrivedAt

/-- No publish of the teleop lies between the two indices. -/
def NoPublishBetween (events : List (Event ℚ)) (first last : Nat) : Prop :=
  ∀ between, first < between → between < last →
    ∀ now, events[between]? ≠ some (.teleopPublish now)

/-- A command other than zero that the teleop publishes at `index` is not repeated for
too long: at every tick that still follows it, while it is current, the controller
message behind it is at most the timeout and one period old. -/
def PublishesFresh (params : Params ℚ) (events : List (Event ℚ))
    (index : Nat) : Prop :=
  ∀ now, events[index]? = some (.teleopPublish now) →
    (deployedAt params events index).teleop.publish ≠ {} →
      ∀ tick > index, ∀ tickedAt, events[tick]? = some (.timer tickedAt) →
        NoPublishBetween events index tick → tickedAt - now ≤ params.joyTimeoutSec →
          JoySince events tick (tickedAt - (params.joyTimeoutSec + ButtonTeleop.period))

/-- The manual command of the arbiter is zero, or it is the one that the teleop
published last. -/
def ManualLast (params : Params ℚ) (events : List (Event ℚ)) (index : Nat)
    (arbiter : CmdVelArbiter ℚ) : Prop :=
  arbiter.manualTwist = {} ∨ ∃ before < index,
    events[before]? = some (.teleopPublish arbiter.manualStamp) ∧
      (deployedAt params events before).teleop.publish ≠ {} ∧
      NoPublishBetween events before index

/-- A callback that is no publish of the teleop leaves the last one as it is. -/
theorem ManualLast.later {arbiter after : CmdVelArbiter ℚ} {event : Event ℚ}
    (manual : ManualLast params events index arbiter)
    (atIndex : events[index]? = some event) (other : ∀ now, event ≠ .teleopPublish now)
    (sameTwist : after.manualTwist = arbiter.manualTwist)
    (sameStamp : after.manualStamp = arbiter.manualStamp) :
    ManualLast params events (index + 1) after := by
  unfold ManualLast at manual ⊢
  rw [sameTwist, sameStamp]
  refine manual.imp_right ?_
  rintro ⟨before, earlier, atBefore, notZero, silent⟩
  refine ⟨before, by omega, atBefore, notZero, fun between later upTo now isPublish => ?_⟩
  rcases Nat.lt_succ_iff_lt_or_eq.mp upTo with inside | rfl
  · exact silent between later inside now isPublish
  · exact other now (Option.some.inj (atIndex.symm.trans isPublish))

theorem manualLast_deployedAt (noJoy : params.noJoyMode = true)
    (inRun : index ≤ events.length) :
    ManualLast params events index (deployedAt params events index).arbiter := by
  refine EventMachine.stateAt_induction
    (fun index (state : Deployed ℚ) => ManualLast params events index state.arbiter)
    (Or.inl rfl) ?_ (Nat.zero_le index) inRun
  intro index inRun _ manual
  have atIndex : events[index]? = some events[index] :=
    List.getElem?_eq_getElem inRun
  generalize events[index] = event at atIndex
  cases event with
  | onSafety data now =>
      have other : ∀ stamp, Event.onSafety data now ≠ .teleopPublish stamp := by simp
      simp only [EventMachine.next, machine, step, CmdVelArbiter.step,
        CmdVelArbiter.onSafety]
      split_ifs
      · exact manual.later atIndex other rfl rfl
      · exact manual.later atIndex other rfl rfl
  | onJoy msg now => exact manual.later atIndex (by simp) rfl rfl
  | teleopPublish now =>
      simp only [EventMachine.next, machine, step, CmdVelArbiter.step, noJoy,
        if_true]
      by_cases zero : (deployedAt params events index).teleop.publish = {}
      · exact Or.inl zero
      · exact Or.inr ⟨index, Nat.lt_succ_self index, atIndex, zero,
          fun between after upTo => by omega⟩
  | timer now =>
      obtain ⟨_, _, _, _, _, tickedEq⟩ := CmdVelArbiter.sameMessages_timerCb
        params (deployedAt params events index).arbiter now
      have sameTwist := congrArg CmdVelArbiter.manualTwist tickedEq
      have sameStamp := congrArg CmdVelArbiter.manualStamp tickedEq
      exact manual.later atIndex (by simp) sameTwist sameStamp

/-- Only a tick that finds a current manual command publishes anything but
zero, and the command is not zero. -/
theorem tick_of_publishes (noJoy : params.noJoyMode = true)
    (caps : CapsNonneg params) {twist : Twist ℚ}
    (publishes : Publishes params events index twist) (moving : twist ≠ {}) :
    ∃ now, events[index]? = some (.timer now) ∧
      now - (deployedAt params events index).arbiter.manualStamp ≤
        params.joyTimeoutSec ∧
      (deployedAt params events index).arbiter.manualTwist ≠ {} := by
  obtain ⟨event, atIndex, published⟩ := publishes
  cases event with
  | onSafety data now =>
      simp only [step, CmdVelArbiter.step, CmdVelArbiter.onSafety] at published
      split_ifs at published
      exact absurd (Option.some.inj published).symm moving
  | onJoy msg now => simp [step, CmdVelArbiter.step] at published
  | teleopPublish now => simp [step, CmdVelArbiter.step, noJoy] at published
  | timer now =>
      simp only [step, CmdVelArbiter.step, CmdVelArbiter.timerCb, noJoy, if_true,
        Option.some.injEq] at published
      rw [← published] at moving
      obtain ⟨current, gated, twistEq⟩ := CmdVelArbiter.timerNoJoy_moving moving
      refine ⟨now, atIndex, ?_, fun zero => moving ?_⟩
      · simpa [CmdVelArbiter.manualTimedOut] using current
      · rw [twistEq, zero]
        exact CmdVelArbiter.buildTwist_zero caps.keepsZero gated

end Deployed

open CmdVelArbiter (Params CapsNonneg)
open Deployed (Publishes PublishesFresh JoySince)

/-- Anything but zero is published only while the last controller message is no
older than the controller timeout and one period of the teleop. -/
def StopsOnControllerLoss (params : Params ℚ)
    (events : List (Deployed.Event ℚ)) : Prop :=
  ∀ index twist now, events[index]? = some (.timer now) →
    Publishes params events index twist → twist ≠ {} →
      JoySince events index (now - (params.joyTimeoutSec + ButtonTeleop.period))

/-- `Y` held down. -/
def forwardHeld : Joy ℚ :=
  { axes := [], buttons := [0, 0, 0, 1] }

/-- The last controller message holds `Y` down; the teleop goes on publishing
every period for three seconds. -/
def controllerLost : List (Deployed.Event ℚ) :=
  [.onSafety 0 10, .onJoy forwardHeld 10] ++
    (List.range 60).map (fun count => .teleopPublish (10 + (count + 1) / 20)) ++
    [.onSafety 0 13, .timer (1301 / 100)]

/-- The teleop repeats a command for half a second before the next controller message,
which releases the button. -/
def controllerHeld : List (Deployed.Event ℚ) :=
  [.onSafety 0 10, .onJoy forwardHeld 10] ++
    (List.range 10).map (fun count => .teleopPublish (10 + (count + 1) / 20)) ++
    [.timer (1052 / 100), .onJoy { axes := [], buttons := [0, 0, 0, 0] } (1053 / 100),
      .teleopPublish (1055 / 100), .timer (1056 / 100)]

end Adas.Turtlebot
