import Adas.CmdVelArbiterEstop

/-!
# Forced stops that do not arm the resume gate

With a controller a tick is also forced to zero by the software e-stop and by a
safety message that is too old.  The e-stop and the deadman are looked at
first, and their branches return without arming the gate, so not every forced
stop is followed by a neutral and then a new input.  Here the gate is followed
from every forced stop that does arm it, or that leaves an armed gate alone.
-/

namespace Adas.Turtlebot.CmdVelArbiter

open FloatOps (lit lt le eq abs)
open EventMachine (lastSeen)

variable {F : Type} [FloatOps F] {params : Params F}

section Tick

/-- The gate is as it was, and so is the state that a later tick compares with
to see the end of a stop. -/
def KeepsGate (arbiter after : CmdVelArbiter F) : Prop :=
  SameGate arbiter after ∧ after.prevSafety = arbiter.prevSafety

/-- The gate when a tick reads the input: armed, or as it was and with no stop
to leave. -/
def GateAtInput (arbiter left : CmdVelArbiter F) : Prop :=
  Armed left ∨ SameGate arbiter left ∧ arbiter.prevSafety ≠ .stop

/-- Everything a tick with a controller can do. -/
inductive JoyTickEffect (params : Params F) (arbiter : CmdVelArbiter F)
    (now : F) : CmdVelArbiter F × Twist F → Prop where
  | halts {after : CmdVelArbiter F} (gate : Armed after ∨ KeepsGate arbiter after) :
      JoyTickEffect params arbiter now (after, {})
  | reads {left : CmdVelArbiter F} {raw : F × F} {twist : Twist F}
      (driving : Driving params arbiter now) (notEstopped : left.estop = false)
      (readsInput : input params arbiter = raw) (gate : GateAtInput arbiter left)
      (blocked : (left.resumeGate raw).2 = false → twist = {}) :
      JoyTickEffect params arbiter now ((left.resumeGate raw).1, twist)

variable (arbiter : CmdVelArbiter F) (now : F)

theorem gateAtInput_leaveStop (moves : arbiter.safety ≠ .stop) :
    GateAtInput arbiter arbiter.leaveStop := by
  unfold leaveStop
  by_cases stopped : arbiter.prevSafety = .stop
  · left
    simp [stopped, moves, Armed, armResume]
  · right
    simp [stopped, SameGate]

theorem timerJoy_joyEffect (joyMode : params.noJoyMode = false) :
    JoyTickEffect params arbiter now (arbiter.timerJoy params now) := by
  obtain ⟨estop, prevEstopBtn, toggledEq⟩ := toggleEstop_eq arbiter
  have readsStick : input params arbiter = directionInput params arbiter := by
    simp [input, joyMode]
  have leftGate := gateAtInput_leaveStop arbiter.toggleEstop
  obtain ⟨requireResume, seenNeutral, leftEq, -⟩ :=
    leaveStop_eq arbiter.toggleEstop
  rw [toggledEq] at leftEq leftGate
  simp only [timerJoy, toggledEq]
  split_ifs with stopped timedOut released stale safetyStop passes
  · exact .halts (Or.inr ⟨⟨rfl, rfl⟩, rfl⟩)
  · exact .halts (Or.inl (armed_armResume _))
  · exact .halts (Or.inr ⟨⟨rfl, rfl⟩, rfl⟩)
  · exact .halts (Or.inl (armed_armResume _))
  · exact .halts (Or.inl (armed_armResume _))
  all_goals
    rw [leftEq] at safetyStop
    have gate := leftGate safetyStop
    rw [leftEq] at gate passes ⊢
    have driving : Driving params arbiter now :=
      ⟨eq_false_of_ne_true stale, safetyStop⟩
  · refine .reads driving (eq_false_of_ne_true stopped) readsStick gate ?_
    intro blocked
    exact absurd (passes.symm.trans blocked) (by decide)
  · exact .reads driving (eq_false_of_ne_true stopped) readsStick gate
      fun _ => rfl

end Tick

section Runs

/-- The tick is forced to zero: it leaves the e-stop on, or it finds the last
safety message too old.  Before the first message the stamp is `0.0`. -/
def ForcedStopAt (params : Params F) (events : List (Event F)) (start : Nat)
    (now : F) : Prop :=
  events[start]? = some (.timer now) ∧
    ((arbiterAt params events (start + 1)).estop = true ∨
      lt params.safetyTimeoutSec (now -
        ((lastSeen Event.safetyMsg (events.take start)).map Prod.snd).getD
          (lit 0)) = true)

/-- A tick with a permissive safety message and the e-stop off sees an input
that is neutral, or is not. -/
def ReadsAllowed (params : Params F) (events : List (Event F)) (index : Nat)
    (neutral : Bool) : Prop :=
  ReadsInput params events index neutral ∧
    (arbiterAt params events (index + 1)).estop = false

/-- A tick after `start` and before `index` sees a neutral input. -/
def NeutralSince (params : Params F) (events : List (Event F))
    (start index : Nat) : Prop :=
  ∃ neutralTick, start < neutralTick ∧ neutralTick < index ∧
    ReadsAllowed params events neutralTick true

/-- Before `index` a tick sees a new input, after one that saw a neutral input
since `start`. -/
def ResumedSince (params : Params F) (events : List (Event F))
    (start index : Nat) : Prop :=
  ∃ newTick, newTick < index ∧ NeutralSince params events start newTick ∧
    ReadsAllowed params events newTick false

/-- Nothing but zero is published after `start` until the input has been
neutral and then new. -/
def ResumesAfter (params : Params F) (events : List (Event F))
    (start : Nat) : Prop :=
  ∀ index twist, start < index → publishedAt params events index = some twist →
    twist ≠ {} → ResumedSince params events start (index + 1)

/-- The branch the tick takes arms the gate, or the gate is armed already, or
leaving the last stop will arm it. -/
def GateStaysShut (params : Params F) (arbiter : CmdVelArbiter F) (now : F) :
    Prop :=
  arbiter.toggleEstop.estop = false ∧
      (arbiter.joyTimedOut params now = true ∨ arbiter.btn kDeadmanBtn = true) ∨
    Armed arbiter ∨ arbiter.prevSafety = .stop

/-- The gate stays shut until `neutralSeen`. -/
def Guarded (neutralSeen : Prop) (arbiter : CmdVelArbiter F) : Prop :=
  arbiter.prevSafety = .stop ∨
    arbiter.requireResume = true ∧ (arbiter.seenNeutral = true → neutralSeen)

/-- What the arbiter knows at `index` of what happened after `start`. -/
def ResumeTracked (params : Params F) (events : List (Event F))
    (start index : Nat) (arbiter : CmdVelArbiter F) : Prop :=
  Guarded (NeutralSince params events start index) arbiter ∨
    ResumedSince params events start index

variable {events : List (Event F)} {start index : Nat}

theorem NeutralSince.later (neutral : NeutralSince params events start index) :
    NeutralSince params events start (index + 1) := by
  obtain ⟨neutralTick, after, before, reads⟩ := neutral
  exact ⟨neutralTick, after, by omega, reads⟩

theorem ResumedSince.later (resumed : ResumedSince params events start index) :
    ResumedSince params events start (index + 1) := by
  obtain ⟨newTick, before, neutral, reads⟩ := resumed
  exact ⟨newTick, by omega, neutral, reads⟩

theorem Guarded.of_armed {arbiter : CmdVelArbiter F} {neutralSeen : Prop}
    (armed : Armed arbiter) : Guarded neutralSeen arbiter := by
  obtain ⟨required, unseen⟩ := armed
  exact Or.inr ⟨required, fun seen => by simp [unseen] at seen⟩

theorem Guarded.keeps {arbiter after : CmdVelArbiter F} {neutralSeen : Prop}
    (guarded : Guarded neutralSeen arbiter)
    (gate : Armed after ∨ KeepsGate arbiter after) :
    Guarded neutralSeen after := by
  rcases gate with armed | ⟨⟨sameRequired, sameSeen⟩, samePrev⟩
  · exact .of_armed armed
  · unfold Guarded at guarded ⊢
    rwa [sameRequired, sameSeen, samePrev]

/-- A tick that reads the input finds a guarded gate required. -/
theorem Guarded.atInput {arbiter left : CmdVelArbiter F} {neutralSeen : Prop}
    (guarded : Guarded neutralSeen arbiter) (gate : GateAtInput arbiter left) :
    left.requireResume = true ∧ (left.seenNeutral = true → neutralSeen) := by
  rcases gate with ⟨required, unseen⟩ | ⟨⟨sameRequired, sameSeen⟩, noStop⟩
  · exact ⟨required, fun seen => by simp [unseen] at seen⟩
  · rw [sameRequired, sameSeen]
    exact guarded.resolve_left noStop

theorem ResumeTracked.later {arbiter after : CmdVelArbiter F}
    (tracked : ResumeTracked params events start index arbiter)
    (gate : Armed after ∨ KeepsGate arbiter after) :
    ResumeTracked params events start (index + 1) after := by
  rcases tracked with guarded | resumed
  · left
    rcases guarded.keeps gate with latent | ⟨required, seen⟩
    · exact Or.inl latent
    · exact Or.inr ⟨required, fun seenAfter => (seen seenAfter).later⟩
  · exact Or.inr resumed.later

/-- A tick keeps track, and it moves only once the input has been neutral and
then new. -/
theorem ResumeTracked.tick {now : F} (joyMode : params.noJoyMode = false)
    (after : start < index)
    (tracked : ResumeTracked params events start index
      (arbiterAt params events index))
    (atIndex : events[index]? = some (.timer now)) :
    ResumeTracked params events start (index + 1)
        (arbiterAt params events (index + 1)) ∧
      (publishedAt params events index ≠ some {} →
        ResumedSince params events start (index + 1)) := by
  have afterEq : arbiterAt params events (index + 1) = _ :=
    arbiterAt_succ atIndex
  have publishedEq : publishedAt params events index =
      some ((arbiterAt params events index).timerCb params now).2 := by
    simp only [publishedAt, atIndex, step]
  have effect := timerJoy_joyEffect (arbiterAt params events index) now joyMode
  simp only [step, timerCb, joyMode, Bool.false_eq_true, if_false]
    at afterEq publishedEq
  generalize timerJoy params (arbiterAt params events index) now = ticked
    at effect afterEq publishedEq
  cases effect with
  | halts gate =>
      rw [afterEq, publishedEq]
      exact ⟨tracked.later gate, fun moving => absurd rfl moving⟩
  | @reads left raw twist driving notEstopped readsInput gate blocked =>
      have allowed : ∀ neutral, isNeutral raw = neutral →
          ReadsAllowed params events index neutral := by
        intro neutral reads
        rw [← readsInput] at reads
        refine ⟨.of_driving atIndex driving reads, ?_⟩
        rw [afterEq]
        exact (resumeGate_estop left raw).trans notEstopped
      rcases tracked with guarded | resumed
      · obtain ⟨required, neutralSeen⟩ := guarded.atInput gate
        cases passes : (left.resumeGate raw).2 with
        | true =>
            obtain ⟨seen, notNeutral⟩ := (resumeGate_passes left passes).2 required
            have resumed : ResumedSince params events start (index + 1) :=
              ⟨index, by omega, neutralSeen seen, allowed false notNeutral⟩
            exact ⟨Or.inr resumed, fun _ => resumed⟩
        | false =>
            obtain ⟨stillRequired, seen⟩ := resumeGate_blocks left passes
            rw [publishedEq, afterEq, blocked passes]
            refine ⟨Or.inl (Or.inr ⟨stillRequired, fun seenAfter => ?_⟩),
              fun moving => absurd rfl moving⟩
            rcases seen seenAfter with already | neutral
            · exact (neutralSeen already).later
            · exact ⟨index, after, by omega, allowed true neutral⟩
      · exact ⟨Or.inr resumed.later, fun _ => resumed.later⟩

/-- From the event after `start` on, a guarded gate stays tracked. -/
theorem resumeTracked_arbiterAt (joyMode : params.noJoyMode = false)
    (guarded : Guarded (NeutralSince params events start (start + 1))
      (arbiterAt params events (start + 1)))
    (after : start < index) (inRun : index ≤ events.length) :
    ResumeTracked params events start index (arbiterAt params events index) := by
  induction index, after using Nat.le_induction with
  | base => exact Or.inl guarded
  | succ index after ih =>
      have tracked := ih (by omega)
      have atIndex : events[index]? = some events[index] :=
        List.getElem?_eq_getElem (by omega)
      generalize events[index] = event at atIndex
      cases event with
      | timer now => exact (tracked.tick joyMode after atIndex).1
      | onSafety data now =>
          rw [arbiterAt_succ atIndex]
          simp only [step, onSafety]
          split_ifs
          · exact tracked.later (Or.inl (armed_armResume _))
          · exact tracked.later (Or.inr ⟨⟨rfl, rfl⟩, rfl⟩)
      | onJoy msg now =>
          rw [arbiterAt_succ atIndex]
          exact tracked.later (Or.inr ⟨⟨rfl, rfl⟩, rfl⟩)
      | onManual msg now =>
          rw [arbiterAt_succ atIndex]
          simp only [step, joyMode]
          exact tracked.later (Or.inr ⟨⟨rfl, rfl⟩, rfl⟩)

theorem armed_of_stale {arbiter : CmdVelArbiter F} {now : F}
    (notEstopped : arbiter.toggleEstop.estop = false)
    (branch : arbiter.joyTimedOut params now = true ∨
      arbiter.btn kDeadmanBtn = true)
    (stale : arbiter.safetyStale params now = true) :
    Armed (arbiter.timerJoy params now).1 := by
  obtain ⟨estop, prevEstopBtn, toggledEq⟩ := toggleEstop_eq arbiter
  rw [toggledEq] at notEstopped
  simp only [timerJoy, toggledEq]
  split_ifs with stopped timedOut released stillStale
  · exact absurd (stopped.symm.trans notEstopped) (by decide)
  · exact armed_armResume _
  · exfalso
    rw [Bool.not_eq_true'] at released
    rcases branch with timedOut' | held
    · exact timedOut timedOut'
    · exact absurd (held.symm.trans released) (by decide)
  · exact armed_armResume _
  all_goals exact absurd stale stillStale

/-- A forced stop at which the gate stays shut leaves it guarded. -/
theorem guarded_of_forcedStopAt {now : F} {neutralSeen : Prop}
    (joyMode : params.noJoyMode = false)
    (forced : ForcedStopAt params events start now)
    (shut : GateStaysShut params (arbiterAt params events start) now) :
    Guarded neutralSeen (arbiterAt params events (start + 1)) := by
  obtain ⟨atStart, forced⟩ := forced
  have afterEq : arbiterAt params events (start + 1) = _ :=
    arbiterAt_succ atStart
  simp only [step, timerCb, joyMode, Bool.false_eq_true, if_false] at afterEq
  have estopEq := timerJoy_estop params (arbiterAt params events start) now
  rw [← (remembers_arbiterAt params events start).safetyStamp] at forced
  rw [afterEq, estopEq] at forced
  rw [afterEq]
  rcases shut with ⟨notEstopped, branch⟩ | armedOrLatent
  · have stale := forced.resolve_left (by simp [notEstopped])
    exact .of_armed (armed_of_stale notEstopped branch stale)
  · have guarded : Guarded neutralSeen (arbiterAt params events start) :=
      armedOrLatent.elim .of_armed Or.inl
    have effect := timerJoy_joyEffect (arbiterAt params events start) now joyMode
    generalize timerJoy params (arbiterAt params events start) now = ticked
      at effect forced estopEq
    cases effect with
    | halts gate => exact guarded.keeps gate
    | @reads left raw _ driving notEstopped _ _ _ =>
        exfalso
        rcases forced with estopped | stale
        · rw [← estopEq, resumeGate_estop, notEstopped] at estopped
          exact absurd estopped (by decide)
        · exact absurd (stale.symm.trans driving.fresh) (by decide)

end Runs

/-- In every run with a controller, a forced stop at which the gate is armed,
stays armed or is about to be armed is followed by nothing but zero until a
tick has seen a neutral input and a later one a new input. -/
theorem resumes_after_forced_stop (params : Params F)
    (joyMode : params.noJoyMode = false) (events : List (Event F))
    (start : Nat) (now : F) (forced : ForcedStopAt params events start now)
    (shut : GateStaysShut params (arbiterAt params events start) now) :
    ResumesAfter params events start := by
  intro index twist after published moving
  obtain ⟨tick, atIndex, -⟩ := tick_of_published published moving
  obtain ⟨inRun, -⟩ := List.getElem?_eq_some_iff.mp atIndex
  have guarded : Guarded (NeutralSince params events start (start + 1))
      (arbiterAt params events (start + 1)) :=
    guarded_of_forcedStopAt joyMode forced shut
  have tracked := resumeTracked_arbiterAt joyMode guarded after inRun.le
  apply (tracked.tick joyMode after atIndex).2
  rw [published]
  exact fun zero => moving (Option.some.inj zero)

/-- Every forced stop is followed by nothing but zero until the input has been
neutral and then new. -/
def ForcedStopsResume (F : Type) [FloatOps F] : Prop :=
  ∀ (params : Params F) (events : List (Event F)) (start : Nat) (now : F),
    params.noJoyMode = false → ForcedStopAt params events start now →
      ResumesAfter params events start

/-- Moving without a tick that has seen a neutral input is not resuming. -/
theorem not_resumesAfter {events : List (Event F)} {start : Nat} (index : Nat)
    (twist : Twist F) (after : start < index)
    (published : publishedAt params events index = some twist)
    (moving : twist ≠ {})
    (held : ∀ tick < index, start < tick →
      isNeutral (input params (arbiterAt params events tick)) = false) :
    ¬ ResumesAfter params events start := by
  intro resumes
  obtain ⟨newTick, before, ⟨neutralTick, since, inTime, reads⟩, -⟩ :=
    resumes index twist after published moving
  obtain ⟨-, -, -, neutral⟩ := reads.1
  rw [held neutralTick (by omega) since] at neutral
  exact absurd neutral (by decide)

/-- A controller message that asks for `Y`. -/
def forwardJoy (deadman back : Int) : Joy ℚ :=
  { axes := [0, 0], buttons := [0, 0, 0, 1, deadman, 0, back] }

/-- The robot drives forward. -/
def driveForward : List (Event ℚ) :=
  [.onSafety 0 10, .onJoy (heldJoy 0) (101 / 10), .timer (102 / 10),
    .onJoy (forwardJoy 1 0) (103 / 10), .timer (104 / 10)]

/-- The e-stop is pressed and pressed again while `Y` stays held. -/
def pressEstopTwice : List (Event ℚ) :=
  driveForward ++
    [.onJoy (forwardJoy 1 1) (105 / 10), .timer (106 / 10),
      .onJoy (forwardJoy 1 0) (107 / 10), .timer (108 / 10),
      .onJoy (forwardJoy 1 1) (109 / 10), .timer 11]

/-- The safety state is lost for a while, during which the deadman is released
and `Y` stays held. -/
def loseSafety : List (Event ℚ) :=
  driveForward ++
    [.onJoy (forwardJoy 0 0) (125 / 10), .timer (126 / 10),
      .onSafety 0 (127 / 10), .onJoy (forwardJoy 1 0) (128 / 10),
      .timer (129 / 10)]

/-- Both branches that return before the gate is armed let the robot move off
with the input it was stopped with. -/
theorem not_forcedStopsResume :
    ForcedStopAt {} pressEstopTwice 6 (106 / 10) ∧
      ¬ ResumesAfter {} pressEstopTwice 6 ∧
      ForcedStopAt {} loseSafety 6 (126 / 10) ∧
      ¬ ResumesAfter {} loseSafety 6 ∧ ¬ ForcedStopsResume ℚ := by
  have estopForced : ForcedStopAt {} pressEstopTwice 6 (106 / 10) :=
    ⟨rfl, Or.inl (by decide +kernel)⟩
  have staleForced : ForcedStopAt {} loseSafety 6 (126 / 10) :=
    ⟨rfl, Or.inr (by decide +kernel)⟩
  have estopMoves : ¬ ResumesAfter {} pressEstopTwice 6 :=
    not_resumesAfter 10 { linear := { x := 0.22 } }
      (by decide) (by decide +kernel) (by decide +kernel) (by decide +kernel)
  have staleMoves : ¬ ResumesAfter {} loseSafety 6 :=
    not_resumesAfter 9 { linear := { x := 0.22 } }
      (by decide) (by decide +kernel) (by decide +kernel) (by decide +kernel)
  exact ⟨estopForced, estopMoves, staleForced, staleMoves,
    fun resume => estopMoves (resume {} _ 6 _ rfl estopForced)⟩

/-- The safety state is lost with the deadman held; the input becomes neutral
before `Y` is pressed again. -/
def loseSafetyHeld : List (Event ℚ) :=
  driveForward ++
    [.onJoy (forwardJoy 1 0) (125 / 10), .timer (126 / 10),
      .onSafety 0 (127 / 10), .onJoy (heldJoy 0) (128 / 10),
      .timer (129 / 10), .onJoy (forwardJoy 1 0) 13, .timer (131 / 10)]

theorem resumes_after_forced_stop_loseSafetyHeld :
    ResumedSince {} loseSafetyHeld 6 12 :=
  resumes_after_forced_stop {} rfl loseSafetyHeld 6 (126 / 10)
    ⟨rfl, Or.inr (by decide +kernel)⟩
    (Or.inl ⟨by decide +kernel, Or.inr (by decide +kernel)⟩)
    11 { linear := { x := 0.22 } } (by decide) (by decide +kernel)
    (by decide +kernel)

end Adas.Turtlebot.CmdVelArbiter
