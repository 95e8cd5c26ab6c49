import Adas.CmdVelArbiterRuns

/-!
# Presses of the software e-stop

The e-stop button is looked at by the timer, in the last controller message
only.  So the e-stop toggles once for every press exactly when the button
changes at most once between two ticks; a shorter press is lost, and no press
is counted twice.
-/

namespace Adas.Turtlebot.CmdVelArbiter

open FloatOps (lit)

variable {F : Type} [FloatOps F] {params : Params F}

def rise (before after : Bool) : Nat :=
  if after && !before then 1 else 0

theorem rise_self (value : Bool) : rise value value = 0 := by
  simp [rise]

/-- Leaving out the value in between loses a rise unless it is one of its
neighbours. -/
theorem rise_through (before between after : Bool) :
    rise before after ≤ rise before between + rise between after ∧
      (rise before after = rise before between + rise between after ↔
        after = between ∨ between = before) := by
  cases before <;> cases between <;> cases after <;> decide

/-- How often a value that was `last` goes up. -/
def risingEdges : (last : Bool) → List Bool → Nat
  | _, [] => 0
  | last, value :: values => rise last value + risingEdges value values

section Presses

/-- `_btn(_ESTOP_BTN)` of a message. -/
def backPressed (msg : Joy F) : Bool :=
  decide (msg.buttons.getD kEstopBtn 0 ≠ 0)

def Event.back : Event F → Option Bool
  | .onJoy msg _ => some (backPressed msg)
  | _ => none

/-- The presses of the button in the messages received. -/
def presses (events : List (Event F)) : Nat :=
  risingEdges false (events.filterMap Event.back)

/-- The event toggles the e-stop. -/
def togglesEstop (params : Params F) (arbiter : CmdVelArbiter F)
    (event : Event F) : Option Unit :=
  if (step params arbiter event).1.estop = arbiter.estop then none else some ()

/-- The toggles in a run from the given state. -/
def togglesFrom (params : Params F) (arbiter : CmdVelArbiter F)
    (events : List (Event F)) : Nat :=
  ((machine params).collectFrom (togglesEstop params) arbiter events).length

def toggles (params : Params F) (events : List (Event F)) : Nat :=
  togglesFrom params {} events

/-- The button changes only while its value is the one that the last tick
sampled: at most once between two ticks. -/
def ChangesOncePerTick : (sampled last : Bool) → List (Event F) → Prop
  | _, _, [] => True
  | _, last, .timer _ :: events => ChangesOncePerTick last last events
  | sampled, last, .onJoy msg _ :: events =>
      (backPressed msg = last ∨ last = sampled) ∧
        ChangesOncePerTick sampled (backPressed msg) events
  | sampled, last, .onSafety _ _ :: events =>
      ChangesOncePerTick sampled last events
  | sampled, last, .onManual _ _ :: events =>
      ChangesOncePerTick sampled last events

end Presses

section Sampling

/-- The last tick sampled the button as `sampled`, and its value is now `last`. -/
structure Samples (arbiter : CmdVelArbiter F) (sampled last : Bool) : Prop where
  prev : arbiter.prevEstopBtn = sampled
  held : arbiter.btn kEstopBtn = last
  unseen : arbiter.joy = none → sampled = false

variable {arbiter : CmdVelArbiter F} {sampled last : Bool}

variable (params) in
theorem timerJoy_estop (arbiter : CmdVelArbiter F) (now : F) :
    (arbiter.timerJoy params now).1.estop = arbiter.toggleEstop.estop := by
  obtain ⟨_, _, leftEq, -⟩ := leaveStop_eq arbiter.toggleEstop
  simp only [timerJoy, leftEq]
  split_ifs <;> simp [armResume]

@[simp]
theorem resumeGate_prevEstopBtn (values : F × F) :
    (arbiter.resumeGate values).1.prevEstopBtn = arbiter.prevEstopBtn := by
  simp only [resumeGate]
  split_ifs <;> rfl

variable (params) in
theorem timerJoy_prevEstopBtn (arbiter : CmdVelArbiter F) (now : F) :
    (arbiter.timerJoy params now).1.prevEstopBtn =
      arbiter.toggleEstop.prevEstopBtn := by
  obtain ⟨_, _, leftEq, -⟩ := leaveStop_eq arbiter.toggleEstop
  simp only [timerJoy, leftEq]
  split_ifs <;> simp [armResume]

theorem Samples.toggleEstop (samples : Samples arbiter sampled last) :
    arbiter.toggleEstop.estop = (arbiter.estop ^^ (last && !sampled)) ∧
      arbiter.toggleEstop.prevEstopBtn = last := by
  obtain ⟨rfl, rfl, unseen⟩ := samples
  unfold CmdVelArbiter.toggleEstop
  cases seen : arbiter.joy with
  | none =>
      have notPressed : arbiter.btn kEstopBtn = false := by simp [btn, seen]
      exact ⟨by simp [notPressed], by simp [notPressed, unseen seen]⟩
  | some msg =>
      refine ⟨?_, rfl⟩
      cases arbiter.btn kEstopBtn <;> cases arbiter.prevEstopBtn <;> simp

/-- A tick samples the button and toggles the e-stop if it went up since the
tick before. -/
theorem Samples.timer (joyMode : params.noJoyMode = false)
    (samples : Samples arbiter sampled last) (now : F) :
    (step params arbiter (.timer now)).1.estop =
        (arbiter.estop ^^ (last && !sampled)) ∧
      Samples (step params arbiter (.timer now)).1 last last := by
  obtain ⟨estopEq, prevEq⟩ := samples.toggleEstop
  obtain ⟨_, _, _, _, _, tickedEq⟩ := sameMessages_timerCb params arbiter now
  have joyEq : (arbiter.timerCb params now).1.joy = arbiter.joy := by
    rw [tickedEq]
  simp only [timerCb, joyMode, Bool.false_eq_true, if_false] at joyEq
  simp only [step, timerCb, joyMode, Bool.false_eq_true, if_false]
  refine ⟨(timerJoy_estop params arbiter now).trans estopEq, ?_, ?_, ?_⟩
  · exact (timerJoy_prevEstopBtn params arbiter now).trans prevEq
  · rw [← samples.held, btn, joyEq, btn]
  · intro seenAfter
    rw [joyEq] at seenAfter
    rw [← samples.held, btn, seenAfter]

theorem Samples.onJoy (samples : Samples arbiter sampled last) (msg : Joy F)
    (now : F) :
    Samples (arbiter.onJoy msg now) sampled (backPressed msg) :=
  ⟨samples.prev, rfl, fun none => by simp [CmdVelArbiter.onJoy] at none⟩

theorem Samples.onSafety (samples : Samples arbiter sampled last) (data : Int)
    (now : F) :
    Samples (arbiter.onSafety data now).1 sampled last := by
  simp only [CmdVelArbiter.onSafety]
  split_ifs <;> exact ⟨samples.prev, samples.held, samples.unseen⟩

end Sampling

section Runs

variable {arbiter : CmdVelArbiter F} {sampled last : Bool}

theorem togglesFrom_cons (arbiter : CmdVelArbiter F) (event : Event F)
    (events : List (Event F)) :
    togglesFrom params arbiter (event :: events) =
      (togglesEstop params arbiter event).toList.length +
        togglesFrom params (step params arbiter event).1 events := by
  simp [togglesFrom, EventMachine.next, machine]

/-- An event that is not a tick leaves the e-stop alone. -/
theorem togglesFrom_cons_of_same {event : Event F} {events : List (Event F)}
    (same : (step params arbiter event).1.estop = arbiter.estop) :
    togglesFrom params arbiter (event :: events) =
      togglesFrom params (step params arbiter event).1 events := by
  rw [togglesFrom_cons, togglesEstop, if_pos same]
  simp

theorem togglesFrom_timer (joyMode : params.noJoyMode = false)
    (samples : Samples arbiter sampled last) (now : F)
    (events : List (Event F)) :
    togglesFrom params arbiter (.timer now :: events) =
      rise sampled last +
        togglesFrom params (step params arbiter (.timer now)).1 events := by
  have estopEq := (samples.timer joyMode now).1
  rw [togglesFrom_cons, togglesEstop, estopEq]
  cases sampled <;> cases last <;> simp [rise]

/-- From any point of a run the toggles up to a tick are at most the press that
is pending and those still to come; they are as many exactly when the button
changes once per tick. -/
theorem togglesFrom_presses (joyMode : params.noJoyMode = false)
    (samples : Samples arbiter sampled last) (events : List (Event F)) (now : F) :
    togglesFrom params arbiter (events ++ [.timer now]) ≤
        rise sampled last + risingEdges last (events.filterMap Event.back) ∧
      (togglesFrom params arbiter (events ++ [.timer now]) =
          rise sampled last + risingEdges last (events.filterMap Event.back) ↔
        ChangesOncePerTick sampled last events) := by
  induction events generalizing arbiter sampled last with
  | nil =>
      have togglesEq := togglesFrom_timer joyMode samples now []
      have noneLeft : togglesFrom params (step params arbiter (.timer now)).1 []
          = 0 := rfl
      rw [noneLeft] at togglesEq
      simp [togglesEq, risingEdges, ChangesOncePerTick]
  | cons event events ih =>
      cases event with
      | timer tick =>
          obtain ⟨atMost, asMany⟩ := ih (samples.timer joyMode tick).2
          rw [rise_self, Nat.zero_add] at atMost asMany
          rw [List.cons_append, togglesFrom_timer joyMode samples]
          simp only [List.filterMap_cons, Event.back, ChangesOncePerTick,
            ← asMany]
          omega
      | onJoy msg receivedAt =>
          obtain ⟨atMost, asMany⟩ :=
            ih (samples.onJoy msg receivedAt)
          rw [List.cons_append, togglesFrom_cons_of_same rfl]
          obtain ⟨fewer, sameIff⟩ := rise_through sampled last (backPressed msg)
          simp only [List.filterMap_cons, Event.back, ChangesOncePerTick,
            risingEdges, ← asMany, ← sameIff, step]
          omega
      | onSafety data receivedAt =>
          rw [List.cons_append, togglesFrom_cons_of_same]
          · exact ih (samples.onSafety data receivedAt)
          · simp only [step, onSafety]
            split_ifs <;> rfl
      | onManual msg receivedAt =>
          have ignored : step params arbiter (.onManual msg receivedAt) =
              (arbiter, none) := by
            simp [step, joyMode]
          rw [List.cons_append, togglesFrom_cons_of_same (by rw [ignored]),
            ignored]
          exact ih samples

end Runs

theorem samples_init : Samples ({} : CmdVelArbiter F) false false :=
  ⟨rfl, rfl, fun _ => rfl⟩

/-- No press is counted twice. -/
theorem toggles_le_presses (joyMode : params.noJoyMode = false)
    (past : List (Event F)) (now : F) :
    toggles params (past ++ [.timer now]) ≤ presses past := by
  have atMost := (togglesFrom_presses joyMode samples_init past now).1
  rw [rise_self, Nat.zero_add] at atMost
  exact atMost

/-- Up to a tick the e-stop toggles once for every press received before it,
exactly when the button changes at most once between two ticks. -/
theorem toggles_eq_presses_iff (params : Params F)
    (joyMode : params.noJoyMode = false) (past : List (Event F)) (now : F) :
    toggles params (past ++ [.timer now]) = presses past ↔
      ChangesOncePerTick false false past := by
  have asMany := (togglesFrom_presses joyMode samples_init past now).2
  rw [rise_self, Nat.zero_add] at asMany
  exact asMany

/-- Up to every tick the e-stop toggles once for every press received. -/
def TogglesEveryPress (F : Type) [FloatOps F] : Prop :=
  ∀ (params : Params F) (past : List (Event F)) (now : F),
    params.noJoyMode = false →
      toggles params (past ++ [.timer now]) = presses past

/-- The controller with nothing but the e-stop button given. -/
def backJoy (back : Int) : Joy ℚ :=
  { axes := [0, 0], buttons := [0, 0, 0, 0, 0, 0, back] }

/-- The button goes down and up again between two ticks. -/
def shortPress : List (Event ℚ) :=
  [.onSafety 0 10, .onJoy (backJoy 0) (1001 / 100), .timer (101 / 10),
    .onJoy (backJoy 1) (1013 / 100), .onJoy (backJoy 0) (1018 / 100)]

/-- A press between two ticks is lost. -/
theorem not_togglesEveryPress :
    toggles {} (shortPress ++ [.timer (102 / 10)]) = 0 ∧
      presses shortPress = 1 ∧ ¬ TogglesEveryPress ℚ := by
  have toggled : toggles {} (shortPress ++ [.timer (102 / 10)]) = 0 := by
    decide +kernel
  have pressed : presses shortPress = 1 := by decide +kernel
  refine ⟨toggled, pressed, fun everyPress => ?_⟩
  have same := everyPress {} shortPress (102 / 10) rfl
  rw [toggled, pressed] at same
  exact absurd same (by decide)

/-- The button is down at one tick and up at the next. -/
def longPress : List (Event ℚ) :=
  [.onJoy (backJoy 1) 10, .timer (101 / 10), .onJoy (backJoy 0) (102 / 10)]

theorem toggles_eq_presses_iff_longPress :
    toggles {} (longPress ++ [.timer (103 / 10)]) = presses longPress :=
  (toggles_eq_presses_iff {} rfl longPress (103 / 10)).mpr (by
    simp [longPress, ChangesOncePerTick])

end Adas.Turtlebot.CmdVelArbiter
