import Mathlib.Data.List.Basic
import Mathlib.Data.List.Induction

/-!
# Deterministic event machines

A machine reads one event at a time, moves to its next state and answers with
an output.  This file defines runs over finite event lists, the state reached
before each position of a run, and the rules used to reason about all
positions at once: an invariant kept by every step holds everywhere, a
property that follows the run from some position on is proved by induction
over positions, and two states related by a simulation answer alike.
-/

/-- A deterministic machine that answers every event. -/
structure EventMachine (State Event Output : Type*) where
  init : State
  step : State → Event → State × Output

namespace EventMachine

variable {State Event Output : Type*} (machine : EventMachine State Event Output)

/-- The state after one event. -/
def next (state : State) (event : Event) : State :=
  (machine.step state event).1

/-- The answer to one event. -/
def emits (state : State) (event : Event) : Output :=
  (machine.step state event).2

/-- The state after a list of events. -/
def runFrom (state : State) (events : List Event) : State :=
  events.foldl machine.next state

/-- The answers to a list of events, in order. -/
def outputsFrom : State → List Event → List Output
  | _, [] => []
  | state, event :: events =>
      machine.emits state event :: outputsFrom (machine.next state event) events

/-- The state before the event at `index` of a run from the initial state. -/
def stateAt (events : List Event) (index : Nat) : State :=
  machine.runFrom machine.init (events.take index)

/-- What `observe` sees at each event of a run, skipping the events at which
it sees nothing. -/
def collectFrom {Seen : Type*} (observe : State → Event → Option Seen) :
    State → List Event → List Seen
  | _, [] => []
  | state, event :: events =>
      (observe state event).toList ++
        collectFrom observe (machine.next state event) events

/-- The last thing `observe` sees in some events. -/
def lastSeen {Seen : Type*} (observe : Event → Option Seen)
    (past : List Event) : Option Seen :=
  (past.filterMap observe).getLast?

section LastSeen

variable {Seen : Type*} (observe : Event → Option Seen)

@[simp]
theorem lastSeen_nil : lastSeen observe [] = none :=
  rfl

theorem lastSeen_append (past : List Event) (event : Event) :
    lastSeen observe (past ++ [event]) =
      (observe event).or (lastSeen observe past) := by
  cases seen : observe event <;> simp [lastSeen, seen]

theorem exists_of_lastSeen {past : List Event} {seen : Seen}
    (last : lastSeen observe past = some seen) :
    ∃ event ∈ past, observe event = some seen :=
  List.mem_filterMap.mp (List.mem_of_getLast? last)

end LastSeen

section Runs

variable (state : State) (event : Event) (events more : List Event)

@[simp]
theorem runFrom_nil : machine.runFrom state [] = state :=
  rfl

@[simp]
theorem runFrom_cons :
    machine.runFrom state (event :: events) =
      machine.runFrom (machine.next state event) events :=
  rfl

theorem runFrom_append :
    machine.runFrom state (events ++ more) =
      machine.runFrom (machine.runFrom state events) more :=
  List.foldl_append

@[simp]
theorem outputsFrom_nil : machine.outputsFrom state [] = [] :=
  rfl

@[simp]
theorem outputsFrom_cons :
    machine.outputsFrom state (event :: events) =
      machine.emits state event ::
        machine.outputsFrom (machine.next state event) events :=
  rfl

theorem outputsFrom_append :
    machine.outputsFrom state (events ++ more) =
      machine.outputsFrom state events ++
        machine.outputsFrom (machine.runFrom state events) more := by
  induction events generalizing state with
  | nil => rfl
  | cons event events ih => simp [ih]

variable {Seen : Type*} (observe : State → Event → Option Seen)

@[simp]
theorem collectFrom_nil : machine.collectFrom observe state [] = [] :=
  rfl

@[simp]
theorem collectFrom_cons :
    machine.collectFrom observe state (event :: events) =
      (observe state event).toList ++
        machine.collectFrom observe (machine.next state event) events :=
  rfl

theorem collectFrom_append :
    machine.collectFrom observe state (events ++ more) =
      machine.collectFrom observe state events ++
        machine.collectFrom observe (machine.runFrom state events) more := by
  induction events generalizing state with
  | nil => rfl
  | cons event events ih => simp [ih]

end Runs

/-- A property of the events read so far, the state and the answers that every
further event keeps holds of every run. -/
theorem run_induction (Follows : List Event → State → List Output → Prop)
    (atInit : Follows [] machine.init [])
    (kept : ∀ past state answers event, Follows past state answers →
      Follows (past ++ [event]) (machine.next state event)
        (answers ++ [machine.emits state event]))
    (events : List Event) :
    Follows events (machine.runFrom machine.init events)
      (machine.outputsFrom machine.init events) := by
  induction events using List.reverseRecOn with
  | nil => exact atInit
  | append_singleton past event ih =>
      rw [runFrom_append, outputsFrom_append]
      exact kept past _ _ event ih

/-- What every step promises about its answer and the answers before it, from the
states that an invariant describes, holds of every answer of a run. -/
theorem outputs_promised (Invariant : List Output → State → Prop)
    (Promised : List Output → Output → Prop) (atInit : Invariant [] machine.init)
    (kept : ∀ answers state event, Invariant answers state →
      Promised answers (machine.emits state event) ∧
        Invariant (answers ++ [machine.emits state event]) (machine.next state event))
    (events : List Event) {index : Nat} {answer : Output}
    (answers : (machine.outputsFrom machine.init events)[index]? = some answer) :
    Promised ((machine.outputsFrom machine.init events).take index) answer := by
  have follows := machine.run_induction
    (fun _ state answers => Invariant answers state ∧ ∀ index answer,
      answers[index]? = some answer → Promised (answers.take index) answer)
    ⟨atInit, fun index answer none => by simp at none⟩ ?_ events
  · exact follows.2 index answer answers
  · rintro past state answers event ⟨invariant, before⟩
    obtain ⟨promised, invariant⟩ := kept answers state event invariant
    refine ⟨invariant, fun index answer found => ?_⟩
    rcases Nat.lt_or_ge index answers.length with earlier | later
    · rw [List.getElem?_append_left earlier] at found
      rw [List.take_append_of_le_length (Nat.le_of_lt earlier)]
      exact before index answer found
    · rw [List.getElem?_append_right later, List.getElem?_singleton] at found
      obtain ⟨last, found⟩ := Option.ite_none_right_eq_some.mp found
      obtain rfl := Option.some.inj found
      have atEnd : index = answers.length := by omega
      rw [atEnd, List.take_left]
      exact promised

section Positions

variable {machine} {events : List Event}

@[simp]
theorem stateAt_zero : machine.stateAt events 0 = machine.init :=
  rfl

theorem stateAt_succ {index : Nat} (inRun : index < events.length) :
    machine.stateAt events (index + 1) =
      machine.next (machine.stateAt events index) events[index] := by
  rw [stateAt, List.take_succ_eq_append_getElem inRun, runFrom_append]
  rfl

theorem stateAt_length :
    machine.stateAt events events.length =
      machine.runFrom machine.init events := by
  rw [stateAt, List.take_length]

theorem stateAt_append_add (before more : List Event) (count : Nat) :
    machine.stateAt (before ++ more) (before.length + count) =
      machine.runFrom (machine.runFrom machine.init before)
        (more.take count) := by
  rw [stateAt, List.take_length_add_append, runFrom_append]

/-- A property of positions that holds at `start` and follows every later step
holds at every position from `start` on. -/
theorem stateAt_induction (Follows : Nat → State → Prop) {start : Nat}
    (atStart : Follows start (machine.stateAt events start))
    (kept : ∀ index (inRun : index < events.length), start ≤ index →
      Follows index (machine.stateAt events index) →
        Follows (index + 1)
          (machine.next (machine.stateAt events index) events[index]))
    {index : Nat} (afterStart : start ≤ index) (inRun : index ≤ events.length) :
    Follows index (machine.stateAt events index) := by
  induction afterStart with
  | refl => exact atStart
  | @step index afterStart ih =>
      rw [stateAt_succ inRun]
      exact kept index inRun afterStart (ih (by omega))

/-- An invariant kept by every admissible event holds at every position. -/
theorem stateAt_invariant (Invariant : State → Prop) (Admissible : Event → Prop)
    (atInit : Invariant machine.init)
    (kept : ∀ state event, Admissible event → Invariant state →
      Invariant (machine.next state event))
    (admissible : ∀ event ∈ events, Admissible event)
    {index : Nat} (inRun : index ≤ events.length) :
    Invariant (machine.stateAt events index) := by
  have atStart : Invariant (machine.stateAt events 0) := atInit
  refine stateAt_induction (fun _ => Invariant) atStart ?_ (Nat.zero_le index)
    inRun
  intro index inRun _ invariant
  exact kept _ _ (admissible _ (List.getElem_mem inRun)) invariant

end Positions

section Schedules

/-- The state after the first `count` events of an endless run. -/
def stateAlong (events : Nat → Event) : Nat → State
  | 0 => machine.init
  | count + 1 => machine.next (stateAlong events count) (events count)

variable {machine}

theorem stateAlong_eq_runFrom (events : Nat → Event) (count : Nat) :
    machine.stateAlong events count =
      machine.runFrom machine.init ((List.range count).map events) := by
  induction count with
  | zero => rfl
  | succ count ih =>
      rw [stateAlong, ih, List.range_succ, List.map_append, runFrom_append]
      rfl

/-- Progress under fairness.  Every event leaves the state as it is or lowers
its rank, and as long as the goal is not reached there is a kind of events that
lower it.  If events of every kind come again and again, the goal is reached. -/
theorem eventually_of_fair {Kind : Type*} (kind : Event → Kind)
    (Ranked : State → Nat → Prop) (Goal : State → Prop) {start : Nat}
    (atInit : Ranked machine.init start)
    (kept : ∀ state rank event, Ranked state rank →
      machine.next state event = state ∨
        ∃ lower < rank, Ranked (machine.next state event) lower)
    (progress : ∀ state rank, Ranked state rank → Goal state ∨
      ∃ next, ∀ event, kind event = next →
        ∃ lower < rank, Ranked (machine.next state event) lower)
    {events : Nat → Event}
    (fair : ∀ next count, ∃ later, count ≤ later ∧ kind (events later) = next) :
    ∃ count, Goal (machine.stateAlong events count) := by
  have fromRank : ∀ rank count, Ranked (machine.stateAlong events count) rank →
      ∃ later, Goal (machine.stateAlong events later) := by
    intro rank
    induction rank using Nat.strongRecOn with
    | ind rank ih =>
        intro count ranked
        rcases progress _ _ ranked with reached | ⟨next, lowers⟩
        · exact ⟨count, reached⟩
        · obtain ⟨later, afterCount, isNext⟩ := fair next count
          -- Until then the state stays as it is, or its rank gets lower.
          have waits : machine.stateAlong events later =
              machine.stateAlong events count ∨
                ∃ earlier, ∃ lower < rank,
                  Ranked (machine.stateAlong events earlier) lower := by
            clear isNext
            induction afterCount with
            | refl => exact .inl rfl
            | @step later _ waits =>
                rcases waits with same | lowered
                · rcases kept _ _ (events later) (same ▸ ranked) with idle | lowered
                  · exact .inl (idle.trans same)
                  · exact .inr ⟨later + 1, lowered⟩
                · exact .inr lowered
          rcases waits with same | ⟨earlier, lower, isLower, lowered⟩
          · obtain ⟨lower, isLower, lowered⟩ := lowers (events later) isNext
            rw [← same] at lowered
            exact ih lower isLower (later + 1) lowered
          · exact ih lower isLower earlier lowered
  exact fromRank start 0 atInit

end Schedules

/-- States related by a simulation that is indexed by the events still to come
give the same answers to them. -/
theorem outputsFrom_eq_of_simulation
    (Related : State → State → List Event → Prop)
    (kept : ∀ left right event events, Related left right (event :: events) →
      machine.emits left event = machine.emits right event ∧
        Related (machine.next left event) (machine.next right event) events)
    {left right : State} {events : List Event}
    (related : Related left right events) :
    machine.outputsFrom left events = machine.outputsFrom right events := by
  induction events generalizing left right with
  | nil => rfl
  | cons event events ih =>
      obtain ⟨sameAnswer, stillRelated⟩ := kept left right event events related
      simp [sameAnswer, ih stillRelated]

end EventMachine
