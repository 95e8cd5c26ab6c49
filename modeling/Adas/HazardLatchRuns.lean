import Adas.HazardLatch

/-!
# What the hazard latch guarantees along a run

Three guarantees hold at every update of every run.  An event that has been
opened answers `stop` until its hold is over and is not disturbed by what is
seen meanwhile.  A latched class never hides another one: the answer is never
below the level of the detections of the other classes.  And when the answer
is below the level of the whole frame, the latch is released and only the
latched class was ignored.
-/

namespace Adas.Safety.HazardLatch

variable {F : Type} [FloatOps F]

/-- The latch before the update at `index` of a run. -/
def latchAt (config : Config) (judgeConfig : JudgeConfig F)
    (frames : List (Frame F)) (index : Nat) : HazardLatch :=
  (machine config judgeConfig).stateAt frames index

/-- The answer of the update at `index` of a run. -/
def answerAt (config : Config) (judgeConfig : JudgeConfig F)
    (frames : List (Frame F)) (index : Nat) (inRun : index < frames.length) :
    State :=
  (update config judgeConfig (latchAt config judgeConfig frames index)
    frames[index]).2

/-- The update at `index` opens an event. -/
def EventAt (config : Config) (judgeConfig : JudgeConfig F)
    (frames : List (Frame F)) (index : Nat) : Prop :=
  ∃ inRun : index < frames.length,
    StartsEvent config judgeConfig (latchAt config judgeConfig frames index)
      frames[index]

/-- The detections of a frame that are not of class `classId`. -/
def otherClasses (items : List (DetectionRecord F)) (classId : Int) :
    List (DetectionRecord F) :=
  items.filter fun det => det.classId != classId

variable {config : Config} {judgeConfig : JudgeConfig F}
variable {frames : List (Frame F)}

instance (index : Nat) :
    Decidable (EventAt config judgeConfig frames index) := by
  unfold EventAt
  exact inferInstance

theorem latchAt_succ {index : Nat} (inRun : index < frames.length) :
    latchAt config judgeConfig frames (index + 1) =
      (update config judgeConfig (latchAt config judgeConfig frames index)
        frames[index]).1 :=
  EventMachine.stateAt_succ inRun

/-- From an event on, as long as no update comes after the end of its hold,
the latch keeps the event's class and deadline. -/
theorem hold_persists (ordered : frames.Pairwise fun a b => a.nowMs ≤ b.nowMs)
    {start later : Nat} (inRun : later < frames.length)
    (starts : EventAt config judgeConfig frames start)
    (early : frames[later].nowMs <
      (latchAt config judgeConfig frames (start + 1)).holdUntilMs) :
    ∀ index, start < index → index ≤ later →
      (latchAt config judgeConfig frames index).phase = .holding ∧
      (latchAt config judgeConfig frames index).latchedClass =
        (latchAt config judgeConfig frames (start + 1)).latchedClass ∧
      (latchAt config judgeConfig frames index).holdUntilMs =
        (latchAt config judgeConfig frames (start + 1)).holdUntilMs := by
  intro index afterStart
  induction index, afterStart using Nat.le_induction with
  | base =>
      intro _
      obtain ⟨startInRun, -, holding⟩ := starts
      exact ⟨(congrArg phase (latchAt_succ startInRun)).trans holding, rfl, rfl⟩
  | succ index afterStart ih =>
      intro beforeLater
      obtain ⟨holding, sameClass, sameDeadline⟩ := ih (by omega)
      have indexInRun : index < frames.length := by omega
      have notLate : frames[index].nowMs ≤ frames[later].nowMs :=
        List.pairwise_iff_getElem.mp ordered _ _ _ _ (by omega)
      have runs : (latchAt config judgeConfig frames index).holdRuns
          frames[index].nowMs = true :=
        holdRuns_iff.mpr ⟨holding, by omega⟩
      rw [latchAt_succ indexInRun, update_of_holdRuns runs]
      exact ⟨holding, sameClass, sameDeadline⟩

/-- The deadline of an event is `hold_ms` after its frame. -/
theorem holdUntilMs_of_eventAt {start : Nat} (inRun : start < frames.length)
    (starts : EventAt config judgeConfig frames start)
    (noWrap : frames[start].nowMs + config.holdMs < 2 ^ 64) :
    (latchAt config judgeConfig frames (start + 1)).holdUntilMs =
      frames[start].nowMs + config.holdMs := by
  obtain ⟨det, -, -, -, result⟩ := update_of_startsEvent starts.2
  rw [latchAt_succ inRun, result]
  exact Nat.mod_eq_of_lt noWrap

section OneUpdate

variable {latch : HazardLatch} {frame : Frame F}

variable (config judgeConfig latch frame) in
/-- Only the latched class is ever excluded: from `idle` the exclusion is `-1`,
which no detection has. -/
theorem excludedClass_settle :
    (settle config judgeConfig latch frame).excludedClass = -1 ∨
      (settle config judgeConfig latch frame).excludedClass =
        latch.latchedClass := by
  unfold excludedClass
  split_ifs with released
  · exact Or.inr (settle_latchedClass released)
  · exact Or.inl rfl

theorem judge_otherClasses_le {classId : Int} {bound : State}
    (classIds : ∀ det ∈ frame.items, 0 ≤ det.classId)
    (bounded : ∀ det ∈ frame.items, det.classId ≠ classId →
      judgeOne det judgeConfig ≤ bound) :
    judge (otherClasses frame.items classId) judgeConfig ≤ bound := by
  have stillNonneg : ∀ det ∈ otherClasses frame.items classId,
      0 ≤ det.classId := fun det mem => classIds det (List.mem_filter.mp mem).1
  rw [judge_le_iff stillNonneg]
  intro det mem
  obtain ⟨inFrame, other⟩ := List.mem_filter.mp mem
  exact bounded det inFrame (by simpa using other)

/-- The detections of the classes that are not latched are never suppressed,
whether the latched class is read before or after the update. -/
theorem judge_otherClasses_le_answer
    (classIds : ∀ det ∈ frame.items, 0 ≤ det.classId) :
    judge (otherClasses frame.items latch.latchedClass) judgeConfig ≤
        (update config judgeConfig latch frame).2 ∧
      judge (otherClasses frame.items
          (update config judgeConfig latch frame).1.latchedClass) judgeConfig ≤
        (update config judgeConfig latch frame).2 := by
  cases ended : latch.holdRuns frame.nowMs with
  | true =>
      rw [update_of_holdRuns ended]
      exact ⟨State.le_stop _, State.le_stop _⟩
  | false =>
      by_cases starts : StartsEvent config judgeConfig latch frame
      · obtain ⟨det, -, -, -, result⟩ := update_of_startsEvent starts
        rw [result]
        exact ⟨State.le_stop _, State.le_stop _⟩
      · rw [update_of_quiet ended starts]
        constructor
        · apply judge_otherClasses_le classIds
          intro det mem other
          have nonneg := classIds det mem
          apply judgeOne_le_judgeWorst mem
          rcases excludedClass_settle config judgeConfig latch frame with
            excluded | excluded
          · omega
          · rwa [excluded]
        · apply judge_otherClasses_le classIds
          intro det mem other
          have nonneg := classIds det mem
          apply judgeOne_le_judgeWorst mem
          unfold excludedClass
          split_ifs
          · exact other
          · omega

/-- When an update answers less than the level of its frame it ends released,
and everything above the answer is of the latched class. -/
theorem released_of_answer_lt_judge
    (below : (update config judgeConfig latch frame).2 <
      judge frame.items judgeConfig) :
    (update config judgeConfig latch frame).1.phase = .released ∧
      ∀ det ∈ frame.items,
        (update config judgeConfig latch frame).2 < judgeOne det judgeConfig →
          det.classId =
            (update config judgeConfig latch frame).1.latchedClass := by
  cases ended : latch.holdRuns frame.nowMs with
  | true =>
      rw [update_of_holdRuns ended] at below
      exact absurd below (not_lt.mpr (State.le_stop _))
  | false =>
      by_cases starts : StartsEvent config judgeConfig latch frame
      · obtain ⟨det, -, -, -, result⟩ := update_of_startsEvent starts
        rw [result] at below
        exact absurd below (not_lt.mpr (State.le_stop _))
      · rw [update_of_quiet ended starts] at below ⊢
        by_cases released :
            (settle config judgeConfig latch frame).phase = .released
        · refine ⟨released, fun det mem above => ?_⟩
          by_contra other
          refine absurd above (not_lt.mpr (judgeOne_le_judgeWorst mem ?_))
          simpa [excludedClass, released] using other
        · -- From `idle` nothing is excluded, so the answer is the frame's level.
          simp [excludedClass, released, judge] at below

end OneUpdate

/-- The three guarantees at every update of every run. -/
theorem guarantees_along_runs (config : Config) (judgeConfig : JudgeConfig F)
    (frames : List (Frame F))
    (classIds : ∀ frame ∈ frames, ∀ det ∈ frame.items, 0 ≤ det.classId)
    (ordered : frames.Pairwise fun a b => a.nowMs ≤ b.nowMs)
    (noWrap : ∀ frame ∈ frames, frame.nowMs + config.holdMs < 2 ^ 64) :
    (∀ start later (_ : start < frames.length) (inRun : later < frames.length),
      EventAt config judgeConfig frames start → start < later →
        frames[later].nowMs < frames[start].nowMs + config.holdMs →
          answerAt config judgeConfig frames later inRun = .stop ∧
          (latchAt config judgeConfig frames (later + 1)).holdUntilMs =
            (latchAt config judgeConfig frames (start + 1)).holdUntilMs ∧
          (latchAt config judgeConfig frames (later + 1)).latchedClass =
            (latchAt config judgeConfig frames (start + 1)).latchedClass) ∧
    (∀ index (inRun : index < frames.length),
      judge (otherClasses frames[index].items
          (latchAt config judgeConfig frames index).latchedClass) judgeConfig ≤
        answerAt config judgeConfig frames index inRun ∧
      judge (otherClasses frames[index].items
          (latchAt config judgeConfig frames (index + 1)).latchedClass)
          judgeConfig ≤
        answerAt config judgeConfig frames index inRun) ∧
    (∀ index (inRun : index < frames.length),
      answerAt config judgeConfig frames index inRun <
          judge frames[index].items judgeConfig →
        (latchAt config judgeConfig frames (index + 1)).phase = .released ∧
        ∀ det ∈ frames[index].items,
          answerAt config judgeConfig frames index inRun <
              judgeOne det judgeConfig →
            det.classId =
              (latchAt config judgeConfig frames (index + 1)).latchedClass) := by
  refine ⟨?_, ?_, ?_⟩
  · intro start later startInRun inRun starts follows early
    have deadline := holdUntilMs_of_eventAt startInRun starts
      (noWrap _ (List.getElem_mem startInRun))
    obtain ⟨holding, sameClass, sameDeadline⟩ :=
      hold_persists ordered inRun starts (by omega) later follows le_rfl
    have runs : (latchAt config judgeConfig frames later).holdRuns
        frames[later].nowMs = true :=
      holdRuns_iff.mpr ⟨holding, by omega⟩
    rw [latchAt_succ inRun, answerAt, update_of_holdRuns runs]
    exact ⟨rfl, sameDeadline, sameClass⟩
  · intro index inRun
    rw [latchAt_succ inRun]
    exact judge_otherClasses_le_answer (classIds _ (List.getElem_mem inRun))
  · intro index inRun
    rw [latchAt_succ inRun]
    exact released_of_answer_lt_judge

/-- A car close ahead, then a person beside the car just before the hold of
the car's event is over. -/
def carThenPerson : List (Frame ℚ) :=
  [⟨[⟨1/4, 3/10, 3/4, 9/10, 9/10, 0⟩], 1000⟩,
    ⟨[⟨1/4, 3/10, 3/4, 9/10, 9/10, 0⟩, ⟨1/4, 3/10, 3/4, 9/10, 9/10, 1⟩], 3999⟩]

theorem guarantees_along_runs_carThenPerson :
    answerAt {} {} carThenPerson 1 (by decide) = .stop ∧
      (latchAt {} {} carThenPerson 2).latchedClass = 0 := by
  have starts : EventAt {} {} carThenPerson 0 := ⟨by decide, by decide +kernel⟩
  have held := (guarantees_along_runs {} {} carThenPerson (by decide +kernel)
    (by decide +kernel) (by decide +kernel)).1 0 1 (by decide) (by decide)
      starts (by decide) (by decide +kernel)
  exact ⟨held.1, held.2.2.trans (by decide +kernel)⟩

end Adas.Safety.HazardLatch
