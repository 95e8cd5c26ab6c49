import Adas.HazardLatch

/-!
# How much of the past a hazard latch remembers

Two latches that went through different histories can still answer every
future frame alike.  `AlikeFrom` says when: they are in the same phase, are
latched on the same class, and their deadlines and counters differ only in
ways that no frame from the given time on can show.  One update keeps the
relation and answers the same.
-/

namespace Adas.Safety.HazardLatch

variable {F : Type} [FloatOps F]

/-- The time bound of the release is met at `nowMs`. -/
def Overdue (config : Config) (latch : HazardLatch) (nowMs : Nat) : Prop :=
  config.releaseMs = 0 ∨ latch.absentSinceMs + config.releaseMs ≤ nowMs

/-- No frame from `nowMs` on can tell the two latches apart. -/
inductive AlikeFrom (config : Config) (nowMs : Nat)
    (first second : HazardLatch) : Prop where
  | idle (firstPhase : first.phase = .idle) (secondPhase : second.phase = .idle)
  | holding (firstPhase : first.phase = .holding)
      (secondPhase : second.phase = .holding)
      (sameClass : first.latchedClass = second.latchedClass)
      (sameDeadline :
        max first.holdUntilMs nowMs = max second.holdUntilMs nowMs)
  | waiting (firstPhase : first.phase = .released)
      (secondPhase : second.phase = .released)
      (sameClass : first.latchedClass = second.latchedClass)
      (sameSince : first.absentSinceMs = second.absentSinceMs)
      (sameFrames : first.absentFrames = second.absentFrames)
  | overdue (firstPhase : first.phase = .released)
      (secondPhase : second.phase = .released)
      (sameClass : first.latchedClass = second.latchedClass)
      (firstOverdue : Overdue config first nowMs)
      (secondOverdue : Overdue config second nowMs)
      (sameFrames :
        min config.releaseFrames ((first.absentFrames + 1) % 2 ^ 32) =
          min config.releaseFrames ((second.absentFrames + 1) % 2 ^ 32))

variable {config : Config} {judgeConfig : JudgeConfig F}
variable {first second : HazardLatch} {frame : Frame F} {nowMs : Nat}

theorem releaseDue_iff {latch : HazardLatch} :
    releaseDue config latch nowMs = true ↔
      config.releaseFrames ≤ latch.absentFrames ∧ Overdue config latch nowMs := by
  simp only [releaseDue, Overdue, decide_eq_true_eq]
  omega

theorem AlikeFrom.mono {laterMs : Nat}
    (alike : AlikeFrom config nowMs first second) (later : nowMs ≤ laterMs) :
    AlikeFrom config laterMs first second := by
  cases alike with
  | idle firstPhase secondPhase => exact .idle firstPhase secondPhase
  | holding firstPhase secondPhase sameClass sameDeadline =>
      exact .holding firstPhase secondPhase sameClass (by omega)
  | waiting firstPhase secondPhase sameClass sameSince sameFrames =>
      exact .waiting firstPhase secondPhase sameClass sameSince sameFrames
  | overdue firstPhase secondPhase sameClass firstOverdue secondOverdue
      sameFrames =>
      exact .overdue firstPhase secondPhase sameClass
        (firstOverdue.imp id fun due => by omega)
        (secondOverdue.imp id fun due => by omega) sameFrames

/-- Latches that are alike hold up to the same time. -/
theorem AlikeFrom.holdRuns_eq (alike : AlikeFrom config nowMs first second) :
    first.holdRuns nowMs = second.holdRuns nowMs := by
  cases alike with
  | idle firstPhase secondPhase => simp [holdRuns, firstPhase, secondPhase]
  | holding firstPhase secondPhase _ sameDeadline =>
      simp only [holdRuns, firstPhase, secondPhase, true_and, decide_eq_decide]
      omega
  | waiting firstPhase secondPhase => simp [holdRuns, firstPhase, secondPhase]
  | overdue firstPhase secondPhase => simp [holdRuns, firstPhase, secondPhase]

theorem AlikeFrom.endHold (alike : AlikeFrom config nowMs first second) :
    AlikeFrom config nowMs (first.endHold nowMs) (second.endHold nowMs) := by
  cases alike with
  | idle firstPhase secondPhase =>
      rw [endHold_of_not_holding (by simp [firstPhase]),
        endHold_of_not_holding (by simp [secondPhase])]
      exact .idle firstPhase secondPhase
  | holding firstPhase secondPhase sameClass _ =>
      simp only [HazardLatch.endHold, firstPhase, secondPhase, if_true]
      exact .waiting rfl rfl sameClass rfl rfl
  | waiting firstPhase secondPhase sameClass sameSince sameFrames =>
      rw [endHold_of_not_holding (by simp [firstPhase]),
        endHold_of_not_holding (by simp [secondPhase])]
      exact .waiting firstPhase secondPhase sameClass sameSince sameFrames
  | overdue firstPhase secondPhase sameClass firstOverdue secondOverdue
      sameFrames =>
      rw [endHold_of_not_holding (by simp [firstPhase]),
        endHold_of_not_holding (by simp [secondPhase])]
      exact .overdue firstPhase secondPhase sameClass firstOverdue secondOverdue
        sameFrames

theorem AlikeFrom.watchRelease
    (alike : AlikeFrom config frame.nowMs first second)
    (ended : first.phase ≠ .holding) :
    AlikeFrom config frame.nowMs
      (watchRelease config judgeConfig first frame)
      (watchRelease config judgeConfig second frame) := by
  unfold HazardLatch.watchRelease
  cases alike with
  | idle firstPhase secondPhase =>
      simp only [firstPhase, secondPhase, reduceCtorEq, if_false]
      exact .idle firstPhase secondPhase
  | holding firstPhase => exact absurd firstPhase ended
  | waiting firstPhase secondPhase sameClass sameSince sameFrames =>
      rw [if_pos firstPhase, if_pos secondPhase, sameClass, sameFrames]
      dsimp only
      split_ifs with present firstDue secondDue secondDue
      · exact .waiting firstPhase secondPhase rfl rfl rfl
      · exact .idle rfl rfl
      · refine absurd ?_ secondDue
        rw [releaseDue_iff, Overdue] at firstDue ⊢
        exact sameSince ▸ firstDue
      · refine absurd ?_ firstDue
        rw [releaseDue_iff, Overdue] at secondDue ⊢
        exact sameSince ▸ secondDue
      · exact .waiting firstPhase secondPhase rfl sameSince rfl
  | overdue firstPhase secondPhase sameClass firstOverdue secondOverdue
      sameFrames =>
      rw [if_pos firstPhase, if_pos secondPhase, sameClass]
      -- The time bounds are met, so the counters alone decide.
      have firstTime : config.releaseMs = 0 ∨
          first.absentSinceMs + config.releaseMs ≤ frame.nowMs := firstOverdue
      have secondTime : config.releaseMs = 0 ∨
          second.absentSinceMs + config.releaseMs ≤ frame.nowMs := secondOverdue
      simp only [releaseDue_iff, Overdue, firstTime, secondTime, and_true]
      split_ifs with present firstDue secondDue secondDue
      · exact .waiting firstPhase secondPhase rfl rfl rfl
      · exact .idle rfl rfl
      · omega
      · omega
      · refine .overdue firstPhase secondPhase rfl firstTime secondTime ?_
        have sameCount : (first.absentFrames + 1) % 2 ^ 32 =
            (second.absentFrames + 1) % 2 ^ 32 := by omega
        simp only [sameCount]

theorem AlikeFrom.excludedClass_eq
    (alike : AlikeFrom config nowMs first second) :
    first.excludedClass = second.excludedClass := by
  unfold excludedClass
  cases alike with
  | idle firstPhase secondPhase => simp [firstPhase, secondPhase]
  | holding firstPhase secondPhase => simp [firstPhase, secondPhase]
  | waiting firstPhase secondPhase sameClass =>
      simp [firstPhase, secondPhase, sameClass]
  | overdue firstPhase secondPhase sameClass =>
      simp [firstPhase, secondPhase, sameClass]

/-- The last answer is not looked at again. -/
theorem AlikeFrom.with_lastState {firstState secondState : State}
    (alike : AlikeFrom config nowMs first second) :
    AlikeFrom config nowMs { first with lastState := firstState }
      { second with lastState := secondState } := by
  cases alike with
  | idle firstPhase secondPhase => exact .idle firstPhase secondPhase
  | holding firstPhase secondPhase sameClass sameDeadline =>
      exact .holding firstPhase secondPhase sameClass sameDeadline
  | waiting firstPhase secondPhase sameClass sameSince sameFrames =>
      exact .waiting firstPhase secondPhase sameClass sameSince sameFrames
  | overdue firstPhase secondPhase sameClass firstOverdue secondOverdue
      sameFrames =>
      exact .overdue firstPhase secondPhase sameClass firstOverdue secondOverdue
        sameFrames

variable (judgeConfig frame) in
/-- Latches that are alike answer a frame alike and stay alike. -/
theorem AlikeFrom.update (alike : AlikeFrom config frame.nowMs first second) :
    (update config judgeConfig first frame).2 =
        (update config judgeConfig second frame).2 ∧
      AlikeFrom config frame.nowMs (update config judgeConfig first frame).1
        (update config judgeConfig second frame).1 := by
  cases runs : first.holdRuns frame.nowMs with
  | true =>
      have runsToo := alike.holdRuns_eq ▸ runs
      rw [update_of_holdRuns runs, update_of_holdRuns runsToo]
      exact ⟨rfl, alike.with_lastState⟩
  | false =>
      have overToo := alike.holdRuns_eq ▸ runs
      have settled : AlikeFrom config frame.nowMs
          (settle config judgeConfig first frame)
          (settle config judgeConfig second frame) :=
        alike.endHold.watchRelease (endHold_phase_ne_holding frame.nowMs)
      rw [update_of_not_holdRuns runs, update_of_not_holdRuns overToo, judgeFrame,
        judgeFrame, settled.excludedClass_eq]
      split_ifs
      · exact ⟨rfl, .holding rfl rfl rfl rfl⟩
      · exact ⟨rfl, settled.with_lastState⟩

end Adas.Safety.HazardLatch
