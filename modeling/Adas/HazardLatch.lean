import Adas.EventMachine
import Adas.SafetyJudge

/-!
# The hazard latch

The latch remembers one stop event.  A `stop` judgement opens an event and is
held for a fixed time whatever the camera sees; then the latched class is
ignored until it has been absent for long enough, after which the same class
can open an event again.  This file models `HazardLatch::update` and says once
what one update can do.
-/

namespace Adas.Safety

namespace HazardLatch

/-- The times and counts of the latch.  `releaseMs = 0` means no time bound. -/
structure Config where
  holdMs : Nat := 3000
  releaseFrames : Nat := 10
  releaseMs : Nat := 0
  deriving DecidableEq, Repr

inductive Phase where
  | idle
  | holding
  | released
  deriving DecidableEq, Repr

end HazardLatch

open HazardLatch (Config Phase)

structure HazardLatch where
  phase : Phase := .idle
  latchedClass : Int := -1
  holdUntilMs : Nat := 0
  absentFrames : Nat := 0
  absentSinceMs : Nat := 0
  lastState : State := .clear
  deriving DecidableEq, Repr

/-- One call of `update`: the detections of a frame and the clock. -/
structure Frame (F : Type) where
  items : List (DetectionRecord F)
  nowMs : Nat

namespace HazardLatch

variable {F : Type} [FloatOps F]

def reset : HazardLatch :=
  {}

/-- The hold is still running: `update` answers `stop` without looking. -/
def holdRuns (latch : HazardLatch) (nowMs : Nat) : Bool :=
  latch.phase = .holding ∧ nowMs < latch.holdUntilMs

/-- Step 1 of `update`: a hold whose time is up turns into a release watch. -/
def endHold (latch : HazardLatch) (nowMs : Nat) : HazardLatch :=
  if latch.phase = .holding then
    { latch with phase := .released, absentFrames := 0, absentSinceMs := nowMs }
  else
    latch

/-- The release condition once the absent frame has been counted: enough
frames and, unless the bound is zero, enough time. -/
def releaseDue (config : Config) (latch : HazardLatch) (nowMs : Nat) : Bool :=
  config.releaseFrames ≤ latch.absentFrames ∧
    (config.releaseMs = 0 ∨
      (latch.absentSinceMs ≤ nowMs ∧
        config.releaseMs ≤ nowMs - latch.absentSinceMs))

/-- Step 2 of `update`: count the frames without the latched class and go back
to `idle` when the release condition is met. -/
def watchRelease (config : Config) (judgeConfig : JudgeConfig F)
    (latch : HazardLatch) (frame : Frame F) : HazardLatch :=
  if latch.phase = .released then
    if classPresent frame.items latch.latchedClass judgeConfig then
      { latch with absentFrames := 0, absentSinceMs := frame.nowMs }
    else
      -- `absent_frames_` is a `uint32_t`.
      let counted := { latch with absentFrames := (latch.absentFrames + 1) % 2 ^ 32 }
      if releaseDue config counted frame.nowMs then
        { counted with phase := .idle, latchedClass := -1 }
      else
        counted
  else
    latch

/-- The class steps 3 and 4 leave out of the judgement. -/
def excludedClass (latch : HazardLatch) : Int :=
  if latch.phase = .released then latch.latchedClass else -1

/-- Steps 3 and 4 of `update`: judge what is not excluded; `stop` opens a new
event, anything else is answered as it is. -/
def judgeFrame (config : Config) (judgeConfig : JudgeConfig F)
    (latch : HazardLatch) (frame : Frame F) : HazardLatch × State :=
  let worst := judgeWorst frame.items judgeConfig latch.excludedClass
  if worst.1 = .stop then
    ({ latch with
        phase := .holding
        latchedClass := worst.2
        holdUntilMs := (frame.nowMs + config.holdMs) % 2 ^ 64
        lastState := .stop }, .stop)
  else
    ({ latch with lastState := worst.1 }, worst.1)

/-- The latch as steps 3 and 4 see it. -/
def settle (config : Config) (judgeConfig : JudgeConfig F)
    (latch : HazardLatch) (frame : Frame F) : HazardLatch :=
  watchRelease config judgeConfig (latch.endHold frame.nowMs) frame

/-- `HazardLatch::update`. -/
def update (config : Config) (judgeConfig : JudgeConfig F)
    (latch : HazardLatch) (frame : Frame F) : HazardLatch × State :=
  if latch.holdRuns frame.nowMs then
    ({ latch with lastState := .stop }, .stop)
  else
    judgeFrame config judgeConfig (settle config judgeConfig latch frame) frame

/-- The latch as a machine that reads frames. -/
def machine (config : Config) (judgeConfig : JudgeConfig F) :
    EventMachine HazardLatch (Frame F) State where
  init := {}
  step := update config judgeConfig

/-- The update opens an event: it judged the frame and entered `holding`. -/
def StartsEvent (config : Config) (judgeConfig : JudgeConfig F)
    (latch : HazardLatch) (frame : Frame F) : Prop :=
  latch.holdRuns frame.nowMs = false ∧
    (update config judgeConfig latch frame).1.phase = .holding

variable {config : Config} {judgeConfig : JudgeConfig F}
variable {latch : HazardLatch} {frame : Frame F}

theorem holdRuns_iff {nowMs : Nat} :
    latch.holdRuns nowMs = true ↔
      latch.phase = .holding ∧ nowMs < latch.holdUntilMs := by
  simp [holdRuns]

theorem update_of_holdRuns (runs : latch.holdRuns frame.nowMs = true) :
    update config judgeConfig latch frame =
      ({ latch with lastState := .stop }, .stop) := by
  simp [update, runs]

theorem update_of_not_holdRuns (ended : latch.holdRuns frame.nowMs = false) :
    update config judgeConfig latch frame =
      judgeFrame config judgeConfig (settle config judgeConfig latch frame)
        frame := by
  simp [update, ended]

section Settling

theorem endHold_phase_ne_holding (nowMs : Nat) :
    (latch.endHold nowMs).phase ≠ .holding := by
  unfold endHold
  split_ifs with holding
  · simp
  · exact holding

@[simp]
theorem endHold_latchedClass (nowMs : Nat) :
    (latch.endHold nowMs).latchedClass = latch.latchedClass := by
  unfold endHold
  split_ifs <;> rfl

theorem endHold_of_not_holding {nowMs : Nat} (notHolding : latch.phase ≠ .holding) :
    latch.endHold nowMs = latch := by
  simp [endHold, notHolding]

theorem settle_of_idle (idle : latch.phase = .idle) :
    settle config judgeConfig latch frame = latch := by
  simp [settle, endHold, watchRelease, idle]

variable (config judgeConfig frame) in
/-- What steps 1 and 2 do to a latch with an event to forget: they see the
latched class again, count one more absent frame, or release. -/
theorem settle_cases (notIdle : latch.phase ≠ .idle) :
    (classPresent frame.items latch.latchedClass judgeConfig = true ∧
      settle config judgeConfig latch frame =
        { latch with
          phase := .released, absentFrames := 0, absentSinceMs := frame.nowMs }) ∨
    (classPresent frame.items latch.latchedClass judgeConfig = false ∧
      ∃ counted : HazardLatch,
        counted = { latch.endHold frame.nowMs with
          absentFrames := ((latch.endHold frame.nowMs).absentFrames + 1) % 2 ^ 32 } ∧
        ((releaseDue config counted frame.nowMs = true ∧
            settle config judgeConfig latch frame =
              { counted with phase := .idle, latchedClass := -1 }) ∨
          (releaseDue config counted frame.nowMs = false ∧
            settle config judgeConfig latch frame = counted))) := by
  have released : (latch.endHold frame.nowMs).phase = .released := by
    cases phase : latch.phase <;> simp_all [endHold]
  cases present : classPresent frame.items latch.latchedClass judgeConfig with
  | true =>
      left
      refine ⟨rfl, ?_⟩
      simp only [settle, watchRelease, released, endHold_latchedClass, present,
        if_true]
      cases phase : latch.phase <;> simp_all [endHold]
  | false =>
      right
      refine ⟨rfl, _, rfl, ?_⟩
      simp only [settle, watchRelease, released, endHold_latchedClass, present,
        if_true, Bool.false_eq_true, if_false]
      split_ifs with due
      · exact Or.inl ⟨due, rfl⟩
      · exact Or.inr ⟨by simpa using due, rfl⟩

variable (config judgeConfig latch frame) in
theorem settle_phase_ne_holding :
    (settle config judgeConfig latch frame).phase ≠ .holding := by
  by_cases idle : latch.phase = .idle
  · simp [settle_of_idle idle, idle]
  · rcases settle_cases config judgeConfig frame idle with
      ⟨-, settled⟩ | ⟨-, counted, rfl, ⟨-, settled⟩ | ⟨-, settled⟩⟩
    · simp [settled]
    · simp [settled]
    · rw [settled]
      exact endHold_phase_ne_holding frame.nowMs

/-- A latch that is still released after step 2 is still latched on the class
it had before. -/
theorem settle_latchedClass
    (released : (settle config judgeConfig latch frame).phase = .released) :
    (settle config judgeConfig latch frame).latchedClass = latch.latchedClass := by
  by_cases idle : latch.phase = .idle
  · simp [settle_of_idle idle]
  · rcases settle_cases config judgeConfig frame idle with
      ⟨-, settled⟩ | ⟨-, counted, rfl, ⟨-, settled⟩ | ⟨-, settled⟩⟩
    · simp [settled]
    · simp [settled] at released
    · simp [settled]

end Settling

variable (config judgeConfig latch frame) in
/-- What one update can do.  Either the hold runs and nothing is looked at, or
the settled latch judges the frame: it opens an event, or answers the level of
what it does not exclude. -/
theorem update_cases :
    (latch.holdRuns frame.nowMs = true ∧
      update config judgeConfig latch frame =
        ({ latch with lastState := .stop }, .stop)) ∨
    (latch.holdRuns frame.nowMs = false ∧
      ∃ settled worst, settled = settle config judgeConfig latch frame ∧
        worst = judgeWorst frame.items judgeConfig settled.excludedClass ∧
        ((worst.1 = .stop ∧
            update config judgeConfig latch frame =
              ({ settled with
                  phase := .holding
                  latchedClass := worst.2
                  holdUntilMs := (frame.nowMs + config.holdMs) % 2 ^ 64
                  lastState := .stop }, .stop)) ∨
          (worst.1 ≠ .stop ∧
            update config judgeConfig latch frame =
              ({ settled with lastState := worst.1 }, worst.1)))) := by
  cases runs : latch.holdRuns frame.nowMs with
  | true => exact Or.inl ⟨rfl, update_of_holdRuns runs⟩
  | false =>
      right
      refine ⟨rfl, _, _, rfl, rfl, ?_⟩
      rw [update_of_not_holdRuns runs, judgeFrame]
      split_ifs with stops
      · exact Or.inl ⟨stops, rfl⟩
      · exact Or.inr ⟨stops, rfl⟩

/-- An update opens an event exactly when it judges the frame `stop`. -/
theorem startsEvent_iff :
    StartsEvent config judgeConfig latch frame ↔
      latch.holdRuns frame.nowMs = false ∧
        (judgeWorst frame.items judgeConfig
          (settle config judgeConfig latch frame).excludedClass).1 = .stop := by
  rcases update_cases config judgeConfig latch frame with
    ⟨runs, -⟩ | ⟨ended, settled, worst, rfl, rfl, ⟨stops, result⟩ | ⟨quiet, result⟩⟩
  · simp [StartsEvent, runs]
  · simp [StartsEvent, ended, stops, result]
  · have noHold := settle_phase_ne_holding config judgeConfig latch frame
    simp [StartsEvent, quiet, result, noHold]

instance : Decidable (StartsEvent config judgeConfig latch frame) := by
  unfold StartsEvent
  exact inferInstance

/-- An event is latched on the class of a detection of its frame that is
judged `stop`, until `hold_ms` after the frame. -/
theorem update_of_startsEvent
    (starts : StartsEvent config judgeConfig latch frame) :
    ∃ det ∈ frame.items,
      judgeOne det judgeConfig = .stop ∧
      det.classId ≠ (settle config judgeConfig latch frame).excludedClass ∧
      update config judgeConfig latch frame =
        ({ settle config judgeConfig latch frame with
            phase := .holding
            latchedClass := det.classId
            holdUntilMs := (frame.nowMs + config.holdMs) % 2 ^ 64
            lastState := .stop }, .stop) := by
  obtain ⟨ended, stops⟩ := startsEvent_iff.mp starts
  obtain ⟨det, found, named⟩ := judgeWorst_stop stops
  have passes := List.find?_some found
  simp only [Bool.and_eq_true, bne_iff_ne, beq_iff_eq] at passes
  refine ⟨det, List.mem_of_find?_eq_some found, passes.2, passes.1, ?_⟩
  rw [update_of_not_holdRuns ended, judgeFrame]
  simp [stops, named]

/-- An update that judges the frame without opening an event only settles. -/
theorem update_of_quiet (ended : latch.holdRuns frame.nowMs = false)
    (quiet : ¬ StartsEvent config judgeConfig latch frame) :
    update config judgeConfig latch frame =
      ({ settle config judgeConfig latch frame with
          lastState := (judgeWorst frame.items judgeConfig
            (settle config judgeConfig latch frame).excludedClass).1 },
        (judgeWorst frame.items judgeConfig
          (settle config judgeConfig latch frame).excludedClass).1) := by
  have notStop := fun stops => quiet (startsEvent_iff.mpr ⟨ended, stops⟩)
  rw [update_of_not_holdRuns ended, judgeFrame, if_neg notStop]

end HazardLatch

end Adas.Safety
