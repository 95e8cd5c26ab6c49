import Adas.BoundedCollect
import Adas.SafetyBridgeHistory
import Adas.SafetyJudgeOrder

/-!
# One frame of the bridge

Between two flushes the bridge looks at its observations until the buffer is
full, and the flush publishes the worst of three levels: the latch's answer,
`slow` for a dangerous background candidate, and `slow` while a sign is held.
The latch's answer in turn is `stop` while its hold runs and the highest level
of what is not of the watched class otherwise.
-/

namespace Adas.Control.SafetyBridge

open Safety
open BoundedCollect
open FirstMaximum (highest_filter_of_bot le_highest_iff)

variable {F : Type} [FloatOps F]

section Collecting

/-- The detection that an observation stores. -/
def Observed.record : Observed F → Option (DetectionRecord F)
  | .detection record => some record
  | _ => none

/-- The observation raises the background flag. -/
def Observed.dangerous : Observed F → Bool
  | .background dangerous => dangerous
  | _ => false

/-- The free places of the buffer. -/
def Pending.room (pending : Pending F) : Nat :=
  kMaxDetections - pending.items.length

/-- Some calls of `ps_safety_add_observation`, one after another. -/
def addObservations (settings : Settings F) (handle : Handle F)
    (observations : List (RoiBbox F × RoiResult)) : Handle F :=
  observations.foldl
    (fun handle observation =>
      addObservation settings handle observation.1 observation.2) handle

/-- What the checks make of some observations. -/
def observeAll (settings : Settings F)
    (observations : List (RoiBbox F × RoiResult)) : List (Observed F) :=
  observations.map fun observation =>
    observe settings observation.1 observation.2

/-- What some observations do to a handle: they fill the buffer as far as it
goes, and those that come before it is full can raise the flag. -/
structure Collected (handle after : Handle F) (seen : List (Observed F)) :
    Prop where
  items : after.pending.items = handle.pending.items ++
    (seen.filterMap Observed.record).take handle.pending.room
  backgroundSlow : after.pendingBackgroundSlow =
    (handle.pendingBackgroundSlow ||
      (admitted Observed.record handle.pending.room seen).any Observed.dangerous)
  latch : after.latch = handle.latch
  signSlowUntilMs : after.signSlowUntilMs = handle.signSlowUntilMs

variable {settings : Settings F} {handle : Handle F}

theorem addObservation_of_full (full : handle.pending.room = 0)
    (bbox : RoiBbox F) (result : RoiResult) :
    addObservation settings handle bbox result = handle := by
  have noRoom : ¬ handle.pending.items.length < kMaxDetections := by
    rw [Pending.room] at full
    omega
  rw [addObservation, dif_neg noRoom]

/-- One observation while the buffer has room. -/
theorem collected_addObservation (settings : Settings F) {free : Nat}
    (room : handle.pending.room = free + 1) (bbox : RoiBbox F)
    (result : RoiResult) :
    Collected handle (addObservation settings handle bbox result)
        [observe settings bbox result] ∧
      (addObservation settings handle bbox result).pending.room =
        if (observe settings bbox result).record.isSome then free
        else free + 1 := by
  have hasRoom : handle.pending.items.length < kMaxDetections := by
    rw [Pending.room] at room
    omega
  rw [addObservation, dif_pos hasRoom]
  cases observe settings bbox result with
  | dropped =>
      refine ⟨⟨?_, ?_, rfl, rfl⟩, room⟩
      · simp [Observed.record]
      · simp [room, admitted, Observed.dangerous]
  | background dangerous =>
      cases dangerous <;> refine ⟨⟨?_, ?_, rfl, rfl⟩, room⟩
      all_goals simp [room, admitted, Observed.record, Observed.dangerous]
  | detection record =>
      refine ⟨⟨?_, ?_, rfl, rfl⟩, ?_⟩
      · simp [room, Observed.record, Pending.push]
      · simp [room, admitted, Observed.dangerous]
      · rw [Pending.room] at room ⊢
        simp only [Pending.push, List.length_append, List.length_singleton,
          Observed.record, Option.isSome_some, if_true]
        omega

theorem collected_addObservations (settings : Settings F) (handle : Handle F)
    (observations : List (RoiBbox F × RoiResult)) :
    Collected handle (addObservations settings handle observations)
      (observeAll settings observations) := by
  induction observations generalizing handle with
  | nil => exact ⟨by simp [addObservations, observeAll],
      by simp [addObservations, observeAll], rfl, rfl⟩
  | cons observation rest ih =>
      obtain ⟨bbox, result⟩ := observation
      have later := ih (addObservation settings handle bbox result)
      change Collected handle
        (addObservations settings (addObservation settings handle bbox result) rest)
        (observe settings bbox result :: observeAll settings rest)
      cases room : handle.pending.room with
      | zero =>
          rw [addObservation_of_full room] at later ⊢
          refine ⟨?_, ?_, later.latch, later.signSlowUntilMs⟩
          · rw [later.items, room]
            simp
          · rw [later.backgroundSlow, room]
            simp
      | succ free =>
          obtain ⟨first, left⟩ :=
            collected_addObservation settings room bbox result
          refine ⟨?_, ?_, later.latch.trans first.latch,
            later.signSlowUntilMs.trans first.signSlowUntilMs⟩
          · rw [later.items, first.items, left, room]
            cases taken : (observe settings bbox result).record <;> simp [taken]
          · rw [later.backgroundSlow, first.backgroundSlow, left, room]
            simp [admitted, Bool.or_assoc]

end Collecting

section Flushing

/-- The class whose absence the latch waits for. -/
def watchedClass (latch : HazardLatch) : Int :=
  if latch.phase = .idle then -1 else latch.latchedClass

/-- `slow` when the condition holds. -/
def slowIf (condition : Prop) [Decidable condition] : State :=
  if condition then .slow else .clear

/-- The deadline of the sign hold after a flush of some detections. -/
def signDeadline (settings : Settings F) (untilMs : Nat)
    (items : List (DetectionRecord F)) (nowMs : Nat) : Nat :=
  if signSeen settings.judgeConfig items then
    (nowMs + settings.signHoldMs) % 2 ^ 64
  else
    untilMs

/-- What `ps_safety_flush_frame` publishes for a buffer of any length. -/
def flushedState (settings : Settings F) (latch : HazardLatch) (untilMs : Nat)
    (items : List (DetectionRecord F)) (backgroundSlow : Bool) (nowMs : Nat) :
    State :=
  let judged :=
    (latch.update latchConfig settings.judgeConfig ⟨items, nowMs⟩).2
  let withBackground :=
    if backgroundSlow ∧ judged = .clear then .slow else judged
  if nowMs < signDeadline settings untilMs items nowMs ∧
      withBackground.code < State.slow.code then .slow
  else withBackground

variable {settings : Settings F} {latch : HazardLatch} {nowMs : Nat}

/-- The classes of the bridge are positive. -/
theorem judgeOne_of_negative {det : DetectionRecord F} (negative : det.classId < 0) :
    judgeOne det settings.judgeConfig = .clear := by
  have notSign : isSignClass det.classId projectClassMap = false := by
    simp [isSignClass, projectClassMap]
    omega
  have notHazard : isHazardClass det.classId projectClassMap = false := by
    simp [isHazardClass, projectClassMap]
    omega
  rw [judgeOne_eq_sizeLevel, eligible, judgeConfig_classes, notSign, notHazard]
  simp

/-- Leaving out a class at level `clear` changes nothing. -/
theorem highestLevel_keptItems {items : List (DetectionRecord F)} {classId : Int}
    (harmless : ∀ det ∈ items, det.classId = classId →
      judgeOne det settings.judgeConfig = .clear) :
    highestLevel settings.judgeConfig (keptItems classId items) =
      highestLevel settings.judgeConfig items := by
  apply highest_filter_of_bot
  intro det mem left
  exact harmless det mem (by simpa using left)

theorem highestLevel_keptItems_minusOne (items : List (DetectionRecord F)) :
    highestLevel settings.judgeConfig (keptItems (-1) items) =
      highestLevel settings.judgeConfig items := by
  apply highestLevel_keptItems
  intro det _ minusOne
  exact judgeOne_of_negative (by omega)

/-- An absent class has no detection above `clear`. -/
theorem judgeOne_of_absent {items : List (DetectionRecord F)} {classId : Int}
    (absent : classPresent items classId settings.judgeConfig = false) :
    ∀ det ∈ items, det.classId = classId →
      judgeOne det settings.judgeConfig = .clear := by
  intro det mem sameClass
  by_contra above
  by_cases target : 0 ≤ classId
  · have present := (classPresent_iff target).mpr ⟨det, mem, sameClass, above⟩
    rw [absent] at present
    exact Bool.false_ne_true present
  · exact above (judgeOne_of_negative (by omega))

/-- The latch's answer to a frame.  Whether the release falls into this frame
makes no difference: then no detection of the class was above `clear`. -/
theorem answer_eq_highestLevel (items : List (DetectionRecord F)) :
    (updated settings latch items nowMs).2 =
      if latch.holdRuns nowMs then .stop
      else highestLevel settings.judgeConfig
        (keptItems (watchedClass latch) items) := by
  cases ended : latch.holdRuns nowMs with
  | true =>
      rw [updated, HazardLatch.update_of_holdRuns ended]
      rfl
  | false =>
      rw [answer_of_over settings items ended, judgeWorst_level]
      by_cases idle : latch.phase = .idle
      · simp [HazardLatch.settle_of_idle idle, HazardLatch.excludedClass,
          watchedClass, idle]
      · rcases HazardLatch.settle_cases latchConfig settings.judgeConfig
            ⟨items, nowMs⟩ idle with
          ⟨-, settled⟩ | ⟨absent, counted, rfl, ⟨-, settled⟩ | ⟨-, settled⟩⟩
        · simp [settled, HazardLatch.excludedClass, watchedClass, idle]
        · have excluded : (HazardLatch.settle latchConfig settings.judgeConfig
              latch ⟨items, nowMs⟩).excludedClass = -1 := by
            simp [settled, HazardLatch.excludedClass]
          rw [excluded, highestLevel_keptItems_minusOne, watchedClass, if_neg idle,
            highestLevel_keptItems (judgeOne_of_absent absent)]
          rfl
        · have released : (latch.endHold nowMs).phase = .released := by
            cases phase : latch.phase <;> simp_all [HazardLatch.endHold]
          simp [settled, HazardLatch.excludedClass, watchedClass, idle, released]

theorem flushedState_eq_max (settings : Settings F) (latch : HazardLatch)
    (untilMs : Nat) (items : List (DetectionRecord F)) (backgroundSlow : Bool)
    (nowMs : Nat) :
    flushedState settings latch untilMs items backgroundSlow nowMs =
      max (max (updated settings latch items nowMs).2
          (slowIf (backgroundSlow = true)))
        (slowIf (nowMs < signDeadline settings untilMs items nowMs)) := by
  rw [flushedState, updated]
  generalize (latch.update latchConfig settings.judgeConfig ⟨items, nowMs⟩).2 =
    answer
  by_cases held : nowMs < signDeadline settings untilMs items nowMs <;>
    cases backgroundSlow <;> cases answer <;> simp [held, slowIf] <;> decide

theorem le_slowIf_iff {condition : Prop} [Decidable condition] {level : State} :
    level ≤ slowIf condition ↔
      level = .clear ∨ (level = .slow ∧ condition) := by
  by_cases holds : condition <;> cases level <;> simp [slowIf, holds] <;> decide

/-- A level is covered by what a flush publishes when some detection of its
frame reaches it, or when it is `slow` and the flag or a held sign is. -/
theorem le_flushedState_iff {latch : HazardLatch} {untilMs : Nat}
    {items : List (DetectionRecord F)} {backgroundSlow : Bool} {level : State}
    (ended : latch.holdRuns nowMs = false) :
    level ≤ flushedState settings latch untilMs items backgroundSlow nowMs ↔
      level = .clear ∨
      (∃ other ∈ items, other.classId ≠ watchedClass latch ∧
        level ≤ judgeOne other settings.judgeConfig) ∨
      (level = .slow ∧ (backgroundSlow = true ∨
        nowMs < signDeadline settings untilMs items nowMs)) := by
  have reached : level ≤ highestLevel settings.judgeConfig
        (keptItems (watchedClass latch) items) ↔
      level = .clear ∨ ∃ other ∈ items, other.classId ≠ watchedClass latch ∧
        level ≤ judgeOne other settings.judgeConfig := by
    simp only [highestLevel, le_highest_iff, keptItems, List.mem_filter,
      bne_iff_ne, and_assoc]
    rfl
  rw [flushedState_eq_max, answer_eq_highestLevel, ended, le_max_iff, le_max_iff,
    if_neg Bool.false_ne_true, reached, le_slowIf_iff, le_slowIf_iff, and_or_left]
  constructor
  · rintro (((clear | other) | clear | flagged) | clear | held)
    · exact Or.inl clear
    · exact Or.inr (Or.inl other)
    · exact Or.inl clear
    · exact Or.inr (Or.inr (Or.inl flagged))
    · exact Or.inl clear
    · exact Or.inr (Or.inr (Or.inr held))
  · rintro (clear | other | flagged | held)
    · exact Or.inr (Or.inl clear)
    · exact Or.inl (Or.inl (Or.inr other))
    · exact Or.inl (Or.inr (Or.inr flagged))
    · exact Or.inr (Or.inr held)

/-- A flush publishes the latch's answer, raised to `slow` by the background
flag and by a held sign. -/
theorem flushFrame_publishes (settings : Settings F) (handle : Handle F)
    (nowMs : Nat) :
    (flushFrame settings handle nowMs).2 =
      max (max (updated settings handle.latch handle.pending.items nowMs).2
          (slowIf (handle.pendingBackgroundSlow = true)))
        (slowIf (nowMs < signDeadline settings handle.signSlowUntilMs
          handle.pending.items nowMs)) :=
  flushedState_eq_max settings handle.latch handle.signSlowUntilMs
    handle.pending.items handle.pendingBackgroundSlow nowMs

end Flushing

end Adas.Control.SafetyBridge
