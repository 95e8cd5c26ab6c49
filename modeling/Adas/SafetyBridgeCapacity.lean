import Adas.SafetyBridgeFrames

/-!
# What the capacity of the buffer changes

The buffer holds the first detections of a frame, and the source takes it that
more of them cannot change the most dangerous one.  They can: a frame of
harmless detections can fill the buffer before a person comes.  This file
compares a flush with the same flush on everything that passed the checks, and
says exactly when the two agree.
-/

namespace Adas.Control.SafetyBridge

open Safety
open BoundedCollect
open FirstMaximum

variable {F : Type} [FloatOps F]

section Statement

variable (settings : Settings F) (handle : Handle F)
variable (observations : List (RoiBbox F × RoiResult)) (nowMs : Nat)

/-- Every detection of a frame, as a buffer of any length would hold them. -/
def allItems : List (DetectionRecord F) :=
  handle.pending.items ++
    (observeAll settings observations).filterMap Observed.record

/-- The background flag if every candidate of a frame were looked at. -/
def anyBackgroundSlow : Bool :=
  handle.pendingBackgroundSlow ||
    (observeAll settings observations).any Observed.dangerous

/-- The detections of a frame that the buffer holds. -/
def storedItems : List (DetectionRecord F) :=
  handle.pending.items ++
    ((observeAll settings observations).filterMap Observed.record).take
      handle.pending.room

/-- The detections of a frame that find the buffer full. -/
def lostItems : List (DetectionRecord F) :=
  ((observeAll settings observations).filterMap Observed.record).drop
    handle.pending.room

/-- A dangerous background candidate comes before the buffer is full. -/
def backgroundInTime : Bool :=
  handle.pendingBackgroundSlow ||
    (admitted Observed.record handle.pending.room
      (observeAll settings observations)).any Observed.dangerous

/-- A dangerous background candidate comes after the buffer is full. -/
def backgroundTooLate : Bool :=
  (cutOff Observed.record handle.pending.room
    (observeAll settings observations)).any Observed.dangerous

/-- A flush after some observations has the same effect as if every observation
that passes the checks had been kept. -/
structure CapacityChangesNothing : Prop where
  state : (flushFrame settings (addObservations settings handle observations)
      nowMs).2 =
    flushedState settings handle.latch handle.signSlowUntilMs
      (allItems settings handle observations)
      (anyBackgroundSlow settings handle observations) nowMs
  signHold : (flushFrame settings (addObservations settings handle observations)
      nowMs).1.signSlowUntilMs =
    signDeadline settings handle.signSlowUntilMs
      (allItems settings handle observations) nowMs
  background :
    (addObservations settings handle observations).pendingBackgroundSlow =
      anyBackgroundSlow settings handle observations

/-- What comes after the buffer is full has its like among what came before,
or is covered by the hold of the latch, the background flag or a held sign. -/
structure CutOffIsHarmless : Prop where
  background : backgroundTooLate settings handle observations = true →
    backgroundInTime settings handle observations = true
  sign : signSeen settings.judgeConfig
      (lostItems settings handle observations) = true →
    signSeen settings.judgeConfig
        (storedItems settings handle observations) = true ∨
      (nowMs + settings.signHoldMs) % 2 ^ 64 = handle.signSlowUntilMs
  level : handle.latch.holdRuns nowMs = false →
    ∀ det ∈ lostItems settings handle observations,
      det.classId ≠ watchedClass handle.latch →
        judgeOne det settings.judgeConfig = .clear ∨
        (∃ other ∈ storedItems settings handle observations,
          other.classId ≠ watchedClass handle.latch ∧
            judgeOne det settings.judgeConfig ≤
              judgeOne other settings.judgeConfig) ∨
        (judgeOne det settings.judgeConfig = .slow ∧
          (backgroundInTime settings handle observations = true ∨
            nowMs < signDeadline settings handle.signSlowUntilMs
              (storedItems settings handle observations) nowMs))

end Statement

variable {settings : Settings F} {handle : Handle F}
variable {observations : List (RoiBbox F × RoiResult)} {nowMs : Nat}

theorem allItems_eq_append :
    allItems settings handle observations =
      storedItems settings handle observations ++
        lostItems settings handle observations := by
  rw [allItems, storedItems, lostItems, List.append_assoc, List.take_append_drop]

theorem anyBackgroundSlow_eq_or :
    anyBackgroundSlow settings handle observations =
      (backgroundInTime settings handle observations ||
        backgroundTooLate settings handle observations) := by
  rw [anyBackgroundSlow, backgroundInTime, backgroundTooLate, Bool.or_assoc,
    ← List.any_append, admitted_append_cutOff]

theorem signSeen_append (items more : List (DetectionRecord F)) :
    signSeen settings.judgeConfig (items ++ more) =
      (signSeen settings.judgeConfig items ||
        signSeen settings.judgeConfig more) :=
  List.any_append

/-- A longer buffer has the same deadline unless only its end has a sign. -/
theorem signDeadline_append_eq_iff {untilMs : Nat}
    {items more : List (DetectionRecord F)} :
    signDeadline settings untilMs items nowMs =
        signDeadline settings untilMs (items ++ more) nowMs ↔
      (signSeen settings.judgeConfig more = true →
        signSeen settings.judgeConfig items = true ∨
          (nowMs + settings.signHoldMs) % 2 ^ 64 = untilMs) := by
  rw [signDeadline, signDeadline, signSeen_append]
  cases signSeen settings.judgeConfig items <;>
    cases signSeen settings.judgeConfig more <;> simp [eq_comm]

/-- What more detections add to the latch's answer. -/
theorem answer_append {latch : HazardLatch}
    (items more : List (DetectionRecord F))
    (ended : latch.holdRuns nowMs = false) :
    (updated settings latch (items ++ more) nowMs).2 =
      max (updated settings latch items nowMs).2
        (highestLevel settings.judgeConfig
          (keptItems (watchedClass latch) more)) := by
  simp only [answer_eq_highestLevel, ended, keptItems, List.filter_append]
  exact highest_append

/-- With the same flag and the same deadline, a longer frame publishes the same
exactly when what it adds is covered. -/
theorem flushedState_append_eq_iff {latch : HazardLatch} {untilMs : Nat}
    {items more : List (DetectionRecord F)} {backgroundSlow : Bool}
    (sameDeadline : signDeadline settings untilMs items nowMs =
      signDeadline settings untilMs (items ++ more) nowMs) :
    flushedState settings latch untilMs items backgroundSlow nowMs =
        flushedState settings latch untilMs (items ++ more) backgroundSlow nowMs ↔
      (latch.holdRuns nowMs = false → ∀ det ∈ more,
        det.classId ≠ watchedClass latch →
          judgeOne det settings.judgeConfig ≤
            flushedState settings latch untilMs items backgroundSlow nowMs) := by
  cases ended : latch.holdRuns nowMs with
  | true =>
      simp [flushedState_eq_max, answer_eq_highestLevel, ended, sameDeadline]
  | false =>
      have added : flushedState settings latch untilMs (items ++ more)
            backgroundSlow nowMs =
          max (flushedState settings latch untilMs items backgroundSlow nowMs)
            (highestLevel settings.judgeConfig
              (keptItems (watchedClass latch) more)) := by
        rw [flushedState_eq_max, flushedState_eq_max, answer_append _ _ ended,
          ← sameDeadline]
        simp only [max_assoc, max_comm, max_left_comm]
      rw [added, left_eq_sup, highestLevel, highest_le_iff]
      simp only [keptItems, List.mem_filter, bne_iff_ne, and_imp, forall_const]

section Flushed

variable (settings : Settings F) (handle : Handle F)
variable (observations : List (RoiBbox F × RoiResult)) (nowMs : Nat)

/-- A flush publishes what the detections in the buffer come to. -/
theorem flushFrame_stored :
    (flushFrame settings (addObservations settings handle observations) nowMs).2 =
      flushedState settings handle.latch handle.signSlowUntilMs
        (storedItems settings handle observations)
        (backgroundInTime settings handle observations) nowMs := by
  have collected := collected_addObservations settings handle observations
  rw [storedItems, backgroundInTime, ← collected.items,
    ← collected.backgroundSlow, ← collected.latch, ← collected.signSlowUntilMs]
  rfl

/-- A flush holds the signs in the buffer. -/
theorem signSlowUntilMs_flushFrame_stored :
    (flushFrame settings (addObservations settings handle observations)
        nowMs).1.signSlowUntilMs =
      signDeadline settings handle.signSlowUntilMs
        (storedItems settings handle observations) nowMs := by
  have collected := collected_addObservations settings handle observations
  rw [storedItems, ← collected.items, ← collected.signSlowUntilMs]
  rfl

theorem pendingBackgroundSlow_addObservations :
    (addObservations settings handle observations).pendingBackgroundSlow =
      backgroundInTime settings handle observations :=
  (collected_addObservations settings handle observations).backgroundSlow

/-- The flag is the same as without the capacity unless all candidates come too
late. -/
theorem backgroundInTime_eq_iff :
    backgroundInTime settings handle observations =
        anyBackgroundSlow settings handle observations ↔
      (backgroundTooLate settings handle observations = true →
        backgroundInTime settings handle observations = true) := by
  rw [anyBackgroundSlow_eq_or]
  cases backgroundInTime settings handle observations <;>
    cases backgroundTooLate settings handle observations <;> simp

end Flushed

/-- The capacity of the buffer changes nothing exactly when what is cut off is
harmless. -/
theorem capacity_changes_nothing_iff (settings : Settings F) (handle : Handle F)
    (observations : List (RoiBbox F × RoiResult)) (nowMs : Nat) :
    CapacityChangesNothing settings handle observations nowMs ↔
      CutOffIsHarmless settings handle observations nowMs := by
  constructor
  · rintro ⟨state, signHold, background⟩
    rw [signSlowUntilMs_flushFrame_stored, allItems_eq_append] at signHold
    rw [pendingBackgroundSlow_addObservations] at background
    rw [flushFrame_stored, allItems_eq_append, ← background,
      flushedState_append_eq_iff signHold] at state
    refine ⟨(backgroundInTime_eq_iff settings handle observations).mp background,
      signDeadline_append_eq_iff.mp signHold, fun ended det mem notWatched => ?_⟩
    exact (le_flushedState_iff ended).mp (state ended det mem notWatched)
  · rintro ⟨background, sign, level⟩
    have sameFlag :=
      (backgroundInTime_eq_iff settings handle observations).mpr background
    have sameDeadline := signDeadline_append_eq_iff.mpr sign
    refine ⟨?_, ?_, ?_⟩
    · rw [flushFrame_stored, allItems_eq_append, ← sameFlag,
        flushedState_append_eq_iff sameDeadline]
      intro ended det mem notWatched
      exact (le_flushedState_iff ended).mpr (level ended det mem notWatched)
    · rw [signSlowUntilMs_flushFrame_stored, allItems_eq_append]
      exact sameDeadline
    · rw [pendingBackgroundSlow_addObservations]
      exact sameFlag

/-- A small car at the top of the frame, which is judged `clear`. -/
def farCar : RoiBbox ℚ × RoiResult :=
  (⟨0, 0, 10, 10, 1 / 2, 640, 360⟩, carResult)

/-- A person close ahead on the path. -/
def nearPerson : RoiBbox ℚ × RoiResult :=
  (carBbox, ⟨roiStatusOk, 2, 900000⟩)

/-- A person who comes after thirty-two far cars is not seen: the flush
publishes `clear`. -/
theorem not_capacityChangesNothing :
    ¬ ∀ (settings : Settings ℚ) (handle : Handle ℚ)
      (observations : List (RoiBbox ℚ × RoiResult)) (nowMs : Nat),
        CapacityChangesNothing settings handle observations nowMs := by
  intro harmless
  have same := (harmless {} {}
    (List.replicate kMaxDetections farCar ++ [nearPerson]) 1000).state
  exact absurd same (by decide +kernel)

end Adas.Control.SafetyBridge
