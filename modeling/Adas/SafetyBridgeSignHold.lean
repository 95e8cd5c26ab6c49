import Adas.SafetyBridgeFrames
import Adas.SafetyBridgeProvenance

/-!
# How long a sign keeps the state at slow

A flush publishes the maximum of three levels: the latch's answer, `slow` for a
dangerous background candidate of its frame, and `slow` while a sign seen since
the last forced stop is within its hold.  The deadline the bridge keeps stands
for all the flushes that saw a sign, because the last of them is the latest.
The flag does not stand for every candidate: one that comes after the buffer is
full is not looked at.
-/

namespace Adas.Control.SafetyBridge

open Safety

variable {F : Type} [FloatOps F]

section Statement

variable (settings : Settings F) (calls : List (Call F))

/-- A flush before `index` saw a sign, its hold covers `nowMs`, and no forced
stop came between. -/
def SignHeld (index nowMs : Nat) : Prop :=
  ∃ flushIndex < index, ∃ flushedMs,
    calls[flushIndex]? = some (.flushFrame flushedMs) ∧
    signSeen settings.judgeConfig
      (handleAt settings calls flushIndex).pending.items = true ∧
    nowMs < flushedMs + settings.signHoldMs ∧
    ∀ between, flushIndex < between → between < index →
      ∀ stoppedMs, calls[between]? ≠ some (.forceStop stoppedMs)

/-- The frame that is being collected at `index` has a dangerous background
candidate. -/
def HasCandidate (index : Nat) : Prop :=
  ∃ obsIndex < index, ∃ obsMs bbox result,
    calls[obsIndex]? = some (.addObservation obsMs bbox result) ∧
    (observe settings bbox result).dangerous = true ∧
    ∀ between, obsIndex < between → between < index →
      ∃ otherMs other answer,
        calls[between]? = some (.addObservation otherMs other answer)

/-- The latch's answer to the flush at `index`. -/
def latchAnswer (index nowMs : Nat) : State :=
  (updated settings (handleAt settings calls index).latch
    (handleAt settings calls index).pending.items nowMs).2

/-- What the flush at `index` publishes. -/
def publishedAt (index nowMs : Nat) : State :=
  (flushFrame settings (handleAt settings calls index) nowMs).2

open Classical in
/-- Every flush publishes the maximum of the latch's answer, `slow` for a
dangerous background candidate of its frame and `slow` for a held sign. -/
def PublishesMaximum : Prop :=
  ∀ index nowMs, calls[index]? = some (.flushFrame nowMs) →
    publishedAt settings calls index nowMs =
      max (max (latchAnswer settings calls index nowMs)
          (slowIf (HasCandidate settings calls index)))
        (slowIf (SignHeld settings calls (index + 1) nowMs))

/-- Every flush whose frame has a dangerous background candidate has the flag
raised, or its state is at least `slow` for another reason: the hold of the
latch, a detection of its buffer or a held sign. -/
def CandidatesCovered : Prop :=
  ∀ index nowMs, calls[index]? = some (.flushFrame nowMs) →
    HasCandidate settings calls index →
      (handleAt settings calls index).pendingBackgroundSlow = true ∨
      (handleAt settings calls index).latch.holdRuns nowMs = true ∨
      (∃ det ∈ (handleAt settings calls index).pending.items,
        det.classId ≠ watchedClass (handleAt settings calls index).latch ∧
          .slow ≤ judgeOne det settings.judgeConfig) ∨
      SignHeld settings calls (index + 1) nowMs

/-- Every dangerous background candidate comes while the buffer has room, or
after one that did. -/
def CandidatesInTime : Prop :=
  ∀ index obsMs bbox result,
    calls[index]? = some (.addObservation obsMs bbox result) →
    (observe settings bbox result).dangerous = true →
      (handleAt settings calls index).pending.items.length < kMaxDetections ∨
        (handleAt settings calls index).pendingBackgroundSlow = true

/-- A held sign keeps every flush at `slow` or above and lowers none, and a
flush after its hold publishes what it would without it. -/
def SignsActInTheirWindow : Prop :=
  ∀ index nowMs, calls[index]? = some (.flushFrame nowMs) →
    (SignHeld settings calls (index + 1) nowMs →
      .slow ≤ publishedAt settings calls index nowMs) ∧
    latchAnswer settings calls index nowMs ≤
      publishedAt settings calls index nowMs ∧
    (¬ SignHeld settings calls (index + 1) nowMs →
      publishedAt settings calls index nowMs =
        max (latchAnswer settings calls index nowMs)
          (slowIf ((handleAt settings calls index).pendingBackgroundSlow =
            true)))

end Statement

section Runs

variable {settings : Settings F} {calls : List (Call F)} {index : Nat}

/-- What one more call does to the signs that are held. -/
theorem signHeld_succ_iff {call : Call F} {nowMs : Nat}
    (atIndex : calls[index]? = some call) :
    SignHeld settings calls (index + 1) nowMs ↔
      (∃ flushedMs, call = .flushFrame flushedMs ∧
        signSeen settings.judgeConfig
          (handleAt settings calls index).pending.items = true ∧
        nowMs < flushedMs + settings.signHoldMs) ∨
      ((∀ stoppedMs, call ≠ .forceStop stoppedMs) ∧
        SignHeld settings calls index nowMs) := by
  constructor
  · rintro ⟨flushIndex, before, flushedMs, atFlush, seen, inHold, noStop⟩
    rcases Nat.lt_succ_iff_lt_or_eq.mp before with earlier | rfl
    · refine Or.inr ⟨?_, flushIndex, earlier, flushedMs, atFlush, seen, inHold,
        fun between after inTime => noStop between after (by omega)⟩
      rintro stoppedMs rfl
      exact noStop index earlier (by omega) stoppedMs atIndex
    · rw [atIndex] at atFlush
      exact Or.inl ⟨flushedMs, Option.some.inj atFlush, seen, inHold⟩
  · rintro (⟨flushedMs, rfl, seen, inHold⟩ | ⟨notStop, held⟩)
    · exact ⟨index, by omega, flushedMs, atIndex, seen, inHold,
        fun between after inTime => by omega⟩
    · obtain ⟨flushIndex, before, flushedMs, atFlush, seen, inHold, noStop⟩ := held
      refine ⟨flushIndex, by omega, flushedMs, atFlush, seen, inHold, ?_⟩
      intro between after inTime stoppedMs
      rcases Nat.lt_succ_iff_lt_or_eq.mp inTime with earlier | rfl
      · exact noStop between after earlier stoppedMs
      · rw [atIndex]
        exact fun same => notStop stoppedMs (Option.some.inj same)

/-- What the bridge remembers of the calls before `index`: the deadline stands
for the signs that are held, and the flag for a candidate of the frame. -/
structure Remembers (settings : Settings F) (calls : List (Call F))
    (index : Nat) (handle : Handle F) : Prop where
  held : ∀ nowMs, nowMs < handle.signSlowUntilMs ↔
    SignHeld settings calls index nowMs
  flagged : handle.pendingBackgroundSlow = true →
    HasCandidate settings calls index

theorem HasCandidate.later {nowMs : Nat} {bbox : RoiBbox F} {result : RoiResult}
    (candidate : HasCandidate settings calls index)
    (atIndex : calls[index]? = some (.addObservation nowMs bbox result)) :
    HasCandidate settings calls (index + 1) := by
  obtain ⟨obsIndex, before, obsMs, obsBbox, obsResult, call, dangerous,
    sameFrame⟩ := candidate
  refine ⟨obsIndex, by omega, obsMs, obsBbox, obsResult, call, dangerous, ?_⟩
  intro between after inTime
  rcases Nat.lt_succ_iff_lt_or_eq.mp inTime with earlier | rfl
  · exact sameFrame between after earlier
  · exact ⟨nowMs, bbox, result, atIndex⟩

/-- An observation leaves the deadline, and raises the flag only for a dangerous
candidate. -/
theorem addObservation_remembers (settings : Settings F) (handle : Handle F)
    (bbox : RoiBbox F) (result : RoiResult) :
    (addObservation settings handle bbox result).signSlowUntilMs =
        handle.signSlowUntilMs ∧
      ((addObservation settings handle bbox result).pendingBackgroundSlow = true →
        handle.pendingBackgroundSlow = true ∨
          (observe settings bbox result).dangerous = true) ∧
      (handle.pendingBackgroundSlow = true ∨
          (handle.pending.items.length < kMaxDetections ∧
            (observe settings bbox result).dangerous = true) →
        (addObservation settings handle bbox result).pendingBackgroundSlow =
          true) := by
  unfold addObservation
  split_ifs with room
  · cases observe settings bbox result with
    | dropped => simp [Observed.dangerous]
    | background dangerous => cases dangerous <;> simp [Observed.dangerous, room]
    | detection record => simp [Observed.dangerous]
  · simp only [room, false_and, or_false, imp_self, and_true, true_and]
    exact Or.inl

theorem Remembers.addObservation {nowMs : Nat} {bbox : RoiBbox F}
    {result : RoiResult}
    (remembers : Remembers settings calls index (handleAt settings calls index))
    (atIndex : calls[index]? = some (.addObservation nowMs bbox result)) :
    Remembers settings calls (index + 1)
      (addObservation settings (handleAt settings calls index) bbox result) := by
  obtain ⟨sameDeadline, raised, -⟩ := addObservation_remembers settings
    (handleAt settings calls index) bbox result
  refine ⟨fun laterMs => ?_, fun flagged => ?_⟩
  · rw [sameDeadline, signHeld_succ_iff atIndex, remembers.held laterMs]
    simp
  · rcases raised flagged with before | dangerous
    · exact (remembers.flagged before).later atIndex
    · exact ⟨index, by omega, nowMs, bbox, result, atIndex, dangerous,
        fun between after inTime => by omega⟩

theorem Remembers.flushFrame {nowMs : Nat}
    (ordered : calls.Pairwise fun a b => a.nowMs ≤ b.nowMs)
    (noWrap : nowMs + settings.signHoldMs < 2 ^ 64)
    (remembers : Remembers settings calls index (handleAt settings calls index))
    (atIndex : calls[index]? = some (.flushFrame nowMs)) :
    Remembers settings calls (index + 1)
      (flushFrame settings (handleAt settings calls index) nowMs).1 := by
  refine ⟨fun laterMs => ?_, by simp [SafetyBridge.flushFrame]⟩
  rw [signHeld_succ_iff atIndex]
  change laterMs < signDeadline settings _ _ nowMs ↔ _
  rw [signDeadline, Nat.mod_eq_of_lt noWrap]
  split_ifs with seen
  · constructor
    · exact fun inHold => Or.inl ⟨nowMs, rfl, seen, inHold⟩
    · rintro (⟨flushedMs, same, -, inHold⟩ | ⟨-, held⟩)
      · rw [Call.flushFrame.injEq] at same
        omega
      · -- An earlier flush has an earlier deadline.
        obtain ⟨flushIndex, before, flushedMs, atFlush, -, inHold, -⟩ := held
        have notLater : flushedMs ≤ nowMs :=
          nowMs_le_of_pairwise ordered before atFlush atIndex
        omega
  · simp [seen, remembers.held laterMs]

theorem Remembers.forceStop {nowMs : Nat}
    (atIndex : calls[index]? = some (.forceStop nowMs)) :
    Remembers settings calls (index + 1)
      (forceStop (handleAt settings calls index)).1 := by
  refine ⟨fun laterMs => ?_, by simp [SafetyBridge.forceStop]⟩
  rw [signHeld_succ_iff atIndex]
  simp [SafetyBridge.forceStop]

theorem remembers_handleAt (settings : Settings F) (calls : List (Call F))
    (ordered : calls.Pairwise fun a b => a.nowMs ≤ b.nowMs)
    (noWrap : ∀ call ∈ calls, call.nowMs + settings.signHoldMs < 2 ^ 64)
    {index : Nat} (inRun : index ≤ calls.length) :
    Remembers settings calls index (handleAt settings calls index) := by
  refine EventMachine.stateAt_induction
    (fun index handle => Remembers settings calls index handle)
    ⟨by simp [machine, SignHeld], by simp [machine]⟩ ?_ (Nat.zero_le index) inRun
  intro index inRun _ remembers
  have atIndex : calls[index]? = some calls[index] :=
    List.getElem?_eq_getElem inRun
  have inTime := noWrap calls[index] (List.getElem_mem inRun)
  generalize calls[index] = call at atIndex inTime
  cases call with
  | addObservation nowMs bbox result => exact remembers.addObservation atIndex
  | flushFrame nowMs => exact remembers.flushFrame ordered inTime atIndex
  | forceStop nowMs => exact Remembers.forceStop atIndex

theorem slowIf_congr {left right : Prop} [Decidable left] [Decidable right]
    (same : left ↔ right) : slowIf left = slowIf right := by
  by_cases holds : left
  · simp [slowIf, holds, same.mp holds]
  · simp [slowIf, holds, mt same.mpr holds]

/-- A stronger reason for `slow` changes the maximum only when nothing else
gives at least `slow`. -/
theorem max_slowIf_eq_iff {answer : State} {flagged candidate held : Prop}
    [Decidable flagged] [Decidable candidate] [Decidable held]
    (onlyIf : flagged → candidate) :
    max (max answer (slowIf flagged)) (slowIf held) =
        max (max answer (slowIf candidate)) (slowIf held) ↔
      (candidate →
        .slow ≤ max (max answer (slowIf flagged)) (slowIf held)) := by
  by_cases isFlagged : flagged
  · have isCandidate := onlyIf isFlagged
    simp [slowIf, isFlagged, isCandidate]
  · by_cases isCandidate : candidate <;> by_cases isHeld : held <;>
      cases answer <;> simp [slowIf, isFlagged, isCandidate, isHeld] <;> decide

open Classical in
/-- What a flush publishes, in terms of the calls before it. -/
theorem publishedAt_eq_max {nowMs : Nat}
    (ordered : calls.Pairwise fun a b => a.nowMs ≤ b.nowMs)
    (noWrap : ∀ call ∈ calls, call.nowMs + settings.signHoldMs < 2 ^ 64)
    (atIndex : calls[index]? = some (.flushFrame nowMs)) :
    publishedAt settings calls index nowMs =
      max (max (latchAnswer settings calls index nowMs)
          (slowIf ((handleAt settings calls index).pendingBackgroundSlow =
            true)))
        (slowIf (SignHeld settings calls (index + 1) nowMs)) := by
  have inRun := (List.getElem?_eq_some_iff.mp atIndex).1
  have remembers := remembers_handleAt settings calls ordered noWrap inRun.le
  have held := (remembers.flushFrame ordered
    (noWrap _ (List.mem_of_getElem? atIndex)) atIndex).held nowMs
  rw [publishedAt, flushFrame_publishes]
  exact congrArg₂ max rfl (slowIf_congr held)

/-- The last call of a frame with a candidate is an observation. -/
theorem HasCandidate.cases {call : Call F} (atIndex : calls[index]? = some call)
    (candidate : HasCandidate settings calls (index + 1)) :
    ∃ nowMs bbox result, call = .addObservation nowMs bbox result ∧
      ((observe settings bbox result).dangerous = true ∨
        HasCandidate settings calls index) := by
  obtain ⟨obsIndex, before, obsMs, bbox, result, atObs, dangerous, sameFrame⟩ :=
    candidate
  rcases Nat.lt_succ_iff_lt_or_eq.mp before with earlier | rfl
  · obtain ⟨nowMs, other, answer, atOther⟩ := sameFrame index earlier (by omega)
    rw [atIndex] at atOther
    exact ⟨nowMs, other, answer, Option.some.inj atOther, Or.inr
      ⟨obsIndex, earlier, obsMs, bbox, result, atObs, dangerous,
        fun between after inTime => sameFrame between after (by omega)⟩⟩
  · rw [atIndex] at atObs
    exact ⟨obsMs, bbox, result, Option.some.inj atObs, Or.inl dangerous⟩

/-- When candidates come in time, a frame with a candidate has the flag
raised. -/
theorem flagged_of_inTime (inTime : CandidatesInTime settings calls)
    (inRun : index ≤ calls.length)
    (candidate : HasCandidate settings calls index) :
    (handleAt settings calls index).pendingBackgroundSlow = true := by
  refine EventMachine.stateAt_induction
    (fun index (handle : Handle F) => HasCandidate settings calls index →
      handle.pendingBackgroundSlow = true)
    (by simp [HasCandidate]) ?_ (Nat.zero_le index) inRun candidate
  intro index inRun _ before candidate
  have atIndex : calls[index]? = some calls[index] :=
    List.getElem?_eq_getElem inRun
  obtain ⟨nowMs, bbox, result, call, source⟩ := candidate.cases atIndex
  rw [call] at atIndex ⊢
  apply (addObservation_remembers settings _ bbox result).2.2
  rcases source with dangerous | earlier
  · rcases inTime index nowMs bbox result atIndex dangerous with room | flagged
    · exact Or.inr ⟨room, dangerous⟩
    · exact Or.inl flagged
  · exact Or.inl (before earlier)

/-- When a flush publishes at least `slow`. -/
theorem slow_le_publishedAt_iff {nowMs : Nat}
    (ordered : calls.Pairwise fun a b => a.nowMs ≤ b.nowMs)
    (noWrap : ∀ call ∈ calls, call.nowMs + settings.signHoldMs < 2 ^ 64)
    (atIndex : calls[index]? = some (.flushFrame nowMs)) :
    .slow ≤ publishedAt settings calls index nowMs ↔
      (handleAt settings calls index).pendingBackgroundSlow = true ∨
      (handleAt settings calls index).latch.holdRuns nowMs = true ∨
      (∃ det ∈ (handleAt settings calls index).pending.items,
        det.classId ≠ watchedClass (handleAt settings calls index).latch ∧
          .slow ≤ judgeOne det settings.judgeConfig) ∨
      SignHeld settings calls (index + 1) nowMs := by
  have inRun := (List.getElem?_eq_some_iff.mp atIndex).1
  have remembers := remembers_handleAt settings calls ordered noWrap inRun.le
  have held := (remembers.flushFrame ordered
    (noWrap _ (List.mem_of_getElem? atIndex)) atIndex).held nowMs
  cases ended : (handleAt settings calls index).latch.holdRuns nowMs with
  | true =>
      have stops : publishedAt settings calls index nowMs = .stop := by
        rw [publishedAt, flushFrame_publishes, answer_eq_highestLevel, ended]
        exact State.stop_le_iff.mp ((le_max_left _ _).trans (le_max_left _ _))
      simp only [stops, true_or, or_true, iff_true]
      exact State.le_stop _
  | false =>
      rw [← held]
      apply (le_flushedState_iff ended).trans
      simp only [reduceCtorEq, false_or, true_and, Bool.false_eq_true]
      constructor
      · rintro (buffered | flagged | held)
        · exact Or.inr (Or.inl buffered)
        · exact Or.inl flagged
        · exact Or.inr (Or.inr held)
      · rintro (flagged | buffered | held)
        · exact Or.inr (Or.inl flagged)
        · exact Or.inl buffered
        · exact Or.inr (Or.inr held)

/-- Every flush of a run publishes the maximum exactly when every candidate of
a frame is covered, which is so when the candidates come in time.  In every run
a held sign acts in its window and nowhere else. -/
theorem sign_hold_is_exact_iff (settings : Settings F) (calls : List (Call F))
    (ordered : calls.Pairwise fun a b => a.nowMs ≤ b.nowMs)
    (noWrap : ∀ call ∈ calls, call.nowMs + settings.signHoldMs < 2 ^ 64) :
    (PublishesMaximum settings calls ↔ CandidatesCovered settings calls) ∧
      (CandidatesInTime settings calls → PublishesMaximum settings calls) ∧
      SignsActInTheirWindow settings calls := by
  classical
  have exact_iff :
      PublishesMaximum settings calls ↔ CandidatesCovered settings calls := by
    apply forall_congr'
    intro index
    apply forall_congr'
    intro nowMs
    apply forall_congr'
    intro atIndex
    have inRun := (List.getElem?_eq_some_iff.mp atIndex).1
    have remembers := remembers_handleAt settings calls ordered noWrap inRun.le
    rw [← slow_le_publishedAt_iff ordered noWrap atIndex,
      publishedAt_eq_max ordered noWrap atIndex]
    exact max_slowIf_eq_iff remembers.flagged
  refine ⟨exact_iff, fun inTime => exact_iff.mpr ?_, ?_⟩
  · intro index nowMs atIndex candidate
    have inRun := (List.getElem?_eq_some_iff.mp atIndex).1
    exact Or.inl (flagged_of_inTime inTime inRun.le candidate)
  · intro index nowMs atIndex
    refine ⟨fun held => ?_, ?_, fun notHeld => ?_⟩
    · rw [slow_le_publishedAt_iff ordered noWrap atIndex]
      exact Or.inr (Or.inr (Or.inr held))
    · rw [publishedAt_eq_max ordered noWrap atIndex]
      exact (le_max_left _ _).trans (le_max_left _ _)
    · rw [publishedAt_eq_max ordered noWrap atIndex, slowIf, slowIf,
        if_neg notHeld]
      exact max_eq_left (State.clear_le _)

end Runs

/-- A sign is seen at one flush, and the next frame two seconds later is
empty. -/
def signThenNothing : List (Call ℚ) :=
  [.addObservation 1000 carBbox ⟨roiStatusOk, 3, 900000⟩, .flushFrame 1000,
    .flushFrame 3000]

theorem sign_hold_is_exact_iff_signThenNothing :
    .slow ≤ publishedAt {} signThenNothing 2 3000 := by
  have held : SignHeld ({} : Settings ℚ) signThenNothing 3 3000 := by
    refine ⟨1, by decide, 1000, rfl, by decide +kernel, by decide, ?_⟩
    intro between after inTime stoppedMs
    have last : between = 2 := by omega
    simp [last, signThenNothing]
  have window := (sign_hold_is_exact_iff ({} : Settings ℚ) signThenNothing
    (by decide) (by decide)).2.2
  exact (window 2 3000 rfl).1 held

/-- Thirty-two far cars, and then something near that the classifier calls
background. -/
def lateCandidate : List (Call ℚ) :=
  List.replicate kMaxDetections
      (.addObservation 1000 ⟨0, 0, 10, 10, 1 / 2, 640, 360⟩ carResult) ++
    [.addObservation 1000 carBbox ⟨roiStatusOk, 0, 900000⟩, .flushFrame 1000]

/-- The candidate that comes after the buffer is full does not count, and the
flush publishes `clear`. -/
theorem not_publishesMaximum :
    ¬ ∀ (settings : Settings ℚ) (calls : List (Call ℚ)),
      (calls.Pairwise fun a b => a.nowMs ≤ b.nowMs) →
      (∀ call ∈ calls, call.nowMs + settings.signHoldMs < 2 ^ 64) →
        PublishesMaximum settings calls := by
  classical
  intro maximum
  have published := maximum {} lateCandidate (by decide) (by decide) 33 1000 rfl
  have candidate : HasCandidate ({} : Settings ℚ) lateCandidate 33 :=
    ⟨32, by decide, 1000, carBbox, ⟨roiStatusOk, 0, 900000⟩, rfl,
      by decide +kernel, fun between after inTime => by omega⟩
  have quiet : publishedAt ({} : Settings ℚ) lateCandidate 33 1000 = .clear := by
    decide +kernel
  have raised : .slow ≤ publishedAt ({} : Settings ℚ) lateCandidate 33 1000 := by
    rw [published, slowIf, if_pos candidate]
    exact (le_max_right _ _).trans (le_max_left _ _)
  exact absurd (quiet ▸ raised) (by decide)

end Adas.Control.SafetyBridge
