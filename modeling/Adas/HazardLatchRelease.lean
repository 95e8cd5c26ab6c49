import Adas.HazardLatchRuns
import Mathlib.Data.List.Find
import Mathlib.Data.Nat.Find
import Mathlib.Tactic.IntervalCases

/-!
# When the hazard latch lets a class trigger again

After the hold of an event is over the latch watches for the latched class.
Between that update and the next event of the same class there is a block of
updates without the class that is long enough in frames and in time, and at
the first update that completes such a block the latch forgets the class.

The proof follows the latch from an event on.  Until the next event the latch
still holds, or tracks the current absence with its counter and time stamp,
or has already been released by a complete block (`Aftermath`).
-/

namespace Adas.Safety.HazardLatch

variable {F : Type} [FloatOps F]

/-- The class is seen by the update at `index`. -/
def presentAt (judgeConfig : JudgeConfig F) (frames : List (Frame F))
    (classId : Int) (index : Nat) : Bool :=
  match frames[index]? with
  | some frame => classPresent frame.items classId judgeConfig
  | none => false

/-- The clock of the update at `index`. -/
def timeAt (frames : List (Frame F)) (index : Nat) : Nat :=
  match frames[index]? with
  | some frame => frame.nowMs
  | none => 0

/-- The update at `index` finds the hold over. -/
def EndsHold (config : Config) (judgeConfig : JudgeConfig F)
    (frames : List (Frame F)) (index : Nat) : Prop :=
  index < frames.length ∧
    (latchAt config judgeConfig frames index).phase = .holding ∧
    (latchAt config judgeConfig frames index).holdUntilMs ≤ timeAt frames index

/-- The update at `holdEnd` is the first after `start` that finds the hold
over. -/
def IsHoldEnd (config : Config) (judgeConfig : JudgeConfig F)
    (frames : List (Frame F)) (start holdEnd : Nat) : Prop :=
  start < holdEnd ∧ EndsHold config judgeConfig frames holdEnd ∧
    ∀ index, start < index → index < holdEnd →
      ¬ EndsHold config judgeConfig frames index

/-- No update from `first` to `last` sees the class. -/
def AbsentThrough (judgeConfig : JudgeConfig F) (frames : List (Frame F))
    (classId : Int) (first last : Nat) : Prop :=
  ∀ index, first ≤ index → index ≤ last →
    presentAt judgeConfig frames classId index = false

/-- Among the updates from `holdEnd` to `last`, `sighting` is the most recent
one that sees the class, or `holdEnd` if none does. -/
def IsLastSighting (judgeConfig : JudgeConfig F) (frames : List (Frame F))
    (classId : Int) (holdEnd last sighting : Nat) : Prop :=
  holdEnd ≤ sighting ∧ sighting ≤ last ∧
    (sighting = holdEnd ∨
      presentAt judgeConfig frames classId sighting = true) ∧
    ∀ index, sighting < index → index ≤ last →
      presentAt judgeConfig frames classId index = false

/-- A block of updates without the class, from `first` to `last`, meets both
release bounds: it has enough frames and ends late enough after the last
sighting since `holdEnd`. -/
def CompletesRelease (config : Config) (judgeConfig : JudgeConfig F)
    (frames : List (Frame F)) (classId : Int) (holdEnd last : Nat) : Prop :=
  ∃ first sighting, holdEnd ≤ first ∧ first ≤ last ∧
    AbsentThrough judgeConfig frames classId first last ∧
    max 1 config.releaseFrames ≤ last - first + 1 ∧
    IsLastSighting judgeConfig frames classId holdEnd last sighting ∧
    timeAt frames sighting + config.releaseMs ≤ timeAt frames last

/-- What the latch knows before the update at `index` while it watches for the
release of `classId`: the absence block so far starts at `first`, the last
sighting is at `sighting`, and no earlier update completed a release. -/
structure Tracks (config : Config) (judgeConfig : JudgeConfig F)
    (frames : List (Frame F)) (classId : Int) (holdEnd index : Nat)
    (latch : HazardLatch) : Prop where
  released : latch.phase = .released
  latched : latch.latchedClass = classId
  reached : holdEnd ≤ index
  counts : ∃ first, holdEnd ≤ first ∧ first ≤ index ∧
    latch.absentFrames = index - first ∧
    (first = holdEnd ∨
      presentAt judgeConfig frames classId (first - 1) = true) ∧
    ∀ earlier, first ≤ earlier → earlier < index →
      presentAt judgeConfig frames classId earlier = false
  times : ∃ sighting, holdEnd ≤ sighting ∧ sighting ≤ index ∧
    latch.absentSinceMs = timeAt frames sighting ∧
    (sighting = holdEnd ∨
      presentAt judgeConfig frames classId sighting = true ∧
        sighting < index) ∧
    ∀ later, sighting < later → later < index →
      presentAt judgeConfig frames classId later = false
  pending : ∀ earlier, holdEnd ≤ earlier → earlier < index →
    ¬ CompletesRelease config judgeConfig frames classId holdEnd earlier

variable {config : Config} {judgeConfig : JudgeConfig F}
variable {frames : List (Frame F)}

theorem presentAt_of_lt {classId : Int} {index : Nat}
    (inRun : index < frames.length) :
    presentAt judgeConfig frames classId index =
      classPresent frames[index].items classId judgeConfig := by
  simp [presentAt, inRun]

omit [FloatOps F] in
theorem timeAt_of_lt {index : Nat} (inRun : index < frames.length) :
    timeAt frames index = frames[index].nowMs := by
  simp [timeAt, inRun]

omit [FloatOps F] in
theorem timeAt_mono (ordered : frames.Pairwise fun a b => a.nowMs ≤ b.nowMs)
    {earlier later : Nat} (le : earlier ≤ later) (inRun : later < frames.length) :
    timeAt frames earlier ≤ timeAt frames later := by
  rw [timeAt_of_lt inRun, timeAt_of_lt (by omega)]
  rcases le.lt_or_eq with before | rfl
  · exact List.pairwise_iff_getElem.mp ordered _ _ _ _ before
  · exact le_rfl

theorem IsHoldEnd.unique {start first second : Nat}
    (isFirst : IsHoldEnd config judgeConfig frames start first)
    (isSecond : IsHoldEnd config judgeConfig frames start second) :
    first = second := by
  obtain ⟨afterFirst, endsFirst, beforeFirst⟩ := isFirst
  obtain ⟨afterSecond, endsSecond, beforeSecond⟩ := isSecond
  rcases lt_trichotomy first second with lt | eq | gt
  · exact absurd endsFirst (beforeSecond first afterFirst lt)
  · exact eq
  · exact absurd endsSecond (beforeFirst second afterSecond gt)

/-- A release is completed by an update that does not see the class. -/
theorem CompletesRelease.absent {classId : Int} {holdEnd last : Nat}
    (completes : CompletesRelease config judgeConfig frames classId holdEnd last) :
    presentAt judgeConfig frames classId last = false := by
  obtain ⟨first, sighting, -, firstLe, absent, -⟩ := completes
  exact absent last firstLe le_rfl

variable (config judgeConfig) in
/-- The hold ends: tracking starts with an empty block at this very update. -/
theorem tracks_endHold {classId : Int} {index : Nat} {latch : HazardLatch}
    (inRun : index < frames.length) (holding : latch.phase = .holding)
    (latched : latch.latchedClass = classId) :
    Tracks config judgeConfig frames classId index index
      (latch.endHold frames[index].nowMs) where
  released := by simp [endHold, holding]
  latched := by simp [latched]
  reached := le_rfl
  counts := ⟨index, le_rfl, le_rfl, by simp [endHold, holding], Or.inl rfl,
    fun _ _ _ => by omega⟩
  times := ⟨index, le_rfl, le_rfl,
    by simp [endHold, holding, timeAt_of_lt inRun], Or.inl rfl,
    fun _ _ _ => by omega⟩
  pending := fun _ _ _ => by omega

section Tracking

variable {classId : Int} {holdEnd index : Nat} {latch : HazardLatch}

/-- When the class is absent, the code's release test is the completion of a
release by a block that ends at this update. -/
theorem Tracks.releaseDue_iff
    (tracks : Tracks config judgeConfig frames classId holdEnd index latch)
    (ordered : frames.Pairwise fun a b => a.nowMs ≤ b.nowMs)
    (short : frames.length < 2 ^ 32) (inRun : index < frames.length)
    (absent : presentAt judgeConfig frames classId index = false) :
    releaseDue config
        { latch with absentFrames := (latch.absentFrames + 1) % 2 ^ 32 }
        frames[index].nowMs = true ↔
      CompletesRelease config judgeConfig frames classId holdEnd index := by
  obtain ⟨first, firstGe, firstLe, counted, maximal, blockAbsent⟩ :=
    tracks.counts
  obtain ⟨sighting, sightingGe, sightingLe, stamped, seen, sinceAbsent⟩ :=
    tracks.times
  have noWrap : (index - first + 1) % 2 ^ 32 = index - first + 1 :=
    Nat.mod_eq_of_lt (by omega)
  have stampedBefore : timeAt frames sighting ≤ timeAt frames index :=
    timeAt_mono ordered sightingLe inRun
  have absentSince : ∀ later, sighting < later → later ≤ index →
      presentAt judgeConfig frames classId later = false := by
    intro later after le
    rcases le.lt_or_eq with before | rfl
    · exact sinceAbsent later after before
    · exact absent
  have isSighting :
      IsLastSighting judgeConfig frames classId holdEnd index sighting :=
    ⟨sightingGe, sightingLe, seen.imp id And.left, absentSince⟩
  simp only [releaseDue, counted, noWrap, stamped, decide_eq_true_eq,
    ← timeAt_of_lt inRun]
  constructor
  · rintro ⟨enoughFrames, enoughTime⟩
    refine ⟨first, sighting, firstGe, firstLe, ?_, by omega, isSighting, by omega⟩
    intro later ge le
    rcases le.lt_or_eq with before | rfl
    · exact blockAbsent later ge before
    · exact absent
  · rintro ⟨block, other, blockGe, blockLe, blockIsAbsent, enoughFrames,
      ⟨otherGe, otherLe, otherSeen, otherSince⟩, enoughTime⟩
    -- The counted block is maximal, so it starts no later than any other.
    have firstLeBlock : first ≤ block := by
      by_contra later
      have seenBefore := maximal.resolve_left (by omega)
      have := blockIsAbsent (first - 1) (by omega) (by omega)
      simp [this] at seenBefore
    have sameSighting : other = sighting := by
      rcases lt_trichotomy other sighting with lt | eq | gt
      · have seenLater := seen.resolve_left (by omega)
        have := otherSince sighting lt sightingLe
        simp [this] at seenLater
      · exact eq
      · have seenLater := otherSeen.resolve_left (by omega)
        have := absentSince other gt otherLe
        simp [this] at seenLater
    subst other
    exact ⟨by omega, by omega⟩

/-- The class is seen: tracking starts over after this update. -/
theorem Tracks.sighted
    (tracks : Tracks config judgeConfig frames classId holdEnd index latch)
    (present : presentAt judgeConfig frames classId index = true) :
    Tracks config judgeConfig frames classId holdEnd (index + 1)
      { latch with absentFrames := 0, absentSinceMs := timeAt frames index } where
  released := tracks.released
  latched := tracks.latched
  reached := tracks.reached.trans (Nat.le_succ index)
  counts := ⟨index + 1, tracks.reached.trans (Nat.le_succ index), le_rfl,
    by simp, Or.inr present, fun _ _ _ => by omega⟩
  times := ⟨index, tracks.reached, Nat.le_succ index, rfl,
    Or.inr ⟨present, Nat.lt_succ_self index⟩, fun _ _ _ => by omega⟩
  pending := by
    intro earlier ge lt completes
    rcases (Nat.le_of_lt_succ lt).lt_or_eq with before | rfl
    · exact tracks.pending earlier ge before completes
    · simp [completes.absent] at present

/-- The class is absent and no release is completed: one more absent frame. -/
theorem Tracks.missed
    (tracks : Tracks config judgeConfig frames classId holdEnd index latch)
    (absent : presentAt judgeConfig frames classId index = false)
    (short : index + 1 < 2 ^ 32)
    (stillPending :
      ¬ CompletesRelease config judgeConfig frames classId holdEnd index) :
    Tracks config judgeConfig frames classId holdEnd (index + 1)
      { latch with absentFrames := (latch.absentFrames + 1) % 2 ^ 32 } where
  released := tracks.released
  latched := tracks.latched
  reached := tracks.reached.trans (Nat.le_succ index)
  counts := by
    obtain ⟨first, firstGe, firstLe, counted, maximal, blockAbsent⟩ :=
      tracks.counts
    refine ⟨first, firstGe, firstLe.trans (Nat.le_succ index), ?_, maximal, ?_⟩
    · simp only [counted]
      omega
    · intro earlier ge lt
      rcases (Nat.le_of_lt_succ lt).lt_or_eq with before | rfl
      · exact blockAbsent earlier ge before
      · exact absent
  times := by
    obtain ⟨sighting, sightingGe, sightingLe, stamped, seen, sinceAbsent⟩ :=
      tracks.times
    refine ⟨sighting, sightingGe, sightingLe.trans (Nat.le_succ index), stamped,
      seen.imp id fun found => ⟨found.1, by omega⟩, ?_⟩
    intro later after lt
    rcases (Nat.le_of_lt_succ lt).lt_or_eq with before | rfl
    · exact sinceAbsent later after before
    · exact absent
  pending := by
    intro earlier ge lt
    rcases (Nat.le_of_lt_succ lt).lt_or_eq with before | rfl
    · exact tracks.pending earlier ge before
    · exact stillPending

/-- One update of a tracking latch: it keeps tracking, or this update completes
a release and the latch forgets the class. -/
theorem Tracks.settle
    (tracks : Tracks config judgeConfig frames classId holdEnd index
      (latch.endHold (timeAt frames index)))
    (ordered : frames.Pairwise fun a b => a.nowMs ≤ b.nowMs)
    (short : frames.length < 2 ^ 32) (inRun : index < frames.length) :
    Tracks config judgeConfig frames classId holdEnd (index + 1)
        (settle config judgeConfig latch frames[index]) ∨
      (settle config judgeConfig latch frames[index]).phase = .idle ∧
        CompletesRelease config judgeConfig frames classId holdEnd index := by
  have sees : classPresent frames[index].items
      (latch.endHold (timeAt frames index)).latchedClass judgeConfig =
        presentAt judgeConfig frames classId index := by
    rw [presentAt_of_lt inRun, tracks.latched]
  rw [HazardLatch.settle, ← timeAt_of_lt inRun, watchRelease,
    if_pos tracks.released, sees]
  cases present : presentAt judgeConfig frames classId index with
  | true =>
      left
      rw [if_pos rfl, ← timeAt_of_lt inRun]
      exact tracks.sighted present
  | false =>
      have due := tracks.releaseDue_iff ordered short inRun present
      simp only [Bool.false_eq_true, if_false]
      split_ifs with isDue
      · exact Or.inr ⟨rfl, due.mp isDue⟩
      · exact Or.inl (tracks.missed present (by omega) (isDue ∘ due.mpr))

end Tracking

/-- Where the latch is before the update at `index` when the event at `start`
was of class `classId` and no event has been opened since. -/
def Aftermath (config : Config) (judgeConfig : JudgeConfig F)
    (frames : List (Frame F)) (classId : Int) (start index : Nat)
    (latch : HazardLatch) : Prop :=
  (latch.phase = .holding ∧ latch.latchedClass = classId ∧
    ∀ earlier, start < earlier → earlier < index →
      ¬ EndsHold config judgeConfig frames earlier) ∨
  (∃ holdEnd, IsHoldEnd config judgeConfig frames start holdEnd ∧
    holdEnd < index ∧
    Tracks config judgeConfig frames classId holdEnd index latch) ∨
  (latch.phase = .idle ∧ ∃ holdEnd last,
    IsHoldEnd config judgeConfig frames start holdEnd ∧ holdEnd ≤ last ∧
    last < index ∧
    CompletesRelease config judgeConfig frames classId holdEnd last)

/-- No event is opened strictly between two positions. -/
def QuietBetween (config : Config) (judgeConfig : JudgeConfig F)
    (frames : List (Frame F)) (start stop : Nat) : Prop :=
  ∀ index, start < index → index < stop →
    ¬ EventAt config judgeConfig frames index

section AfterEvent

variable {start : Nat}

/-- The update at `index` judges the frame of a latch in the aftermath of an
event: the latch tracks on, or it is idle after a completed release. -/
theorem Aftermath.settle {classId : Int} {index : Nat}
    (ordered : frames.Pairwise fun a b => a.nowMs ≤ b.nowMs)
    (short : frames.length < 2 ^ 32) (inRun : index < frames.length)
    (follows : start < index)
    (aftermath : Aftermath config judgeConfig frames classId start index
      (latchAt config judgeConfig frames index))
    (ended : (latchAt config judgeConfig frames index).holdRuns
      frames[index].nowMs = false) :
    (∃ holdEnd, IsHoldEnd config judgeConfig frames start holdEnd ∧
      holdEnd ≤ index ∧
      Tracks config judgeConfig frames classId holdEnd (index + 1)
        (HazardLatch.settle config judgeConfig
          (latchAt config judgeConfig frames index) frames[index])) ∨
    ((HazardLatch.settle config judgeConfig
        (latchAt config judgeConfig frames index) frames[index]).phase = .idle ∧
      ∃ holdEnd last, IsHoldEnd config judgeConfig frames start holdEnd ∧
        holdEnd ≤ last ∧ last ≤ index ∧
        CompletesRelease config judgeConfig frames classId holdEnd last) := by
  rcases aftermath with ⟨holding, latched, notYet⟩ |
    ⟨holdEnd, isHoldEnd, before, tracks⟩ |
    ⟨idle, holdEnd, last, isHoldEnd, afterHold, before, completes⟩
  · have ends : EndsHold config judgeConfig frames index := by
      refine ⟨inRun, holding, ?_⟩
      rw [timeAt_of_lt inRun]
      by_contra early
      simp [holdRuns, holding] at ended
      omega
    have isHoldEnd : IsHoldEnd config judgeConfig frames start index :=
      ⟨follows, ends, notYet⟩
    have tracks := tracks_endHold config judgeConfig inRun holding
      latched
    rw [← timeAt_of_lt inRun] at tracks
    rcases tracks.settle ordered short inRun with tracksOn | ⟨idle, completes⟩
    · exact Or.inl ⟨index, isHoldEnd, le_rfl, tracksOn⟩
    · exact Or.inr ⟨idle, index, index, isHoldEnd, le_rfl, le_rfl, completes⟩
  · have noHold : (latchAt config judgeConfig frames index).phase ≠ .holding := by
      simp [tracks.released]
    have sameLatch : (latchAt config judgeConfig frames index).endHold
        (timeAt frames index) = latchAt config judgeConfig frames index :=
      endHold_of_not_holding noHold
    rw [← sameLatch] at tracks
    rcases tracks.settle ordered short inRun with tracksOn | ⟨idle, completes⟩
    · exact Or.inl ⟨holdEnd, isHoldEnd, before.le, tracksOn⟩
    · exact Or.inr ⟨idle, holdEnd, index, isHoldEnd, before.le, le_rfl, completes⟩
  · rw [settle_of_idle idle]
    exact Or.inr ⟨idle, holdEnd, last, isHoldEnd, afterHold, before.le, completes⟩

/-- Every position after an event and before the next one is in its aftermath. -/
theorem aftermath_of_eventAt
    (ordered : frames.Pairwise fun a b => a.nowMs ≤ b.nowMs)
    (short : frames.length < 2 ^ 32)
    (starts : EventAt config judgeConfig frames start) {index : Nat}
    (follows : start < index) (inRun : index ≤ frames.length)
    (quiet : QuietBetween config judgeConfig frames start index) :
    Aftermath config judgeConfig frames
      (latchAt config judgeConfig frames (start + 1)).latchedClass start index
      (latchAt config judgeConfig frames index) := by
  induction index, follows using Nat.le_induction with
  | base =>
      left
      obtain ⟨startInRun, -, holding⟩ := starts
      refine ⟨?_, rfl, fun _ _ _ => by omega⟩
      rw [latchAt_succ startInRun]
      exact holding
  | succ index follows ih =>
      have indexInRun : index < frames.length := by omega
      have aftermath := ih (by omega) fun earlier after before =>
        quiet earlier after (by omega)
      cases ended : (latchAt config judgeConfig frames index).holdRuns
          frames[index].nowMs with
      | true =>
          obtain ⟨holding, early⟩ := holdRuns_iff.mp ended
          rw [latchAt_succ indexInRun, update_of_holdRuns ended]
          rcases aftermath with ⟨-, latched, notYet⟩ |
            ⟨holdEnd, -, -, tracks⟩ | ⟨idle, -⟩
          · refine Or.inl ⟨holding, latched, fun earlier after before ends => ?_⟩
            rcases (Nat.le_of_lt_succ before).lt_or_eq with lt | rfl
            · exact notYet earlier after lt ends
            · have late := ends.2.2
              rw [timeAt_of_lt indexInRun] at late
              omega
          · simp [tracks.released] at holding
          · simp [idle] at holding
      | false =>
          have noEvent : ¬ StartsEvent config judgeConfig
              (latchAt config judgeConfig frames index) frames[index] :=
            fun starts => quiet index follows (Nat.lt_succ_self index)
              ⟨indexInRun, starts⟩
          rw [latchAt_succ indexInRun, update_of_quiet ended noEvent]
          rcases aftermath.settle ordered short indexInRun follows ended with
            ⟨holdEnd, isHoldEnd, before, tracks⟩ |
            ⟨idle, holdEnd, last, isHoldEnd, afterHold, before, completes⟩
          · exact Or.inr (Or.inl ⟨holdEnd, isHoldEnd, by omega,
              { tracks with }⟩)
          · exact Or.inr (Or.inr ⟨idle, holdEnd, last, isHoldEnd, afterHold,
              by omega, completes⟩)

/-- The class of the event at `index`. -/
theorem exists_stop_of_eventAt {index : Nat} (inRun : index < frames.length)
    (starts : EventAt config judgeConfig frames index) :
    ∃ det ∈ frames[index].items, judgeOne det judgeConfig = .stop ∧
      det.classId ≠ (HazardLatch.settle config judgeConfig
        (latchAt config judgeConfig frames index) frames[index]).excludedClass ∧
      (latchAt config judgeConfig frames (index + 1)).latchedClass =
        det.classId := by
  obtain ⟨det, mem, stops, kept, result⟩ := update_of_startsEvent starts.2
  refine ⟨det, mem, stops, kept, ?_⟩
  rw [latchAt_succ inRun, result]

/-- An event sees its own class. -/
theorem presentAt_of_eventAt {index : Nat}
    (classIds : ∀ frame ∈ frames, ∀ det ∈ frame.items, 0 ≤ det.classId)
    (starts : EventAt config judgeConfig frames index) :
    presentAt judgeConfig frames
      (latchAt config judgeConfig frames (index + 1)).latchedClass index =
        true := by
  obtain ⟨inRun, -⟩ := id starts
  obtain ⟨det, mem, stops, -, named⟩ := exists_stop_of_eventAt inRun starts
  have nonneg := classIds _ (List.getElem_mem inRun) det mem
  rw [presentAt_of_lt inRun, named, classPresent_iff nonneg]
  exact ⟨det, mem, rfl, by simp [stops]⟩

/-- In the aftermath of an event, an event of the same class comes after a
completed release. -/
theorem Aftermath.completesRelease {classId : Int} {index : Nat}
    (classIds : ∀ frame ∈ frames, ∀ det ∈ frame.items, 0 ≤ det.classId)
    (ordered : frames.Pairwise fun a b => a.nowMs ≤ b.nowMs)
    (short : frames.length < 2 ^ 32) (follows : start < index)
    (aftermath : Aftermath config judgeConfig frames classId start index
      (latchAt config judgeConfig frames index))
    (starts : EventAt config judgeConfig frames index)
    (sameClass : (latchAt config judgeConfig frames (index + 1)).latchedClass =
      classId) :
    ∃ holdEnd last, IsHoldEnd config judgeConfig frames start holdEnd ∧
      holdEnd ≤ last ∧ last < index ∧
      CompletesRelease config judgeConfig frames classId holdEnd last := by
  obtain ⟨inRun, ended, -⟩ := id starts
  have present := presentAt_of_eventAt classIds starts
  obtain ⟨det, -, -, kept, named⟩ := exists_stop_of_eventAt inRun starts
  rw [sameClass] at present named
  rcases aftermath.settle ordered short inRun follows ended with
    ⟨holdEnd, -, -, tracks⟩ |
    ⟨-, holdEnd, last, isHoldEnd, afterHold, le, completes⟩
  · -- A tracking latch leaves the class out of the judgement.
    rw [excludedClass, if_pos tracks.released, tracks.latched] at kept
    exact absurd named.symm kept
  · refine ⟨holdEnd, last, isHoldEnd, afterHold, ?_, completes⟩
    rcases le.lt_or_eq with before | rfl
    · exact before
    · simp [completes.absent] at present

/-- The first event after a position, when there is one. -/
theorem exists_next_event {second : Nat} (follows : start < second)
    (starts : EventAt config judgeConfig frames second) :
    ∃ index, start < index ∧ index ≤ second ∧
      EventAt config judgeConfig frames index ∧
      QuietBetween config judgeConfig frames start index := by
  classical
  have exists_event : ∃ index, start < index ∧
      EventAt config judgeConfig frames index := ⟨second, follows, starts⟩
  obtain ⟨after, isEvent⟩ := Nat.find_spec exists_event
  refine ⟨Nat.find exists_event, after,
    Nat.find_min' exists_event ⟨follows, starts⟩, isEvent, ?_⟩
  intro index afterStart before isEvent
  exact Nat.find_min exists_event before ⟨afterStart, isEvent⟩

/-- Every event strictly between two positions is of class `classId`. -/
def OnlyClassBetween (config : Config) (judgeConfig : JudgeConfig F)
    (frames : List (Frame F)) (classId : Int) (start stop : Nat) : Prop :=
  ∀ index, start < index → index < stop →
    EventAt config judgeConfig frames index →
      (latchAt config judgeConfig frames (index + 1)).latchedClass = classId

/-- Two events of one class have a completed release between them, unless
another class had an event in between. -/
theorem completesRelease_between {classId : Int} {second : Nat}
    (classIds : ∀ frame ∈ frames, ∀ det ∈ frame.items, 0 ≤ det.classId)
    (ordered : frames.Pairwise fun a b => a.nowMs ≤ b.nowMs)
    (short : frames.length < 2 ^ 32)
    (starts : EventAt config judgeConfig frames start)
    (ofClass : (latchAt config judgeConfig frames (start + 1)).latchedClass =
      classId)
    (follows : start < second)
    (startsAgain : EventAt config judgeConfig frames second)
    (sameClass : (latchAt config judgeConfig frames (second + 1)).latchedClass =
      classId)
    (onlyClass : OnlyClassBetween config judgeConfig frames classId start
      second) :
    ∃ holdEnd last, IsHoldEnd config judgeConfig frames start holdEnd ∧
      holdEnd ≤ last ∧ last < second ∧
      CompletesRelease config judgeConfig frames classId holdEnd last := by
  obtain ⟨index, after, le, isEvent, quiet⟩ :=
    exists_next_event follows startsAgain
  have ofSameClass :
      (latchAt config judgeConfig frames (index + 1)).latchedClass =
        classId := by
    rcases le.lt_or_eq with before | rfl
    · exact onlyClass index after before isEvent
    · exact sameClass
  have aftermath := aftermath_of_eventAt ordered short starts after
    isEvent.1.le quiet
  rw [ofClass] at aftermath
  obtain ⟨holdEnd, last, isHoldEnd, afterHold, before, completes⟩ :=
    aftermath.completesRelease classIds ordered short after isEvent ofSameClass
  exact ⟨holdEnd, last, isHoldEnd, afterHold, by omega, completes⟩

/-- The first completed release sends the latch back to `idle`, or into the
event of another class. -/
theorem forgets_at_first_release {classId : Int} {holdEnd last : Nat}
    (classIds : ∀ frame ∈ frames, ∀ det ∈ frame.items, 0 ≤ det.classId)
    (ordered : frames.Pairwise fun a b => a.nowMs ≤ b.nowMs)
    (short : frames.length < 2 ^ 32)
    (starts : EventAt config judgeConfig frames start)
    (ofClass : (latchAt config judgeConfig frames (start + 1)).latchedClass =
      classId)
    (onlyClass : OnlyClassBetween config judgeConfig frames classId start last)
    (isHoldEnd : IsHoldEnd config judgeConfig frames start holdEnd)
    (afterHold : holdEnd ≤ last) (inRun : last < frames.length)
    (completes : CompletesRelease config judgeConfig frames classId holdEnd last)
    (isFirst : ∀ earlier, holdEnd ≤ earlier → earlier < last →
      ¬ CompletesRelease config judgeConfig frames classId holdEnd earlier) :
    (latchAt config judgeConfig frames (last + 1)).phase = .idle ∨
      EventAt config judgeConfig frames last ∧
        (latchAt config judgeConfig frames (last + 1)).latchedClass ≠
          classId := by
  have afterStart : start < last := isHoldEnd.1.trans_le afterHold
  have quiet : QuietBetween config judgeConfig frames start last := by
    intro index after before isEvent
    obtain ⟨otherEnd, earlier, isOtherEnd, afterOther, lt, completesEarlier⟩ :=
      completesRelease_between classIds ordered short starts ofClass after
        isEvent (onlyClass index after before isEvent)
        fun between afterStart beforeIndex =>
          onlyClass between afterStart (by omega)
    obtain rfl := isOtherEnd.unique isHoldEnd
    exact isFirst earlier afterOther (by omega) completesEarlier
  have aftermath := aftermath_of_eventAt ordered short starts afterStart inRun.le
    quiet
  rw [ofClass] at aftermath
  cases ended : (latchAt config judgeConfig frames last).holdRuns
      frames[last].nowMs with
  | true =>
      -- The hold is over since `holdEnd`, which is not after `last`.
      obtain ⟨holding, early⟩ := holdRuns_iff.mp ended
      rcases aftermath with ⟨-, -, notYet⟩ | ⟨otherEnd, -, -, tracks⟩ | ⟨idle, -⟩
      · rcases afterHold.lt_or_eq with before | rfl
        · exact absurd isHoldEnd.2.1 (notYet holdEnd isHoldEnd.1 before)
        · have late := isHoldEnd.2.1.2.2
          rw [timeAt_of_lt inRun] at late
          omega
      · simp [tracks.released] at holding
      · simp [idle] at holding
  | false =>
      by_cases isEvent : EventAt config judgeConfig frames last
      · refine Or.inr ⟨isEvent, fun sameClass => ?_⟩
        have present := presentAt_of_eventAt classIds isEvent
        simp [sameClass, completes.absent] at present
      · left
        rw [latchAt_succ inRun,
          update_of_quiet ended fun starts => isEvent ⟨inRun, starts⟩]
        rcases aftermath.settle ordered short inRun afterStart ended with
          ⟨otherEnd, isOtherEnd, le, tracks⟩ | ⟨idle, -⟩
        · obtain rfl := isOtherEnd.unique isHoldEnd
          exact absurd completes
            (tracks.pending last afterHold (Nat.lt_succ_self last))
        · exact idle

end AfterEvent

/-- A latch stays idle until an event is opened. -/
theorem idle_until_event {start index : Nat} (follows : start < index)
    (inRun : index ≤ frames.length)
    (idle : (latchAt config judgeConfig frames (start + 1)).phase = .idle)
    (quiet : QuietBetween config judgeConfig frames start index) :
    (latchAt config judgeConfig frames index).phase = .idle := by
  induction index, follows using Nat.le_induction with
  | base => exact idle
  | succ index follows ih =>
      have stillIdle := ih (by omega) fun earlier after before =>
        quiet earlier after (by omega)
      have indexInRun : index < frames.length := by omega
      have ended : (latchAt config judgeConfig frames index).holdRuns
          frames[index].nowMs = false := by
        simp [holdRuns, stillIdle]
      have noEvent : ¬ StartsEvent config judgeConfig
          (latchAt config judgeConfig frames index) frames[index] :=
        fun starts => quiet index follows (Nat.lt_succ_self index)
          ⟨indexInRun, starts⟩
      rw [latchAt_succ indexInRun, update_of_quiet ended noEvent,
        settle_of_idle stillIdle]
      exact stillIdle

/-- An idle latch opens an event of the class of the first detection of the
frame that is judged `stop`. -/
theorem eventAt_of_idle {index : Nat} {det : DetectionRecord F}
    (inRun : index < frames.length)
    (classIds : ∀ det ∈ frames[index].items, 0 ≤ det.classId)
    (idle : (latchAt config judgeConfig frames index).phase = .idle)
    (firstStop : frames[index].items.find?
      (fun det => judgeOne det judgeConfig == .stop) = some det) :
    EventAt config judgeConfig frames index ∧
      (latchAt config judgeConfig frames (index + 1)).latchedClass =
        det.classId := by
  have ended : (latchAt config judgeConfig frames index).holdRuns
      frames[index].nowMs = false := by
    simp [holdRuns, idle]
  have settled : HazardLatch.settle config judgeConfig
      (latchAt config judgeConfig frames index) frames[index] =
        latchAt config judgeConfig frames index := settle_of_idle idle
  have nothingExcluded :
      (latchAt config judgeConfig frames index).excludedClass = -1 := by
    simp [excludedClass, idle]
  have mem := List.mem_of_find?_eq_some firstStop
  have stops : judgeOne det judgeConfig = .stop := by
    simpa using List.find?_some firstStop
  have judged : (judgeWorst frames[index].items judgeConfig (-1)).1 = .stop :=
    judgeWorst_eq_stop_iff.mpr ⟨det, mem, by have := classIds det mem; omega, stops⟩
  obtain ⟨named, found, namedIs⟩ := judgeWorst_stop judged
  have sameSearch : frames[index].items.find? (fun det => det.classId != -1 &&
        judgeOne det judgeConfig == .stop) =
      frames[index].items.find? (fun det => judgeOne det judgeConfig == .stop) := by
    apply List.find?_congr
    intro other otherMem
    have nonneg := classIds other otherMem
    have kept : (other.classId != -1) = true := by
      rw [bne_iff_ne]
      omega
    rw [kept, Bool.true_and]
  rw [sameSearch, firstStop, Option.some_inj] at found
  refine ⟨⟨inRun, startsEvent_iff.mpr ⟨ended, ?_⟩⟩, ?_⟩
  · rw [settled, nothingExcluded]
    exact judged
  · rw [latchAt_succ inRun, update_of_not_holdRuns ended, settled, judgeFrame,
      nothingExcluded, if_pos judged, namedIs, found]

/-- Re-trigger suppression along every run: a release is completed between two
events of a class, the first completed release makes the latch forget the
class, and from then on the class opens the next event again. -/
theorem release_along_runs (config : Config) (judgeConfig : JudgeConfig F)
    (frames : List (Frame F))
    (classIds : ∀ frame ∈ frames, ∀ det ∈ frame.items, 0 ≤ det.classId)
    (ordered : frames.Pairwise fun a b => a.nowMs ≤ b.nowMs)
    (short : frames.length < 2 ^ 32) :
    (∀ start second classId, start < second →
      EventAt config judgeConfig frames start →
      (latchAt config judgeConfig frames (start + 1)).latchedClass = classId →
      EventAt config judgeConfig frames second →
      (latchAt config judgeConfig frames (second + 1)).latchedClass = classId →
      OnlyClassBetween config judgeConfig frames classId start second →
        ∃ holdEnd last, IsHoldEnd config judgeConfig frames start holdEnd ∧
          holdEnd ≤ last ∧ last < second ∧
          CompletesRelease config judgeConfig frames classId holdEnd last) ∧
    (∀ start classId holdEnd last,
      EventAt config judgeConfig frames start →
      (latchAt config judgeConfig frames (start + 1)).latchedClass = classId →
      IsHoldEnd config judgeConfig frames start holdEnd → holdEnd ≤ last →
      last < frames.length →
      OnlyClassBetween config judgeConfig frames classId start last →
      CompletesRelease config judgeConfig frames classId holdEnd last →
      (∀ earlier, holdEnd ≤ earlier → earlier < last →
        ¬ CompletesRelease config judgeConfig frames classId holdEnd earlier) →
        (latchAt config judgeConfig frames (last + 1)).phase = .idle ∨
          EventAt config judgeConfig frames last ∧
            (latchAt config judgeConfig frames (last + 1)).latchedClass ≠
              classId) ∧
    (∀ last next det (inRun : next < frames.length), last < next →
      (latchAt config judgeConfig frames (last + 1)).phase = .idle →
      QuietBetween config judgeConfig frames last next →
      frames[next].items.find?
        (fun det => judgeOne det judgeConfig == .stop) = some det →
        EventAt config judgeConfig frames next ∧
          (latchAt config judgeConfig frames (next + 1)).latchedClass =
            det.classId) := by
  refine ⟨?_, ?_, ?_⟩
  · intro start second classId follows starts ofClass startsAgain sameClass
      onlyClass
    exact completesRelease_between classIds ordered short starts ofClass follows
      startsAgain sameClass onlyClass
  · intro start classId holdEnd last starts ofClass isHoldEnd afterHold inRun
      onlyClass completes isFirst
    exact forgets_at_first_release classIds ordered short starts ofClass
      onlyClass isHoldEnd afterHold inRun completes isFirst
  · intro last next det inRun follows idle quiet firstStop
    exact eventAt_of_idle inRun (classIds _ (List.getElem_mem inRun))
      (idle_until_event follows inRun.le idle quiet) firstStop

/-- A short hold, released after two frames and 50 ms without the class. -/
def briefConfig : Config where
  holdMs := 100
  releaseFrames := 2
  releaseMs := 50

/-- A car that leaves when its hold ends and comes back after the release. -/
def carLeavesAndReturns : List (Frame ℚ) :=
  [⟨[⟨1/4, 3/10, 3/4, 9/10, 9/10, 0⟩], 1000⟩, ⟨[], 1100⟩, ⟨[], 1150⟩,
    ⟨[⟨1/4, 3/10, 3/4, 9/10, 9/10, 0⟩], 1200⟩]

theorem release_along_runs_carLeavesAndReturns :
    ∃ holdEnd last, IsHoldEnd briefConfig {} carLeavesAndReturns 0 holdEnd ∧
      holdEnd ≤ last ∧ last < 3 ∧
      CompletesRelease briefConfig {} carLeavesAndReturns 0 holdEnd last := by
  have starts : EventAt briefConfig {} carLeavesAndReturns 0 :=
    ⟨by decide, by decide +kernel⟩
  have startsAgain : EventAt briefConfig {} carLeavesAndReturns 3 :=
    ⟨by decide, by decide +kernel⟩
  have noneBetween : OnlyClassBetween briefConfig {} carLeavesAndReturns 0 0 3 := by
    intro index after before isEvent
    revert isEvent
    interval_cases index
    · exact fun isEvent => absurd isEvent (by decide +kernel)
    · exact fun isEvent => absurd isEvent (by decide +kernel)
  exact (release_along_runs briefConfig {} carLeavesAndReturns
    (by decide +kernel) (by decide +kernel) (by decide)).1 0 3 0 (by decide)
      starts (by decide +kernel) startsAgain (by decide +kernel) noneBetween

end Adas.Safety.HazardLatch
