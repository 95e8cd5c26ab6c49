import Adas.SafetyDebounce

/-!
# When the debounce lowers its state

Before each update of a run the debounce has either settled on the last
judgement or waits with a candidate, and then its counter and its start time
are those of the streak of equal judgements that ends there.  From this follows
at which update of a streak the state is lowered, and so which runs obey the
rule that the debounce is there to implement.
-/

namespace Adas.Safety.Debounce

section Runs

variable (start : Debounce) (updates : List Update)

/-- The debounce before the update at `index` of a run. -/
def debounceAt (index : Nat) : Debounce :=
  (machine start).stateAt updates index

/-- The state that is held before the update at `index`. -/
def heldAt (index : Nat) : State :=
  (debounceAt start updates index).state

/-- The answer of the update at `index`. -/
def answerAt (index : Nat) (inRun : index < updates.length) : State :=
  ((debounceAt start updates index).update updates[index]).2

/-- The judgement of the update at `index`. -/
def rawAt (index : Nat) : Option State :=
  updates[index]?.map Update.raw

/-- The clock of the update at `index`. -/
def timeAt (index : Nat) : Nat :=
  (updates[index]?.map fun event => event.nowMs.toNat).getD 0

/-- Every update from `first` to `last` judges `raw`, less than what is held. -/
def Lowers (raw : State) (first last : Nat) : Prop :=
  ∀ index, first ≤ index → index ≤ last →
    rawAt updates index = some raw ∧ raw < heldAt start updates index

/-- The update at `last` has enough updates with `raw` behind it, and enough
time. -/
def CompletesRelease (raw : State) (last : Nat) : Prop :=
  ∃ first ≤ last, Lowers start updates raw first last ∧
    start.config.releaseFrames.toNat ≤ last - first + 1 ∧
    start.config.releaseHoldMs.toNat ≤ timeAt updates last - timeAt updates first

/-- What is promised of the update at `index`, given its judgement and its
answer. -/
structure Debounced (index : Nat) (raw answer : State) : Prop where
  notLess : raw ≤ answer
  atOnce : heldAt start updates index < raw → answer = raw
  lowered : ∀ lower, answer = lower ∧ lower < heldAt start updates index ↔
    CompletesRelease start updates lower index

/-- The run obeys the rule of the debounce. -/
def ObeysRule : Prop :=
  ∀ index (inRun : index < updates.length),
    Debounced start updates index updates[index].raw (answerAt start updates index inRun)

/-- The updates from `first` to `last` judge `raw`, and the one before not. -/
structure IsStreak (raw : State) (first last : Nat) : Prop where
  ordered : first ≤ last
  same : ∀ index, first ≤ index → index ≤ last → rawAt updates index = some raw
  starts : ∀ index, index + 1 = first → rawAt updates index ≠ some raw

/-- If less is judged than what is held at the update at `index`, more than one
update or some time is asked for, and the counter is not behind after it has
wrapped. -/
def Counts (index : Nat) : Prop :=
  ∀ raw, rawAt updates index = some raw → raw < heldAt start updates index →
    (2 ≤ start.config.releaseFrames.toNat ∨ 0 < start.config.releaseHoldMs.toNat) ∧
    ∀ first, IsStreak updates raw first index → 2 ^ 32 ≤ index - first + 1 →
      start.config.releaseHoldMs.toNat ≤ timeAt updates index - timeAt updates first →
      start.config.releaseFrames.toNat ≤ (index - first + 1) % 2 ^ 32

/-- The candidate before the update at `index` has been seen since `first`. -/
structure Waits (index : Nat) (debounce : Debounce) (first : Nat) : Prop where
  before : first < index
  below : debounce.pending < debounce.state
  seen : ∀ earlier, first ≤ earlier → earlier < index →
    rawAt updates earlier = some debounce.pending ∧
      heldAt start updates earlier = debounce.state
  starts : ∀ earlier, earlier + 1 = first →
    rawAt updates earlier ≠ some debounce.pending
  frames : debounce.pendingFrames.toNat = (index - first) % 2 ^ 32
  since : debounce.pendingSince.toNat = timeAt updates first

/-- The held state is the last judgement. -/
structure Settled (index : Nat) (debounce : Debounce) : Prop where
  pending : debounce.pending = debounce.state
  last : ∀ earlier, earlier + 1 = index → rawAt updates earlier = some debounce.state

/-- What the debounce knows before the update at `index`. -/
def Tracks (index : Nat) (debounce : Debounce) : Prop :=
  debounce.config = start.config ∧
    (Settled updates index debounce ∨ ∃ first, Waits start updates index debounce first)

end Runs

variable {start : Debounce} {updates : List Update}

section Positions

variable {index : Nat} (inRun : index < updates.length)

include inRun

theorem debounceAt_succ :
    debounceAt start updates (index + 1) =
      ((debounceAt start updates index).update updates[index]).1 :=
  EventMachine.stateAt_succ inRun

theorem rawAt_of_lt : rawAt updates index = some updates[index].raw := by
  simp [rawAt, inRun]

theorem timeAt_of_lt : timeAt updates index = updates[index].nowMs.toNat := by
  simp [timeAt, inRun]

theorem timeAt_mono (ordered : updates.Pairwise fun a b => a.nowMs ≤ b.nowMs)
    {earlier : Nat} (le : earlier ≤ index) :
    timeAt updates earlier ≤ timeAt updates index := by
  rw [timeAt_of_lt inRun, timeAt_of_lt (le.trans_lt inRun)]
  rcases le.lt_or_eq with before | rfl
  · exact UInt64.le_iff_toNat_le.mp (List.pairwise_iff_getElem.mp ordered _ _ _ _ before)
  · exact le_rfl

end Positions

section Streaks

variable {index : Nat} {debounce : Debounce}

/-- A judgement below the held state is a new candidate or the one that is
waited with. -/
theorem Tracks.candidate (tracks : Tracks start updates index debounce) {raw : State}
    (below : raw < debounce.state) :
    (raw ≠ debounce.pending ∧
      ∀ earlier, earlier + 1 = index → rawAt updates earlier ≠ some raw) ∨
    (raw = debounce.pending ∧ ∃ first, Waits start updates index debounce first) := by
  rcases tracks.2 with settled | ⟨first, waits⟩
  · refine Or.inl ⟨settled.pending ▸ below.ne, ?_⟩
    intro earlier isLast
    rw [settled.last earlier isLast]
    exact fun same => below.ne (Option.some.inj same).symm
  · by_cases same : raw = debounce.pending
    · exact Or.inr ⟨same, first, waits⟩
    · refine Or.inl ⟨same, ?_⟩
      intro earlier isLast
      have before := waits.before
      rw [(waits.seen earlier (by omega) (by omega)).1]
      exact fun isRaw => same (Option.some.inj isRaw).symm

variable (inRun : index < updates.length)
  (isDebounce : debounce = debounceAt start updates index)

include inRun isDebounce

/-- One more update with the candidate. -/
theorem Waits.again {first : Nat} (waits : Waits start updates index debounce first)
    (same : updates[index].raw = debounce.pending) :
    Waits start updates (index + 1)
      { debounce with pendingFrames := debounce.pendingFrames + 1 } first := by
  obtain ⟨before, below, seen, starts, frames, since⟩ := waits
  refine ⟨by omega, below, ?_, starts, ?_, since⟩
  · intro earlier afterFirst inStreak
    rcases Nat.lt_succ_iff_lt_or_eq.mp inStreak with isBefore | rfl
    · exact seen earlier afterFirst isBefore
    · exact ⟨(rawAt_of_lt inRun).trans (congrArg some same), by rw [isDebounce]; rfl⟩
  · rw [UInt32.toNat_add, frames]
    simp only [UInt32.toNat_one]
    omega

omit isDebounce in
/-- When one more update with the candidate is enough. -/
theorem Waits.releaseDue_iff {first : Nat}
    (waits : Waits start updates index debounce first)
    (ordered : updates.Pairwise fun a b => a.nowMs ≤ b.nowMs)
    (config : debounce.config = start.config) :
    releaseDue { debounce with pendingFrames := debounce.pendingFrames + 1 }
        updates[index].nowMs = true ↔
      start.config.releaseFrames.toNat ≤ (index - first + 1) % 2 ^ 32 ∧
      start.config.releaseHoldMs.toNat ≤ timeAt updates index - timeAt updates first := by
  have since : debounce.pendingSince ≤ updates[index].nowMs := by
    rw [UInt64.le_iff_toNat_le, waits.since, ← timeAt_of_lt inRun]
    exact timeAt_mono inRun ordered waits.before.le
  have frames : (debounce.pendingFrames + 1).toNat = (index - first + 1) % 2 ^ 32 := by
    rw [UInt32.toNat_add, waits.frames]
    exact Nat.mod_add_mod _ _ _
  let counted := { debounce with pendingFrames := debounce.pendingFrames + 1 }
  have due : counted.releaseDue updates[index].nowMs = true ↔ _ :=
    Debounce.releaseDue_iff since
  rw [due, frames, config, waits.since, timeAt_of_lt inRun]

theorem waits_of_other (below : updates[index].raw < debounce.state)
    (starts : ∀ earlier, earlier + 1 = index →
      rawAt updates earlier ≠ some updates[index].raw) :
    Waits start updates (index + 1)
      { debounce with
        pending := updates[index].raw
        pendingFrames := 1
        pendingSince := updates[index].nowMs } index := by
  refine ⟨Nat.lt_succ_self index, below, ?_, starts, ?_, (timeAt_of_lt inRun).symm⟩
  · intro earlier afterFirst inStreak
    obtain rfl : earlier = index := by omega
    exact ⟨rawAt_of_lt inRun, by rw [isDebounce]; rfl⟩
  · simp

theorem Tracks.step (tracks : Tracks start updates index debounce) :
    Tracks start updates (index + 1) (debounce.update updates[index]).1 := by
  refine ⟨update_config.trans tracks.1, ?_⟩
  have settles : ∀ after : Debounce, after.pending = updates[index].raw →
      after.state = updates[index].raw → Settled updates (index + 1) after := by
    intro after isPending isState
    refine ⟨isPending.trans isState.symm, ?_⟩
    intro earlier isLast
    obtain rfl : earlier = index := by omega
    rw [rawAt_of_lt inRun, isState]
  rcases le_or_gt debounce.state updates[index].raw with above | below
  · rw [update_of_le above]
    exact Or.inl (settles _ rfl rfl)
  · rcases tracks.candidate below with ⟨other, starts⟩ | ⟨same, first, waits⟩
    · rw [update_of_other below other]
      exact Or.inr ⟨index, waits_of_other inRun isDebounce below starts⟩
    · rw [update_of_pending waits.below same]
      dsimp only
      split_ifs
      · exact Or.inl (settles _ same.symm same.symm)
      · exact Or.inr ⟨first, waits.again inRun isDebounce same⟩

end Streaks

theorem tracks_debounceAt (fresh : start.Fresh) {index : Nat}
    (inRun : index ≤ updates.length) :
    Tracks start updates index (debounceAt start updates index) := by
  have atStart : Settled updates 0 start := by
    rw [fresh.eq]
    exact ⟨rfl, fun earlier impossible => nomatch impossible⟩
  refine (EventMachine.stateAt_induction
    (fun index debounce => debounce = debounceAt start updates index ∧
      Tracks start updates index debounce)
    ⟨rfl, rfl, Or.inl atStart⟩ ?_ (Nat.zero_le index) inRun).2
  intro index inRun _ tracks
  exact ⟨(debounceAt_succ inRun).symm, tracks.2.step inRun tracks.1⟩

section Answers

variable (start updates) in
/-- How an update with less than what is held answers: `first` is the first
update of its streak. -/
structure Answers (index : Nat) (raw answer : State) (first : Nat) : Prop where
  streak : IsStreak updates raw first index
  held : ∀ earlier, first ≤ earlier → earlier ≤ index →
    heldAt start updates earlier = heldAt start updates index
  either : answer = raw ∨ answer = heldAt start updates index
  lowered : answer < heldAt start updates index ↔ first < index ∧
    start.config.releaseFrames.toNat ≤ (index - first + 1) % 2 ^ 32 ∧
    start.config.releaseHoldMs.toNat ≤ timeAt updates index - timeAt updates first

theorem IsStreak.first_le {raw : State} {first last other : Nat}
    (streak : IsStreak updates raw first last)
    (same : ∀ index, other ≤ index → index ≤ last → rawAt updates index = some raw) :
    first ≤ other := by
  by_contra before
  obtain ⟨previous, rfl⟩ : ∃ previous, first = previous + 1 := ⟨first - 1, by omega⟩
  have ordered := streak.ordered
  exact streak.starts previous rfl (same previous (by omega) (by omega))

theorem IsStreak.before {raw : State} {first middle last : Nat}
    (streak : IsStreak updates raw first last) (firstLe : first ≤ middle)
    (beforeLast : middle ≤ last) :
    IsStreak updates raw first middle :=
  ⟨firstLe, fun index afterFirst le => streak.same index afterFirst (le.trans beforeLast),
    streak.starts⟩

theorem IsStreak.unique {raw : State} {first last other : Nat}
    (streak : IsStreak updates raw first last)
    (isStreak : IsStreak updates raw other last) :
    first = other :=
  le_antisymm (streak.first_le isStreak.same)
    (isStreak.first_le streak.same)

variable {index : Nat}

theorem answers_of_below (fresh : start.Fresh)
    (ordered : updates.Pairwise fun a b => a.nowMs ≤ b.nowMs)
    (inRun : index < updates.length)
    (below : updates[index].raw < heldAt start updates index) :
    ∃ first, Answers start updates index updates[index].raw
      (answerAt start updates index inRun) first := by
  have tracks := tracks_debounceAt fresh inRun.le
  rcases tracks.candidate below with ⟨other, starts⟩ | ⟨same, first, waits⟩
  · refine ⟨index, ⟨le_rfl, ?_, starts⟩, ?_, ?_, ?_⟩
    · intro earlier afterFirst beforeLast
      rw [le_antisymm beforeLast afterFirst, rawAt_of_lt inRun]
    · intro earlier afterFirst beforeLast
      rw [le_antisymm beforeLast afterFirst]
    · rw [answerAt, update_of_other below other]
      exact Or.inr rfl
    · rw [answerAt, update_of_other below other]
      exact iff_of_false (lt_irrefl _) fun due => lt_irrefl _ due.1
  · have again := waits.again inRun rfl same
    have before := waits.before
    have due := waits.releaseDue_iff inRun ordered tracks.1
    refine ⟨first, ⟨before.le, ?_, ?_⟩, ?_, ?_, ?_⟩
    · intro earlier afterFirst beforeLast
      rw [same]
      exact (again.seen earlier afterFirst (Nat.lt_succ_of_le beforeLast)).1
    · rw [same]
      exact waits.starts
    · intro earlier afterFirst beforeLast
      exact (again.seen earlier afterFirst (Nat.lt_succ_of_le beforeLast)).2
    · rw [answerAt, update_of_pending waits.below same, same]
      dsimp only
      split_ifs
      · exact Or.inl rfl
      · exact Or.inr rfl
    · rw [answerAt, update_of_pending waits.below same]
      dsimp only
      split_ifs with isDue
      · exact iff_of_true waits.below ⟨before, due.mp isDue⟩
      · exact iff_of_false (lt_irrefl _) fun isDue' => isDue (due.mpr isDue'.2)

/-- The streak that ends at an update decides whether a release is complete. -/
theorem Answers.completesRelease_iff {raw answer : State} {first : Nat}
    (answers : Answers start updates index raw answer first)
    (ordered : updates.Pairwise fun a b => a.nowMs ≤ b.nowMs)
    (inRun : index < updates.length) (below : raw < heldAt start updates index) :
    CompletesRelease start updates raw index ↔
      start.config.releaseFrames.toNat ≤ index - first + 1 ∧
      start.config.releaseHoldMs.toNat ≤ timeAt updates index - timeAt updates first := by
  constructor
  · rintro ⟨other, otherLe, lowers, frames, time⟩
    have firstLe : first ≤ other := answers.streak.first_le
      fun earlier afterFirst beforeLast => (lowers earlier afterFirst beforeLast).1
    have earlierTime := timeAt_mono (otherLe.trans_lt inRun) ordered firstLe
    exact ⟨by omega, by omega⟩
  · rintro ⟨frames, time⟩
    refine ⟨first, answers.streak.ordered, ?_, frames, time⟩
    intro earlier afterFirst beforeLast
    refine ⟨answers.streak.same earlier afterFirst beforeLast, ?_⟩
    rw [answers.held earlier afterFirst beforeLast]
    exact below

theorem CompletesRelease.raw_eq {raw : State} (inRun : index < updates.length)
    (completes : CompletesRelease start updates raw index) :
    raw = updates[index].raw ∧ raw < heldAt start updates index := by
  obtain ⟨first, firstLe, lowers, _, _⟩ := completes
  obtain ⟨isRaw, below⟩ := lowers index firstLe le_rfl
  rw [rawAt_of_lt inRun] at isRaw
  exact ⟨(Option.some.inj isRaw).symm, below⟩

theorem debounced_of_le (inRun : index < updates.length)
    (above : heldAt start updates index ≤ updates[index].raw) :
    Debounced start updates index updates[index].raw
      (answerAt start updates index inRun) := by
  have isRaw : answerAt start updates index inRun = updates[index].raw := by
    rw [answerAt, update_of_le above]
  refine ⟨isRaw.ge, fun _ => isRaw, ?_⟩
  intro lower
  constructor
  · rintro ⟨rfl, isLower⟩
    exact absurd (isRaw ▸ isLower) above.not_gt
  · intro completes
    obtain ⟨rfl, isLower⟩ := completes.raw_eq inRun
    exact absurd isLower above.not_gt

/-- A counted release that is complete comes at a later update of its streak
and finds the counter far enough. -/
theorem Answers.lowered_of_counts {raw answer : State} {first : Nat}
    (answers : Answers start updates index raw answer first)
    (counts : Counts start updates index) (isRaw : rawAt updates index = some raw)
    (below : raw < heldAt start updates index)
    (frames : start.config.releaseFrames.toNat ≤ index - first + 1)
    (time : start.config.releaseHoldMs.toNat ≤
      timeAt updates index - timeAt updates first) :
    answer < heldAt start updates index := by
  obtain ⟨bounds, wrapped⟩ := counts raw isRaw below
  -- The first update of a streak has neither a second frame nor any time.
  have before : first < index := by
    rcases answers.streak.ordered.lt_or_eq with before | rfl
    · exact before
    · omega
  have counted : start.config.releaseFrames.toNat ≤ (index - first + 1) % 2 ^ 32 := by
    rcases lt_or_ge (index - first + 1) (2 ^ 32) with short | long
    · rwa [Nat.mod_eq_of_lt short]
    · exact wrapped first answers.streak long time
  exact answers.lowered.mpr ⟨before, counted, time⟩

theorem debounced_of_counts (fresh : start.Fresh)
    (ordered : updates.Pairwise fun a b => a.nowMs ≤ b.nowMs)
    (inRun : index < updates.length) (counts : Counts start updates index) :
    Debounced start updates index updates[index].raw
      (answerAt start updates index inRun) := by
  rcases le_or_gt (heldAt start updates index) updates[index].raw with above | below
  · exact debounced_of_le inRun above
  · obtain ⟨first, answers⟩ := answers_of_below fresh ordered inRun below
    have completes := answers.completesRelease_iff ordered inRun below
    refine ⟨?_, fun above => absurd above below.not_gt, ?_⟩
    · rcases answers.either with isRaw | isHeld
      · exact isRaw.ge
      · exact isHeld ▸ below.le
    · intro lower
      constructor
      · rintro ⟨rfl, isLower⟩
        obtain ⟨_, frames, time⟩ := answers.lowered.mp isLower
        have isRaw : answerAt start updates index inRun = updates[index].raw :=
          answers.either.resolve_right isLower.ne
        rw [isRaw]
        exact completes.mpr ⟨frames.trans (Nat.mod_le _ _), time⟩
      · intro isComplete
        obtain ⟨rfl, -⟩ := isComplete.raw_eq inRun
        obtain ⟨frames, time⟩ := completes.mp isComplete
        have isLower :=
          answers.lowered_of_counts counts (rawAt_of_lt inRun) below frames time
        exact ⟨answers.either.resolve_right isLower.ne, below⟩

/-- A run that obeys the rule lowers the state where the release is complete. -/
theorem ObeysRule.counted (obeys : ObeysRule start updates)
    (ordered : updates.Pairwise fun a b => a.nowMs ≤ b.nowMs)
    (inRun : index < updates.length)
    (below : updates[index].raw < heldAt start updates index) {first : Nat}
    (answers : Answers start updates index updates[index].raw
      (answerAt start updates index inRun) first)
    (frames : start.config.releaseFrames.toNat ≤ index - first + 1)
    (time : start.config.releaseHoldMs.toNat ≤
      timeAt updates index - timeAt updates first) :
    first < index ∧
      start.config.releaseFrames.toNat ≤ (index - first + 1) % 2 ^ 32 := by
  have completes := (answers.completesRelease_iff ordered inRun below).mpr ⟨frames, time⟩
  have isLower := ((obeys index inRun).lowered _).mpr completes
  obtain ⟨before, counted, _⟩ := answers.lowered.mp (isLower.1 ▸ below)
  exact ⟨before, counted⟩

theorem counts_of_obeysRule (fresh : start.Fresh)
    (ordered : updates.Pairwise fun a b => a.nowMs ≤ b.nowMs)
    (obeys : ObeysRule start updates) (inRun : index < updates.length) :
    Counts start updates index := by
  intro raw isRaw below
  rw [rawAt_of_lt inRun] at isRaw
  obtain rfl := Option.some.inj isRaw
  obtain ⟨first, answers⟩ := answers_of_below fresh ordered inRun below
  constructor
  · by_contra bounds
    -- Without bounds the first update of the streak already completes the release.
    have firstLe := answers.streak.ordered
    have firstInRun : first < updates.length := firstLe.trans_lt inRun
    have sameRaw : updates[first].raw = updates[index].raw := by
      have isRaw := answers.streak.same first le_rfl firstLe
      rw [rawAt_of_lt firstInRun] at isRaw
      exact Option.some.inj isRaw
    have firstBelow : updates[first].raw < heldAt start updates first := by
      rw [sameRaw, answers.held first le_rfl firstLe]
      exact below
    obtain ⟨other, isFirst⟩ := answers_of_below fresh ordered firstInRun firstBelow
    obtain rfl : first = other := by
      have streak := answers.streak.before le_rfl firstLe
      rw [← sameRaw] at streak
      exact streak.unique isFirst.streak
    have counted := obeys.counted ordered firstInRun firstBelow isFirst (by omega) (by omega)
    exact lt_irrefl first counted.1
  · intro other streak long time
    obtain rfl := answers.streak.unique streak
    have small := start.config.releaseFrames.toNat_lt
    exact (obeys.counted ordered inRun below answers (by omega) time).2

/-- If more than one update or some time is asked for, every run that is too
short for the counter to wrap obeys the rule. -/
theorem obeysRule_of_bounds (fresh : start.Fresh)
    (ordered : updates.Pairwise fun a b => a.nowMs ≤ b.nowMs)
    (bounds : 2 ≤ start.config.releaseFrames.toNat ∨ 0 < start.config.releaseHoldMs.toNat)
    (short : updates.length < 2 ^ 32) :
    ObeysRule start updates := by
  intro index inRun
  apply debounced_of_counts fresh ordered inRun
  intro raw _ _
  refine ⟨bounds, ?_⟩
  intro first _ long
  omega

/-- A run of a debounce that has just been constructed or reset obeys the rule
if and only if its updates are counted. -/
theorem obeysRule_iff_counts (fresh : start.Fresh)
    (ordered : updates.Pairwise fun a b => a.nowMs ≤ b.nowMs) :
    ObeysRule start updates ↔ ∀ index < updates.length, Counts start updates index := by
  constructor
  · exact fun obeys index inRun => counts_of_obeysRule fresh ordered obeys inRun
  · exact fun counts index inRun => debounced_of_counts fresh ordered inRun (counts index inRun)

end Answers

/-- One frame is asked for and no time. -/
def oneFrame : Debounce :=
  { config := { releaseFrames := 1, releaseHoldMs := 0 } }

def clearAtOnce : List Update :=
  [{ raw := .clear, nowMs := 0 }]

/-- Three frames and a tenth of a second are asked for. -/
def threeFrames : Debounce :=
  { config := { releaseFrames := 3, releaseHoldMs := 100 } }

/-- The state is raised again before it is lowered to `slow` and then to `clear`. -/
def stopThenClear : List Update :=
  [{ raw := .slow, nowMs := 0 }, { raw := .stop, nowMs := 40 },
    { raw := .slow, nowMs := 80 }, { raw := .slow, nowMs := 120 },
    { raw := .slow, nowMs := 200 }, { raw := .clear, nowMs := 240 },
    { raw := .clear, nowMs := 240 }, { raw := .clear, nowMs := 400 }]

theorem obeysRule_iff_counts_stopThenClear :
    answerAt threeFrames stopThenClear 4 (by decide) = .slow ∧
      answerAt threeFrames stopThenClear 7 (by decide) = .clear ∧
      (ObeysRule threeFrames stopThenClear ↔
        ∀ index < stopThenClear.length, Counts threeFrames stopThenClear index) :=
  ⟨by decide, by decide, obeysRule_iff_counts (Or.inl rfl) (by decide)⟩

/-- The frame completes the release and the state stays at `stop`. -/
theorem not_obeysRule_oneFrame :
    ¬ ∀ (start : Debounce) (updates : List Update), start.Fresh →
      1 ≤ start.config.releaseFrames →
      (updates.Pairwise fun a b => a.nowMs ≤ b.nowMs) → ObeysRule start updates := by
  intro obeys
  have inRun : 0 < clearAtOnce.length := by decide
  have debounced := obeys oneFrame clearAtOnce (Or.inl rfl) (by decide)
    (by simp [clearAtOnce]) 0 inRun
  have completes : CompletesRelease oneFrame clearAtOnce .clear 0 := by
    refine ⟨0, le_rfl, ?_, by decide, by decide⟩
    intro index _ atFirst
    obtain rfl : index = 0 := by omega
    exact ⟨rfl, by decide⟩
  have answers : answerAt oneFrame clearAtOnce 0 inRun = .stop := rfl
  have lowered := ((debounced.lowered .clear).mpr completes).1
  rw [answers] at lowered
  exact absurd lowered (by decide)

end Adas.Safety.Debounce
