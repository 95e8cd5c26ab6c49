import Adas.FirstMaximum
import Adas.SafetyJudge
import Mathlib.Tactic.Linarith

/-!
# The judgement as a maximum

The loop of `judgeWorst` is a scan for the first maximum of the levels it does
not skip, so the level of a frame depends only on which detections the frame
has, and grows with them.  Over exact arithmetic the level of one detection
grows as well when the detection comes nearer.
-/

namespace Adas.Safety

open FloatOps
open FirstMaximum

instance : BoundedOrder State where
  top := .stop
  le_top := State.le_stop
  bot := .clear
  bot_le := State.clear_le

section Worst

variable {F : Type} [FloatOps F]

/-- The highest level among some detections. -/
def highestLevel (config : JudgeConfig F) (items : List (DetectionRecord F)) :
    State :=
  highest (judgeOne · config) items

/-- The detections whose class is not `excludeClass`. -/
def keptItems (excludeClass : Int) (items : List (DetectionRecord F)) :
    List (DetectionRecord F) :=
  items.filter fun det => det.classId != excludeClass

/-- The detections of `targetClass`. -/
def itemsOfClass (targetClass : Int) (items : List (DetectionRecord F)) :
    List (DetectionRecord F) :=
  items.filter fun det => det.classId == targetClass

variable {config : JudgeConfig F} {excludeClass : Int}

private theorem judgeWorstFrom_eq_scanFrom {worst : State} {outClass : Int}
    {items : List (DetectionRecord F)} :
    judgeWorstFrom config excludeClass worst outClass items =
      scanFrom (judgeOne · config) (·.classId) worst outClass
        (keptItems excludeClass items) := by
  induction items generalizing worst outClass with
  | nil => rfl
  | cons det rest ih =>
      rw [judgeWorstFrom, keptItems, List.filter_cons]
      by_cases skipped : det.classId = excludeClass
      · rw [if_pos skipped, ih, skipped, bne_self_eq_false,
          if_neg Bool.false_ne_true]
        rfl
      · have notSkipped : (det.classId != excludeClass) = true := by
          simpa using skipped
        rw [if_neg skipped, notSkipped, if_pos rfl, scanFrom]
        simp only [State.code_lt_code, ih]
        by_cases stops : judgeOne det config = ⊤
        · rw [if_pos stops]
          exact if_pos stops
        · rw [if_neg stops]
          exact if_neg stops

theorem judgeWorst_eq_scanFrom (items : List (DetectionRecord F)) :
    judgeWorst items config excludeClass =
      scanFrom (judgeOne · config) (·.classId) ⊥ (-1)
        (keptItems excludeClass items) :=
  judgeWorstFrom_eq_scanFrom

theorem judgeWorst_level (items : List (DetectionRecord F)) :
    (judgeWorst items config excludeClass).1 =
      highestLevel config (keptItems excludeClass items) := by
  rw [judgeWorst_eq_scanFrom, scanFrom_fst, max_eq_right bot_le]
  rfl

theorem judge_eq_highestLevel (items : List (DetectionRecord F)) :
    judge items config = highestLevel config (keptItems (-1) items) :=
  judgeWorst_level items

/-- The class `judgeWorst` reports is that of the first detection with the
highest level. -/
theorem judgeWorst_class {items : List (DetectionRecord F)}
    (above : (judgeWorst items config excludeClass).1 ≠ .clear) :
    ∃ det, IsFirstMaximum (judgeOne · config) (keptItems excludeClass items) det ∧
      (judgeWorst items config excludeClass).2 = det.classId := by
  rw [judgeWorst_level] at above
  rw [judgeWorst_eq_scanFrom]
  exact scanFrom_snd_of_lt (bot_lt_iff_ne_bot.mpr above)

theorem judgeWorst_class_of_clear {items : List (DetectionRecord F)}
    (clear : (judgeWorst items config excludeClass).1 = .clear) :
    (judgeWorst items config excludeClass).2 = -1 := by
  rw [judgeWorst_level] at clear
  rw [judgeWorst_eq_scanFrom]
  exact scanFrom_snd_of_le (by decide) clear.le

theorem judge_mono {items more : List (DetectionRecord F)}
    (subset : items ⊆ more) :
    judge items config ≤ judge more config := by
  rw [judge_eq_highestLevel, judge_eq_highestLevel]
  exact highest_mono (List.filter_subset _ subset)

theorem judge_congr {items other : List (DetectionRecord F)}
    (sameItems : ∀ det, det ∈ other ↔ det ∈ items) :
    judge other config = judge items config := by
  apply le_antisymm
  · exact judge_mono fun det => (sameItems det).mp
  · exact judge_mono fun det => (sameItems det).mpr

theorem judge_append (items more : List (DetectionRecord F)) :
    judge (items ++ more) config =
      max (judge items config) (judge more config) := by
  simp only [judge_eq_highestLevel, keptItems, List.filter_append]
  exact highest_append

/-- A class is present exactly when its detections alone are judged above
`clear`. -/
theorem classPresent_iff_judge {items : List (DetectionRecord F)}
    {targetClass : Int} :
    classPresent items targetClass config = true ↔
      0 ≤ targetClass ∧
        .clear < judge (itemsOfClass targetClass items) config := by
  by_cases target : 0 ≤ targetClass
  · have keepsAll : keptItems (-1) (itemsOfClass targetClass items) =
        itemsOfClass targetClass items := by
      apply List.filter_eq_self.mpr
      intro det mem
      have isTarget : det.classId = targetClass := by
        simpa using (List.mem_filter.mp mem).2
      have notMinusOne : det.classId ≠ -1 := by omega
      simpa using notMinusOne
    rw [classPresent_iff target, judge_eq_highestLevel, keepsAll]
    apply Iff.trans _ (and_iff_right target).symm
    apply Iff.trans _ bot_lt_highest_iff.symm
    constructor
    · rintro ⟨det, mem, isTarget, above⟩
      exact ⟨det, List.mem_filter.mpr ⟨mem, by simpa using isTarget⟩,
        bot_lt_iff_ne_bot.mpr above⟩
    · rintro ⟨det, mem, above⟩
      obtain ⟨inItems, isTarget⟩ := List.mem_filter.mp mem
      exact ⟨det, inItems, by simpa using isTarget, bot_lt_iff_ne_bot.mp above⟩
  · simp [classPresent, target, not_le.mp target]

/-- `judgeWorst` returns the maximum of the levels it does not skip with the
class of the first detection that has it.  So the level of a frame depends
only on which detections the frame has, it never falls when detections are
added, and two frames together are as dangerous as the worse of them. -/
theorem judgeWorst_is_first_maximum (config : JudgeConfig F)
    (items : List (DetectionRecord F)) (excludeClass : Int)
    (classIds : ∀ det ∈ items, 0 ≤ det.classId) :
    (judgeWorst items config excludeClass).1 =
        highestLevel config (keptItems excludeClass items) ∧
      ((judgeWorst items config excludeClass).2 = -1 ↔
        (judgeWorst items config excludeClass).1 = .clear) ∧
      ((judgeWorst items config excludeClass).1 ≠ .clear →
        ∃ det, IsFirstMaximum (judgeOne · config)
            (keptItems excludeClass items) det ∧
          (judgeWorst items config excludeClass).2 = det.classId) ∧
      (∀ other, other.Perm items → judge other config = judge items config) ∧
      (∀ other, (∀ det, det ∈ other ↔ det ∈ items) →
        judge other config = judge items config) ∧
      (∀ other, items ⊆ other → judge items config ≤ judge other config) ∧
      (∀ other, judge (items ++ other) config =
        max (judge items config) (judge other config)) ∧
      (∀ targetClass, classPresent items targetClass config = true ↔
        0 ≤ targetClass ∧
          .clear < judge (itemsOfClass targetClass items) config) := by
  refine ⟨judgeWorst_level items, ⟨fun minusOne => ?_, judgeWorst_class_of_clear⟩,
    judgeWorst_class, fun other perm => judge_congr fun det => perm.mem_iff,
    fun other => judge_congr, fun other => judge_mono, judge_append items,
    fun targetClass => classPresent_iff_judge⟩
  by_contra above
  obtain ⟨det, first, named⟩ := judgeWorst_class above
  have nonneg := classIds det (List.mem_of_mem_filter first.mem)
  omega

/-- A person at some distance in front of a near car. -/
def personAndCar : List (DetectionRecord ℚ) :=
  [⟨2/5, 1/2, 3/5, 4/5, 1/2, 1⟩, ⟨1/4, 3/10, 3/4, 9/10, 9/10, 0⟩]

theorem judgeWorst_is_first_maximum_personAndCar :
    (judgeWorst personAndCar {} 0).1 =
        highestLevel {} (keptItems 0 personAndCar) ∧
      judge personAndCar.reverse {} = judge personAndCar {} := by
  have facts := judgeWorst_is_first_maximum {} personAndCar 0 (by decide)
  exact ⟨facts.1, facts.2.2.2.1 _ (List.reverse_perm _)⟩

end Worst

section Levels

variable {F : Type} [FloatOps F]

/-- The checks of `judgeOne` that come before position and size. -/
def eligible (det : DetectionRecord F) (config : JudgeConfig F) : Bool :=
  !decide (0 ≤ config.classes.background ∧
      det.classId = config.classes.background) &&
    (isSignClass det.classId config.classes ||
      isHazardClass det.classId config.classes) &&
    !lt det.score config.minScore && !le (det.y2 - det.y1) (lit 0) &&
    !le det.x2 det.x1

/-- The position gate for a car or a person. -/
def onPath (det : DetectionRecord F) (config : JudgeConfig F) : Bool :=
  !lt ((det.x1 + det.x2) * lit (1 / 2)) config.zoneXMin &&
    !lt config.zoneXMax ((det.x1 + det.x2) * lit (1 / 2)) &&
    !lt det.y2 config.zoneYMin

/-- The size gates in the order of `judgeOne`. -/
def sizeLevel (det : DetectionRecord F) (config : JudgeConfig F) : State :=
  if isSignClass det.classId config.classes then
    if le config.signSlowWidth (det.x2 - det.x1) then .slow else .clear
  else if !onPath det config then
    .clear
  else if le config.stopHeight (det.y2 - det.y1) then
    .stop
  else if le config.slowHeight (det.y2 - det.y1) then
    .slow
  else
    .clear

theorem judgeOne_eq_sizeLevel (det : DetectionRecord F) (config : JudgeConfig F) :
    judgeOne det config =
      if eligible det config then sizeLevel det config else .clear := by
  unfold judgeOne
  dsimp only
  by_cases isBackground :
      0 ≤ config.classes.background ∧ det.classId = config.classes.background
  · rw [if_pos isBackground, eligible, decide_eq_true isBackground]
    rfl
  · rw [if_neg isBackground, eligible, decide_eq_false isBackground]
    cases sign : isSignClass det.classId config.classes <;>
      cases hazard : isHazardClass det.classId config.classes <;>
      cases low : lt det.score config.minScore <;>
      cases flat : le (det.y2 - det.y1) (lit 0) <;>
      cases flipped : le det.x2 det.x1 <;>
      simp only [sign, Bool.not_true, Bool.not_false, Bool.and_true,
        Bool.and_false, Bool.or_true, Bool.or_false,
        Bool.false_eq_true, if_true, if_false, sizeLevel]
    -- A car or a person with a usable box.
    rw [onPath]
    cases lt ((det.x1 + det.x2) * lit (1 / 2)) config.zoneXMin <;>
      cases lt config.zoneXMax ((det.x1 + det.x2) * lit (1 / 2)) <;>
      cases lt det.y2 config.zoneYMin <;> rfl

end Levels

section Nearer

/-- A detection of the same class that is at least as certain, and whose box
keeps its horizontal centre and reaches at least as far up, down and aside. -/
structure Nearer (det nearer : DetectionRecord ℚ) : Prop where
  sameClass : nearer.classId = det.classId
  score : det.score ≤ nearer.score
  top : nearer.y1 ≤ det.y1
  bottom : det.y2 ≤ nearer.y2
  centre : nearer.x1 + nearer.x2 = det.x1 + det.x2
  width : det.x2 - det.x1 ≤ nearer.x2 - nearer.x1

variable {det nearer : DetectionRecord ℚ} {config : JudgeConfig ℚ}

theorem Nearer.height (comesNearer : Nearer det nearer) :
    det.y2 - det.y1 ≤ nearer.y2 - nearer.y1 :=
  sub_le_sub comesNearer.bottom comesNearer.top

theorem eligible_of_nearer (comesNearer : Nearer det nearer)
    (counts : eligible det config = true) : eligible nearer config = true := by
  have score := comesNearer.score
  have height := comesNearer.height
  have width := comesNearer.width
  simp only [eligible, comesNearer.sameClass, Bool.and_eq_true,
    Bool.not_eq_true', lt_rat, le_rat, decide_eq_false_iff_not, not_lt,
    not_le] at counts ⊢
  obtain ⟨⟨⟨⟨known, relevant⟩, certain⟩, upright⟩, ordered⟩ := counts
  refine ⟨⟨⟨⟨known, relevant⟩, ?_⟩, ?_⟩, ?_⟩
  · exact certain.trans score
  · exact upright.trans_le height
  · linarith

theorem onPath_of_nearer (comesNearer : Nearer det nearer)
    (placed : onPath det config = true) : onPath nearer config = true := by
  have bottom := comesNearer.bottom
  simp only [onPath, comesNearer.centre, Bool.and_eq_true, Bool.not_eq_true',
    lt_rat, decide_eq_false_iff_not, not_lt] at placed ⊢
  exact ⟨placed.1, placed.2.trans bottom⟩

theorem sizeLevel_le_of_nearer (comesNearer : Nearer det nearer) :
    sizeLevel det config ≤ sizeLevel nearer config := by
  have height := comesNearer.height
  have width := comesNearer.width
  unfold sizeLevel
  rw [comesNearer.sameClass]
  cases isSignClass det.classId config.classes with
  | true =>
      simp only [if_true, le_rat, decide_eq_true_eq]
      split_ifs with wide stillWide
      · exact le_rfl
      · exact absurd (wide.trans width) stillWide
      · exact State.clear_le _
      · exact State.clear_le _
  | false =>
      cases placed : onPath det config with
      | false => exact State.clear_le _
      | true =>
          simp only [onPath_of_nearer comesNearer placed, Bool.false_eq_true, if_false,
            Bool.not_true, le_rat, decide_eq_true_eq]
          -- Whatever the order of the two heights, a taller box passes the
          -- gates a lower one passed.
          split_ifs with stops stillStops slows stillSlows
          all_goals first
            | exact State.le_stop _
            | exact State.clear_le _
            | exact le_rfl
            | exact absurd (stops.trans height) stillStops
            | linarith

/-- A detection that comes nearer is never judged safer. -/
theorem judgeOne_le_of_nearer (comesNearer : Nearer det nearer) :
    judgeOne det config ≤ judgeOne nearer config := by
  rw [judgeOne_eq_sizeLevel, judgeOne_eq_sizeLevel]
  cases counts : eligible det config with
  | false => exact State.clear_le _
  | true =>
      rw [eligible_of_nearer comesNearer counts]
      exact sizeLevel_le_of_nearer comesNearer

/-- Raising the score, lifting the top edge, lowering the bottom edge and
widening the box about its centre never lower the level of a detection, in
every configuration. -/
theorem judgeOne_nearer_is_never_safer (config : JudgeConfig ℚ)
    (det : DetectionRecord ℚ) :
    (∀ score, det.score ≤ score →
      judgeOne det config ≤ judgeOne { det with score := score } config) ∧
    (∀ y1, y1 ≤ det.y1 →
      judgeOne det config ≤ judgeOne { det with y1 := y1 } config) ∧
    (∀ y2, det.y2 ≤ y2 →
      judgeOne det config ≤ judgeOne { det with y2 := y2 } config) ∧
    (∀ margin, 0 ≤ margin → judgeOne det config ≤
      judgeOne { det with x1 := det.x1 - margin, x2 := det.x2 + margin } config) := by
  have unchanged : Nearer det det :=
    ⟨rfl, le_rfl, le_rfl, le_rfl, rfl, le_rfl⟩
  refine ⟨fun score higher => ?_, fun y1 lifted => ?_, fun y2 lowered => ?_,
    fun margin nonneg => ?_⟩
  · exact judgeOne_le_of_nearer { unchanged with score := higher }
  · exact judgeOne_le_of_nearer { unchanged with top := lifted }
  · exact judgeOne_le_of_nearer { unchanged with bottom := lowered }
  · apply judgeOne_le_of_nearer
    refine { unchanged with centre := ?_, width := ?_ }
    · exact sub_add_add_cancel det.x1 det.x2 margin
    · change det.x2 - det.x1 ≤ det.x2 + margin - (det.x1 - margin)
      linarith

/-- A person a little too far for `slow`, seen again closer by. -/
theorem judgeOne_nearer_is_never_safer_person :
    judgeOne (⟨2/5, 1/2, 3/5, 7/10, 1/2, 1⟩ : DetectionRecord ℚ) {} ≤
      judgeOne (⟨2/5, 1/2, 3/5, 4/5, 1/2, 1⟩ : DetectionRecord ℚ) {} :=
  (judgeOne_nearer_is_never_safer {} ⟨2/5, 1/2, 3/5, 7/10, 1/2, 1⟩).2.2.1 (4/5)
    (by decide +kernel)

end Nearer

end Adas.Safety
