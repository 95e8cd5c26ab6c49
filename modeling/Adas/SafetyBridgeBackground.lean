import Adas.SafetyBridgeHistory
import Adas.SafetyJudgeOrder
import Mathlib.Algebra.Order.Field.Basic
import Mathlib.Tactic.Ring

/-!
# The background fallback against the person rule

A candidate that the classifier calls background raises the state to `slow`
when it is large and close on the path.  The same box without a class is judged
as a person, so the fallback should not react where the person rule does not.
The two rules share the gates on place and height, but the fallback tests the
objectness against a constant where the person rule and the documentation have
the configured score.
-/

namespace Adas.Control.SafetyBridge

open FloatOps
open Safety

variable {F : Type} [FloatOps F]

section Statement

/-- When a successful classification as background raises the flag, the same
box with a failed classification is judged at least `slow`, and its objectness
reaches the configured score. -/
def NoStrongerThanPerson (settings : Settings F) (bbox : RoiBbox F) : Prop :=
  ∀ success failure : RoiResult,
    observe settings bbox success = .background true →
    failure.status ≠ roiStatusOk →
      ∃ record, observe settings bbox failure = .detection record ∧
        .slow ≤ judgeOne record settings.judgeConfig ∧
        le settings.judgeConfig.minScore bbox.objectness = true

/-- The gates of the fallback pass only for a box with the configured score
whose normalised edges are in order. -/
def FallbackJustified (settings : Settings F) (bbox : RoiBbox F) : Prop :=
  unusable bbox = false →
  dangerousBackground settings.judgeConfig (normalised bbox 0) = true →
    le settings.judgeConfig.minScore bbox.objectness = true ∧
    le ((normalised bbox 0).y2 - (normalised bbox 0).y1) (lit 0) = false ∧
    le (normalised bbox 0).x2 (normalised bbox 0).x1 = false

/-- A ratio that `ps_safety_start` takes from the environment. -/
def IsRatio (value : ℚ) : Prop :=
  0 ≤ value ∧ value ≤ 1

instance (value : ℚ) : Decidable (IsRatio value) :=
  inferInstanceAs (Decidable (0 ≤ value ∧ value ≤ 1))

/-- The thresholds with which `ps_safety_start` starts. -/
structure Accepted (config : JudgeConfig ℚ) : Prop where
  signSlowWidth : IsRatio config.signSlowWidth
  stopHeight : IsRatio config.stopHeight
  slowHeight : IsRatio config.slowHeight
  zoneYMin : IsRatio config.zoneYMin
  zoneXMin : IsRatio config.zoneXMin
  zoneXMax : IsRatio config.zoneXMax
  minScore : IsRatio config.minScore
  zoneOrdered : config.zoneXMin ≤ config.zoneXMax

end Statement

variable {settings : Settings F} {bbox : RoiBbox F}

/-- When a classification raises the flag. -/
theorem observe_eq_background_iff {result : RoiResult} :
    observe settings bbox result = .background true ↔
      unusable bbox = false ∧ result.status = roiStatusOk ∧
        result.classId.toInt = 0 ∧
        dangerousBackground settings.judgeConfig (normalised bbox 0) = true := by
  rw [observe]
  cases usable : unusable bbox with
  | true => simp
  | false =>
      by_cases failed : result.status = roiStatusOk
      · by_cases background : result.classId.toInt = 0
        · simp [failed, background, projectClassMap]
        · simp [failed, background, projectClassMap]
      · simp [failed]

theorem observe_of_failed {result : RoiResult} (usable : unusable bbox = false)
    (failed : result.status ≠ roiStatusOk) :
    observe settings bbox result = .detection (normalised bbox 2) := by
  simp [observe, usable, failed, projectClassMap]

theorem personClass : isSignClass 2 projectClassMap = false ∧
    isHazardClass 2 projectClassMap = true := by
  decide

/-- A person passes the first checks when its score and its box do. -/
theorem eligible_person_iff :
    eligible (normalised bbox 2) settings.judgeConfig = true ↔
      lt bbox.objectness settings.judgeConfig.minScore = false ∧
      le ((normalised bbox 0).y2 - (normalised bbox 0).y1) (lit 0) = false ∧
      le (normalised bbox 0).x2 (normalised bbox 0).x1 = false := by
  have notBackground : ¬ ((0 : Int) ≤ projectClassMap.background ∧
      (2 : Int) = projectClassMap.background) := by decide
  simp [eligible, normalised, notBackground, personClass, and_assoc]

/-- A person whose gates of place and height are those of the fallback is
judged at least `slow`. -/
theorem slow_le_sizeLevel_person [LawfulCompare F]
    (dangerous : dangerousBackground settings.judgeConfig (normalised bbox 0) =
      true) :
    .slow ≤ sizeLevel (normalised bbox 2) settings.judgeConfig := by
  simp only [dangerousBackground, Bool.and_eq_true] at dangerous
  obtain ⟨⟨⟨⟨-, left⟩, right⟩, bottom⟩, tall⟩ := dangerous
  have placed : onPath (normalised bbox 2) settings.judgeConfig = true := by
    have notLeft := LawfulCompare.not_lt_of_le _ _ left
    have notRight := LawfulCompare.not_lt_of_le _ _ right
    have notHigh := LawfulCompare.not_lt_of_le _ _ bottom
    simp only [onPath, Bool.and_eq_true, Bool.not_eq_true']
    exact ⟨⟨notLeft, notRight⟩, notHigh⟩
  have isTall : le settings.judgeConfig.slowHeight
      ((normalised bbox 2).y2 - (normalised bbox 2).y1) = true := tall
  have notSign : isSignClass (normalised bbox 2).classId
      settings.judgeConfig.classes = false := personClass.1
  rw [sizeLevel, notSign, placed, isTall]
  simp only [Bool.false_eq_true, if_false, Bool.not_true, if_true]
  split_ifs <;> decide

/-- The fallback is no stronger than the person rule exactly when its gates
pass only for boxes with the configured score and with edges in order. -/
theorem noStrongerThanPerson_iff [LawfulCompare F] (settings : Settings F)
    (bbox : RoiBbox F) :
    NoStrongerThanPerson settings bbox ↔ FallbackJustified settings bbox := by
  constructor
  · intro weaker usable dangerous
    have raised : observe settings bbox ⟨roiStatusOk, 0, 0⟩ = .background true :=
      observe_eq_background_iff.mpr ⟨usable, rfl, by decide, dangerous⟩
    obtain ⟨record, observed, slow, score⟩ :=
      weaker ⟨roiStatusOk, 0, 0⟩ ⟨1, 0, 0⟩ raised (by decide)
    rw [observe_of_failed usable (by decide), Observed.detection.injEq] at observed
    subst record
    have counts : eligible (normalised bbox 2) settings.judgeConfig = true := by
      by_contra notCounted
      rw [judgeOne_eq_sizeLevel, if_neg notCounted] at slow
      exact absurd slow (by decide)
    exact ⟨score, (eligible_person_iff.mp counts).2⟩
  · intro justified success failure raised failed
    obtain ⟨usable, -, -, dangerous⟩ := observe_eq_background_iff.mp raised
    obtain ⟨score, edges⟩ := justified usable dangerous
    have counts : eligible (normalised bbox 2) settings.judgeConfig = true :=
      eligible_person_iff.mpr ⟨LawfulCompare.not_lt_of_le _ _ score, edges⟩
    refine ⟨normalised bbox 2, observe_of_failed usable failed, ?_, score⟩
    rw [judgeOne_eq_sizeLevel, if_pos counts]
    exact slow_le_sizeLevel_person dangerous

section ExactArithmetic

variable {exact : Settings ℚ} {box : RoiBbox ℚ}

/-- In exact arithmetic a usable box keeps its edges in order. -/
theorem edges_ordered (usable : unusable box = false) :
    le ((normalised box 0).y2 - (normalised box 0).y1) (lit 0) = false ∧
      le (normalised box 0).x2 (normalised box 0).x1 = false := by
  simp only [unusable, Bool.or_eq_false_iff, Bool.not_eq_false', lt_rat,
    decide_eq_true_eq] at usable
  obtain ⟨⟨⟨⟨-, width⟩, height⟩, frameWide⟩, frameHigh⟩ := usable
  have higher : box.y / frameHeight < (box.y + box.height) / frameHeight :=
    div_lt_div_of_pos_right (lt_add_of_pos_right _ height) frameHigh
  have further : box.x / frameWidth < (box.x + box.width) / frameWidth :=
    div_lt_div_of_pos_right (lt_add_of_pos_right _ width) frameWide
  simp only [normalised, le_rat, decide_eq_false_iff_not, not_le]
  exact ⟨sub_pos.mpr higher, further⟩

/-- A box at the left end of the path that passes all gates of the fallback
with the least objectness it accepts. -/
def nearestBackground (config : JudgeConfig ℚ) : RoiBbox ℚ where
  x := 640 * config.zoneXMin - 32
  y := 360 * config.zoneYMin
  width := 64
  height := 360 * (config.slowHeight + 1)
  objectness := 1 / 4
  frameWidth := 640
  frameHeight := 360

theorem nearestBackground_raises (accepted : Accepted exact.judgeConfig) :
    unusable (nearestBackground exact.judgeConfig) = false ∧
      dangerousBackground exact.judgeConfig
        (normalised (nearestBackground exact.judgeConfig) 0) = true := by
  have tall := accepted.slowHeight.1
  have ordered := accepted.zoneOrdered
  have wide : (frameWidth : ℚ) = 640 := rfl
  have high : (frameHeight : ℚ) = 360 := rfl
  have least : (minObjectness : ℚ) = 1 / 4 := by decide +kernel
  have half : (lit (1 / 2) : ℚ) = 1 / 2 := rfl
  have zero : (lit 0 : ℚ) = 0 := rfl
  have centre : (normalised (nearestBackground exact.judgeConfig) 0).x1 +
      (normalised (nearestBackground exact.judgeConfig) 0).x2 =
        2 * exact.judgeConfig.zoneXMin := by
    simp only [normalised, nearestBackground, wide]
    ring
  have bottom : (normalised (nearestBackground exact.judgeConfig) 0).y2 =
      exact.judgeConfig.zoneYMin + (exact.judgeConfig.slowHeight + 1) := by
    simp only [normalised, nearestBackground, high]
    ring
  have top : (normalised (nearestBackground exact.judgeConfig) 0).y1 =
      exact.judgeConfig.zoneYMin := by
    simp only [normalised, nearestBackground, high]
    ring
  constructor
  · simp only [unusable, nearestBackground, least, wide, high, zero, lt_rat,
      Bool.or_eq_false_iff, Bool.not_eq_false', decide_eq_true_eq,
      decide_eq_false_iff_not]
    norm_num
    linarith
  · simp only [dangerousBackground, centre, top, bottom, least, half,
      Bool.and_eq_true, le_rat, decide_eq_true_eq]
    refine ⟨⟨⟨⟨le_rfl, ?_⟩, ?_⟩, ?_⟩, ?_⟩ <;> linarith

/-- In exact arithmetic only the score is left of the condition. -/
theorem fallbackJustified_exact_iff :
    FallbackJustified exact box ↔
      (unusable box = false →
        dangerousBackground exact.judgeConfig (normalised box 0) = true →
          exact.judgeConfig.minScore ≤ box.objectness) := by
  constructor
  · intro justified usable dangerous
    simpa using (justified usable dangerous).1
  · intro score usable dangerous
    exact ⟨by simpa using score usable dangerous, edges_ordered usable⟩

/-- In exact arithmetic the fallback is justified for every box exactly when the
configured score is no more than the least objectness. -/
theorem fallbackJustified_all_iff (accepted : Accepted exact.judgeConfig) :
    (∀ box, FallbackJustified exact box) ↔
      exact.judgeConfig.minScore ≤ 1 / 4 := by
  have least : (minObjectness : ℚ) = 1 / 4 := by decide +kernel
  constructor
  · intro justified
    obtain ⟨usable, dangerous⟩ := nearestBackground_raises accepted
    exact fallbackJustified_exact_iff.mp (justified _) usable dangerous
  · intro low box
    rw [fallbackJustified_exact_iff]
    intro usable _
    simp only [unusable, Bool.or_eq_false_iff, least, lt_rat,
      decide_eq_false_iff_not, not_lt] at usable
    exact low.trans usable.1.1.1.1

end ExactArithmetic

/-- The fallback reacts no more strongly than the person rule to a box exactly
when it is justified for that box.  In exact arithmetic a configuration has no
other boxes exactly when its score is at most the least objectness. -/
theorem background_fallback_iff (F : Type) [FloatOps F] [LawfulCompare F]
    (settings : Settings F) (exact : Settings ℚ)
    (accepted : Accepted exact.judgeConfig) :
    (∀ bbox, NoStrongerThanPerson settings bbox ↔
      FallbackJustified settings bbox) ∧
    ((∀ bbox, NoStrongerThanPerson exact bbox) ↔
      exact.judgeConfig.minScore ≤ 1 / 4) := by
  refine ⟨noStrongerThanPerson_iff settings, ?_⟩
  simp only [noStrongerThanPerson_iff]
  exact fallbackJustified_all_iff accepted

/-- The thresholds of the source with another score. -/
def settingsWithScore (minScore : ℚ) : Settings ℚ :=
  { thresholds := { minScore := minScore } }

theorem settingsWithScore_accepted (minScore : ℚ) (isRatio : IsRatio minScore) :
    Accepted (settingsWithScore minScore).judgeConfig where
  signSlowWidth := show IsRatio (12 / 100) by decide +kernel
  stopHeight := show IsRatio (45 / 100) by decide +kernel
  slowHeight := show IsRatio (25 / 100) by decide +kernel
  zoneYMin := show IsRatio (55 / 100) by decide +kernel
  zoneXMin := show IsRatio (25 / 100) by decide +kernel
  zoneXMax := show IsRatio (75 / 100) by decide +kernel
  minScore := isRatio
  zoneOrdered := show (25 / 100 : ℚ) ≤ 75 / 100 by decide +kernel

theorem background_fallback_iff_default :
    NoStrongerThanPerson (settingsWithScore (1 / 4)) carBbox :=
  (background_fallback_iff ℚ {} (settingsWithScore (1 / 4))
    (settingsWithScore_accepted _ (by decide +kernel))).2.mpr
    (by decide +kernel) carBbox

/-- A near box with little objectness. -/
def faintCandidate : RoiBbox ℚ :=
  { carBbox with objectness := 3 / 10 }

/-- With a score of one half, a near box of little objectness that is classified
as background raises the flag, although it is judged `clear` as a person. -/
theorem not_noStrongerThanPerson :
    ¬ ∀ (exact : Settings ℚ), Accepted exact.judgeConfig →
      ∀ bbox, NoStrongerThanPerson exact bbox := by
  intro weaker
  have accepted : Accepted (settingsWithScore (1 / 2)).judgeConfig :=
    settingsWithScore_accepted _ (by decide +kernel)
  have raised : observe (settingsWithScore (1 / 2)) faintCandidate
      ⟨roiStatusOk, 0, 900000⟩ = .background true :=
    observe_eq_background_iff.mpr
      ⟨by decide +kernel, rfl, by decide, by decide +kernel⟩
  obtain ⟨record, observed, slow, -⟩ :=
    weaker _ accepted _ _ ⟨1, 0, 0⟩ raised (by decide)
  rw [observe_of_failed (by decide +kernel) (by decide),
    Observed.detection.injEq] at observed
  rw [← observed] at slow
  exact absurd slow (by decide +kernel)

end Adas.Control.SafetyBridge
