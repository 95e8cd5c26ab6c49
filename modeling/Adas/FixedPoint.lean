import Adas.ClassifierEngineRequant
import Adas.Rounding
import Mathlib.Data.Rat.Floor
import Mathlib.Tactic.FieldSimp
import Mathlib.Tactic.Positivity
import Mathlib.Tactic.Ring

/-!
# Multipliers and shifts for the requantization

A real multiplier below one is exported as an integer and a shift.  The number
is doubled until it is as large as a multiplier may be or the shift has reached
its cap, and then it is rounded.  The result stays below the power of two that
it is shifted by, so a shifted product with a 32-bit accumulator fits into 32
bits again, and the engine's narrowing loses nothing.
-/

namespace Adas.FixedPoint

open ClassifierEngine
open Rounding

variable {K : Type*} [Field K] [LinearOrder K] [IsStrictOrderedRing K]

/-- The loop that doubles the multiplier. -/
def normalize (maxShift : Nat) (m : K) (shift : Nat) : K × Nat :=
  if _more : m < 2 ^ 30 ∧ shift < maxShift then
    normalize maxShift (m * 2) (shift + 1)
  else
    (m, shift)
termination_by maxShift - shift

def deriveMultiplierShift [FloorRing K] (realMultiplier : K) (maxShift : Nat := 62) :
    Int × Int :=
  if realMultiplier ≤ 0 then
    (0, 0)
  else
    let normalized := normalize maxShift realMultiplier 0
    let multiplier := roundHalfAway normalized.1
    if multiplier ≥ 2 ^ 31 then
      (multiplier / 2, normalized.2 - 1)
    else
      (multiplier, normalized.2)

section Normalize

/-- What the loop comes to from a number and a shift. -/
structure Normalized (maxShift : Nat) (m : K) (shift : Nat) (result : K × Nat) :
    Prop where
  grows : shift ≤ result.2
  capped : result.2 ≤ maxShift
  exact : result.1 = m * 2 ^ (result.2 - shift)
  large : 2 ^ 30 ≤ result.1 ∨ result.2 = maxShift
  small : result.1 < 2 ^ 31

theorem normalized_normalize {maxShift shift : Nat} {m : K} (inRange : shift ≤ maxShift)
    (small : m < 2 ^ 31) :
    Normalized maxShift m shift (normalize maxShift m shift) := by
  fun_induction normalize maxShift m shift with
  | case1 m shift more ih =>
      have doubled : m * 2 < 2 ^ 31 := by
        have half := more.1
        norm_num at half ⊢
        linarith
      obtain ⟨grows, capped, exact, large, small⟩ := ih more.2 doubled
      refine ⟨by omega, capped, ?_, large, small⟩
      rw [exact, mul_assoc, ← pow_succ']
      congr 2
      omega
  | case2 m shift done =>
      refine ⟨le_refl shift, inRange, by simp, ?_, small⟩
      rcases le_or_gt (2 ^ 30) m with large | low
      · exact Or.inl large
      · have capReached : ¬shift < maxShift := fun more => done ⟨low, more⟩
        exact Or.inr (le_antisymm inRange (not_lt.mp capReached))

end Normalize

section Derive

/-- What is promised of a derived multiplier and shift. -/
structure Derived (realMultiplier : K) (multiplier : Int) (shift : Nat) : Prop where
  nonneg : 0 ≤ multiplier
  fits : multiplier < 2 ^ 31
  capped : shift ≤ 62
  close : |realMultiplier - multiplier / 2 ^ shift| ≤ 1 / 2 ^ (shift + 1)
  precise : 1 / 2 ^ 32 ≤ realMultiplier → 2 ^ 30 ≤ multiplier
  bounded : multiplier ≤ 2 ^ shift

/-- Rounding the number times a power of two, seen at the number itself. -/
theorem close_of_isNearest {rounded : Int} {m : K} {shift : Nat}
    (nearest : IsNearest rounded (m * 2 ^ shift)) :
    |m - rounded / 2 ^ shift| ≤ 1 / 2 ^ (shift + 1) := by
  have power : (0 : K) < 2 ^ shift := by positivity
  have split : m - rounded / 2 ^ shift = -((rounded - m * 2 ^ shift) / 2 ^ shift) := by
    field_simp
    ring
  rw [split, abs_neg, abs_div, abs_of_pos power, div_le_iff₀ power, pow_succ]
  calc |(rounded : K) - m * 2 ^ shift| ≤ 1 / 2 := nearest
    _ = 1 / (2 ^ shift * 2) * 2 ^ shift := by field_simp

/-- A multiplier that rounding has brought to `2 ^ 31` is halved, and the shift
is one less. -/
theorem derived_halved {realMultiplier : K} {less : Nat} (capped : less ≤ 62)
    (close : |realMultiplier - (2 ^ 31 : Int) / 2 ^ (less + 1)| ≤ 1 / 2 ^ (less + 1 + 1))
    (bounded : (2 : Int) ^ 31 ≤ 2 ^ (less + 1)) :
    Derived realMultiplier (2 ^ 30) less where
  nonneg := by norm_num
  fits := by norm_num
  capped := capped
  close := by
    have sameRatio : ((2 ^ 30 : Int) : K) / 2 ^ less =
        ((2 ^ 31 : Int) : K) / 2 ^ (less + 1) := by
      rw [pow_succ (2 : K) less, pow_succ (2 : Int) 30, Int.cast_mul, Int.cast_ofNat,
        mul_div_mul_right _ _ two_ne_zero]
    rw [sameRatio]
    refine close.trans (one_div_le_one_div_of_le (by positivity) ?_)
    exact pow_le_pow_right₀ (by norm_num) (Nat.le_succ _)
  precise _ := le_refl _
  bounded := by
    rw [pow_succ (2 : Int) 30, pow_succ (2 : Int) less] at bounded
    exact le_of_mul_le_mul_right bounded two_pos

variable [FloorRing K] {realMultiplier : K}

theorem derived_deriveMultiplierShift (positive : 0 < realMultiplier)
    (below : realMultiplier < 1) :
    ∃ (multiplier : Int) (shift : Nat),
      deriveMultiplierShift realMultiplier = (multiplier, (shift : Int)) ∧
        Derived realMultiplier multiplier shift := by
  have small : realMultiplier < 2 ^ 31 := lt_trans below (by norm_num)
  obtain ⟨_, capped, exact, large, small⟩ :=
    normalized_normalize (Nat.zero_le 62) small
  unfold deriveMultiplierShift
  rw [if_neg (not_le.mpr positive)]
  generalize normalize 62 realMultiplier 0 = normalized at *
  obtain ⟨m, shift⟩ := normalized
  simp only [Nat.sub_zero] at capped exact large small ⊢
  have nearest : IsNearest (roundHalfAway m) m := isNearest_roundHalfAway m
  generalize roundHalfAway m = rounded at *
  have power : (0 : K) < 2 ^ shift := by positivity
  have nonneg : 0 ≤ rounded := by
    apply nearest.ge_of_le
    rw [exact, Int.cast_zero]
    positivity
  have atMost : rounded ≤ 2 ^ 31 := nearest.le_of_lt (by exact_mod_cast small)
  have bounded : rounded ≤ 2 ^ shift := by
    apply nearest.le_of_lt
    push_cast
    rw [exact]
    exact mul_lt_of_lt_one_left power below
  have precise : 1 / 2 ^ 32 ≤ realMultiplier → 2 ^ 30 ≤ rounded := by
    intro notSmall
    apply nearest.ge_of_le
    rw [Int.cast_pow, Int.cast_ofNat]
    rcases large with large | capReached
    · exact large
    · rw [exact, capReached]
      linarith
  have close : |realMultiplier - rounded / 2 ^ shift| ≤ 1 / 2 ^ (shift + 1) :=
    close_of_isNearest (exact ▸ nearest)
  split_ifs with overflows
  · have isPower : rounded = 2 ^ 31 := le_antisymm atMost overflows
    subst isPower
    have atLeast : 31 ≤ shift :=
      (pow_le_pow_iff_right₀ (by norm_num : (1 : Int) < 2)).mp bounded
    obtain ⟨less, rfl⟩ : ∃ less, shift = less + 1 := ⟨shift - 1, by omega⟩
    exact ⟨2 ^ 30, less, by simp, derived_halved (by omega) close bounded⟩
  · exact ⟨rounded, shift, rfl, nonneg, not_le.mp overflows, capped, close, precise, bounded⟩

end Derive

section Export

/-- The multiplier and the shift as the engine's registers hold them. -/
def exported (multiplier shift : Int) : Requant :=
  ⟨BitVec.ofInt 32 multiplier, BitVec.ofInt 8 shift⟩

/-- A multiplier of at most the power of two does not make a number larger. -/
theorem shifted_fits {acc multiplier : Int} {shift : Nat} (nonneg : 0 ≤ multiplier)
    (bounded : multiplier ≤ 2 ^ shift) (lower : -2 ^ 31 ≤ acc) (upper : acc < 2 ^ 31) :
    -2 ^ 31 ≤ acc * multiplier / 2 ^ shift ∧ acc * multiplier / 2 ^ shift < 2 ^ 31 := by
  have power : (0 : Int) < 2 ^ shift := by positivity
  constructor
  · rw [Int.le_ediv_iff_mul_le power]
    calc -2 ^ 31 * 2 ^ shift ≤ -2 ^ 31 * multiplier :=
          mul_le_mul_of_nonpos_left bounded (by norm_num)
      _ ≤ acc * multiplier := mul_le_mul_of_nonneg_right lower nonneg
  · rw [Int.ediv_lt_iff_lt_mul power]
    calc acc * multiplier ≤ (2 ^ 31 - 1) * multiplier :=
          mul_le_mul_of_nonneg_right (Int.le_sub_one_of_lt upper) nonneg
      _ ≤ (2 ^ 31 - 1) * 2 ^ shift := mul_le_mul_of_nonneg_left bounded (by norm_num)
      _ < 2 ^ 31 * 2 ^ shift := by
          rw [mul_lt_mul_iff_left₀ power]
          norm_num

theorem scaledExact_exported {multiplier : Int} {shift : Nat} (nonneg : 0 ≤ multiplier)
    (fits : multiplier < 2 ^ 31) (capped : shift ≤ 62) (acc : BitVec 32) :
    scaledExact acc (exported multiplier shift) =
      acc.toInt * multiplier / 2 ^ shift := by
  have sameMultiplier : (BitVec.ofInt 32 multiplier).toInt = multiplier := by
    rw [BitVec.toInt_ofInt]
    exact FixedWidth.bmod_eq_of_fits (by decide) (by omega) (by omega)
  have sameShift : (BitVec.ofInt 8 (shift : Int)).toNat = shift := by
    rw [BitVec.toNat_ofInt]
    omega
  rw [scaledExact, exported, sameMultiplier, sameShift]

/-- A value of 32 bits is narrowed without harm. -/
theorem narrowingHarmless_of_fits {value : Int} (lower : -2 ^ 31 ≤ value)
    (upper : value < 2 ^ 31) : NarrowingHarmless value where
  tooLarge large := absurd upper (not_lt.mpr large)
  tooSmall small := absurd lower (not_le.mpr small)

variable [FloorRing K] {realMultiplier : K}

/-- A derived multiplier and shift are close to the real multiplier, no shifted
product leaves 32 bits, and every layer saturates as it should. -/
theorem deriveMultiplierShift_lossless (positive : 0 < realMultiplier)
    (below : realMultiplier < 1) :
    ∃ (multiplier : Int) (shift : Nat),
      deriveMultiplierShift realMultiplier = (multiplier, (shift : Int)) ∧
      Derived realMultiplier multiplier shift ∧
      (∀ acc : Int, -2 ^ 31 ≤ acc → acc < 2 ^ 31 →
        -2 ^ 31 ≤ (acc * multiplier) >>> shift ∧
          (acc * multiplier) >>> shift < 2 ^ 31) ∧
      ∀ acc : BitVec 32,
        (requantReluC0 acc (exported multiplier shift)).toInt =
            clampExact ((acc.toInt * multiplier) >>> shift) ∧
        (requantReluC1 acc (exported multiplier shift)).toInt =
            clampExact ((acc.toInt * multiplier) >>> shift) ∧
        (requantReluC2 acc (exported multiplier shift)).toInt =
            clampExact ((acc.toInt * multiplier) >>> shift) := by
  obtain ⟨multiplier, shift, result, derived⟩ :=
    derived_deriveMultiplierShift positive below
  have shiftRight : ∀ acc : Int,
      (acc * multiplier) >>> shift = acc * multiplier / 2 ^ shift := by
    intro acc
    rw [Int.shiftRight_eq_div_pow]
    norm_cast
  have fits : ∀ acc : Int, -2 ^ 31 ≤ acc → acc < 2 ^ 31 →
      -2 ^ 31 ≤ (acc * multiplier) >>> shift ∧
        (acc * multiplier) >>> shift < 2 ^ 31 := by
    intro acc lower upper
    rw [shiftRight]
    exact shifted_fits derived.nonneg derived.bounded lower upper
  have saturates : ∀ acc : BitVec 32,
      (requantRelu acc (exported multiplier shift)).toInt =
        clampExact ((acc.toInt * multiplier) >>> shift) := by
    intro acc
    have inRange := fits acc.toInt (BitVec.le_toInt acc) BitVec.toInt_lt
    rw [shiftRight] at inRange ⊢
    rw [← scaledExact_exported derived.nonneg derived.fits derived.capped] at inRange ⊢
    exact (toInt_requantRelu_eq_iff acc _).mpr
      (narrowingHarmless_of_fits inRange.1 inRange.2)
  exact ⟨multiplier, shift, result, derived, fits,
    fun acc => ⟨saturates acc, saturates acc, saturates acc⟩⟩

theorem deriveMultiplierShift_lossless_half :
    ∃ (multiplier : Int) (shift : Nat),
      deriveMultiplierShift (1 / 2 : ℚ) = (multiplier, (shift : Int)) ∧
      Derived (1 / 2 : ℚ) multiplier shift ∧
      (∀ acc : Int, -2 ^ 31 ≤ acc → acc < 2 ^ 31 →
        -2 ^ 31 ≤ (acc * multiplier) >>> shift ∧
          (acc * multiplier) >>> shift < 2 ^ 31) ∧
      ∀ acc : BitVec 32,
        (requantReluC0 acc (exported multiplier shift)).toInt =
            clampExact ((acc.toInt * multiplier) >>> shift) ∧
        (requantReluC1 acc (exported multiplier shift)).toInt =
            clampExact ((acc.toInt * multiplier) >>> shift) ∧
        (requantReluC2 acc (exported multiplier shift)).toInt =
            clampExact ((acc.toInt * multiplier) >>> shift) :=
  deriveMultiplierShift_lossless (by norm_num) (by norm_num)

end Export

end Adas.FixedPoint
