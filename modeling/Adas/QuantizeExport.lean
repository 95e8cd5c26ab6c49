import Adas.FixedPoint

/-!
# Exporting a convolution

The exported bias carries a term that makes up for the missing rounding of the
engine.  The term is itself rounded to an integer, so the engine's result is not
always the rounded one, but it is never off by more than one.  Numbers are exact
up to the casts.
-/

namespace Adas.QuantizeExport

open ClassifierEngine
open FixedPoint
open GoldenInt8
open Rounding

section Export

/-- `np.max(np.abs(x))`, and zero for an empty array. -/
def absMax (x : List ℚ) : ℚ :=
  x.foldl (fun largest value => max largest |value|) 0

/-- `quantize_symmetric_int8`. -/
def quantizeSymmetricInt8 (x : List ℚ) (signed : Bool := true) : List Int × ℚ :=
  let scale := if absMax x = 0 then 1 else absMax x / 127
  let lo : Int := if signed then -127 else 0
  (x.map fun value => min (max (roundHalfAway (value / scale)) lo) 127, scale)

/-- The term that is added to the biases. -/
def roundingCompensation (multiplier shift : Int) : Int :=
  roundHalfEven ((2 : ℚ) ^ (shift - 1) / multiplier)

/-- What `quantize_conv` returns. -/
structure QuantizedConv where
  weightInt8 : List Int
  weightScale : ℚ
  biasInt32 : List (BitVec 32)
  biasScale : ℚ
  roundingCompensation : Int
  inputScale : ℚ
  outputScale : ℚ
  requantMultiplier : Int
  requantShift : Int
  deriving DecidableEq

def quantizeConv (wFp32 bFp32 : List ℚ) (inputScale outputScale : ℚ) : QuantizedConv :=
  let (wInt8, wScale) := quantizeSymmetricInt8 wFp32
  let biasScale := inputScale * wScale
  let bInt32 := bFp32.map fun value => roundHalfAway (value / biasScale)
  let realMultiplier := inputScale * wScale / outputScale
  let (multiplier, shift) := deriveMultiplierShift realMultiplier
  let compensation := roundingCompensation multiplier shift
  { weightInt8 := wInt8
    weightScale := wScale
    biasInt32 := bInt32.map fun bias => BitVec.ofInt 32 (bias + compensation)
    biasScale := biasScale
    roundingCompensation := compensation
    inputScale := inputScale
    outputScale := outputScale
    requantMultiplier := multiplier
    requantShift := shift }

end Export

section Compensation

variable {multiplier acc : Int} {shift : Nat}

/-- Half the power of two is missed by at most half the multiplier. -/
theorem compensation_close (positive : 0 < multiplier) (shifts : 0 < shift) :
    2 * |roundingCompensation multiplier shift * multiplier - 2 ^ (shift - 1)| ≤
      multiplier := by
  have positiveQ : (0 : ℚ) < multiplier := Int.cast_pos.mpr positive
  have exponent : (shift : Int) - 1 = ((shift - 1 : Nat) : Int) := by omega
  have nearest : IsNearest (roundingCompensation multiplier shift)
      ((2 : ℚ) ^ (shift - 1) / multiplier) := by
    rw [roundingCompensation, exponent, zpow_natCast]
    exact isNearest_roundHalfEven _
  generalize roundingCompensation multiplier shift = compensation at *
  have asProduct : (compensation : ℚ) * multiplier - 2 ^ (shift - 1) =
      (compensation - 2 ^ (shift - 1) / multiplier) * multiplier := by
    field_simp
  have scaled : |(compensation : ℚ) * multiplier - 2 ^ (shift - 1)| ≤
      1 / 2 * multiplier := by
    rw [asProduct, abs_mul, abs_of_pos positiveQ]
    exact mul_le_mul_of_nonneg_right nearest positiveQ.le
  have doubled : ((2 * |compensation * multiplier - 2 ^ (shift - 1)| : Int) : ℚ) ≤
      (multiplier : Int) := by
    push_cast
    linarith
  exact Int.cast_le.mp doubled

/-- Clamping does not take numbers apart. -/
theorem abs_clampExact_sub_le (a b : Int) :
    |clampExact a - clampExact b| ≤ |a - b| := by
  unfold clampExact
  rcases abs_cases (a - b) with ⟨isAbs, _⟩ | ⟨isAbs, _⟩ <;>
    rw [isAbs, abs_le] <;> omega

theorem requantShiftI64_eq (acc multiplier : Int) (shifts : 0 < shift) :
    requantShiftI64 acc multiplier shift = acc * multiplier / 2 ^ shift := by
  rw [requantShiftI64, if_neg shifts.ne', Int.shiftRight_eq_div_pow]
  norm_cast

/-- The compensation moves the product as the rounding term does, up to half the
multiplier. -/
theorem products_close (positive : 0 < multiplier) (shifts : 0 < shift) (acc : Int) :
    2 * |(acc + roundingCompensation multiplier shift) * multiplier -
      (acc * multiplier + 2 ^ (shift - 1))| ≤ multiplier := by
  have apart : (acc + roundingCompensation multiplier shift) * multiplier -
      (acc * multiplier + 2 ^ (shift - 1)) =
      roundingCompensation multiplier shift * multiplier - 2 ^ (shift - 1) := by
    ring
  rw [apart]
  exact compensation_close positive shifts

/-- The shift without rounding of the compensated accumulator is at most one away
from the shift with rounding. -/
theorem truncated_close (positive : 0 < multiplier) (fits : multiplier < 2 ^ 31)
    (shifts : 31 ≤ shift) (acc : Int) :
    |requantShiftI64 (acc + roundingCompensation multiplier shift) multiplier shift -
      (acc * multiplier + 2 ^ (shift - 1)) / 2 ^ shift| ≤ 1 := by
  have powerLarge : (2 : Int) ^ 31 ≤ 2 ^ shift := pow_le_pow_right₀ (by norm_num) shifts
  have close := products_close positive (show 0 < shift by omega) acc
  rw [requantShiftI64_eq _ _ (by omega)]
  exact abs_ediv_sub_le (by positivity) (by omega)

/-- The two shifts differ only next to a multiple of the power of two. -/
theorem multiple_close (positive : 0 < multiplier) (shifts : 0 < shift)
    (differ : requantShiftI64 (acc + roundingCompensation multiplier shift) multiplier
      shift ≠ (acc * multiplier + 2 ^ (shift - 1)) / 2 ^ shift) :
    ∃ k : Int, 2 * |acc * multiplier + 2 ^ (shift - 1) - k * 2 ^ shift| ≤
      multiplier := by
  rw [requantShiftI64_eq _ _ shifts] at differ
  obtain ⟨k, isClose⟩ := exists_multiple_of_ediv_ne (by positivity) differ
  have close := products_close positive shifts acc
  exact ⟨k, by omega⟩

/-- The engine's shift of the compensated accumulator and the shift with rounding
of the accumulator itself. -/
theorem compensated_requant_close (large : 2 ^ 30 ≤ multiplier)
    (fits : multiplier < 2 ^ 31) (shifts : 32 ≤ shift ∧ shift ≤ 62) (acc : Int) :
    |requantShiftI64 (acc + roundingCompensation multiplier shift) multiplier shift -
        (acc * multiplier + 2 ^ (shift - 1)) / 2 ^ shift| ≤ 1 ∧
      (requantShiftI64 (acc + roundingCompensation multiplier shift) multiplier shift ≠
          (acc * multiplier + 2 ^ (shift - 1)) / 2 ^ shift →
        ∃ k : Int, 2 * |acc * multiplier + 2 ^ (shift - 1) - k * 2 ^ shift| ≤
          multiplier) ∧
      |requantReluClamp (acc + roundingCompensation multiplier shift) multiplier shift -
        clampExact ((acc * multiplier + 2 ^ (shift - 1)) / 2 ^ shift)| ≤ 1 := by
  have positive : 0 < multiplier := lt_of_lt_of_le (by norm_num) large
  have oneApart := truncated_close positive fits (show 31 ≤ shift by omega) acc
  refine ⟨oneApart, multiple_close positive (by omega), ?_⟩
  rw [requantReluClamp, ← clampExact]
  exact (abs_clampExact_sub_le _ _).trans oneApart

theorem compensated_requant_close_example :
    |requantShiftI64 (100 + roundingCompensation (2 ^ 30) (32 : Nat)) (2 ^ 30) 32 -
        (100 * 2 ^ 30 + 2 ^ (32 - 1)) / 2 ^ 32| ≤ 1 ∧
      (requantShiftI64 (100 + roundingCompensation (2 ^ 30) (32 : Nat)) (2 ^ 30) 32 ≠
          (100 * 2 ^ 30 + 2 ^ (32 - 1)) / 2 ^ 32 →
        ∃ k : Int, 2 * |100 * 2 ^ 30 + 2 ^ (32 - 1) - k * 2 ^ 32| ≤ (2 ^ 30 : Int)) ∧
      |requantReluClamp (100 + roundingCompensation (2 ^ 30) (32 : Nat)) (2 ^ 30) 32 -
        clampExact ((100 * 2 ^ 30 + 2 ^ (32 - 1)) / 2 ^ 32)| ≤ 1 :=
  compensated_requant_close (by norm_num) (by norm_num) (by norm_num) 100

end Compensation

section Biases

variable {wFp32 bFp32 : List ℚ} {inputScale outputScale : ℚ} {index shift : Nat}

/-- What a compensated bias does to an accumulator without bias, for a multiplier
and a shift as they are derived from real multipliers from `2 ^ -32` on. -/
theorem requant_biasInt32_close {value : ℚ} (isValue : bFp32[index]? = some value)
    {conv : QuantizedConv}
    (isConv : quantizeConv wFp32 bFp32 inputScale outputScale = conv)
    (positive : 0 < conv.requantMultiplier) (fits : conv.requantMultiplier < 2 ^ 31)
    (isShift : conv.requantShift = shift) (shifts : 31 ≤ shift)
    (noWrap : -2 ^ 31 ≤ roundHalfAway (value / conv.biasScale) +
        conv.roundingCompensation ∧
      roundHalfAway (value / conv.biasScale) + conv.roundingCompensation < 2 ^ 31)
    (acc : Int) :
    ∃ bias, conv.biasInt32[index]? = some bias ∧
      |requantShiftI64 (acc + bias.toInt) conv.requantMultiplier shift -
        ((acc + roundHalfAway (value / conv.biasScale)) * conv.requantMultiplier +
          2 ^ (shift - 1)) / 2 ^ shift| ≤ 1 := by
  have isCompensation : conv.roundingCompensation =
      roundingCompensation conv.requantMultiplier shift := by
    rw [← isShift, ← isConv]
    rfl
  have isBias : conv.biasInt32[index]? = some (BitVec.ofInt 32
      (roundHalfAway (value / conv.biasScale) + conv.roundingCompensation)) := by
    rw [← isConv]
    simp [quantizeConv, isValue]
  refine ⟨_, isBias, ?_⟩
  rw [BitVec.toInt_ofInt, FixedWidth.bmod_eq_of_fits (by decide) noWrap.1 noWrap.2,
    isCompensation, ← add_assoc]
  exact truncated_close positive fits shifts _

end Biases

end Adas.QuantizeExport
