import Adas.ExactAccum
import Mathlib.Tactic.Linarith
import Mathlib.Tactic.Ring

/-!
# Two products from one multiplication

The engine multiplies one activation with two weights in a single multiplier.
The low weight is biased to an unsigned byte, both weights are placed in one
operand, and the two products are taken apart again.  They are exact for every
activation and every pair of weights.
-/

namespace Adas.ClassifierEngine

open FixedWidth

/-- `w_lo_biased`: the low weight as an unsigned byte. -/
def wLoBiased (wLo : BitVec 8) : BitVec 8 :=
  ((wLo.signExtend 9).signExtend 33 + 128#33).setWidth 8

/-- `y`: bits 24 to 16 take the high weight with its sign, bits 7 to 0 the
biased low weight, and the others stay zero. -/
def packedWeights (wLo wHi : BitVec 8) : BitVec 25 :=
  wHi.signExtend 9 ++ (0#8 ++ wLoBiased wLo)

/-- `mac_pair`: the products of `a` with the low and with the high weight. -/
def macPair (a wLo wHi : BitVec 8) : BitVec 32 × BitVec 32 :=
  let p : BitVec 33 := a.signExtend 33 * (packedWeights wLo wHi).signExtend 33
  let lo16 : BitVec 16 := p.extractLsb 15 0
  let hi33 : BitVec 33 :=
    ((p.signExtend 34 - lo16.signExtend 34).sshiftRight 16).setWidth 33
  (lo16.signExtend 32 - a.signExtend 32 * 128#32, hi33.setWidth 32)

section Intermediates

variable (a wLo wHi : BitVec 8) (p : BitVec 33)

/-- `(ap_int<9>)w_lo + 128` in the width of the sum. -/
def biasedSum : BitVec 33 :=
  (wLo.signExtend 9).signExtend 33 + (128#32).signExtend 33

/-- `p`: the natural width of 8 by 25 bits. -/
def product : BitVec 33 :=
  a.signExtend 33 * (packedWeights wLo wHi).signExtend 33

def lo16 : BitVec 16 :=
  p.extractLsb 15 0

/-- `p - (ap_int<33>)lo16`. -/
def difference : BitVec 34 :=
  p.signExtend 34 - (lo16 p).signExtend 34

def hi33 : BitVec 33 :=
  ((difference p).sshiftRight 16).setWidth 33

/-- `(accum_t)a * 128`. -/
def biasTerm : BitVec 64 :=
  (a.signExtend 32).signExtend 64 * (128#32).signExtend 64

/-- `(accum_t)lo16 - (accum_t)a * 128`. -/
def unbiased : BitVec 65 :=
  ((lo16 p).signExtend 32).signExtend 65 - (biasTerm a).signExtend 65

end Intermediates

section Exactness

variable (a wLo wHi : BitVec 8)

theorem toInt_bounds : -128 ≤ a.toInt ∧ a.toInt ≤ 127 := by
  have lower := BitVec.le_toInt a
  have upper := BitVec.toInt_lt (x := a)
  omega

theorem toInt_mul_bounds :
    -16384 ≤ a.toInt * wLo.toInt ∧ a.toInt * wLo.toInt ≤ 16384 := by
  obtain ⟨aLower, aUpper⟩ := toInt_bounds a
  obtain ⟨wLower, wUpper⟩ := toInt_bounds wLo
  constructor <;> nlinarith

theorem toInt_biasedSum : (biasedSum wLo).toInt = wLo.toInt + 128 := by
  have constant : (128#32).toInt = 128 := rfl
  rw [biasedSum, toInt_add_widened _ _ (by decide) (by decide) (by decide),
    BitVec.toInt_signExtend_of_le (by decide), constant]

theorem toNat_wLoBiased : ((wLoBiased wLo).toNat : Int) = wLo.toInt + 128 := by
  obtain ⟨lower, upper⟩ := toInt_bounds wLo
  have biased := toInt_biasedSum wLo
  have cast : wLoBiased wLo = (biasedSum wLo).setWidth 8 := rfl
  rw [cast, BitVec.toNat_setWidth]
  rw [BitVec.toInt_eq_toNat_cond] at biased
  split_ifs at biased <;> omega

theorem toInt_packedWeights :
    (packedWeights wLo wHi).toInt = wHi.toInt * 65536 + (wLo.toInt + 128) := by
  have low := toNat_wLoBiased wLo
  rw [packedWeights, BitVec.toInt_append, BitVec.toNat_append,
    BitVec.toInt_signExtend_of_le (by decide)]
  simp
  omega

theorem toInt_product :
    (product a wLo wHi).toInt = a.toInt * (packedWeights wLo wHi).toInt := by
  rw [product, toInt_mul_widened _ _ (by decide) (by decide) (by decide)]

/-- The two fields of the product. -/
theorem product_split :
    (product a wLo wHi).toInt =
      a.toInt * wHi.toInt * 2 ^ 16 + a.toInt * (wLo.toInt + 128) := by
  rw [toInt_product, toInt_packedWeights]
  ring

/-- The low term fits into the signed low field. -/
theorem lowTerm_bounds :
    -32640 ≤ a.toInt * (wLo.toInt + 128) ∧ a.toInt * (wLo.toInt + 128) ≤ 32385 := by
  obtain ⟨aLower, aUpper⟩ := toInt_bounds a
  obtain ⟨wLower, wUpper⟩ := toInt_bounds wLo
  constructor <;> nlinarith

theorem lo16_eq_setWidth (p : BitVec 33) : lo16 p = p.setWidth 16 := by
  rw [lo16, BitVec.extractLsb, BitVec.extractLsb', Nat.shiftRight_zero, BitVec.ofNat_toNat]

theorem toInt_lo16 :
    (lo16 (product a wLo wHi)).toInt = a.toInt * (wLo.toInt + 128) := by
  obtain ⟨lower, upper⟩ := lowTerm_bounds a wLo
  rw [lo16_eq_setWidth]
  exact toInt_lowField (by decide) (by decide) (product_split a wLo wHi)
    (by norm_num; omega) (by norm_num; omega)

theorem toInt_difference :
    (difference (product a wLo wHi)).toInt = a.toInt * wHi.toInt * 2 ^ 16 := by
  obtain ⟨lower, upper⟩ := lowTerm_bounds a wLo
  rw [difference, lo16_eq_setWidth]
  exact toInt_sub_lowField (by decide) (by decide) (product_split a wLo wHi)
    (by norm_num; omega) (by norm_num; omega)

theorem toInt_shifted :
    ((difference (product a wLo wHi)).sshiftRight 16).toInt = a.toInt * wHi.toInt := by
  rw [BitVec.toInt_sshiftRight, toInt_difference, Int.shiftRight_eq_div_pow]
  exact Int.mul_ediv_cancel _ (by decide)

theorem toInt_hi33 :
    (hi33 (product a wLo wHi)).toInt = a.toInt * wHi.toInt := by
  obtain ⟨lower, upper⟩ := toInt_mul_bounds a wHi
  rw [hi33, toInt_setWidth _ (by decide), toInt_shifted]
  exact bmod_eq_of_fits (by decide) (by norm_num; omega) (by norm_num; omega)

theorem toInt_biasTerm : (biasTerm a).toInt = a.toInt * 128 := by
  have constant : (128#32).toInt = 128 := rfl
  rw [biasTerm, toInt_mul_widened _ _ (by decide) (by decide) (by decide),
    BitVec.toInt_signExtend_of_le (by decide), constant]

theorem toInt_unbiased :
    (unbiased a (product a wLo wHi)).toInt = a.toInt * wLo.toInt := by
  rw [unbiased, toInt_sub_widened _ _ (by decide) (by decide) (by decide),
    BitVec.toInt_signExtend_of_le (by decide), toInt_lo16, toInt_biasTerm]
  ring

/-- The accumulators store what the widest intermediates hold. -/
theorem macPair_eq_setWidth :
    macPair a wLo wHi =
      ((unbiased a (product a wLo wHi)).setWidth 32,
        (hi33 (product a wLo wHi)).setWidth 32) := by
  have low : (lo16 (product a wLo wHi)).signExtend 32 - a.signExtend 32 * 128#32 =
      (unbiased a (product a wLo wHi)).setWidth 32 := by
    have constant : (128#32).toInt = 128 := rfl
    apply BitVec.eq_of_toInt_eq
    rw [toInt_setWidth _ (by decide), toInt_unbiased, BitVec.toInt_sub, BitVec.toInt_mul,
      BitVec.toInt_signExtend_of_le (by decide), BitVec.toInt_signExtend_of_le (by decide),
      toInt_lo16, constant, Int.sub_bmod_bmod]
    congr 1
    ring
  rw [← low]
  rfl

/-- Both products of a pair are exact. -/
theorem toInt_macPair :
    (macPair a wLo wHi).1.toInt = a.toInt * wLo.toInt ∧
      (macPair a wLo wHi).2.toInt = a.toInt * wHi.toInt := by
  obtain ⟨lowLower, lowUpper⟩ := toInt_mul_bounds a wLo
  obtain ⟨highLower, highUpper⟩ := toInt_mul_bounds a wHi
  have low := toInt_unbiased a wLo wHi
  have high := toInt_hi33 a wLo wHi
  rw [← low] at lowLower lowUpper ⊢
  rw [← high] at highLower highUpper ⊢
  rw [macPair_eq_setWidth]
  constructor
  · exact toInt_setWidth_of_fits (by decide) (by decide) (by norm_num; omega)
      (by norm_num; omega)
  · exact toInt_setWidth_of_fits (by decide) (by decide) (by norm_num; omega)
      (by norm_num; omega)

/-- Every intermediate value of the pair is the number it stands for, and the
accumulators store the last two of them. -/
structure PacksExactly : Prop where
  biased : (biasedSum wLo).toInt = wLo.toInt + 128
  unsigned : ((wLoBiased wLo).toNat : Int) = wLo.toInt + 128
  operand : (packedWeights wLo wHi).toInt = wHi.toInt * 65536 + (wLo.toInt + 128)
  multiplied : (product a wLo wHi).toInt = a.toInt * (packedWeights wLo wHi).toInt
  lowField : (lo16 (product a wLo wHi)).toInt = a.toInt * (wLo.toInt + 128)
  subtracted : (difference (product a wLo wHi)).toInt = a.toInt * wHi.toInt * 65536
  shifted : ((difference (product a wLo wHi)).sshiftRight 16).toInt = a.toInt * wHi.toInt
  highField : (hi33 (product a wLo wHi)).toInt = a.toInt * wHi.toInt
  bias : (biasTerm a).toInt = a.toInt * 128
  withoutBias : (unbiased a (product a wLo wHi)).toInt = a.toInt * wLo.toInt
  stored : macPair a wLo wHi =
    ((unbiased a (product a wLo wHi)).setWidth 32, (hi33 (product a wLo wHi)).setWidth 32)
  prodLo : (macPair a wLo wHi).1.toInt = a.toInt * wLo.toInt
  prodHi : (macPair a wLo wHi).2.toInt = a.toInt * wHi.toInt

theorem packsExactly : PacksExactly a wLo wHi where
  biased := toInt_biasedSum wLo
  unsigned := toNat_wLoBiased wLo
  operand := toInt_packedWeights wLo wHi
  multiplied := toInt_product a wLo wHi
  lowField := toInt_lo16 a wLo wHi
  subtracted := toInt_difference a wLo wHi
  shifted := toInt_shifted a wLo wHi
  highField := toInt_hi33 a wLo wHi
  bias := toInt_biasTerm a
  withoutBias := toInt_unbiased a wLo wHi
  stored := macPair_eq_setWidth a wLo wHi
  prodLo := (toInt_macPair a wLo wHi).1
  prodHi := (toInt_macPair a wLo wHi).2

end Exactness

end Adas.ClassifierEngine
