import Adas.ClassifierEngineRows

/-!
# Requantization on every parameter the driver admits

The golden model clamps the shifted product as it is, and the engine narrows it
to 32 bits first.  A shift by at least 32 leaves nothing to narrow, but the
driver admits smaller ones: then the low 32 bits of the shifted product decide,
and a large positive product can come out as zero.
-/

namespace Adas.ClassifierEngine

open GoldenInt8

/-- Rectification and clamping of an exact value. -/
def clampExact (value : Int) : Int :=
  min (max value 0) 127

/-- The product divided by the power of two, rounded down. -/
def scaledExact (acc : BitVec 32) (rq : Requant) : Int :=
  acc.toInt * rq.multiplier.toInt / 2 ^ rq.shift.toNat

/-- The low 32 bits of a value that does not fit into them are clamped like the
value: they are a number from 127 on when the value is too large, and zero or a
negative number when it is too small. -/
structure NarrowingHarmless (value : Int) : Prop where
  tooLarge : 2 ^ 31 ≤ value → 127 ≤ value % 2 ^ 32 ∧ value % 2 ^ 32 < 2 ^ 31
  tooSmall : value < -2 ^ 31 → value % 2 ^ 32 = 0 ∨ 2 ^ 31 ≤ value % 2 ^ 32

theorem clampExact_bmod_eq_iff (value : Int) :
    clampExact (value.bmod (2 ^ 32)) = clampExact value ↔
      NarrowingHarmless value := by
  have wrapped : value.bmod (2 ^ 32) =
      if value % 2 ^ 32 < 2 ^ 31 then value % 2 ^ 32
      else value % 2 ^ 32 - 2 ^ 32 := by
    rw [Int.bmod]
    norm_num
  rw [wrapped, clampExact, clampExact]
  constructor
  · intro same
    constructor
    · intro tooLarge
      split_ifs at same <;> omega
    · intro tooSmall
      split_ifs at same <;> omega
  · rintro ⟨tooLarge, tooSmall⟩
    split_ifs <;> omega

theorem requantReluClamp_eq_clampExact (acc : BitVec 32) (rq : Requant) :
    requantReluClamp acc.toInt rq.multiplier.toInt rq.shift.toNat =
      clampExact (scaledExact acc rq) := by
  rw [requantReluClamp, requantShiftI64, clampExact, scaledExact]
  split_ifs with unshifted
  · simp [unshifted]
  · rw [Int.shiftRight_eq_div_pow]
    norm_cast

theorem toInt_requantRelu_eq_iff (acc : BitVec 32) (rq : Requant) :
    (requantRelu acc rq).toInt = clampExact (scaledExact acc rq) ↔
      NarrowingHarmless (scaledExact acc rq) := by
  have shifted : (acc.toInt * rq.multiplier.toInt) >>> rq.shift.toNat =
      scaledExact acc rq := by
    rw [Int.shiftRight_eq_div_pow, scaledExact]
    norm_cast
  rw [toInt_requantRelu_wrapped, shifted]
  exact clampExact_bmod_eq_iff _

/-- The requantizer of every layer agrees with the golden model exactly when
narrowing the shifted product is harmless. -/
theorem requant_agrees_iff (acc : BitVec 32) (rq : Requant) :
    ((requantReluC0 acc rq).toInt = clampExact (scaledExact acc rq) ↔
      NarrowingHarmless (scaledExact acc rq)) ∧
    ((requantReluC1 acc rq).toInt = clampExact (scaledExact acc rq) ↔
      NarrowingHarmless (scaledExact acc rq)) ∧
    ((requantReluC2 acc rq).toInt = clampExact (scaledExact acc rq) ↔
      NarrowingHarmless (scaledExact acc rq)) ∧
    clampExact (scaledExact acc rq) =
      requantReluClamp acc.toInt rq.multiplier.toInt rq.shift.toNat :=
  ⟨toInt_requantRelu_eq_iff acc rq, toInt_requantRelu_eq_iff acc rq,
    toInt_requantRelu_eq_iff acc rq, (requantReluClamp_eq_clampExact acc rq).symm⟩

/-- Without a shift the product of 65536 with itself comes out as zero. -/
theorem not_requant_agrees :
    ¬ ∀ (acc : BitVec 32) (rq : Requant), rq.shift.toNat ≤ 63 →
      (requantReluC0 acc rq).toInt = clampExact (scaledExact acc rq) ∧
      (requantReluC1 acc rq).toInt = clampExact (scaledExact acc rq) ∧
      (requantReluC2 acc rq).toInt = clampExact (scaledExact acc rq) := by
  intro agrees
  exact absurd (agrees 65536 ⟨65536, 0⟩ (by decide)).1 (by decide)

end Adas.ClassifierEngine
