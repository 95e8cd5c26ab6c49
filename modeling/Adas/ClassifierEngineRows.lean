import Adas.ClassifierEngine
import Adas.GoldenInt8
import Mathlib.Algebra.Order.Ring.Abs
import Mathlib.Tactic.GCongr
import Mathlib.Tactic.Positivity

/-!
# Requantization, pooling and row pairs

What the engine does with an accumulator, whatever convolution it comes from:
it requantizes exactly, the two-row buffer holds each pair of rows when it is
pooled, and the flag for overflow is raised only by an accumulator of which the
flag is up.
-/

namespace Adas.ClassifierEngine

open BoundedLoop FixedWidth GoldenInt8

section Requantization

theorem toInt_clampRelu (requantized : BitVec 32) :
    (clampRelu requantized).toInt = min (max requantized.toInt 0) 127 := by
  have zero : (0 : BitVec 32).toInt = 0 := rfl
  have top : (127 : BitVec 32).toInt = 127 := rfl
  by_cases negative : requantized.toInt < 0
  · have clamped : clampRelu requantized = 0 := by
      simp [clampRelu, BitVec.slt, negative]
    rw [clamped, max_eq_right negative.le]
    rfl
  · by_cases above : 127 < requantized.toInt
    · have clamped : clampRelu requantized = 127 := by
        simp [clampRelu, BitVec.slt, negative, above]
      rw [clamped, min_eq_right (by omega)]
      rfl
    · have clamped : clampRelu requantized = requantized.setWidth 8 := by
        simp [clampRelu, BitVec.slt, negative, above]
      rw [clamped, max_eq_left (by omega), min_eq_left (by omega)]
      exact toInt_setWidth_of_fits (by decide) (by decide) (by norm_num; omega)
        (by norm_num; omega)

theorem shiftRight_bounds {value bound : Int} (shift : Nat)
    (lower : -bound ≤ value) (upper : value ≤ bound) :
    -bound ≤ value >>> shift ∧ value >>> shift ≤ bound := by
  have positive : (0 : Int) < 2 ^ shift := by positivity
  rw [Int.shiftRight_eq_div_pow]
  push_cast
  constructor
  · rw [Int.le_ediv_iff_mul_le positive]
    nlinarith
  · apply Int.ediv_le_of_le_mul positive
    nlinarith

/-- The product of two 32-bit values has at most 63 bits. -/
theorem abs_mul_toInt_le (acc multiplier : BitVec 32) :
    |acc.toInt * multiplier.toInt| ≤ 2 ^ 62 := by
  have accBounded := abs_toInt_le acc
  have multiplierBounded := abs_toInt_le multiplier
  rw [abs_mul]
  calc |acc.toInt| * |multiplier.toInt| ≤ 2 ^ 31 * 2 ^ 31 := by gcongr
    _ = 2 ^ 62 := by norm_num

/-- The 64-bit product never wraps, but the result of the shift does when it is
brought into 32 bits. -/
theorem toInt_requantRelu_wrapped (acc : BitVec 32) (rq : Requant) :
    (requantRelu acc rq).toInt =
      min (max (((acc.toInt * rq.multiplier.toInt) >>> rq.shift.toNat).bmod
        (2 ^ 32)) 0) 127 := by
  have scaled : (acc.signExtend 64 * rq.multiplier.signExtend 64).toInt =
      acc.toInt * rq.multiplier.toInt :=
    toInt_mul_widened _ _ (by decide) (by decide) (by decide)
  rw [requantRelu, toInt_clampRelu, toInt_setWidth _ (by decide),
    BitVec.toInt_sshiftRight, scaled]

/-- A shift by at least 32 brings the product back into 32 bits. -/
theorem toInt_requantRelu (acc : BitVec 32) (rq : Requant)
    (atLeast : 32 ≤ rq.shift.toNat) :
    (requantRelu acc rq).toInt =
      requantReluClamp acc.toInt rq.multiplier.toInt rq.shift.toNat := by
  have bounded := abs_le.mp (abs_mul_toInt_le acc rq.multiplier)
  obtain ⟨lower, upper⟩ :
      -(2 : Int) ^ 30 ≤ (acc.toInt * rq.multiplier.toInt) >>> rq.shift.toNat ∧
        (acc.toInt * rq.multiplier.toInt) >>> rq.shift.toNat ≤ 2 ^ 30 := by
    obtain ⟨more, shift⟩ := Nat.exists_eq_add_of_le atLeast
    rw [shift, Int.shiftRight_add]
    apply shiftRight_bounds
    · rw [Int.shiftRight_eq_div_pow]
      norm_num
      omega
    · rw [Int.shiftRight_eq_div_pow]
      norm_num
      omega
  rw [requantReluClamp, requantShiftI64, if_neg (by omega),
    toInt_requantRelu_wrapped,
    bmod_eq_of_fits (by decide) (by norm_num; omega) (by norm_num; omega)]

end Requantization

section Pooling

theorem toInt_ite_slt (m v : BitVec 8) :
    (if m.slt v then v else m).toInt = max m.toInt v.toInt := by
  rw [BitVec.slt]
  split_ifs with smaller
  · simp only [decide_eq_true_eq] at smaller
    exact (max_eq_right smaller.le).symm
  · simp only [decide_eq_true_eq, not_lt] at smaller
    exact (max_eq_left smaller).symm

theorem toInt_maxOfFour (rowBuf : Fmap) (outCol c : Nat) :
    (maxOfFour rowBuf outCol c).toInt =
      max (max (rowBuf 0 (2 * outCol) c).toInt (rowBuf 0 (2 * outCol + 1) c).toInt)
        (max (rowBuf 1 (2 * outCol) c).toInt
          (rowBuf 1 (2 * outCol + 1) c).toInt) := by
  simp only [maxOfFour, toInt_ite_slt, Nat.mul_comm outCol 2, max_assoc]

variable {poolSize channels outRow : Nat} {rowBuf : Fmap} {row outCol c : Nat}

theorem poolRow_sets (colIn : outCol < poolSize) (cIn : c < channels) :
    Sets (fun pooledOut : Fmap => pooledOut outRow outCol c)
      (poolRow poolSize channels outRow rowBuf) (maxOfFour rowBuf outCol c) := by
  refine .forLoop colIn (fun other _ differs => ?_)
    (.forLoop cIn (fun other _ differs pooledOut => ?_) fun pooledOut => ?_)
  · refine .forLoop fun _ _ pooledOut => ?_
    simp [write3, differs.symm]
  · simp [write3, differs.symm]
  · simp [write3]

theorem poolRow_keeps (otherRow : outRow ≠ row) :
    Keeps (fun pooledOut : Fmap => pooledOut row outCol c)
      (poolRow poolSize channels outRow rowBuf) := by
  refine .forLoop fun _ _ => .forLoop fun _ _ pooledOut => ?_
  simp [write3, otherRow.symm]

end Pooling

section Rows

variable {size poolSize blocks ocPar oy ox block lane : Nat}
  {lanes : Nat → Nat → Nat → Nat → Accum 32} {requant : BitVec 32 → BitVec 8}

variable (oy lanes requant) in
/-- After a row has been computed its half of the buffer holds it. -/
theorem computeRow_sets (oxIn : ox < size) (blockIn : block < blocks)
    (laneIn : lane < ocPar) :
    Sets (fun stream : Stream => stream.rowBuf (oy % 2) ox (block * ocPar + lane))
      (computeRow size (blocks * ocPar) ocPar oy lanes requant)
      (requant (lanes oy ox (block * ocPar) lane).bits) := by
  simp only [computeRow, forStride_mul (by omega : 0 < ocPar)]
  refine .forLoop oxIn (fun other _ differs => ?_)
    (.forLoop blockIn (fun other _ differs => ?_)
      (.forLoop laneIn (fun other _ differs stream => ?_) fun stream => ?_))
  · refine .forLoop fun _ _ => .forLoop fun _ _ stream => ?_
    simp [write3, differs.symm]
  · refine .forLoop fun otherLane otherIn stream => ?_
    have elsewhere : block * ocPar + lane ≠ other * ocPar + otherLane :=
      fun same => differs (block_lane_unique laneIn otherIn same).1.symm
    simp [write3, elsewhere]
  · simp [write3, differs.symm]
  · simp [write3]

/-- Computing a row leaves the other half of the buffer alone. -/
theorem computeRow_keeps_rowBuf {outCh half column c : Nat}
    (otherHalf : half ≠ oy % 2) :
    Keeps (fun stream : Stream => stream.rowBuf half column c)
      (computeRow size outCh ocPar oy lanes requant) := by
  refine .forLoop fun _ _ => .forLoop fun _ _ => .forLoop fun _ _ stream => ?_
  simp [write3, otherHalf]

theorem computeRow_keeps_pooledOut {outCh : Nat} :
    Keeps Stream.pooledOut
      (computeRow size outCh ocPar oy lanes requant) :=
  .forLoop fun _ _ => .forLoop fun _ _ => .forLoop fun _ _ _ => rfl

/-- No accumulator of the convolution overflows. -/
def LanesSound (size blocks ocPar : Nat)
    (lanes : Nat → Nat → Nat → Nat → Accum 32) : Prop :=
  ∀ oy < size, ∀ ox < size, ∀ block < blocks, ∀ lane < ocPar,
    (lanes oy ox (block * ocPar) lane).overflowed = false

theorem computeRow_keeps_overflowed (positive : 0 < ocPar) (oyIn : oy < size)
    (sound : LanesSound size blocks ocPar lanes) :
    Keeps Stream.overflowed
      (computeRow size (blocks * ocPar) ocPar oy lanes requant) := by
  simp only [computeRow, forStride_mul positive]
  refine .forLoop fun ox oxIn => .forLoop fun block blockIn =>
    .forLoop fun lane laneIn stream => ?_
  simp [sound oy oyIn ox oxIn block blockIn lane laneIn]

theorem fuseRows_keeps_overflowed (positive : 0 < ocPar)
    (sound : LanesSound size blocks ocPar lanes) :
    Keeps Stream.overflowed
      (fuseRows size poolSize (blocks * ocPar) ocPar lanes requant) := by
  refine .forLoop fun oy oyIn stream => ?_
  rw [fuseRow, ← computeRow_keeps_overflowed positive oyIn sound stream]
  split_ifs <;> rfl

/-- A row of the pooled map is written with the second row of its pair only. -/
theorem fuseRow_keeps_pooledOut {outCh outRow outCol c : Nat}
    (otherRow : oy ≠ 2 * outRow + 1) :
    Keeps (fun stream : Stream => stream.pooledOut outRow outCol c)
      (fuseRow size poolSize outCh ocPar lanes requant oy) := by
  intro stream
  have kept : (computeRow size outCh ocPar oy lanes requant stream).pooledOut =
      stream.pooledOut := computeRow_keeps_pooledOut stream
  simp only [fuseRow]
  split_ifs with odd
  · exact (poolRow_keeps (by omega) _).trans (by rw [kept])
  · rw [kept]

variable (lanes requant) in
/-- A pair of rows is pooled once both of its rows have been computed. -/
theorem fuseRows_pooledOut {outRow outCol : Nat} (stream : Stream)
    (even : size = 2 * poolSize) (rowIn : outRow < poolSize)
    (colIn : outCol < poolSize) (blockIn : block < blocks)
    (laneIn : lane < ocPar) :
    (fuseRows size poolSize (blocks * ocPar) ocPar lanes requant
        stream).pooledOut outRow outCol (block * ocPar + lane) =
      maxOfFour (fun half ox _ =>
        requant (lanes (2 * outRow + half) ox (block * ocPar) lane).bits)
        outCol 0 := by
  have channelIn := block_lane_lt blockIn laneIn
  have others : ∀ oy < size, oy ≠ 2 * outRow + 1 →
      Keeps (fun stream : Stream =>
        stream.pooledOut outRow outCol (block * ocPar + lane))
        (fuseRow size poolSize (blocks * ocPar) ocPar lanes requant oy) :=
    fun oy _ otherRow => fuseRow_keeps_pooledOut otherRow
  apply (forLoop_once (by omega) others stream).trans
  generalize firstRow : forLoop (2 * outRow + 1)
    (fuseRow size poolSize (blocks * ocPar) ocPar lanes requant) stream = before
  have odd : (2 * outRow + 1) % 2 = 1 := by omega
  have outRowEq : (2 * outRow + 1) / 2 = outRow := by omega
  simp only [fuseRow, if_pos odd, outRowEq]
  apply (poolRow_sets colIn channelIn _).trans
  -- The upper half still holds the row before, the lower half this row.
  have upper : ∀ ox < size,
      (computeRow size (blocks * ocPar) ocPar (2 * outRow + 1) lanes requant
        before).rowBuf 0 ox (block * ocPar + lane) =
        requant (lanes (2 * outRow) ox (block * ocPar) lane).bits := by
    intro ox oxIn
    apply (computeRow_keeps_rowBuf (by omega) before).trans
    have even : 2 * outRow % 2 = 0 := by omega
    have sets := computeRow_sets (2 * outRow) lanes requant oxIn blockIn laneIn
    simp only [even] at sets
    rw [← firstRow, forLoop_succ, fuseRow, if_neg (by omega)]
    exact sets _
  have lower : ∀ ox < size,
      (computeRow size (blocks * ocPar) ocPar (2 * outRow + 1) lanes requant
        before).rowBuf 1 ox (block * ocPar + lane) =
        requant (lanes (2 * outRow + 1) ox (block * ocPar) lane).bits := by
    intro ox oxIn
    have sets := computeRow_sets (2 * outRow + 1) lanes requant oxIn blockIn
      laneIn
    simp only [odd] at sets
    exact sets before
  simp only [maxOfFour, upper _ (by omega : outCol * 2 < size),
    upper _ (by omega : outCol * 2 + 1 < size),
    lower _ (by omega : outCol * 2 < size),
    lower _ (by omega : outCol * 2 + 1 < size), Nat.add_zero]

end Rows

end Adas.ClassifierEngine
