import Adas.BoundedLoop
import Mathlib.Algebra.BigOperators.Intervals
import Mathlib.Algebra.Order.Ring.Abs
import Mathlib.Algebra.Order.Ring.Int

/-!
# Exact arithmetic in a fixed width

Fixed-width arithmetic wraps around, and is exact as long as the result fits.
It always fits where the operands are widened first, and where a word is the
sum of two fields each of them can be read back.

For sums this file keeps, beside the bits of an accumulator, a ghost flag that
says whether an addition on the way has left the signed range.  An accumulator
of which the flag is down holds the exact sum, and the sum of the magnitudes,
which also bounds every partial sum, keeps the flag down.  Where the flag is up
a tree of additions still holds the sum modulo the size of its words.
-/

namespace FixedWidth

variable {w v : Nat}

theorem bmod_eq_of_fits {value : Int} (positive : 0 < w)
    (lower : -2 ^ (w - 1) ≤ value) (upper : value < 2 ^ (w - 1)) :
    value.bmod (2 ^ w) = value := by
  obtain ⟨k, rfl⟩ : ∃ k, w = k + 1 := ⟨w - 1, by omega⟩
  simp only [Nat.add_sub_cancel] at lower upper
  rw [Int.bmod_eq_of_le]
  · push_cast
    rw [pow_succ]
    omega
  · push_cast
    rw [pow_succ]
    omega

/-- Truncation wraps the signed value around. -/
theorem toInt_setWidth (bits : BitVec w) (le : v ≤ w) :
    (bits.setWidth v).toInt = bits.toInt.bmod (2 ^ v) := by
  rw [← BitVec.signExtend_eq_setWidth_of_le bits le]
  exact BitVec.toInt_signExtend_eq_toInt_bmod_of_le bits le

/-- And does nothing to a value that fits. -/
theorem toInt_setWidth_of_fits {bits : BitVec w} (positive : 0 < v) (le : v ≤ w)
    (lower : -2 ^ (v - 1) ≤ bits.toInt) (upper : bits.toInt < 2 ^ (v - 1)) :
    (bits.setWidth v).toInt = bits.toInt := by
  rw [toInt_setWidth _ le]
  exact bmod_eq_of_fits positive lower upper

section Widened

variable {u : Nat} (x : BitVec v) (y : BitVec u)

theorem toInt_fits (le : v ≤ w) :
    -2 ^ (w - 1) ≤ x.toInt ∧ x.toInt < 2 ^ (w - 1) := by
  rw [← BitVec.toInt_signExtend_of_le le]
  exact ⟨BitVec.le_toInt _, BitVec.toInt_lt⟩

theorem abs_toInt_le : |x.toInt| ≤ 2 ^ (v - 1) := by
  obtain ⟨lower, upper⟩ := toInt_fits x le_rfl
  exact abs_le.mpr ⟨lower, upper.le⟩

/-- A product is exact in the sum of the two widths. -/
theorem toInt_mul_widened (xPositive : 0 < v) (yPositive : 0 < u) (room : v + u ≤ w) :
    (x.signExtend w * y.signExtend w).toInt = x.toInt * y.toInt := by
  have magnitude : |x.toInt * y.toInt| < 2 ^ (w - 1) := by
    calc
      |x.toInt * y.toInt| = |x.toInt| * |y.toInt| := abs_mul _ _
      _ ≤ 2 ^ (v - 1) * 2 ^ (u - 1) :=
        mul_le_mul (abs_toInt_le x) (abs_toInt_le y) (abs_nonneg _) (pow_nonneg zero_le_two _)
      _ = 2 ^ (v - 1 + (u - 1)) := (pow_add _ _ _).symm
      _ < 2 ^ (w - 1) := pow_lt_pow_right₀ one_lt_two (by omega)
  obtain ⟨lower, upper⟩ := abs_lt.mp magnitude
  rw [BitVec.toInt_mul, BitVec.toInt_signExtend_of_le (by omega),
    BitVec.toInt_signExtend_of_le (by omega)]
  exact bmod_eq_of_fits (by omega) lower.le upper

variable (xNarrow : v < w) (yNarrow : u < w) (room : 1 < w)

include xNarrow yNarrow room

/-- A sum is exact in one bit more than either width. -/
theorem toInt_add_widened :
    (x.signExtend w + y.signExtend w).toInt = x.toInt + y.toInt := by
  obtain ⟨k, rfl⟩ : ∃ k, w = k + 2 := ⟨w - 2, by omega⟩
  obtain ⟨xLower, xUpper⟩ := toInt_fits x (Nat.le_of_lt_succ xNarrow)
  obtain ⟨yLower, yUpper⟩ := toInt_fits y (Nat.le_of_lt_succ yNarrow)
  simp only [Nat.add_sub_cancel] at xLower xUpper yLower yUpper
  rw [BitVec.toInt_add, BitVec.toInt_signExtend_of_le xNarrow.le,
    BitVec.toInt_signExtend_of_le yNarrow.le]
  apply bmod_eq_of_fits (by omega)
  · rw [Nat.add_succ_sub_one, pow_succ]
    omega
  · rw [Nat.add_succ_sub_one, pow_succ]
    omega

/-- And so is a difference. -/
theorem toInt_sub_widened :
    (x.signExtend w - y.signExtend w).toInt = x.toInt - y.toInt := by
  obtain ⟨k, rfl⟩ : ∃ k, w = k + 2 := ⟨w - 2, by omega⟩
  obtain ⟨xLower, xUpper⟩ := toInt_fits x (Nat.le_of_lt_succ xNarrow)
  obtain ⟨yLower, yUpper⟩ := toInt_fits y (Nat.le_of_lt_succ yNarrow)
  simp only [Nat.add_sub_cancel] at xLower xUpper yLower yUpper
  rw [BitVec.toInt_sub, BitVec.toInt_signExtend_of_le xNarrow.le,
    BitVec.toInt_signExtend_of_le yNarrow.le]
  apply bmod_eq_of_fits (by omega)
  · rw [Nat.add_succ_sub_one, pow_succ]
    omega
  · rw [Nat.add_succ_sub_one, pow_succ]
    omega

end Widened

section Fields

variable {k : Nat} {p : BitVec w} {high low : Int}

/-- The low field of a word, read with its sign. -/
theorem toInt_lowField (positive : 0 < k) (inside : k ≤ w)
    (split : p.toInt = high * 2 ^ k + low)
    (lower : -2 ^ (k - 1) ≤ low) (upper : low < 2 ^ (k - 1)) :
    (p.setWidth k).toInt = low := by
  have wraps : (high * 2 ^ k + low).bmod (2 ^ k) = low.bmod (2 ^ k) := by
    have cancel := Int.add_mul_bmod_self_right low high (2 ^ k)
    push_cast at cancel
    rwa [add_comm low] at cancel
  rw [toInt_setWidth _ inside, split, wraps]
  exact bmod_eq_of_fits positive lower upper

/-- What is left of a word once its low field is taken off. -/
theorem toInt_sub_lowField (positive : 0 < k) (inside : k ≤ w)
    (split : p.toInt = high * 2 ^ k + low)
    (lower : -2 ^ (k - 1) ≤ low) (upper : low < 2 ^ (k - 1)) :
    (p.signExtend (w + 1) - (p.setWidth k).signExtend (w + 1)).toInt = high * 2 ^ k := by
  rw [toInt_sub_widened _ _ (by omega) (by omega) (by omega),
    toInt_lowField positive inside split lower upper, split, add_sub_cancel_right]

end Fields

end FixedWidth

/-- A signed accumulator of `w` bits.  No result depends on the flag. -/
structure Accum (w : Nat) where
  bits : BitVec w
  overflowed : Bool
  deriving DecidableEq, Repr

namespace Accum

open BoundedLoop

variable {w : Nat}

def ofBits (bits : BitVec w) : Accum w :=
  ⟨bits, false⟩

/-- Two's complement addition, with the flag raised when it overflows. -/
def add (left right : Accum w) : Accum w where
  bits := left.bits + right.bits
  overflowed := left.overflowed || right.overflowed ||
    left.bits.saddOverflow right.bits

instance : Add (Accum w) :=
  ⟨add⟩

/-- The accumulator has reached `value` without overflow, from terms with
magnitudes that sum up to at most `size`. -/
structure Holds (accum : Accum w) (size : Nat) (value : Int) : Prop where
  exact : accum.bits.toInt = value
  bounded : |value| ≤ size
  sound : accum.overflowed = false

section Sums

variable {left right : Accum w} {leftSize rightSize : Nat}
  {leftValue rightValue : Int}

theorem holds_ofBits {bits : BitVec w} {size : Nat}
    (bounded : |bits.toInt| ≤ size) : (ofBits bits).Holds size bits.toInt :=
  ⟨rfl, bounded, rfl⟩

/-- A narrower term starts with nothing but its width known. -/
theorem holds_signExtend {v : Nat} (bits : BitVec v) (le : v ≤ w) :
    (ofBits (bits.signExtend w)).Holds (2 ^ (v - 1)) bits.toInt := by
  have exact := BitVec.toInt_signExtend_of_le (x := bits) le
  rw [← exact]
  apply holds_ofBits
  rw [exact]
  exact_mod_cast FixedWidth.abs_toInt_le bits

theorem Holds.add (leftHolds : left.Holds leftSize leftValue)
    (rightHolds : right.Holds rightSize rightValue)
    (room : leftSize + rightSize < 2 ^ (w - 1)) :
    (left + right).Holds (leftSize + rightSize) (leftValue + rightValue) := by
  obtain ⟨leftExact, leftBounded, leftSound⟩ := leftHolds
  obtain ⟨rightExact, rightBounded, rightSound⟩ := rightHolds
  have bounded : |leftValue + rightValue| ≤ ((leftSize + rightSize : Nat) : Int) := by
    push_cast
    exact (abs_add_le _ _).trans (add_le_add leftBounded rightBounded)
  have inRange : |leftValue + rightValue| < (2 : Int) ^ (w - 1) :=
    bounded.trans_lt (by exact_mod_cast room)
  have fits : left.bits.saddOverflow right.bits = false := by
    simp only [BitVec.saddOverflow, leftExact, rightExact, Bool.or_eq_false_iff,
      decide_eq_false_iff_not]
    rw [abs_lt] at inRange
    constructor <;> omega
  refine ⟨?_, bounded, ?_⟩
  · change (left.bits + right.bits).toInt = _
    rw [BitVec.toInt_add_of_not_saddOverflow (by simp [fits]), leftExact, rightExact]
  · change (left.overflowed || right.overflowed ||
      left.bits.saddOverflow right.bits) = false
    rw [leftSound, rightSound, fits]
    rfl

/-- The accumulator holds the sum of `count` consecutive terms, each of
magnitude at most `size`. -/
def Collects (accum : Accum w) (size : Nat) (value : Nat → Int)
    (first count : Nat) : Prop :=
  accum.Holds (count * size) (∑ i ∈ Finset.range count, value (first + i))

theorem Collects.one {accum : Accum w} {size : Nat} {value : Nat → Int}
    {first : Nat} (holds : accum.Holds size (value first)) :
    accum.Collects size value first 1 := by
  simpa [Collects] using holds

/-- An inner node of a reduction tree. -/
theorem Collects.join {size first count more : Nat} {value : Nat → Int}
    (leftCollects : left.Collects size value first count)
    (rightCollects : right.Collects size value (first + count) more)
    (room : (count + more) * size < 2 ^ (w - 1)) :
    (left + right).Collects size value first (count + more) := by
  rw [Nat.add_mul] at room
  have sum := leftCollects.add rightCollects room
  rw [Collects, Nat.add_mul, Finset.sum_range_add]
  simpa only [Nat.add_assoc] using sum

end Sums

section Trees

variable {p : Nat → Accum w} {accum : Accum w} {first count : Nat}

/-- The accumulator is the root of a tree of additions, the leaves of which are
`count` consecutive terms, each of them once and in their order. -/
inductive Reduces (p : Nat → Accum w) : Accum w → Nat → Nat → Prop
  | leaf (i : Nat) : Reduces p (p i) i 1
  | join {left right : Accum w} {first count more : Nat} :
      Reduces p left first count → Reduces p right (first + count) more →
        Reduces p (left + right) first (count + more)

/-- The order of the additions does not matter, even where they wrap around. -/
theorem Reduces.toInt_bits (tree : Reduces p accum first count) :
    accum.bits.toInt =
      (∑ i ∈ Finset.range count, (p (first + i)).bits.toInt).bmod (2 ^ w) := by
  induction tree with
  | leaf i => simp [BitVec.toInt_bmod_cancel]
  | @join left right first count more _ _ leftSum rightSum =>
      change (left.bits + right.bits).toInt = _
      rw [BitVec.toInt_add, leftSum, rightSum, Int.bmod_add_bmod, Int.add_bmod_bmod,
        Finset.sum_range_add]
      simp only [Nat.add_assoc]

/-- As long as the magnitudes leave room the sum is exact. -/
theorem Reduces.collects {size : Nat} {value : Nat → Int}
    (tree : Reduces p accum first count)
    (holds : ∀ i < count, (p (first + i)).Holds size (value (first + i)))
    (room : count * size < 2 ^ (w - 1)) : accum.Collects size value first count := by
  induction tree with
  | leaf i => exact .one (holds 0 Nat.zero_lt_one)
  | @join left right first count more _ _ leftSum rightSum =>
      have split : (count + more) * size = count * size + more * size :=
        Nat.add_mul count more size
      apply Collects.join _ _ room
      · exact leftSum (fun i inRange => holds i (by omega)) (by omega)
      · apply rightSum _ (by omega)
        intro i inRange
        rw [Nat.add_assoc]
        exact holds (count + i) (by omega)

end Trees

section Loops

variable {State : Type*} {read : State → Accum w} {count size : Nat}
  {body : Nat → State → State}

/-- The program adds terms of `value` and magnitude `size` to the accumulator
that is observed. -/
def Adds (read : State → Accum w) (program : State → State) (size : Nat)
    (value : Int) : Prop :=
  ∀ state held total, held + size < 2 ^ (w - 1) → (read state).Holds held total →
    (read (program state)).Holds (held + size) (total + value)

theorem Adds.of_add {program : State → State} {term : Accum w} {value : Int}
    (adds : ∀ state, read (program state) = read state + term)
    (holds : term.Holds size value) : Adds read program size value := by
  intro state held total room current
  rw [adds]
  exact current.add holds room

/-- A loop of which every iteration adds something adds the sum. -/
theorem Adds.forLoop {value : Nat → Int}
    (adds : ∀ i < count, Adds read (body i) size (value i)) :
    Adds read (forLoop count body) (count * size)
      (∑ i ∈ Finset.range count, value i) := by
  intro state held total room current
  induction count with
  | zero => simpa using current
  | succ count ih =>
      rw [Nat.succ_mul] at room
      have before := ih (fun i inRange => adds i (by omega)) (by omega)
      have after := adds count (Nat.lt_succ_self count) _ _ _ (by omega) before
      rwa [Nat.succ_mul, Finset.sum_range_succ, ← Nat.add_assoc, ← add_assoc]

/-- A loop of which one iteration alone touches the accumulator. -/
theorem Adds.forLoop_once {once : Nat} {value : Int} (inRange : once < count)
    (others : ∀ i < count, i ≠ once → Keeps read (body i))
    (adds : Adds read (body once) size value) :
    Adds read (BoundedLoop.forLoop count body) size value := by
  intro state held total room current
  rw [BoundedLoop.forLoop_once inRange others]
  apply adds _ _ _ room
  have untouched : Keeps read (BoundedLoop.forLoop once body) :=
    .forLoop fun i before => others i (by omega) (by omega)
  rwa [untouched]

end Loops

end Accum
