import Mathlib.Algebra.Order.Floor.Ring
import Mathlib.Tactic.Linarith

/-!
# Rounding to the nearest integer

Two ways to round a number to a nearest integer, which differ only in what
becomes of halves.  What the later files need of both is that the result is at
most one half away.  Quotients that are rounded down are compared for numbers
that are close to each other.
-/

namespace Rounding

variable {K : Type*} [Field K] [LinearOrder K] [IsStrictOrderedRing K]
variable [FloorRing K]

/-- A nearest integer, and of two the even one. -/
def roundHalfEven (x : K) : Int :=
  if x - ⌊x⌋ < 1 / 2 then
    ⌊x⌋
  else if 1 / 2 < x - ⌊x⌋ then
    ⌊x⌋ + 1
  else if ⌊x⌋ % 2 = 0 then
    ⌊x⌋
  else
    ⌊x⌋ + 1

/-- A nearest integer, and of two the one that is farther from zero. -/
def roundHalfAway (x : K) : Int :=
  if 0 ≤ x then ⌊x + 1 / 2⌋ else ⌈x - 1 / 2⌉

/-- The integer is at most one half away from the number. -/
def IsNearest (rounded : Int) (x : K) : Prop :=
  |(rounded : K) - x| ≤ 1 / 2

theorem isNearest_roundHalfEven (x : K) : IsNearest (roundHalfEven x) x := by
  have floorLe := Int.floor_le x
  have ltFloor := Int.lt_floor_add_one x
  rw [IsNearest, roundHalfEven, abs_le]
  split_ifs with below above even <;> push_cast <;> constructor <;> linarith

theorem isNearest_roundHalfAway (x : K) : IsNearest (roundHalfAway x) x := by
  rw [IsNearest, roundHalfAway, abs_le]
  split_ifs
  · have floorLe := Int.floor_le (x + 1 / 2)
    have ltFloor := Int.lt_floor_add_one (x + 1 / 2)
    constructor <;> linarith
  · have leCeil := Int.le_ceil (x - 1 / 2)
    have ceilLt := Int.ceil_lt_add_one (x - 1 / 2)
    constructor <;> linarith

section Bounds

variable {rounded bound : Int} {x : K}

/-- A nearest integer does not pass an integer above the number. -/
theorem IsNearest.le_of_lt (nearest : IsNearest rounded x) (below : x < bound) :
    rounded ≤ bound := by
  rw [IsNearest, abs_le] at nearest
  have close : (rounded : K) < bound + 1 := by linarith
  exact Int.lt_add_one_iff.mp (by exact_mod_cast close)

/-- A nearest integer does not pass an integer that the number reaches. -/
theorem IsNearest.ge_of_le (nearest : IsNearest rounded x) (above : bound ≤ x) :
    bound ≤ rounded := by
  rw [IsNearest, abs_le] at nearest
  have close : (bound : K) - 1 < rounded := by linarith
  have closeInt : bound - 1 < rounded := by exact_mod_cast close
  omega

end Bounds

section Quotients

variable {a b d : Int}

/-- Quotients of close numbers differ by at most one. -/
theorem abs_ediv_sub_le (positive : 0 < d) (close : |b - a| < d) :
    |b / d - a / d| ≤ 1 := by
  rw [abs_lt] at close
  have splitA := Int.mul_ediv_add_emod a d
  have splitB := Int.mul_ediv_add_emod b d
  have belowA := Int.emod_lt_of_pos a positive
  have belowB := Int.emod_lt_of_pos b positive
  have nonnegA := Int.emod_nonneg a positive.ne'
  have nonnegB := Int.emod_nonneg b positive.ne'
  rw [abs_le]
  constructor
  · by_contra less
    have further : d * (b / d - a / d) ≤ d * (-2) :=
      mul_le_mul_of_nonneg_left (by omega) positive.le
    linarith
  · by_contra more
    have further : d * 2 ≤ d * (b / d - a / d) :=
      mul_le_mul_of_nonneg_left (by omega) positive.le
    linarith

/-- Between numbers with different quotients lies a multiple. -/
theorem exists_multiple_of_ediv_ne (positive : 0 < d) (differ : b / d ≠ a / d) :
    ∃ k, |a - k * d| ≤ |b - a| := by
  rcases lt_or_gt_of_ne differ with less | more
  · -- The multiple of the larger quotient is above `b` and not above `a`.
    refine ⟨a / d, ?_⟩
    have above : b < a / d * d := (Int.ediv_lt_iff_lt_mul positive).mp less
    have below : a / d * d ≤ a := Int.ediv_mul_le a positive.ne'
    rw [abs_of_nonneg (by linarith), abs_of_nonpos (by linarith)]
    linarith
  · refine ⟨b / d, ?_⟩
    have above : a < b / d * d := (Int.ediv_lt_iff_lt_mul positive).mp more
    have below : b / d * d ≤ b := Int.ediv_mul_le b positive.ne'
    rw [abs_of_nonpos (by linarith), abs_of_nonneg (by linarith)]
    linarith

end Quotients

end Rounding
