import Mathlib.Data.Rat.Defs
import Mathlib.Algebra.Order.Ring.Rat
import Mathlib.Algebra.Order.Group.Unbundled.Abs

/-!
# Floating-point operations as an interface

The decision code computes with `float` values: it adds, subtracts, multiplies
and divides them, takes absolute values and compares them.  The definitions in
this development are written against this interface alone, with every
comparison in the direction the source writes it.  Nothing is assumed about
the operations, so what is proved generically holds of rounded arithmetic and
of comparisons with NaN as well.  The rational instance is exact arithmetic; a
second one adds a NaN, of which every comparison is false.
-/

/-- The operations on a floating-point type.  Comparisons are Boolean because
`a < b` and `b ≤ a` need not be opposites. -/
class FloatOps (F : Type) extends Add F, Sub F, Mul F, Div F, Neg F where
  /-- The value a decimal literal denotes. -/
  lit : ℚ → F
  lt : F → F → Bool
  le : F → F → Bool
  eq : F → F → Bool
  abs : F → F

instance : FloatOps ℚ where
  lit value := value
  lt left right := decide (left < right)
  le left right := decide (left ≤ right)
  eq left right := decide (left = right)
  abs value := |value|

namespace FloatOps

@[simp]
theorem lt_rat (left right : ℚ) : lt left right = decide (left < right) :=
  rfl

@[simp]
theorem le_rat (left right : ℚ) : le left right = decide (left ≤ right) :=
  rfl

@[simp]
theorem eq_rat (left right : ℚ) : eq left right = decide (left = right) :=
  rfl

end FloatOps

/-- The rationals with a NaN. -/
inductive RatNaN where
  | nan
  | val (value : ℚ)
  deriving DecidableEq, Repr

namespace RatNaN

def arith (op : ℚ → ℚ → ℚ) : RatNaN → RatNaN → RatNaN
  | val left, val right => val (op left right)
  | _, _ => nan

def compare (rel : ℚ → ℚ → Bool) : RatNaN → RatNaN → Bool
  | val left, val right => rel left right
  | _, _ => false

def unary (op : ℚ → ℚ) : RatNaN → RatNaN
  | val value => val (op value)
  | nan => nan

instance : FloatOps RatNaN where
  add := arith (· + ·)
  sub := arith (· - ·)
  mul := arith (· * ·)
  div left right :=
    if right = val 0 then nan else arith (· / ·) left right
  neg := unary (- ·)
  lit := val
  lt := compare fun left right => decide (left < right)
  le := compare fun left right => decide (left ≤ right)
  eq := compare fun left right => decide (left = right)
  abs := unary fun value => |value|

end RatNaN

/-- What the comparisons of floating-point numbers have in common: they never
hold in opposite directions, also not with a NaN. -/
class LawfulCompare (F : Type) [FloatOps F] : Prop where
  not_lt_of_le : ∀ left right : F,
    FloatOps.le left right = true → FloatOps.lt right left = false

instance : LawfulCompare ℚ where
  not_lt_of_le left right le := by
    simpa using le

instance : LawfulCompare RatNaN where
  not_lt_of_le left right le := by
    cases left <;> cases right <;>
      simp_all [FloatOps.le, FloatOps.lt, RatNaN.compare]
