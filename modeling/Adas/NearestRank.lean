import Mathlib.Algebra.Order.Floor.Ring
import Mathlib.Data.List.GetD
import Mathlib.Data.List.Sort
import Mathlib.Order.Bounds.Basic
import Mathlib.Tactic.Linarith

/-!
# Nearest-rank percentiles

The percentile of a list for a ratio is its least member that at least that
share of the members does not exceed.  It depends on the members alone and
grows with the ratio.  In a sorted list it stands at the position that the
ratio and the length determine.
-/

namespace NearestRank

variable {α : Type*} [LinearOrder α]
variable {K : Type*} [Field K] [LinearOrder K]

/-- The number of members that are at most `value`. -/
def countAtMost (values : List α) (value : α) : Nat :=
  values.countP fun other => decide (other ≤ value)

/-- The least member that at least a share `ratio` of the members does not
exceed. -/
def IsPercentile (ratio : K) (values : List α) (value : α) : Prop :=
  IsLeast {value | value ∈ values ∧ ratio * values.length ≤ countAtMost values value} value

section Counting

variable {values : List α}

theorem countAtMost_perm {other : List α} (perm : values.Perm other) (value : α) :
    countAtMost values value = countAtMost other value :=
  perm.countP_eq _

theorem countAtMost_pos {value : α} (member : value ∈ values) :
    0 < countAtMost values value :=
  List.countP_pos_iff.mpr ⟨value, member, decide_eq_true le_rfl⟩

/-- The members up to a position of a sorted list are at most the one there. -/
theorem lt_countAtMost_getElem (sorted : values.Pairwise (· ≤ ·)) {index : Nat}
    (inRange : index < values.length) :
    index < countAtMost values values[index] := by
  have upTo : ∀ other ∈ values.take (index + 1), other ≤ values[index] := by
    intro other member
    obtain ⟨position, before, rfl⟩ := List.mem_take_iff_getElem.mp member
    apply sorted.sortedLE.getElem_le_getElem_of_le
    exact Nat.lt_succ_iff.mp (lt_min_iff.mp before).1
  have counted : (values.take (index + 1)).countP (fun other => decide (other ≤ values[index])) =
      (values.take (index + 1)).length :=
    List.countP_eq_length.mpr fun other member => decide_eq_true (upTo other member)
  have length : (values.take (index + 1)).length = index + 1 :=
    List.length_take_of_le inRange
  have sublist := (List.take_sublist (index + 1) values).countP_le
    (p := fun other => decide (other ≤ values[index]))
  rw [counted, length] at sublist
  exact sublist

/-- The members from a position of a sorted list on exceed whatever is less
than the one there. -/
theorem countAtMost_le_of_lt (sorted : values.Pairwise (· ≤ ·)) {index : Nat}
    (inRange : index < values.length) {value : α} (less : value < values[index]) :
    countAtMost values value ≤ index := by
  have fromOn : ∀ other ∈ values.drop index, ¬ other ≤ value := by
    intro other member
    obtain ⟨position, before, rfl⟩ := List.mem_drop_iff_getElem.mp member
    apply not_le.mpr
    apply less.trans_le
    exact sorted.sortedLE.getElem_le_getElem_of_le (Nat.le_add_right index position)
  have none : (values.drop index).countP (fun other => decide (other ≤ value)) = 0 :=
    List.countP_eq_zero.mpr fun other member below =>
      fromOn other member (of_decide_eq_true below)
  calc countAtMost values value
      = (values.take index).countP (fun other => decide (other ≤ value)) +
          (values.drop index).countP (fun other => decide (other ≤ value)) := by
        rw [← List.countP_append, List.take_append_drop, countAtMost]
    _ = (values.take index).countP (fun other => decide (other ≤ value)) := by
        rw [none, Nat.add_zero]
    _ ≤ (values.take index).length := List.countP_le_length
    _ ≤ index := List.length_take_le _ _

end Counting

section Percentiles

variable {ratio : K} {values : List α} {value : α}

theorem IsPercentile.mem (percentile : IsPercentile ratio values value) : value ∈ values :=
  percentile.1.1

theorem IsPercentile.perm {other : List α} (percentile : IsPercentile ratio values value)
    (perm : values.Perm other) : IsPercentile ratio other value := by
  obtain ⟨⟨member, reached⟩, least⟩ := percentile
  refine ⟨⟨perm.mem_iff.mp member, ?_⟩, ?_⟩
  · rwa [← perm.length_eq, ← countAtMost_perm perm]
  · rintro candidate ⟨isMember, isReached⟩
    rw [← perm.length_eq, ← countAtMost_perm perm] at isReached
    exact least ⟨perm.mem_iff.mpr isMember, isReached⟩

variable [IsStrictOrderedRing K]

/-- The percentile grows with the ratio. -/
theorem IsPercentile.mono {larger : K} {other : α}
    (percentile : IsPercentile ratio values value)
    (isOther : IsPercentile larger values other) (le : ratio ≤ larger) :
    value ≤ other := by
  apply percentile.2
  refine ⟨isOther.mem, le_trans ?_ isOther.1.2⟩
  exact mul_le_mul_of_nonneg_right le (Nat.cast_nonneg _)

theorem IsPercentile.isLeast (percentile : IsPercentile ratio values value)
    (nonpos : ratio ≤ 0) : IsLeast {value | value ∈ values} value := by
  refine ⟨percentile.mem, ?_⟩
  intro candidate member
  apply percentile.2
  refine ⟨member, le_trans ?_ (Nat.cast_nonneg _)⟩
  exact mul_nonpos_of_nonpos_of_nonneg nonpos (Nat.cast_nonneg _)

theorem IsPercentile.isGreatest (percentile : IsPercentile ratio values value)
    (large : 1 ≤ ratio) : IsGreatest {value | value ∈ values} value := by
  refine ⟨percentile.mem, ?_⟩
  intro candidate member
  have all : values.length ≤ countAtMost values value := by
    have reached : (values.length : K) ≤ countAtMost values value :=
      le_trans (le_mul_of_one_le_left (Nat.cast_nonneg _) large) percentile.1.2
    exact_mod_cast reached
  have everyone := List.countP_eq_length.mp (le_antisymm List.countP_le_length all)
  exact of_decide_eq_true (everyone candidate member)

/-- A position of a sorted list is that of the percentile if the share reaches
beyond the position before it and not beyond the position itself. -/
theorem isPercentile_getElem (sorted : values.Pairwise (· ≤ ·)) {index : Nat}
    (inRange : index < values.length) (reaches : ratio * values.length ≤ index + 1)
    (first : index = 0 ∨ (index : K) < ratio * values.length) :
    IsPercentile ratio values values[index] := by
  refine ⟨⟨List.getElem_mem inRange, ?_⟩, ?_⟩
  · have counted := lt_countAtMost_getElem sorted inRange
    have countedCast : (index : K) + 1 ≤ countAtMost values values[index] := by
      exact_mod_cast counted
    exact reaches.trans countedCast
  · rintro candidate ⟨member, reached⟩
    by_contra below
    have few := countAtMost_le_of_lt sorted inRange (not_le.mp below)
    rcases first with rfl | beyond
    · exact absurd few (not_le.mpr (countAtMost_pos member))
    · have fewCast : (countAtMost values candidate : K) ≤ index := by exact_mod_cast few
      exact absurd (reached.trans fewCast) (not_le.mpr beyond)

end Percentiles

section Positions

variable [FloorRing K]

/-- The position of the percentile in a sorted list with `count` members. -/
def position (ratio : K) (count : Nat) : Nat :=
  min (count - 1) (⌈ratio * count⌉ - 1).toNat

theorem position_lt {ratio : K} {count : Nat} (positive : 0 < count) :
    position ratio count < count :=
  lt_of_le_of_lt (min_le_left _ _) (Nat.sub_lt positive one_pos)

variable [IsStrictOrderedRing K]

/-- Limiting the ratio does not change the position. -/
theorem position_limited (ratio : K) {count : Nat} (positive : 0 < count) :
    position (max 0 (min 1 ratio)) count = position ratio count := by
  have countCast : (0 : K) < count := by exact_mod_cast positive
  rcases lt_or_ge ratio 0 with negative | nonneg
  · have isZero : max 0 (min 1 ratio) = 0 :=
      max_eq_left ((min_le_right _ _).trans negative.le)
    have ceil : ⌈ratio * count⌉ ≤ 0 :=
      Int.ceil_le.mpr (by
        rw [Int.cast_zero]
        exact mul_nonpos_of_nonpos_of_nonneg negative.le countCast.le)
    rw [isZero, position, position, zero_mul, Int.ceil_zero]
    omega
  · rcases le_or_gt ratio 1 with small | large
    · rw [min_eq_right small, max_eq_right nonneg]
    · have ceil : (count : Int) ≤ ⌈ratio * count⌉ := by
        have isLarge : (count : K) ≤ ratio * count :=
          le_mul_of_one_le_left countCast.le large.le
        have ceilCast : ((count : Int) : K) ≤ ⌈ratio * count⌉ :=
          (Int.cast_natCast count).trans_le (isLarge.trans (Int.le_ceil _))
        exact_mod_cast ceilCast
      rw [min_eq_left large.le, max_eq_right zero_le_one, position, position, one_mul,
        Int.ceil_natCast]
      omega

theorem isPercentile_position {values : List α} (sorted : values.Pairwise (· ≤ ·))
    (positive : 0 < values.length) {ratio : K} (small : ratio ≤ 1) (fallback : α) :
    IsPercentile ratio values (values.getD (position ratio values.length) fallback) := by
  have countCast : (0 : K) < values.length := by exact_mod_cast positive
  have ceilLe : ⌈ratio * values.length⌉ ≤ values.length :=
    Int.ceil_le.mpr (by
      rw [Int.cast_natCast]
      exact mul_le_of_le_one_left countCast.le small)
  have leCeil := Int.le_ceil (ratio * values.length)
  have ceilLt := Int.ceil_lt_add_one (ratio * values.length)
  rw [List.getD_eq_getElem values fallback (position_lt positive)]
  apply isPercentile_getElem sorted
  · have atLeast : ⌈ratio * values.length⌉ ≤ (position ratio values.length : Int) + 1 := by
      rw [position]
      omega
    have atLeastCast : (⌈ratio * values.length⌉ : K) ≤ position ratio values.length + 1 := by
      exact_mod_cast atLeast
    exact leCeil.trans atLeastCast
  · rcases Nat.eq_zero_or_pos (position ratio values.length) with isZero | isPositive
    · exact Or.inl isZero
    · right
      have isExact : (position ratio values.length : Int) = ⌈ratio * values.length⌉ - 1 := by
        rw [position] at isPositive ⊢
        omega
      have exactCast : (position ratio values.length : K) = ⌈ratio * values.length⌉ - 1 := by
        exact_mod_cast isExact
      rw [exactCast]
      linarith

end Positions

end NearestRank
