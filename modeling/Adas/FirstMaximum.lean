import Mathlib.Order.BoundedOrder.Lattice
import Mathlib.Order.MinMax
import Mathlib.Data.List.Basic

/-!
# The first maximum of a list

A scan goes through a list of items, keeps the highest level seen so far with
a label of the item that first reached it, and stops as soon as an item has
the top level.  This file relates the scan to the maximum of the levels, which
depends only on which items the list has.
-/

namespace FirstMaximum

variable {Item Level Label : Type*} [LinearOrder Level] [BoundedOrder Level]

/-- The highest level among some items, the least level when there are none. -/
def highest (level : Item → Level) (items : List Item) : Level :=
  (items.map level).foldr max ⊥

/-- The item has the highest level, and every item before it is lower. -/
def IsFirstMaximum (level : Item → Level) (items : List Item) (item : Item) :
    Prop :=
  ∃ before after, items = before ++ item :: after ∧
    level item = highest level items ∧
    ∀ earlier ∈ before, level earlier < level item

/-- The scan from a level and a label found earlier. -/
def scanFrom (level : Item → Level) (label : Item → Label) :
    Level → Label → List Item → Level × Label
  | best, found, [] => (best, found)
  | best, found, item :: rest =>
      if level item = ⊤ then
        (⊤, label item)
      else if best < level item then
        scanFrom level label (level item) (label item) rest
      else
        scanFrom level label best found rest

section Highest

variable {level : Item → Level} {items more : List Item}

@[simp]
theorem highest_nil : highest level [] = ⊥ :=
  rfl

@[simp]
theorem highest_cons (item : Item) :
    highest level (item :: items) = max (level item) (highest level items) :=
  rfl

/-- The highest level is the least upper bound of the levels. -/
theorem highest_le_iff {bound : Level} :
    highest level items ≤ bound ↔ ∀ item ∈ items, level item ≤ bound := by
  induction items with
  | nil => simp
  | cons item items ih => simp [ih]

theorem le_highest {item : Item} (mem : item ∈ items) :
    level item ≤ highest level items :=
  highest_le_iff.mp le_rfl item mem

theorem highest_mono (subset : items ⊆ more) :
    highest level items ≤ highest level more :=
  highest_le_iff.mpr fun _ mem => le_highest (subset mem)

theorem highest_append :
    highest level (items ++ more) =
      max (highest level items) (highest level more) := by
  induction items with
  | nil => simp
  | cons item items ih => simp [ih, max_assoc]

/-- A level up to the highest one is reached by some item. -/
theorem le_highest_iff {bound : Level} :
    bound ≤ highest level items ↔
      bound = ⊥ ∨ ∃ item ∈ items, bound ≤ level item := by
  induction items with
  | nil => simp
  | cons item items ih =>
      rw [highest_cons, le_max_iff, ih, List.exists_mem_cons_iff]
      exact or_left_comm

/-- Items at the least level do not count. -/
theorem highest_filter_of_bot {keep : Item → Bool}
    (atBot : ∀ item ∈ items, keep item = false → level item = ⊥) :
    highest level (items.filter keep) = highest level items := by
  apply le_antisymm
  · exact highest_mono (List.filter_subset_self items)
  · rw [highest_le_iff]
    intro item mem
    cases kept : keep item with
    | true => exact le_highest (List.mem_filter.mpr ⟨mem, kept⟩)
    | false => exact (atBot item mem kept).trans_le bot_le

theorem bot_lt_highest_iff :
    ⊥ < highest level items ↔ ∃ item ∈ items, ⊥ < level item := by
  rw [← not_le, highest_le_iff]
  simp [bot_lt_iff_ne_bot]

end Highest

theorem IsFirstMaximum.mem {level : Item → Level} {items : List Item} {item : Item}
    (first : IsFirstMaximum level items item) : item ∈ items := by
  obtain ⟨before, after, rfl, -, -⟩ := first
  simp

section Scan

variable {level : Item → Level} {label : Item → Label}

/-- The level a scan ends with. -/
theorem scanFrom_fst (best : Level) (found : Label) (items : List Item) :
    (scanFrom level label best found items).1 =
      max best (highest level items) := by
  induction items generalizing best found with
  | nil => simp [scanFrom]
  | cons item rest ih =>
      rw [scanFrom, highest_cons]
      split_ifs with atTop better
      · simp [atTop]
      · rw [ih, ← max_assoc, max_eq_right better.le]
      · rw [ih, ← max_assoc, max_eq_left (not_lt.mp better)]

/-- A scan that finds nothing higher keeps its label. -/
theorem scanFrom_snd_of_le {best : Level} {found : Label} {items : List Item}
    (notTop : best < ⊤) (nothingHigher : highest level items ≤ best) :
    (scanFrom level label best found items).2 = found := by
  induction items with
  | nil => rfl
  | cons item rest ih =>
      obtain ⟨first, others⟩ := max_le_iff.mp nothingHigher
      have belowTop : level item ≠ ⊤ := (first.trans_lt notTop).ne
      rw [scanFrom, if_neg belowTop, if_neg (not_lt.mpr first)]
      exact ih others

/-- A scan that finds something higher ends with the label of the first item
that has the highest level. -/
theorem scanFrom_snd_of_lt {best : Level} {found : Label} {items : List Item}
    (higher : best < highest level items) :
    ∃ item, IsFirstMaximum level items item ∧
      (scanFrom level label best found items).2 = label item := by
  induction items generalizing best found with
  | nil => exact absurd higher not_lt_bot
  | cons item rest ih =>
      rw [scanFrom]
      rw [highest_cons] at higher
      by_cases isFirst : highest level rest ≤ level item
      · -- Nothing later is higher than this item.
        rw [max_eq_left isFirst] at higher
        have isMaximum : level item = highest level (item :: rest) :=
          (max_eq_left isFirst).symm
        refine ⟨item, ⟨[], rest, rfl, isMaximum, by simp⟩, ?_⟩
        rw [if_pos higher]
        split_ifs with atTop
        · rfl
        · exact scanFrom_snd_of_le (lt_top_iff_ne_top.mpr atTop) isFirst
      · have later : level item < highest level rest := not_le.mp isFirst
        rw [max_eq_right later.le] at higher
        have continued : ∀ {best : Level} {found : Label},
            best < highest level rest →
              ∃ first, IsFirstMaximum level (item :: rest) first ∧
                (scanFrom level label best found rest).2 = label first := by
          intro best found higher
          obtain ⟨first, ⟨before, after, split, maximum, lower⟩, named⟩ :=
            @ih best found higher
          refine ⟨first, ⟨item :: before, after, by rw [split]; rfl, ?_, ?_⟩, named⟩
          · rw [highest_cons, max_eq_right later.le, maximum]
          · intro earlier mem
            rcases List.mem_cons.mp mem with same | inRest
            · rw [same, maximum]
              exact later
            · exact lower earlier inRest
        rw [if_neg (later.trans_le le_top).ne]
        split_ifs
        · exact continued later
        · exact continued higher

end Scan

end FirstMaximum
