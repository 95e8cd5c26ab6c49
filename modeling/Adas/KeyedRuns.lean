import Mathlib.Data.List.SplitBy

/-!
# Lots told apart by their key

A sender puts lots on a channel one after the other, and every item carries the key
of its lot.  The receiver knows nothing about the lots; it starts a new run whenever
the key changes.  If neighbouring lots differ in their keys, then of whatever has
arrived every run but the last is a whole lot, in the order of sending.
-/

namespace KeyedRuns

variable {Item Key : Type*} (key : Item → Key)

/-- No lot is empty, the items of a lot share their key, and the next lot has
another one. -/
structure Separate (lots : List (List Item)) : Prop where
  nonempty : [] ∉ lots
  oneKey : ∀ lot ∈ lots, ∀ first ∈ lot, ∀ second ∈ lot, key first = key second
  differ : lots.IsChain fun lot next =>
    ∀ first ∈ lot, ∀ second ∈ next, key first ≠ key second

variable {key} {lots : List (List Item)} {items lot : List Item}

theorem Separate.tail (separate : Separate key (lot :: lots)) : Separate key lots where
  nonempty := fun isLot => separate.nonempty (List.mem_cons_of_mem lot isLot)
  oneKey := fun other isLot => separate.oneKey other (List.mem_cons_of_mem lot isLot)
  differ := separate.differ.tail

/-- The first item begins the first run. -/
theorem exists_splitBy_cons (related : Item → Item → Bool) (item : Item)
    (items : List Item) :
    ∃ run runs, (item :: items).splitBy related = (item :: run) :: runs := by
  have whole := List.flatten_splitBy related (item :: items)
  have nonempty := List.nil_notMem_splitBy related (item :: items)
  cases isSplit : (item :: items).splitBy related with
  | nil => exact absurd (List.splitBy_eq_nil.mp isSplit) (List.cons_ne_nil _ _)
  | cons first runs =>
      rw [isSplit] at whole nonempty
      cases first with
      | nil => exact absurd List.mem_cons_self nonempty
      | cons begins run =>
          rw [List.flatten_cons, List.cons_append, List.cons.injEq] at whole
          exact ⟨run, runs, by rw [whole.1]⟩

variable [DecidableEq Key]

variable (key) in
def sameKey (first second : Item) : Bool :=
  key first == key second

theorem isChain_of_oneKey
    (oneKey : ∀ first ∈ items, ∀ second ∈ items, key first = key second) :
    items.IsChain fun first second => sameKey key first second = true := by
  apply List.Pairwise.isChain
  apply List.pairwise_of_forall_mem_list
  intro first isFirst second isSecond
  exact beq_iff_eq.mpr (oneKey first isFirst second isSecond)

/-- Items of one key are one run, if there are any. -/
theorem splitBy_of_oneKey
    (oneKey : ∀ first ∈ items, ∀ second ∈ items, key first = key second) :
    items.splitBy (sameKey key) = if items = [] then [] else [items] := by
  split_ifs with nothing
  · rw [nothing, List.splitBy_nil]
  · exact List.splitBy_of_isChain nothing (isChain_of_oneKey oneKey)

/-- What follows a lot starts a new run. -/
theorem Separate.splitBy_append (separate : Separate key (lot :: lots))
    (arrived : items <+: lots.flatten) :
    (lot ++ items).splitBy (sameKey key) = lot :: items.splitBy (sameKey key) := by
  have nonempty : lot ≠ [] := fun empty => separate.nonempty (empty ▸ List.mem_cons_self)
  have oneRun : lot.splitBy (sameKey key) = [lot] := by
    rw [splitBy_of_oneKey (separate.oneKey lot List.mem_cons_self), if_neg nonempty]
  rw [List.splitBy_append, oneRun, List.singleton_append]
  intro last isLast first isFirst
  cases items with
  | nil => cases isFirst
  | cons item items =>
      obtain rfl : item = first := Option.some.inj isFirst
      cases lots with
      | nil => exact absurd (List.prefix_nil.mp arrived) (List.cons_ne_nil _ _)
      | cons next lots =>
          have inNext : item ∈ next := by
            cases next with
            | nil => exact absurd List.mem_cons_self separate.tail.nonempty
            | cons other next =>
                rw [List.flatten_cons, List.cons_append, List.cons_prefix_cons] at arrived
                exact arrived.1 ▸ List.mem_cons_self
          have differ := (List.isChain_cons_cons.mp separate.differ).1
          exact beq_eq_false_iff_ne.mpr
            (differ last (List.mem_of_getLast? isLast) item inNext)

/-- Every run but the last is the lot of its place, and there are no more runs than
lots. -/
theorem Separate.runs (separate : Separate key lots) (arrived : items <+: lots.flatten) :
    (items.splitBy (sameKey key)).dropLast <+: lots ∧
      (items.splitBy (sameKey key)).length ≤ lots.length := by
  induction lots generalizing items with
  | nil =>
      rw [List.prefix_nil.mp arrived]
      exact ⟨List.prefix_rfl, le_rfl⟩
  | cons lot lots ih =>
      rw [List.flatten_cons] at arrived
      rcases List.prefix_or_prefix_of_prefix arrived (List.prefix_append lot lots.flatten)
        with partly | ⟨rest, rfl⟩
      · -- The lot has not arrived in full, or nothing after it has.
        have oneKey := splitBy_of_oneKey fun first isFirst second isSecond =>
          separate.oneKey lot List.mem_cons_self first (partly.subset isFirst) second
            (partly.subset isSecond)
        rw [oneKey]
        split_ifs
        · exact ⟨List.nil_prefix, Nat.zero_le _⟩
        · exact ⟨List.nil_prefix, Nat.succ_le_succ (Nat.zero_le _)⟩
      · have restArrived := (List.prefix_append_right_inj lot).mp arrived
        obtain ⟨whole, count⟩ := ih separate.tail restArrived
        rw [separate.splitBy_append restArrived]
        constructor
        · rcases eq_or_ne (rest.splitBy (sameKey key)) [] with nothing | something
          · rw [nothing]
            exact List.nil_prefix
          · rw [List.dropLast_cons_of_ne_nil something, List.cons_prefix_cons]
            exact ⟨rfl, whole⟩
        · exact Nat.succ_le_succ count

end KeyedRuns
