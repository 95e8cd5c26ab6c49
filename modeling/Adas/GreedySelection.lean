import Mathlib.Data.List.Pairwise
import Mathlib.Data.List.Sort

/-!
# Greedy selection from a list

A list is gone through in order, and an item is kept unless it conflicts with
one that was kept before.  The same choice is made by taking the first item,
removing everything that conflicts with it and going on with the rest.  This
file shows that the two agree, that no two kept items conflict, and that every
item that is not kept conflicts with one that was kept before it.
-/

namespace GreedySelection

variable {Item : Type*} (conflicts : Item → Item → Bool)

/-- The items that are kept when some are kept already.  `conflicts item kept`
says that `item` has to go because of `kept`. -/
def select : List Item → List Item → List Item
  | _, [] => []
  | kept, item :: rest =>
      if kept.any (conflicts item) then
        select kept rest
      else
        item :: select (kept ++ [item]) rest

/-- The scan with an accumulator that stops when it holds `limit` items. -/
def selectUpTo (limit : Nat) : List Item → List Item → List Item
  | kept, [] => kept
  | kept, item :: rest =>
      if kept.any (conflicts item) then
        selectUpTo limit kept rest
      else if (kept ++ [item]).length = limit then
        kept ++ [item]
      else
        selectUpTo limit (kept ++ [item]) rest

/-- The choice by removal. -/
def removeFrom : List Item → List Item
  | [] => []
  | item :: rest =>
      item :: removeFrom (rest.filter fun other => !conflicts other item)
termination_by items => items.length
decreasing_by
  rw [List.length_unattach]
  exact Nat.lt_succ_of_le
    ((List.length_filter_le _ _).trans_eq List.length_attach)

section Forms

variable {conflicts}

/-- The scan that stops keeps the first of the items that are kept. -/
theorem selectUpTo_eq_take {limit : Nat} {kept : List Item} (items : List Item)
    (room : kept.length < limit) :
    selectUpTo conflicts limit kept items =
      (kept ++ select conflicts kept items).take limit := by
  induction items generalizing kept with
  | nil =>
      rw [selectUpTo, select, List.append_nil, List.take_of_length_le room.le]
  | cons item rest ih =>
      rw [selectUpTo, select]
      split_ifs with goes full
      · exact ih room
      · rw [List.append_cons kept item (select conflicts _ rest), ← full,
          List.take_left]
      · rw [List.append_cons kept item (select conflicts _ rest)]
        apply ih
        simp only [List.length_append, List.length_singleton] at full ⊢
        omega

/-- The scan goes on as the choice by removal from what is not yet excluded. -/
theorem select_eq_removeFrom (kept items : List Item) :
    select conflicts kept items =
      removeFrom conflicts (items.filter fun item => !kept.any (conflicts item)) := by
  induction items generalizing kept with
  | nil => rw [select, List.filter_nil, removeFrom]
  | cons item rest ih =>
      rw [select]
      cases goes : kept.any (conflicts item) with
      | true =>
          rw [if_pos rfl, List.filter_cons_of_neg (by simp [goes])]
          exact ih kept
      | false =>
          rw [if_neg Bool.false_ne_true, List.filter_cons_of_pos (by simp [goes]),
            removeFrom, ih, List.filter_filter]
          simp only [List.any_append, List.any_cons, List.any_nil, Bool.or_false,
            Bool.not_or, Bool.and_comm]

theorem removeFrom_eq_select (items : List Item) :
    removeFrom conflicts items = select conflicts [] items := by
  rw [select_eq_removeFrom]
  simp

end Forms

section Kept

variable {conflicts}

theorem select_append (kept items more : List Item) :
    select conflicts kept (items ++ more) =
      select conflicts kept items ++
        select conflicts (kept ++ select conflicts kept items) more := by
  induction items generalizing kept with
  | nil => simp [select]
  | cons item rest ih =>
      rw [List.cons_append, select, select]
      split_ifs
      · exact ih kept
      · rw [ih, List.cons_append, List.append_assoc kept [item],
          List.singleton_append]

/-- The kept items stand in the order of the list. -/
theorem select_sublist (kept items : List Item) :
    (select conflicts kept items).Sublist items := by
  induction items generalizing kept with
  | nil => exact List.Sublist.slnil
  | cons item rest ih =>
      rw [select]
      split_ifs
      · exact (ih kept).cons item
      · exact (ih _).cons_cons item

/-- No kept item conflicts with one before it. -/
theorem pairwise_select {kept : List Item}
    (separated : kept.Pairwise fun first later => conflicts later first = false)
    (items : List Item) :
    (kept ++ select conflicts kept items).Pairwise
      fun first later => conflicts later first = false := by
  induction items generalizing kept with
  | nil => rwa [select, List.append_nil]
  | cons item rest ih =>
      rw [select]
      split_ifs with goes
      · exact ih separated
      · rw [List.append_cons]
        apply ih
        rw [List.pairwise_append]
        refine ⟨separated, List.pairwise_singleton _ _, ?_⟩
        intro first mem later isItem
        rw [List.mem_singleton.mp isItem]
        simp only [List.any_eq_true, not_exists, not_and, Bool.not_eq_true] at goes
        exact goes first mem

/-- An item is kept, or it conflicts with one that was kept before it. -/
theorem kept_or_conflicts (before after : List Item) (item : Item) :
    item ∈ select conflicts [] (before ++ item :: after) ∨
      ∃ first ∈ select conflicts [] before, conflicts item first = true := by
  rw [select_append, select]
  split_ifs with goes
  · exact Or.inr (List.any_eq_true.mp goes)
  · exact Or.inl (by simp)

/-- In a list sorted from better to worse, an item among the first `limit` kept
items stays, or it conflicts with a better one that stays, or as many stay as
may and all of them are better. -/
theorem stays_or_conflicts_or_full {better : Item → Item → Prop}
    [IsTrans Item better] {items : List Item} (sorted : items.Pairwise better)
    (limit : Nat) {item : Item} (mem : item ∈ items) :
    item ∈ (select conflicts [] items).take limit ∨
      (∃ first ∈ (select conflicts [] items).take limit,
        better first item ∧ conflicts item first = true) ∨
      ((select conflicts [] items).take limit).length = limit ∧
        ∀ first ∈ (select conflicts [] items).take limit, better first item := by
  have keptSorted : (select conflicts [] items).Pairwise better :=
    sorted.sublist (select_sublist [] items)
  -- Whatever is cut off is worse than all that stays, and the limit is reached.
  have cutOff : ∀ other ∈ (select conflicts [] items).drop limit,
      ((select conflicts [] items).take limit).length = limit ∧
        ∀ first ∈ (select conflicts [] items).take limit, better first other := by
    intro other inRest
    have longer : 0 < ((select conflicts [] items).drop limit).length :=
      List.length_pos_of_mem inRest
    rw [← List.take_append_drop limit (select conflicts [] items),
      List.pairwise_append] at keptSorted
    rw [List.length_drop] at longer
    rw [List.length_take]
    exact ⟨by omega, fun first stays => keptSorted.2.2 first stays other inRest⟩
  have splits : ∀ other ∈ select conflicts [] items,
      other ∈ (select conflicts [] items).take limit ∨
        other ∈ (select conflicts [] items).drop limit := by
    intro other isKept
    rwa [← List.mem_append, List.take_append_drop]
  obtain ⟨before, after, split⟩ := List.append_of_mem mem
  rw [split, List.pairwise_append] at sorted
  rcases kept_or_conflicts before after item with
    isKept | ⟨first, keptBefore, goes⟩
  · rw [← split] at isKept
    rcases splits item isKept with stays | inRest
    · exact Or.inl stays
    · exact Or.inr (Or.inr (cutOff item inRest))
  · have firstBetter : better first item :=
      sorted.2.2 first ((select_sublist [] before).subset keptBefore) item (by simp)
    have firstKept : first ∈ select conflicts [] items := by
      rw [split, select_append]
      exact List.mem_append_left _ keptBefore
    rcases splits first firstKept with stays | inRest
    · exact Or.inr (Or.inl ⟨first, stays, firstBetter, goes⟩)
    · obtain ⟨full, allBetter⟩ := cutOff first inRest
      exact Or.inr (Or.inr ⟨full, fun other stays =>
        IsTrans.trans other first item (allBetter other stays) firstBetter⟩)

/-- Items without a conflict on either side do not influence the others. -/
theorem filter_select {matters : Item → Bool}
    (harmless : ∀ item other, matters item = false ∨ matters other = false →
      conflicts item other = false) (kept items : List Item) :
    (select conflicts kept items).filter matters =
      select conflicts (kept.filter matters) (items.filter matters) := by
  have sameVerdict : ∀ {kept : List Item} {item : Item}, matters item = true →
      (kept.filter matters).any (conflicts item) = kept.any (conflicts item) := by
    intro kept item isMattering
    rw [List.any_filter]
    congr 1
    funext other
    cases mattersOther : matters other with
    | true => simp
    | false => simp [harmless item other (Or.inr mattersOther)]
  induction items generalizing kept with
  | nil => simp [select]
  | cons item rest ih =>
      rw [select]
      cases mattersItem : matters item with
      | true =>
          rw [List.filter_cons_of_pos mattersItem, select,
            sameVerdict mattersItem]
          split_ifs
          · exact ih kept
          · rw [List.filter_cons_of_pos mattersItem, ih, List.filter_append,
              List.filter_cons_of_pos mattersItem, List.filter_nil]
      | false =>
          have isKept : kept.any (conflicts item) = false := by
            rw [List.any_eq_false]
            intro other _
            rw [harmless item other (Or.inl mattersItem)]
            exact Bool.false_ne_true
          rw [isKept, if_neg Bool.false_ne_true,
            List.filter_cons_of_neg (by simp [mattersItem]),
            List.filter_cons_of_neg (by simp [mattersItem]), ih,
            List.filter_append, List.filter_cons_of_neg (by simp [mattersItem]),
            List.filter_nil, List.append_nil]

end Kept

end GreedySelection
