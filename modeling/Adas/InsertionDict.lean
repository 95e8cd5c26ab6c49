import Mathlib.Data.List.Basic
import Mathlib.Data.List.Induction

/-!
# Dictionaries in the order of insertion

A key that is set for the first time goes to the end, and a key that is there gets its
new value where it stands.  Rows that come in groups, each row with the key and the
value of its group, leave one entry for each group.
-/

namespace InsertionDict

variable {Key Value Row : Type*} [DecidableEq Key]

def set (dict : List (Key × Value)) (key : Key) (value : Value) : List (Key × Value) :=
  if key ∈ dict.map Prod.fst then
    dict.map fun entry => if entry.1 = key then (key, value) else entry
  else
    dict ++ [(key, value)]

/-- All rows are entered one after the other. -/
def ofRows (keyOf : Row → Key) (valueOf : Row → Value) (dict : List (Key × Value))
    (rows : List Row) : List (Key × Value) :=
  rows.foldl (fun dict row => set dict (keyOf row) (valueOf row)) dict

variable {dict : List (Key × Value)} {key : Key} {value : Value}

theorem set_new (absent : key ∉ dict.map Prod.fst) :
    set dict key value = dict ++ [(key, value)] :=
  if_neg absent

/-- The last entry is set again. -/
theorem set_last (absent : key ∉ dict.map Prod.fst) :
    set (dict ++ [(key, value)]) key value = dict ++ [(key, value)] := by
  have others : ∀ entry ∈ dict, (if entry.1 = key then (key, value) else entry) = entry := by
    intro entry isEntry
    apply if_neg
    intro same
    exact absent (same ▸ List.mem_map_of_mem isEntry)
  rw [set, if_pos (by simp), List.map_append, List.map_congr_left others, List.map_id']
  simp

variable {keyOf : Row → Key} {valueOf : Row → Value}

theorem ofRows_append (rows more : List Row) :
    ofRows keyOf valueOf dict (rows ++ more) =
      ofRows keyOf valueOf (ofRows keyOf valueOf dict rows) more :=
  List.foldl_append

/-- A group with a new key leaves one entry. -/
theorem ofRows_group {rows : List Row} (absent : key ∉ dict.map Prod.fst)
    (nonempty : rows ≠ [])
    (group : ∀ row ∈ rows, keyOf row = key ∧ valueOf row = value) :
    ofRows keyOf valueOf dict rows = dict ++ [(key, value)] := by
  induction rows using List.reverseRecOn with
  | nil => exact absurd rfl nonempty
  | append_singleton rows row ih =>
      obtain ⟨sameKey, sameValue⟩ := group row (by simp)
      rw [ofRows_append]
      rcases eq_or_ne rows [] with rfl | some
      · rw [ofRows, ofRows, List.foldl_nil, List.foldl_cons, List.foldl_nil, sameKey,
          sameValue, set_new absent]
      · rw [ih some fun other isOther => group other (List.mem_append_left _ isOther), ofRows,
          List.foldl_cons, List.foldl_nil, sameKey, sameValue, set_last absent]

end InsertionDict
