import Mathlib.Algebra.Order.Ring.Abs
import Mathlib.Data.List.Basic

/-!
# Slots that keep the newest value

A writer puts one value after the other into a slot and counts them.  A reader
remembers the count it saw last and takes a value whenever the count has moved
on.  Values that were replaced in the meantime are lost to that reader.

The file relates a slot and the memory of its reader to the history of what was
written: what a reader has taken is a part of the history in its order, each
value was the newest when it was taken, and a reader that finds nothing new has
the newest one already.  The counter is a machine word, so the history has to be
shorter than the counter can count.
-/

/-- The newest value and how many there were. -/
structure LatestSlot (Value : Type*) where
  latest : Option Value
  version : BitVec 64

namespace LatestSlot

variable {Value : Type*}

def empty : LatestSlot Value :=
  ⟨none, 0⟩

def publish (slot : LatestSlot Value) (value : Value) : LatestSlot Value :=
  ⟨some value, slot.version + 1⟩

/-- There is something that a reader has not seen. -/
def isNew (slot : LatestSlot Value) (last : BitVec 64) : Bool :=
  slot.version != last

/-- The slot is what the history leaves behind. -/
structure Holds (slot : LatestSlot Value) (history : List Value) : Prop where
  latest : slot.latest = history.getLast?
  version : slot.version = BitVec.ofNat 64 history.length
  countable : history.length < 2 ^ 64

/-- A reader took these values, the last of them when `last` were written. -/
structure Follows (history : List Value) (last : BitVec 64) (taken : List Value) :
    Prop where
  seen : last.toNat ≤ history.length
  inOrder : taken.Sublist (history.take last.toNat)
  newest : taken.getLast? = (history.take last.toNat).getLast?

theorem holds_empty : (empty : LatestSlot Value).Holds [] :=
  ⟨rfl, rfl, Nat.two_pow_pos 64⟩

/-- A reader that has taken nothing yet. -/
theorem follows_nil (history : List Value) : Follows history 0 [] :=
  ⟨Nat.zero_le _, List.nil_sublist _, rfl⟩

variable {slot : LatestSlot Value} {history taken : List Value} {last : BitVec 64}

theorem Holds.publish (holds : slot.Holds history) (value : Value)
    (countable : history.length + 1 < 2 ^ 64) :
    (slot.publish value).Holds (history ++ [value]) := by
  refine ⟨?_, ?_, ?_⟩
  · exact List.getLast?_concat.symm
  · rw [LatestSlot.publish, holds.version, List.length_append]
    exact (BitVec.ofNat_add history.length 1).symm
  · rw [List.length_append]
    exact countable

/-- What is written later takes nothing from the reader. -/
theorem Follows.publish (follows : Follows history last taken) (value : Value) :
    Follows (history ++ [value]) last taken := by
  have same : (history ++ [value]).take last.toNat = history.take last.toNat :=
    List.take_append_of_le_length follows.seen
  refine ⟨?_, ?_, ?_⟩
  · rw [List.length_append]
    exact le_trans follows.seen (Nat.le_add_right _ _)
  · rw [same]
    exact follows.inOrder
  · rw [same]
    exact follows.newest

theorem Holds.toNat_version (holds : slot.Holds history) :
    slot.version.toNat = history.length := by
  rw [holds.version, BitVec.toNat_ofNat, Nat.mod_eq_of_lt holds.countable]

theorem isNew_iff (holds : slot.Holds history) (follows : Follows history last taken) :
    slot.isNew last = true ↔ last.toNat < history.length := by
  have seen := follows.seen
  rw [isNew, bne_iff_ne, Ne, ← BitVec.toNat_inj, holds.toNat_version]
  omega

/-- A reader that finds nothing new has taken the newest value. -/
theorem Follows.caughtUp (follows : Follows history last taken)
    (holds : slot.Holds history) (nothing : slot.isNew last = false) :
    taken.getLast? = history.getLast? := by
  have notBehind : ¬ last.toNat < history.length := by
    rw [← isNew_iff holds follows, nothing]
    exact Bool.false_ne_true
  rw [follows.newest, List.take_of_length_le (not_lt.mp notBehind)]

/-- A reader that finds something new takes the newest value, which was written
after all it had taken before. -/
theorem Follows.take (follows : Follows history last taken)
    (holds : slot.Holds history) (new : slot.isNew last = true) :
    ∃ value, slot.latest = some value ∧ last.toNat < slot.version.toNat ∧
      Follows history slot.version (taken ++ [value]) := by
  have behind := (isNew_iff holds follows).mp new
  have whole : history.take slot.version.toNat = history :=
    List.take_of_length_le holds.toNat_version.ge
  obtain ⟨value, newest⟩ : ∃ value, history.getLast? = some value :=
    Option.isSome_iff_exists.mp (List.getLast?_isSome.mpr
      (List.ne_nil_of_length_pos (Nat.zero_lt_of_lt behind)))
  have later : value ∈ history.drop last.toNat := by
    apply List.mem_of_getLast?
    rw [List.getLast?_drop, if_neg (not_le.mpr behind), newest]
  refine ⟨value, holds.latest.trans newest, holds.toNat_version ▸ behind,
    holds.toNat_version.le, ?_, ?_⟩
  · rw [whole]
    have parted := follows.inOrder.append (List.singleton_sublist.mpr later)
    rwa [List.take_append_drop] at parted
  · rw [whole, List.getLast?_concat, newest]

end LatestSlot
