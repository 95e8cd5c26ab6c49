import Mathlib.Data.List.Basic

/-!
# Collecting into a bounded buffer

Items arrive one after another, and some of them take a slot of a buffer.  Once
the buffer is full nothing is looked at any more, also not the items that would
take no slot.  This file splits a list of items into the admitted ones and the
ones that are cut off.
-/

namespace BoundedCollect

variable {Item Slot : Type*} (slot : Item → Option Slot)

/-- The items that arrive while one of `room` slots is free. -/
def admitted : Nat → List Item → List Item
  | 0, _ => []
  | _ + 1, [] => []
  | room + 1, item :: rest =>
      item :: admitted (if (slot item).isSome then room else room + 1) rest

/-- The items that arrive after the last of `room` slots was taken. -/
def cutOff : Nat → List Item → List Item
  | 0, items => items
  | _ + 1, [] => []
  | room + 1, item :: rest =>
      cutOff (if (slot item).isSome then room else room + 1) rest

@[simp]
theorem admitted_zero (items : List Item) : admitted slot 0 items = [] := by
  cases items <;> rfl

@[simp]
theorem cutOff_zero (items : List Item) : cutOff slot 0 items = items := by
  cases items <;> rfl

@[simp]
theorem admitted_nil (room : Nat) : admitted slot room [] = [] := by
  cases room <;> rfl

@[simp]
theorem cutOff_nil (room : Nat) : cutOff slot room [] = [] := by
  cases room <;> rfl

theorem admitted_append_cutOff (room : Nat) (items : List Item) :
    admitted slot room items ++ cutOff slot room items = items := by
  induction items generalizing room with
  | nil => simp
  | cons item rest ih =>
      cases room with
      | zero => simp
      | succ room => simp [admitted, cutOff, ih]

end BoundedCollect
