import Mathlib.Order.Basic

/-!
# Files that are read from the start

A file is read byte by byte until it ends or a read fails.  From the position
where a read has failed every read fails.  A block that came complete and an
end of file after it show that the file has the size of the block, which is
what this file is for.
-/

structure ByteFile (Byte : Type) where
  bytes : List Byte
  failsFrom : Option Nat := none
  closes : Bool := true

namespace ByteFile

variable {Byte : Type}

/-- Reading at this position sets the error indicator. -/
def failsAt (file : ByteFile Byte) (position : Nat) : Bool :=
  file.failsFrom.any fun first => decide (first ≤ position)

/-- The bytes that a read of a block at the start gets. -/
def fread (file : ByteFile Byte) (size : Nat) : List Byte :=
  file.bytes.take (file.failsFrom.elim size (min size))

/-- The byte at a position; `none` is `EOF`, which also stands for an error. -/
def fgetc (file : ByteFile Byte) (position : Nat) : Option Byte :=
  if file.failsAt position then none else file.bytes[position]?

/-- The file has this size, and reading it up to the end does not fail. -/
structure Holds (file : ByteFile Byte) (size : Nat) : Prop where
  length : file.bytes.length = size
  readable : file.failsAt size = false
  closes : file.closes = true

theorem failsAt_eq_false_iff (file : ByteFile Byte) (position : Nat) :
    file.failsAt position = false ↔ ∀ first ∈ file.failsFrom, position < first := by
  cases isFirst : file.failsFrom with
  | none => simp [failsAt, isFirst]
  | some first => simp [failsAt, isFirst]

theorem fread_of_readable {file : ByteFile Byte} {size : Nat}
    (readable : file.failsAt size = false) : file.fread size = file.bytes.take size := by
  rw [failsAt_eq_false_iff] at readable
  cases isFirst : file.failsFrom with
  | none => simp [fread, isFirst]
  | some first =>
      have after := readable first isFirst
      rw [fread, isFirst, Option.elim_some, Nat.min_eq_left (Nat.le_of_lt after)]

/-- A block that came complete and the end of the file behind it are the whole
file. -/
theorem holds_iff (file : ByteFile Byte) (size : Nat) :
    file.Holds size ↔ (file.fread size).length = size ∧ file.fgetc size = none ∧
      file.failsAt size = false ∧ file.closes = true := by
  constructor
  · rintro ⟨length, readable, closes⟩
    rw [fread_of_readable readable, List.take_of_length_le (Nat.le_of_eq length), fgetc]
    simp [length, readable, closes]
  · rintro ⟨complete, atEnd, readable, closes⟩
    refine ⟨?_, readable, closes⟩
    rw [fread_of_readable readable, List.length_take] at complete
    rw [fgetc, readable, if_neg Bool.false_ne_true, List.getElem?_eq_none_iff] at atEnd
    omega

theorem Holds.fread_eq {file : ByteFile Byte} {size : Nat} (holds : file.Holds size) :
    file.fread size = file.bytes := by
  rw [fread_of_readable holds.readable,
    List.take_of_length_le (Nat.le_of_eq holds.length)]

end ByteFile
