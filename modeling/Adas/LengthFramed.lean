import Mathlib.Algebra.Order.Ring.Abs
import Mathlib.Data.List.Basic
import Mathlib.Data.List.TakeWhile

/-!
# Parts that announce their length

A stream of parts, each with its length in decimal digits before its body.  A
reader goes by the length alone, so that a body may hold any bytes, also those
of the texts around it.  The reader takes every part that is complete and stops
at the first that is not.
-/

namespace LengthFramed

abbrev Byte := BitVec 8

def ascii (text : List Char) : List Byte :=
  text.map fun char => BitVec.ofNat 8 char.toNat

def isDigit (byte : Byte) : Bool :=
  decide (48 ≤ byte.toNat) && decide (byte.toNat ≤ 57)

/-- A number as `%zu` prints it. -/
def decimal (number : Nat) : List Byte :=
  ascii (Nat.toDigits 10 number)

def value (digits : List Byte) : Nat :=
  digits.foldl (fun sofar digit => 10 * sofar + (digit.toNat - 48)) 0

section Digits

theorem toNat_of_isDigit {char : Char} (digit : char.isDigit = true) :
    48 ≤ char.toNat ∧ char.toNat ≤ 57 := by
  simp only [Char.isDigit, Bool.and_eq_true, decide_eq_true_eq] at digit
  exact ⟨UInt32.le_iff_toNat_le.mp digit.1, UInt32.le_iff_toNat_le.mp digit.2⟩

theorem toNat_ascii_digit {char : Char} (digit : char.isDigit = true) :
    (BitVec.ofNat 8 char.toNat).toNat = char.toNat := by
  have bounds := toNat_of_isDigit digit
  rw [BitVec.toNat_ofNat, Nat.mod_eq_of_lt]
  omega

theorem isDigit_of_mem_decimal {number : Nat} {byte : Byte}
    (inside : byte ∈ decimal number) : isDigit byte = true := by
  obtain ⟨char, isChar, rfl⟩ := List.mem_map.mp inside
  have digit := Nat.isDigit_of_mem_toDigits (by decide) (by decide) isChar
  have bounds := toNat_of_isDigit digit
  rw [isDigit, toNat_ascii_digit digit]
  simp [bounds]

theorem value_ascii {chars : List Char} (digits : ∀ char ∈ chars, char.isDigit = true) :
    value (ascii chars) = Nat.ofDigitChars 10 chars 0 := by
  rw [value, ascii, Nat.ofDigitChars_eq_foldl, List.foldl_map]
  apply List.foldl_ext
  intro sofar char isChar
  rw [toNat_ascii_digit (digits char isChar)]
  rfl

theorem value_decimal (number : Nat) : value (decimal number) = number := by
  rw [decimal, value_ascii, Nat.ofDigitChars_ten_toDigits]
  exact fun char isChar => Nat.isDigit_of_mem_toDigits (by decide) (by decide) isChar

end Digits

/-- The texts around the length and the body.  The text behind the length does not
go on with a digit. -/
structure PartFormat where
  start : List Byte
  afterLength : Byte
  middle : List Byte
  finish : List Byte
  lengthEnds : isDigit afterLength = false

namespace PartFormat

variable (format : PartFormat)

/-- What comes before the body. -/
def header (size : Nat) : List Byte :=
  format.start ++ decimal size ++ format.afterLength :: format.middle

def part (body : List Byte) : List Byte :=
  format.header body.length ++ body ++ format.finish

/-- The first part and what comes behind it. -/
def readPart (bytes : List Byte) : Option (List Byte × List Byte) := do
  let bytes ← bytes.dropPrefix? format.start
  let size := value (bytes.takeWhile isDigit)
  let bytes ← (bytes.dropWhile isDigit).dropPrefix? (format.afterLength :: format.middle)
  let rest ← (bytes.drop size).dropPrefix? format.finish
  if size ≤ bytes.length then some (bytes.take size, rest) else none

/-- As many parts as there are, up to a number. -/
def readParts : Nat → List Byte → List (List Byte)
  | 0, _ => []
  | count + 1, bytes =>
      match format.readPart bytes with
      | none => []
      | some (body, rest) => body :: readParts count rest

variable {format} {bytes body rest more : List Byte}

theorem dropPrefix_eq_some_iff {prefixed start : List Byte} :
    prefixed.dropPrefix? start = some rest ↔ prefixed = start ++ rest := by
  rw [List.dropPrefix?_eq_some_iff]
  simp

/-- A part is read exactly where its texts, its length and as many bytes stand. -/
theorem readPart_eq_some_iff :
    format.readPart bytes = some (body, rest) ↔
      ∃ digits, (∀ digit ∈ digits, isDigit digit = true) ∧ value digits = body.length ∧
        bytes = format.start ++ (digits ++ (format.afterLength :: format.middle ++
          (body ++ (format.finish ++ rest)))) := by
  constructor
  · intro reads
    simp only [readPart, Option.bind_eq_bind, Option.bind_eq_some_iff] at reads
    obtain ⟨bytes, hasStart, inner, hasMiddle, behind, hasFinish, isPart⟩ := reads
    obtain ⟨enough, isPart⟩ := Option.ite_none_right_eq_some.mp isPart
    obtain ⟨rfl, rfl⟩ := Prod.mk.inj (Option.some.inj isPart)
    rw [dropPrefix_eq_some_iff] at hasStart hasMiddle hasFinish
    refine ⟨bytes.takeWhile isDigit, fun digit inside => ?_, ?_, ?_⟩
    · exact List.mem_takeWhile_imp inside
    · rw [List.length_take, Nat.min_eq_left enough]
    · rw [hasStart, ← hasFinish, List.take_append_drop, ← hasMiddle,
        List.takeWhile_append_dropWhile]
  · rintro ⟨digits, areDigits, isLength, rfl⟩
    obtain ⟨behind, isBehind⟩ : ∃ behind, format.afterLength :: format.middle ++
        (body ++ (format.finish ++ rest)) = behind := ⟨_, rfl⟩
    have noDigit : ∀ bytes, behind = format.afterLength :: bytes →
        (digits ++ behind).takeWhile isDigit = digits ∧
          (digits ++ behind).dropWhile isDigit = behind := by
      rintro bytes rfl
      rw [List.takeWhile_append_of_pos areDigits, List.dropWhile_append_of_pos areDigits,
        List.takeWhile_cons_of_neg (by simp [format.lengthEnds]),
        List.dropWhile_cons_of_neg (by simp [format.lengthEnds]), List.append_nil]
      exact ⟨rfl, rfl⟩
    obtain ⟨length, afterwards⟩ := noDigit _ isBehind.symm
    have drops : ∀ start rest : List Byte, (start ++ rest).dropPrefix? start = some rest :=
      fun _ _ => dropPrefix_eq_some_iff.mpr rfl
    rw [isBehind, readPart, drops]
    simp only [Option.bind_eq_bind, Option.bind_some, length, afterwards]
    rw [← isBehind, drops]
    simp [isLength, drops]

theorem readPart_part (body rest : List Byte) :
    format.readPart (format.part body ++ rest) = some (body, rest) := by
  refine readPart_eq_some_iff.mpr ⟨decimal body.length,
    fun digit => isDigit_of_mem_decimal, value_decimal body.length, ?_⟩
  simp [part, header]

/-- More bytes do not change a part that was complete. -/
theorem readPart_append (reads : format.readPart bytes = some (body, rest))
    (more : List Byte) : format.readPart (bytes ++ more) = some (body, rest ++ more) := by
  obtain ⟨digits, areDigits, isLength, rfl⟩ := readPart_eq_some_iff.mp reads
  refine readPart_eq_some_iff.mpr ⟨digits, areDigits, isLength, ?_⟩
  simp

/-- A part that was cut off is not read. -/
theorem readPart_of_cutOff {cut : List Byte} (missing : more ≠ [])
    (cutOff : cut ++ more = format.part body) : format.readPart cut = none := by
  rcases reads : format.readPart cut with _ | ⟨other, rest⟩
  · rfl
  · have whole : format.readPart (format.part body ++ []) = some (body, []) :=
      readPart_part body []
    rw [List.append_nil, ← cutOff, readPart_append reads more] at whole
    have nothingLeft := (Prod.mk.inj (Option.some.inj whole)).2
    exact absurd (List.append_eq_nil_iff.mp nothingLeft).2 missing

/-- A stream of parts, the last of them perhaps cut off, gives their bodies. -/
theorem readParts_parts (bodies : List (List Byte)) {count : Nat}
    (enough : bodies.length ≤ count) (ends : format.readPart rest = none) :
    format.readParts count ((bodies.map format.part).flatten ++ rest) = bodies := by
  induction bodies generalizing count with
  | nil =>
      cases count with
      | zero => rfl
      | succ count => simp [readParts, ends]
  | cons body bodies ih =>
      cases count with
      | zero => simp at enough
      | succ count =>
          rw [List.map_cons, List.flatten_cons, List.append_assoc, readParts,
            readPart_part]
          exact congrArg (body :: ·) (ih (Nat.le_of_succ_le_succ enough))

theorem length_part_pos (body : List Byte) : 0 < (format.part body).length := by
  simp only [part, header, List.length_append, List.length_cons]
  omega

theorem length_le_flatten (bodies : List (List Byte)) :
    bodies.length ≤ ((bodies.map format.part).flatten).length := by
  induction bodies with
  | nil => exact Nat.zero_le _
  | cons body bodies ih =>
      have positive : 0 < (format.part body).length := length_part_pos body
      simp only [List.length_cons, List.map_cons, List.flatten_cons, List.length_append]
      omega

variable (format) in
/-- All parts that are complete. -/
def readAll (bytes : List Byte) : List (List Byte) :=
  format.readParts bytes.length bytes

theorem readAll_parts (bodies : List (List Byte)) (ends : format.readPart rest = none) :
    format.readAll ((bodies.map format.part).flatten ++ rest) = bodies := by
  apply readParts_parts bodies ?_ ends
  rw [List.length_append]
  exact Nat.le_trans (length_le_flatten bodies) (Nat.le_add_right _ _)

end PartFormat

end LengthFramed
