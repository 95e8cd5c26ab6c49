import Mathlib.Data.List.Basic
import Mathlib.Tactic.SplitIfs

/-!
# Resynchronising scanners

A scanner reads frames of a fixed size from a stream of tokens.  It looks at a
window as long as a frame at the start of its buffer: a window that is a frame
is taken out whole, from any other window only the first token is dropped.
Fewer tokens than a frame stay in the buffer until more arrive.  What is read
from a stream does not depend on how the stream arrives.
-/

structure WindowScanner (Token Value : Type*) where
  size : Nat
  positive : 0 < size
  /-- The value of a window that is a frame. -/
  read : List Token → Option Value

namespace WindowScanner

variable {Token Value : Type*} (scanner : WindowScanner Token Value)

/-- Scan a buffer of which `skip` tokens belong to a frame already taken.  Every
value comes with the place where its frame starts. -/
def scanFrom : Nat → Nat → List Token → List (Nat × Value) × List Token
  | _, _, [] => ([], [])
  | offset, skip + 1, _ :: rest => scanFrom (offset + 1) skip rest
  | offset, 0, token :: rest =>
      let buffer := token :: rest
      if buffer.length < scanner.size then
        ([], buffer)
      else
        match scanner.read (buffer.take scanner.size) with
        | some value =>
            let more := scanFrom (offset + 1) (scanner.size - 1) rest
            ((offset, value) :: more.1, more.2)
        | none => scanFrom (offset + 1) 0 rest

/-- Scan a buffer that starts at `offset`. -/
def scan (offset : Nat) (buffer : List Token) : List (Nat × Value) × List Token :=
  scanner.scanFrom offset 0 buffer

/-- The values of the frames in a buffer. -/
def values (buffer : List Token) : List Value :=
  (scanner.scan 0 buffer).1.map Prod.snd

section Equations

variable {scanner} {offset : Nat} {buffer : List Token} {value : Value}

theorem scanFrom_skip (skip : Nat) :
    scanner.scanFrom offset skip buffer =
      scanner.scan (offset + skip) (buffer.drop skip) := by
  induction buffer generalizing offset skip with
  | nil => simp [scan, scanFrom]
  | cons token rest ih =>
      cases skip with
      | zero => rfl
      | succ skip =>
          rw [scanFrom, ih, List.drop_succ_cons]
          congr 1
          omega

theorem scan_short (short : buffer.length < scanner.size) :
    scanner.scan offset buffer = ([], buffer) := by
  cases buffer with
  | nil => rfl
  | cons token rest => simp only [scan, scanFrom, if_pos short]

theorem scan_frame (long : scanner.size ≤ buffer.length)
    (frame : scanner.read (buffer.take scanner.size) = some value) :
    scanner.scan offset buffer =
      ((offset, value) ::
          (scanner.scan (offset + scanner.size) (buffer.drop scanner.size)).1,
        (scanner.scan (offset + scanner.size) (buffer.drop scanner.size)).2) := by
  have positive := scanner.positive
  cases buffer with
  | nil =>
      rw [List.length_nil] at long
      omega
  | cons token rest =>
      have place : offset + 1 + (scanner.size - 1) = offset + scanner.size := by
        omega
      have remaining : rest.drop (scanner.size - 1) =
          (token :: rest).drop scanner.size := by
        obtain ⟨more, size⟩ : ∃ more, scanner.size = more + 1 :=
          ⟨scanner.size - 1, by omega⟩
        rw [size, Nat.add_sub_cancel, List.drop_succ_cons]
      rw [scan, scanFrom, if_neg (by omega), frame]
      simp only [scanFrom_skip, place, remaining]

theorem scan_no_frame (long : scanner.size ≤ buffer.length)
    (noFrame : scanner.read (buffer.take scanner.size) = none) :
    scanner.scan offset buffer = scanner.scan (offset + 1) (buffer.drop 1) := by
  have positive := scanner.positive
  cases buffer with
  | nil =>
      rw [List.length_nil] at long
      omega
  | cons token rest =>
      rw [scan, scanFrom, if_neg (by omega), noFrame]
      rfl

variable (scanner) in
/-- Induction along a scan: the buffer is too short, starts with a frame, or
starts with a token to drop. -/
theorem scan_induction {motive : List Token → Prop}
    (short : ∀ buffer, buffer.length < scanner.size → motive buffer)
    (frame : ∀ buffer value, scanner.size ≤ buffer.length →
      scanner.read (buffer.take scanner.size) = some value →
        motive (buffer.drop scanner.size) → motive buffer)
    (noFrame : ∀ buffer, scanner.size ≤ buffer.length →
      scanner.read (buffer.take scanner.size) = none →
        motive (buffer.drop 1) → motive buffer)
    (buffer : List Token) : motive buffer := by
  have positive := scanner.positive
  induction size : buffer.length using Nat.strongRecOn generalizing buffer with
  | _ count ih =>
      subst size
      by_cases long : scanner.size ≤ buffer.length
      · cases found : scanner.read (buffer.take scanner.size) with
        | some value =>
            apply frame buffer value long found
            apply ih _ _ _ rfl
            rw [List.length_drop]
            omega
        | none =>
            apply noFrame buffer long found
            apply ih _ _ _ rfl
            rw [List.length_drop]
            omega
      · exact short buffer (by omega)

end Equations

section Streams

variable {scanner}

/-- Only the places depend on where the buffer starts. -/
theorem scan_offset (offset : Nat) (buffer : List Token) :
    (scanner.scan offset buffer).1.map Prod.snd = scanner.values buffer ∧
      (scanner.scan offset buffer).2 = (scanner.scan 0 buffer).2 := by
  unfold values
  generalize 0 = other
  induction buffer using scanner.scan_induction generalizing offset other with
  | short buffer short => simp [scan_short short]
  | frame buffer value long frame ih =>
      obtain ⟨sameValues, sameRest⟩ :=
        ih (offset + scanner.size) (other + scanner.size)
      simp only [scan_frame long frame, List.map_cons, sameValues, sameRest,
        and_self]
  | noFrame buffer long noFrame ih =>
      simpa only [scan_no_frame long noFrame] using ih (offset + 1) (other + 1)

/-- Every value has been read from the window at its place. -/
theorem read_of_mem_scan {offset : Nat} {buffer : List Token} {place : Nat}
    {value : Value} (member : (place, value) ∈ (scanner.scan offset buffer).1) :
    offset ≤ place ∧
      scanner.read ((buffer.drop (place - offset)).take scanner.size) =
        some value := by
  induction buffer using scanner.scan_induction generalizing offset with
  | short buffer short => simp [scan_short short] at member
  | frame buffer first long frame ih =>
      rw [scan_frame long frame, List.mem_cons] at member
      rcases member with here | later
      · obtain ⟨rfl, rfl⟩ := Prod.mk.inj here
        simpa using frame
      · obtain ⟨after, found⟩ := ih later
        have place : scanner.size + (place - (offset + scanner.size)) =
            place - offset := by omega
        rw [List.drop_drop, place] at found
        exact ⟨by omega, found⟩
  | noFrame buffer long noFrame ih =>
      rw [scan_no_frame long noFrame] at member
      obtain ⟨after, found⟩ := ih member
      have place : 1 + (place - (offset + 1)) = place - offset := by omega
      rw [List.drop_drop, place] at found
      exact ⟨by omega, found⟩

/-- What is left in the buffer is too short for a frame. -/
theorem length_scan_rest (offset : Nat) (buffer : List Token) :
    (scanner.scan offset buffer).2.length < scanner.size := by
  induction buffer using scanner.scan_induction generalizing offset with
  | short buffer short => simpa [scan_short short] using short
  | frame buffer value long frame ih =>
      simpa only [scan_frame long frame] using ih (offset + scanner.size)
  | noFrame buffer long noFrame ih =>
      simpa only [scan_no_frame long noFrame] using ih (offset + 1)

/-- Scanning a buffer that grows is scanning what was left with what came. -/
theorem values_append (buffer more : List Token) :
    scanner.values (buffer ++ more) =
        scanner.values buffer ++
          scanner.values ((scanner.scan 0 buffer).2 ++ more) ∧
      (scanner.scan 0 (buffer ++ more)).2 =
        (scanner.scan 0 ((scanner.scan 0 buffer).2 ++ more)).2 := by
  induction buffer using scanner.scan_induction with
  | short buffer short => simp [values, scan_short short]
  | frame buffer value long frame ih =>
      have stillLong : scanner.size ≤ (buffer ++ more).length := by
        rw [List.length_append]
        omega
      have sameFrame :
          scanner.read ((buffer ++ more).take scanner.size) = some value := by
        rwa [List.take_append_of_le_length long]
      have sameRest : (buffer ++ more).drop scanner.size =
          buffer.drop scanner.size ++ more := List.drop_append_of_le_length long
      rw [values, values, scan_frame long frame, scan_frame stillLong sameFrame]
      simp only [sameRest, List.map_cons, List.cons_append, scan_offset]
      exact ⟨congrArg (value :: ·) ih.1, ih.2⟩
  | noFrame buffer long noFrame ih =>
      have positive := scanner.positive
      have stillLong : scanner.size ≤ (buffer ++ more).length := by
        rw [List.length_append]
        omega
      have stillNoFrame :
          scanner.read ((buffer ++ more).take scanner.size) = none := by
        rwa [List.take_append_of_le_length long]
      have sameRest : (buffer ++ more).drop 1 = buffer.drop 1 ++ more :=
        List.drop_append_of_le_length (by omega)
      rw [values, values, scan_no_frame long noFrame,
        scan_no_frame stillLong stillNoFrame]
      simpa only [sameRest, scan_offset] using ih

end Streams

end WindowScanner
