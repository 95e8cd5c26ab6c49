import Mathlib.Algebra.CharP.Two
import Mathlib.Algebra.Field.ZMod
import Mathlib.Algebra.Polynomial.RingDivision
import Mathlib.Logic.Function.Iterate
import Mathlib.RingTheory.Coprime.Lemmas
import Mathlib.Tactic.LinearCombination

/-!
# Cyclic redundancy checks as polynomial division

A list of bits, the most significant one first, is a polynomial over the field
with two elements.  A shift register of `w` bits that takes in one word after
the other computes the remainder of the message, moved up by `w` places, by the
generator that the register's taps stand for.

From the division follow the properties that a check is used for.  It is
linear, it ends in zero when the remainder is sent behind the message, and it
tells messages apart that differ in no more than `w` consecutive bits.
-/

namespace CyclicRedundancy

open Polynomial

section Bits

/-- The polynomial of some bits, of which the first has the highest degree. -/
noncomputable def polynomialOf : List Bool → (ZMod 2)[X]
  | [] => 0
  | bit :: bits => C (bit.toNat : ZMod 2) * X ^ bits.length + polynomialOf bits

theorem polynomialOf_append (first second : List Bool) :
    polynomialOf (first ++ second) =
      polynomialOf first * X ^ second.length + polynomialOf second := by
  induction first with
  | nil => simp [polynomialOf]
  | cons bit bits ih =>
      rw [List.cons_append, polynomialOf, polynomialOf, ih, List.length_append, pow_add]
      ring

theorem degree_polynomialOf_lt (bits : List Bool) :
    (polynomialOf bits).degree < bits.length := by
  induction bits with
  | nil => simp [polynomialOf]
  | cons bit bits ih =>
      have longer : (bits.length : WithBot Nat) < (bit :: bits).length := by
        exact_mod_cast Nat.lt_succ_self bits.length
      refine (degree_add_le _ _).trans_lt (max_lt ?_ (ih.trans longer))
      exact (degree_C_mul_X_pow_le _ _).trans_lt longer

theorem polynomialOf_zipWith {first second : List Bool}
    (sameLength : first.length = second.length) :
    polynomialOf (first.zipWith xor second) =
      polynomialOf first + polynomialOf second := by
  induction first generalizing second with
  | nil =>
      have : second = [] := List.eq_nil_of_length_eq_zero sameLength.symm
      simp [this, polynomialOf]
  | cons bit bits ih =>
      cases second with
      | nil => simp at sameLength
      | cons other others =>
          have sameTail : bits.length = others.length := by simpa using sameLength
          have sum : ((bit ^^ other).toNat : ZMod 2) = bit.toNat + other.toNat := by
            cases bit <;> cases other <;> decide
          rw [List.zipWith_cons_cons, polynomialOf, polynomialOf, polynomialOf, ih sameTail,
            List.length_zipWith, sameTail, min_self, sum, C_add]
          ring

/-- As many bits are determined by their polynomial. -/
theorem polynomialOf_injective {first second : List Bool}
    (sameLength : first.length = second.length)
    (same : polynomialOf first = polynomialOf second) :
    first = second := by
  induction first generalizing second with
  | nil => exact (List.eq_nil_of_length_eq_zero sameLength.symm).symm
  | cons bit bits ih =>
      cases second with
      | nil => simp at sameLength
      | cons other others =>
          have sameTail : bits.length = others.length := by simpa using sameLength
          have leading := congrArg (fun p : (ZMod 2)[X] => p.coeff bits.length) same
          simp only [polynomialOf, coeff_add, coeff_C_mul, coeff_X_pow_self, sameTail,
            coeff_eq_zero_of_degree_lt (degree_polynomialOf_lt others),
            coeff_eq_zero_of_degree_lt (sameTail ▸ degree_polynomialOf_lt bits),
            mul_one, add_zero] at leading
          have sameBit : bit = other := by
            revert leading
            cases bit <;> cases other <;> decide
          subst sameBit
          rw [polynomialOf, polynomialOf, sameTail] at same
          rw [ih sameTail (add_left_cancel same)]

end Bits

section Words

variable {w : Nat}

/-- The bits of a word, the most significant one first. -/
def bitsOf (word : BitVec w) : List Bool :=
  (List.range w).map word.getMsbD

@[simp]
theorem length_bitsOf (word : BitVec w) : (bitsOf word).length = w := by
  simp [bitsOf]

theorem bitsOf_injective : Function.Injective (bitsOf (w := w)) := by
  intro first second same
  apply BitVec.eq_of_getMsbD_eq
  intro index inRange
  exact List.map_inj_left.mp same index (List.mem_range.mpr inRange)

theorem bitsOf_xor (first second : BitVec w) :
    bitsOf (first ^^^ second) = (bitsOf first).zipWith xor (bitsOf second) := by
  rw [bitsOf, bitsOf, bitsOf, List.zipWith_map, List.zipWith_self]
  apply List.map_congr_left
  intro index _
  exact BitVec.getMsbD_xor

/-- Shifting a word by one place drops its first bit. -/
theorem bitsOf_shiftLeft (word : BitVec (w + 1)) :
    ∃ rest, bitsOf word = word.msb :: rest ∧ bitsOf (word <<< 1) = rest ++ [false] ∧
      rest.length = w := by
  refine ⟨(List.range w).map fun index => word.getMsbD (index + 1), ?_, ?_, by simp⟩
  · rw [bitsOf, List.range_succ_eq_map, List.map_cons, List.map_map,
      BitVec.msb_eq_getMsbD_zero]
    rfl
  · rw [bitsOf, List.range_succ, List.map_append]
    congr 1
    · apply List.map_congr_left
      intro index _
      exact BitVec.getMsbD_shiftLeft word 1
    · simp

/-- The polynomial of a word. -/
noncomputable def wordPolynomial (word : BitVec w) : (ZMod 2)[X] :=
  polynomialOf (bitsOf word)

theorem degree_wordPolynomial_lt (word : BitVec w) : (wordPolynomial word).degree < w := by
  have bound := degree_polynomialOf_lt (bitsOf word)
  rwa [length_bitsOf] at bound

theorem wordPolynomial_injective : Function.Injective (wordPolynomial (w := w)) := by
  intro first second same
  apply bitsOf_injective
  apply polynomialOf_injective _ same
  rw [length_bitsOf, length_bitsOf]

theorem wordPolynomial_xor (first second : BitVec w) :
    wordPolynomial (first ^^^ second) = wordPolynomial first + wordPolynomial second := by
  rw [wordPolynomial, bitsOf_xor, polynomialOf_zipWith (by simp)]
  rfl

@[simp]
theorem wordPolynomial_zero : wordPolynomial 0#w = 0 := by
  have twice := wordPolynomial_xor 0#w 0#w
  rwa [BitVec.xor_self, CharTwo.add_self_eq_zero] at twice

theorem X_mul_wordPolynomial (word : BitVec w) :
    X * wordPolynomial word =
      wordPolynomial (word <<< 1) + if word.msb then X ^ w else 0 := by
  cases w with
  | zero => simp [wordPolynomial, bitsOf, polynomialOf, BitVec.of_length_zero]
  | succ w =>
      obtain ⟨rest, isWord, isShifted, length⟩ := bitsOf_shiftLeft word
      rw [wordPolynomial, wordPolynomial, isWord, isShifted, polynomialOf_append]
      cases word.msb <;> simp [polynomialOf, length] <;> ring

end Words

section Register

variable {w : Nat}

/-- One turn of the shift register with the given taps. -/
def turn (taps register : BitVec w) : BitVec w :=
  if register.msb then (register <<< 1) ^^^ taps else register <<< 1

/-- The register takes in a word and turns once for each of its bits. -/
def takeIn (taps register word : BitVec w) : BitVec w :=
  (turn taps)^[w] (register ^^^ word)

/-- The register after a message, when it starts with zero. -/
def checksum (taps : BitVec w) (message : List (BitVec w)) : BitVec w :=
  message.foldl (takeIn taps) 0

/-- The bits of a message in the order in which they are taken in. -/
def messageBits (message : List (BitVec w)) : List Bool :=
  message.flatMap bitsOf

/-- The polynomial that some taps stand for. -/
noncomputable def generator (taps : BitVec w) : (ZMod 2)[X] :=
  X ^ w + wordPolynomial taps

theorem generator_monic (taps : BitVec w) : (generator taps).Monic :=
  monic_X_pow_add (degree_wordPolynomial_lt taps)

theorem degree_generator (taps : BitVec w) : (generator taps).degree = w := by
  rw [generator, degree_add_eq_left_of_degree_lt, degree_X_pow]
  rw [degree_X_pow]
  exact degree_wordPolynomial_lt taps

/-- A turn multiplies by the indeterminate, up to a multiple of the generator. -/
theorem generator_dvd_turn (taps register : BitVec w) :
    generator taps ∣ X * wordPolynomial register - wordPolynomial (turn taps register) := by
  rw [X_mul_wordPolynomial, turn]
  cases register.msb with
  | false => simp
  | true =>
      simp only [if_true, wordPolynomial_xor]
      have isGenerator : wordPolynomial (register <<< 1) + X ^ w -
          (wordPolynomial (register <<< 1) + wordPolynomial taps) = generator taps := by
        rw [generator, add_sub_add_left_eq_sub, CharTwo.sub_eq_add]
      rw [isGenerator]

theorem generator_dvd_iterate (taps register : BitVec w) (turns : Nat) :
    generator taps ∣
      X ^ turns * wordPolynomial register - wordPolynomial ((turn taps)^[turns] register) := by
  induction turns with
  | zero => simp
  | succ turns ih =>
      rw [Function.iterate_succ_apply']
      have once := generator_dvd_turn taps ((turn taps)^[turns] register)
      have both := dvd_add (ih.mul_left X) once
      rwa [mul_sub, sub_add_sub_cancel, ← mul_assoc, ← pow_succ'] at both

theorem messageBits_append (first second : List (BitVec w)) :
    messageBits (first ++ second) = messageBits first ++ messageBits second :=
  List.flatMap_append

/-- The register is congruent to the message that has been taken in, moved up by
its width. -/
theorem generator_dvd_checksum (taps : BitVec w) (message : List (BitVec w)) :
    generator taps ∣
      polynomialOf (messageBits message) * X ^ w -
        wordPolynomial (checksum taps message) := by
  induction message using List.reverseRecOn with
  | nil => simp [checksum, messageBits, polynomialOf]
  | append_singleton message word ih =>
      have isChecksum : checksum taps (message ++ [word]) =
          (turn taps)^[w] (checksum taps message ^^^ word) := by
        rw [checksum, List.foldl_append]
        rfl
      have isMessage : polynomialOf (messageBits (message ++ [word])) =
          polynomialOf (messageBits message) * X ^ w + wordPolynomial word := by
        rw [messageBits_append, polynomialOf_append]
        simp [messageBits, wordPolynomial]
      have turned := generator_dvd_iterate taps (checksum taps message ^^^ word) w
      rw [wordPolynomial_xor] at turned
      rw [isChecksum, isMessage]
      have both := dvd_add (ih.mul_left (X ^ w)) turned
      convert both using 1
      ring

/-- The checksum is the remainder of the message, moved up by the width of the
register. -/
theorem checksum_eq_remainder (taps : BitVec w) (message : List (BitVec w)) :
    wordPolynomial (checksum taps message) =
      (polynomialOf (messageBits message) * X ^ w) %ₘ generator taps := by
  have monic := generator_monic taps
  have reduced : wordPolynomial (checksum taps message) %ₘ generator taps =
      wordPolynomial (checksum taps message) := by
    rw [modByMonic_eq_self_iff monic, degree_generator]
    exact degree_wordPolynomial_lt _
  rw [← reduced]
  exact (modByMonic_eq_of_dvd_sub monic (generator_dvd_checksum taps message)).symm

end Register

section Detection

variable {w : Nat} {taps : BitVec w} {first second : List (BitVec w)}

theorem turn_zero (taps : BitVec w) : turn taps 0 = 0 := by
  simp [turn]

/-- A message that ends with its checksum has checksum zero. -/
theorem checksum_append_checksum (taps : BitVec w) (message : List (BitVec w)) :
    checksum taps (message ++ [checksum taps message]) = 0 := by
  rw [checksum, List.foldl_append]
  change (turn taps)^[w] (checksum taps message ^^^ checksum taps message) = 0
  rw [BitVec.xor_self]
  exact Function.iterate_fixed (turn_zero taps) w

theorem length_messageBits (message : List (BitVec w)) :
    (messageBits message).length = message.length * w := by
  induction message with
  | nil => simp [messageBits]
  | cons word words ih =>
      change (bitsOf word ++ messageBits words).length = _
      rw [List.length_append, length_bitsOf, ih, List.length_cons, Nat.succ_mul, Nat.add_comm]

theorem messageBits_zipWith (sameLength : first.length = second.length) :
    messageBits (first.zipWith (· ^^^ ·) second) =
      (messageBits first).zipWith xor (messageBits second) := by
  induction first generalizing second with
  | nil => rfl
  | cons word words ih =>
      cases second with
      | nil => simp at sameLength
      | cons other others =>
          change bitsOf (word ^^^ other) ++ messageBits (words.zipWith (· ^^^ ·) others) =
            (bitsOf word ++ messageBits words).zipWith xor (bitsOf other ++ messageBits others)
          rw [List.zipWith_append (by simp), bitsOf_xor, ih (by simpa using sameLength)]

/-- As many words are determined by their bits. -/
theorem messageBits_injective (sameLength : first.length = second.length)
    (same : messageBits first = messageBits second) : first = second := by
  induction first generalizing second with
  | nil => exact (List.eq_nil_of_length_eq_zero sameLength.symm).symm
  | cons word words ih =>
      cases second with
      | nil => simp at sameLength
      | cons other others =>
          obtain ⟨sameWord, sameRest⟩ := List.append_inj same (by simp)
          rw [bitsOf_injective sameWord, ih (by simpa using sameLength) sameRest]

/-- The checksum is linear. -/
theorem checksum_zipWith (taps : BitVec w) (sameLength : first.length = second.length) :
    checksum taps (first.zipWith (· ^^^ ·) second) =
      checksum taps first ^^^ checksum taps second := by
  apply wordPolynomial_injective
  have sameBits : (messageBits first).length = (messageBits second).length := by
    rw [length_messageBits, length_messageBits, sameLength]
  rw [wordPolynomial_xor, checksum_eq_remainder, checksum_eq_remainder, checksum_eq_remainder,
    messageBits_zipWith sameLength, polynomialOf_zipWith sameBits, add_mul, add_modByMonic]

/-- Two lists of bits differ in at most `width` consecutive places. -/
def DifferWithin (width : Nat) (first second : List Bool) : Prop :=
  ∃ before burst other after, first = before ++ burst ++ after ∧
    second = before ++ other ++ after ∧ burst.length = other.length ∧ burst.length ≤ width

theorem coeff_zero_wordPolynomial (word : BitVec w) :
    (wordPolynomial word).coeff 0 = (word.getLsbD 0).toNat := by
  cases w with
  | zero => simp [wordPolynomial, bitsOf, polynomialOf]
  | succ w =>
      have last : bitsOf word = (List.range w).map word.getMsbD ++ [word.getLsbD 0] := by
        rw [bitsOf, List.range_succ, List.map_append]
        simp [BitVec.getMsbD]
      rw [wordPolynomial, last, polynomialOf_append]
      simp [polynomialOf]

theorem isCoprime_generator_X (constant : taps.getLsbD 0 = true) :
    IsCoprime (generator taps) X := by
  have positive : w ≠ 0 := by
    rintro rfl
    simp at constant
  have one : (generator taps).coeff 0 = 1 := by
    rw [generator, coeff_add, coeff_zero_wordPolynomial, constant, coeff_X_pow]
    simp [positive.symm]
  have split := divX_mul_X_add (generator taps)
  rw [one, C_1] at split
  refine ⟨1, -(generator taps).divX, ?_⟩
  linear_combination -split

/-- A generator with a constant term tells messages apart that differ in no more
consecutive bits than the register has. -/
theorem checksum_ne_of_differWithin (constant : taps.getLsbD 0 = true)
    (sameLength : first.length = second.length) (differ : first ≠ second)
    (within : DifferWithin w (messageBits first) (messageBits second)) :
    checksum taps first ≠ checksum taps second := by
  intro same
  obtain ⟨before, burst, other, after, isFirst, isSecond, sameBurst, short⟩ := within
  have divides := dvd_sub (generator_dvd_checksum taps first)
    (generator_dvd_checksum taps second)
  have isBurst : polynomialOf (messageBits first) * X ^ w -
        wordPolynomial (checksum taps first) -
        (polynomialOf (messageBits second) * X ^ w -
          wordPolynomial (checksum taps second)) =
      (polynomialOf burst - polynomialOf other) * X ^ (after.length + w) := by
    rw [same, isFirst, isSecond, polynomialOf_append, polynomialOf_append,
      polynomialOf_append, polynomialOf_append, sameBurst, pow_add]
    ring
  rw [isBurst] at divides
  have dividesBurst : generator taps ∣ polynomialOf burst - polynomialOf other :=
    (isCoprime_generator_X constant).pow_right.dvd_of_dvd_mul_right divides
  have lowDegree : (polynomialOf burst - polynomialOf other).degree <
      (generator taps).degree := by
    rw [degree_generator]
    have shortDegree : (burst.length : WithBot Nat) ≤ w := by exact_mod_cast short
    refine ((degree_sub_le _ _).trans_lt (max_lt ?_ ?_)).trans_le shortDegree
    · exact degree_polynomialOf_lt burst
    · rw [sameBurst]
      exact degree_polynomialOf_lt other
  have sameBits : burst = other :=
    polynomialOf_injective sameBurst
      (sub_eq_zero.mp (eq_zero_of_dvd_of_degree_lt dividesBurst lowDegree))
  apply differ
  apply messageBits_injective sameLength
  rw [isFirst, isSecond, sameBits]

end Detection

end CyclicRedundancy
