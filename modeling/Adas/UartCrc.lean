import Adas.CyclicRedundancy
import Adas.UartReceiver

/-!
# What the CRC of the frames computes

The inner loop of `crc8` is a turn of a shift register with eight bits, so the
CRC is the remainder of a polynomial division, and the receiver's CRC is the
same number.  Whatever a remainder detects the link detects.
-/

namespace Adas.UartFrame

open CyclicRedundancy Polynomial
open Turtlebot.UartSafetyReceiver (crc8Atm crc8Atm_eq)

/-- The constant of the inner loop, as the taps of the register. -/
def kTaps : Byte := 0x07

theorem crcBit_eq_turn : ∀ crc : Byte, crcBit crc = turn kTaps crc := by
  decide

theorem crcByte_eq_takeIn (crc byte : Byte) : crcByte crc byte = takeIn kTaps crc byte := by
  rw [crcByte, takeIn, funext crcBit_eq_turn]

theorem crc8_eq_checksum (data : List Byte) : crc8 (some data) = checksum kTaps data := by
  have sameStep : crcByte = takeIn kTaps := by
    ext crc byte
    rw [crcByte_eq_takeIn]
  rw [crc8, checksum, sameStep]

/-- What flips do to the CRC does not depend on what they flip. -/
theorem crc8_xor_flipped (first flipped flips : Byte) :
    crc8 (some [first, flipped]) ^^^ crc8 (some [first, flipped ^^^ flips]) =
      crc8 (some [0, flips]) := by
  have restored : flipped ^^^ (flipped ^^^ flips) = flips := by
    rw [← BitVec.xor_assoc, BitVec.xor_self, BitVec.zero_xor]
  have difference : [0, flips] =
      [first, flipped].zipWith (· ^^^ ·) [first, flipped ^^^ flips] := by
    rw [List.zipWith_cons_cons, List.zipWith_cons_cons, BitVec.xor_self, restored]
    rfl
  have sameLength : [first, flipped].length = [first, flipped ^^^ flips].length := rfl
  rw [difference, crc8_eq_checksum, crc8_eq_checksum, crc8_eq_checksum,
    checksum_zipWith kTaps sameLength]

theorem generator_kTaps : generator kTaps = X ^ 8 + X ^ 2 + X + 1 := by
  have taps : bitsOf kTaps = [false, false, false, false, false, true, true, true] := by
    decide
  rw [generator, wordPolynomial, taps]
  simp [polynomialOf]
  ring

/-- What is promised of a CRC with eight bits and the generator of the link. -/
structure ComputesCrc (crc : List Byte → Byte) : Prop where
  remainder : ∀ data, wordPolynomial (crc data) =
    (polynomialOf (messageBits data) * X ^ 8) %ₘ (X ^ 8 + X ^ 2 + X + 1)
  residue : ∀ data, crc (data ++ [crc data]) = 0
  linear : ∀ first second : List Byte, first.length = second.length →
    crc (first.zipWith (· ^^^ ·) second) = crc first ^^^ crc second
  detects : ∀ first second : List Byte, first.length = second.length → first ≠ second →
    DifferWithin 8 (messageBits first) (messageBits second) → crc first ≠ crc second

theorem computesCrc_checksum : ComputesCrc (checksum kTaps) where
  remainder data := by
    rw [← generator_kTaps]
    exact checksum_eq_remainder kTaps data
  residue := checksum_append_checksum kTaps
  linear _ _ := checksum_zipWith kTaps
  detects _ _ := checksum_ne_of_differWithin (by decide)

/-- Sender and receiver compute one CRC, which is the remainder of the division
by `x^8 + x^2 + x + 1`. -/
theorem crc8_is_remainder :
    (∀ data, crc8Atm data = (crc8 (some data)).toNat) ∧
      ComputesCrc fun data => crc8 (some data) := by
  refine ⟨crc8Atm_eq, ?_⟩
  have isChecksum : (fun data => crc8 (some data)) = checksum kTaps := by
    ext data
    rw [crc8_eq_checksum]
  rw [isChecksum]
  exact computesCrc_checksum

/-- Eight flips in a row are noticed across the border of two bytes. -/
theorem crc8_is_remainder_acrossBytes :
    crc8 (some [0x0F, 0xF0]) ≠ crc8 (some [0x00, 0x00]) := by
  apply crc8_is_remainder.2.detects [0x0F, 0xF0] [0x00, 0x00] rfl (by decide)
  refine ⟨List.replicate 4 false, List.replicate 8 true, List.replicate 8 false,
    List.replicate 4 false, ?_, ?_, rfl, le_rfl⟩ <;> decide

end Adas.UartFrame
