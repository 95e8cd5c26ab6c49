import Adas.SafetyJudge

/-!
# Frames on the link to the robot

A state travels to the robot as three bytes: a magic byte, the code of the
state and a CRC over these two.  The CRC is CRC-8/SMBUS, computed bit by bit.
-/

namespace Adas.UartFrame

abbrev Byte := BitVec 8

def kMagic : Byte := 0xA5

def kFrameSize : Nat := 3

/-- One turn of the inner loop of `crc8`. -/
def crcBit (crc : Byte) : Byte :=
  if crc &&& 0x80 ≠ 0 then (crc <<< 1) ^^^ 0x07 else crc <<< 1

/-- One turn of the outer loop of `crc8`. -/
def crcByte (crc byte : Byte) : Byte :=
  crcBit^[8] (crc ^^^ byte)

/-- `crc8` of `length` bytes behind a pointer, which is null for `none`. -/
def crc8 (data : Option (List Byte)) : Byte :=
  match data with
  | none => 0x00
  | some bytes => bytes.foldl crcByte 0x00

/-- The check value the source gives for the CRC parameters. -/
example : crc8 (some ("123456789".toList.map fun c => BitVec.ofNat 8 c.toNat)) =
    0xF4 := by
  decide +kernel

/-- The `uint8_t` a state is sent as. -/
def stateByte (state : Safety.State) : Byte :=
  BitVec.ofNat 8 state.code

/-- `encode` into a buffer of `outSize` bytes, or a null pointer for `none`;
the answer is what stands in the buffer, or `none` when `encode` refuses. -/
def encode (state : Safety.State) (outSize : Option Nat) : Option (List Byte) :=
  match outSize with
  | none => none
  | some size =>
      if size < kFrameSize then
        none
      else
        some [kMagic, stateByte state, crc8 (some [kMagic, stateByte state])]

/-- The frame of a state. -/
def frameOf (state : Safety.State) : List Byte :=
  [kMagic, stateByte state, crc8 (some [kMagic, stateByte state])]

@[simp]
theorem encode_kFrameSize (state : Safety.State) :
    encode state (some kFrameSize) = some (frameOf state) :=
  rfl

end Adas.UartFrame
