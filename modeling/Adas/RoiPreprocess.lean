import Adas.BoundedLoop
import Adas.GoldenInt8
import Adas.RowMajor
import Mathlib.Tactic.Linarith
import Mathlib.Tactic.NormNum

/-!
# The image as the accelerator reads it

The server scales the bytes of an image to the non-negative signed bytes and
stores them with a border of zeros.  Two formulas with different strides say
where a pixel is read and where it is stored.  The buffer carries a ghost flag
for an index outside of an array.
-/

namespace Adas.RoiPreprocess

open BoundedLoop RowMajor
open GoldenInt8 (roundHalfAwayFromZero quantizeInput96 pad)

abbrev roiWidth : Nat := 96
abbrev roiHeight : Nat := 96
abbrev roiChannels : Nat := 3
abbrev roiImagePayloadSize : Nat := roiWidth * roiHeight * roiChannels

abbrev plInputBorder : Nat := 1
abbrev plInputWidth : Nat := roiWidth + 2 * plInputBorder
abbrev plInputHeight : Nat := roiHeight + 2 * plInputBorder
abbrev plInputChannels : Nat := roiChannels
abbrev plInputSize : Nat := plInputWidth * plInputHeight * plInputChannels

/-- `adas_roi_quantize_pixel`. -/
def quantizePixel (pixel : BitVec 8) : BitVec 8 :=
  let scaled := pixel.setWidth 32 * 127#32
  ((scaled + 127#32) / 255#32).setWidth 8

/-- The buffer that the accelerator reads. -/
structure Ifmap where
  output : Nat → BitVec 8
  outside : Bool

def inputIndex (y x channel : Nat) : Nat :=
  (y * roiWidth + x) * roiChannels + channel

def outputIndex (y x channel : Nat) : Nat :=
  ((y + plInputBorder) * plInputWidth + (x + plInputBorder)) * plInputChannels +
    channel

/-- The assignment in the loops of `adas_roi_preprocess`. -/
def storePixel (input : Nat → BitVec 8) (y x channel : Nat) (ifmap : Ifmap) :
    Ifmap where
  output := write1 ifmap.output (outputIndex y x channel)
    (quantizePixel (input (inputIndex y x channel)))
  outside := ifmap.outside || !(inputIndex y x channel < roiImagePayloadSize) ||
    !(outputIndex y x channel < plInputSize)

/-- `adas_roi_preprocess`. -/
def preprocess (input : Nat → BitVec 8) (ifmap : Ifmap) : Ifmap :=
  let cleared :=
    { ifmap with output := load1 plInputSize (fun _ => 0) ifmap.output }
  forLoop roiHeight (fun y => forLoop roiWidth fun x =>
    forLoop roiChannels fun channel => storePixel input y x channel) cleared

section Quantize

variable {pixel : Nat}

theorem toInt_quantizePixel (pixel : BitVec 8) :
    (quantizePixel pixel).toInt = ((127 * pixel.toNat + 127) / 255 : Nat) := by
  have byte := pixel.isLt
  have value : (quantizePixel pixel).toNat = (127 * pixel.toNat + 127) / 255 := by
    simp only [quantizePixel, BitVec.toNat_setWidth, BitVec.toNat_udiv,
      BitVec.toNat_add, BitVec.toNat_mul, BitVec.toNat_ofNat, Nat.reducePow,
      Nat.reduceMod]
    -- No step leaves its type.
    have widened : pixel.toNat % 4294967296 = pixel.toNat := by omega
    have scaled : pixel.toNat * 127 % 4294967296 = pixel.toNat * 127 := by omega
    have summed : (pixel.toNat * 127 + 127) % 4294967296 =
        pixel.toNat * 127 + 127 := by omega
    rw [widened, scaled, summed, Nat.mul_comm]
    exact Nat.mod_eq_of_lt (by omega)
  rw [BitVec.toInt_eq_toNat_cond, if_pos (by omega), value]

/-- No quotient is so close to a tie that an error below 1 / 510, as that of a
division and an addition in doubles, could change the integer below it. -/
theorem floor_near {number : ℚ}
    (near : |number - (pixel * 127 / 255 + 1 / 2)| < 1 / 510) :
    ⌊number⌋ = ((127 * pixel + 127) / 255 : Nat) := by
  obtain ⟨lower, upper⟩ := abs_lt.mp near
  have quotientLower : (127 * pixel + 127) / 255 * 255 ≤ 127 * pixel + 127 :=
    Nat.div_mul_le_self _ _
  have quotientUpper : 127 * pixel + 127 ≤ (127 * pixel + 127) / 255 * 255 + 254 := by
    omega
  generalize (127 * pixel + 127) / 255 = quotient at quotientLower quotientUpper ⊢
  have castLower : (quotient : ℚ) * 255 ≤ 127 * pixel + 127 := by
    exact_mod_cast quotientLower
  have castUpper : (127 : ℚ) * pixel + 127 ≤ quotient * 255 + 254 := by
    exact_mod_cast quotientUpper
  rw [Int.floor_eq_iff]
  constructor
  · push_cast
    linarith
  · push_cast
    linarith

/-- Adding 127 before the integer division rounds halves away from zero. -/
theorem roundHalfAwayFromZero_pixel (pixel : Nat) :
    roundHalfAwayFromZero (pixel * 127 / 255) =
      ((127 * pixel + 127) / 255 : Nat) := by
  have nonnegative : (0 : ℚ) ≤ pixel * 127 / 255 := by positivity
  rw [roundHalfAwayFromZero, if_pos nonnegative]
  apply floor_near
  rw [sub_self, abs_zero]
  norm_num

theorem toInt_quantizePixel_golden (pixel : BitVec 8) :
    (quantizePixel pixel).toInt =
      roundHalfAwayFromZero ((pixel.toNat : ℚ) * 127 / 255) := by
  rw [toInt_quantizePixel, roundHalfAwayFromZero_pixel]

/-- The golden clip has nothing to do. -/
theorem clip_quantizePixel (pixel : BitVec 8) :
    min (max (quantizePixel pixel).toInt 0) 127 = (quantizePixel pixel).toInt := by
  have byte := pixel.isLt
  rw [toInt_quantizePixel]
  omega

end Quantize

section Loops

variable {input : Nat → BitVec 8} {y x channel : Nat}

theorem inputIndex_lt (yIn : y < roiHeight) (xIn : x < roiWidth)
    (channelIn : channel < roiChannels) :
    inputIndex y x channel < roiImagePayloadSize :=
  index3_lt yIn xIn channelIn

theorem add_border_lt {position size : Nat} (inside : position < size) :
    position + plInputBorder < size + 2 * plInputBorder :=
  Nat.lt_succ_of_lt (Nat.succ_lt_succ inside)

theorem outputIndex_lt (yIn : y < roiHeight) (xIn : x < roiWidth)
    (channelIn : channel < roiChannels) :
    outputIndex y x channel < plInputSize :=
  index3_lt (add_border_lt yIn) (add_border_lt xIn) channelIn

/-- The cell of a pixel is the cell of no other pixel. -/
theorem outputIndex_injective {otherY otherX otherChannel : Nat}
    (xIn : x < roiWidth) (channelIn : channel < roiChannels)
    (otherXIn : otherX < roiWidth) (otherChannelIn : otherChannel < roiChannels)
    (same : outputIndex y x channel = outputIndex otherY otherX otherChannel) :
    y = otherY ∧ x = otherX ∧ channel = otherChannel := by
  obtain ⟨sameY, sameX, sameChannel⟩ := index3_injective (add_border_lt xIn)
    channelIn (add_border_lt otherXIn) otherChannelIn same
  exact ⟨Nat.succ_inj.mp sameY, Nat.succ_inj.mp sameX, sameChannel⟩

theorem storePixel_keeps {index : Nat} (differs : index ≠ outputIndex y x channel) :
    Keeps (fun ifmap : Ifmap => ifmap.output index) (storePixel input y x channel) :=
  fun _ => if_neg differs

/-- A cell that is the cell of no pixel stays as it was. -/
theorem loops_keep (input : Nat → BitVec 8) {index : Nat}
    (differs : ∀ y < roiHeight, ∀ x < roiWidth, ∀ channel < roiChannels,
      index ≠ outputIndex y x channel) :
    Keeps (fun ifmap : Ifmap => ifmap.output index)
      (forLoop roiHeight fun y => forLoop roiWidth fun x =>
        forLoop roiChannels fun channel => storePixel input y x channel) :=
  .forLoop fun y yIn => .forLoop fun x xIn => .forLoop fun channel channelIn =>
    storePixel_keeps (differs y yIn x xIn channel channelIn)

/-- The cell of a pixel gets the value of this pixel. -/
theorem loops_set (yIn : y < roiHeight) (xIn : x < roiWidth)
    (channelIn : channel < roiChannels) :
    Sets (fun ifmap : Ifmap => ifmap.output (outputIndex y x channel))
      (forLoop roiHeight fun y => forLoop roiWidth fun x =>
        forLoop roiChannels fun channel => storePixel input y x channel)
      (quantizePixel (input (inputIndex y x channel))) := by
  have differs : ∀ {otherY otherX otherChannel : Nat}, otherX < roiWidth →
      otherChannel < roiChannels →
        ¬ (y = otherY ∧ x = otherX ∧ channel = otherChannel) →
          outputIndex y x channel ≠ outputIndex otherY otherX otherChannel :=
    fun otherXIn otherChannelIn other same =>
      other (outputIndex_injective xIn channelIn otherXIn otherChannelIn same)
  refine .forLoop yIn (fun otherY _ other => ?_)
    (.forLoop xIn (fun otherX otherXIn other => ?_)
      (.forLoop channelIn (fun otherChannel otherChannelIn other => ?_) ?_))
  · exact .forLoop fun otherX otherXIn => .forLoop fun otherChannel otherChannelIn =>
      storePixel_keeps (differs otherXIn otherChannelIn fun same => other same.1.symm)
  · exact .forLoop fun otherChannel otherChannelIn =>
      storePixel_keeps (differs otherXIn otherChannelIn fun same =>
        other same.2.1.symm)
  · exact storePixel_keeps (differs xIn otherChannelIn fun same =>
      other same.2.2.symm)
  · exact fun _ => if_pos rfl

/-- The loops stay inside of the image and of the buffer. -/
theorem loops_keep_outside :
    Keeps Ifmap.outside
      (forLoop roiHeight fun y => forLoop roiWidth fun x =>
        forLoop roiChannels fun channel => storePixel input y x channel) := by
  refine .forLoop fun y yIn => .forLoop fun x xIn => .forLoop
    fun channel channelIn ifmap => ?_
  simp [storePixel, inputIndex_lt yIn xIn channelIn,
    outputIndex_lt yIn xIn channelIn]

end Loops

section Golden

variable {image : Nat → Nat → Nat → BitVec 8}

def OnBorder (row col : Nat) : Prop :=
  row = 0 ∨ row = plInputHeight - 1 ∨ col = 0 ∨ col = plInputWidth - 1

/-- A position is on the border or is the one of a pixel, moved by the border. -/
theorem onBorder_or_pixel {row col : Nat} (rowIn : row < plInputHeight)
    (colIn : col < plInputWidth) :
    OnBorder row col ∨
      ∃ y < roiHeight, ∃ x < roiWidth,
        row = y + plInputBorder ∧ col = x + plInputBorder := by
  have rowIn : row < 98 := rowIn
  have colIn : col < 98 := colIn
  by_cases border : OnBorder row col
  · exact .inl border
  · have inside : ¬ (row = 0 ∨ row = 97 ∨ col = 0 ∨ col = 97) := border
    obtain ⟨y, rfl⟩ : ∃ y, row = y + 1 := ⟨row - 1, by omega⟩
    obtain ⟨x, rfl⟩ : ∃ x, col = x + 1 := ⟨col - 1, by omega⟩
    have yIn : y < 96 := by omega
    have xIn : x < 96 := by omega
    exact .inr ⟨y, yIn, x, xIn, rfl, rfl⟩

theorem quantizeInput96_border {imgRgbU8 : Nat → Nat → Nat → Nat} {row col : Nat}
    (border : OnBorder row col) (channel : Nat) :
    quantizeInput96 imgRgbU8 row col channel = 0 := by
  have onBorder : row = 0 ∨ row = 97 ∨ col = 0 ∨ col = 97 := border
  rw [quantizeInput96, pad, if_neg (by omega)]

theorem quantizeInput96_pixel {imgRgbU8 : Nat → Nat → Nat → Nat} {y x : Nat}
    (yIn : y < roiHeight) (xIn : x < roiWidth) (channel : Nat) :
    quantizeInput96 imgRgbU8 (y + 1) (x + 1) channel =
      min (max (roundHalfAwayFromZero (imgRgbU8 y x channel * 127 / 255)) 0) 127 := by
  have yIn : y < 96 := yIn
  have xIn : x < 96 := xIn
  rw [quantizeInput96, pad, if_pos (by omega)]
  rfl

/-- The buffer holds the quantised image in its interior and zeros on its
border, which is the flat golden array, and no index has left an array. -/
structure PreparesGolden (image : Nat → Nat → Nat → BitVec 8) (ifmap : Ifmap) :
    Prop where
  interior : ∀ y < roiHeight, ∀ x < roiWidth, ∀ channel < plInputChannels,
    (ifmap.output (index3 plInputWidth plInputChannels (y + 1) (x + 1)
        channel)).toInt =
      roundHalfAwayFromZero ((image y x channel).toNat * 127 / 255)
  border : ∀ row < plInputHeight, ∀ col < plInputWidth,
    ∀ channel < plInputChannels, OnBorder row col →
      ifmap.output (index3 plInputWidth plInputChannels row col channel) = 0
  golden : ∀ index < plInputSize,
    (ifmap.output index).toInt =
      flatten3 plInputWidth plInputChannels
        (quantizeInput96 fun row col c => (image row col c).toNat) index
  inRange : ifmap.outside = false

theorem preprocess_pixel (buffer : Nat → BitVec 8) {y x channel : Nat}
    (yIn : y < roiHeight) (xIn : x < roiWidth) (channelIn : channel < roiChannels) :
    (preprocess (flatten3 roiWidth roiChannels image) ⟨buffer, false⟩).output
        (index3 plInputWidth plInputChannels (y + 1) (x + 1) channel) =
      quantizePixel (image y x channel) := by
  have read : flatten3 roiWidth roiChannels image (inputIndex y x channel) =
      image y x channel :=
    flatten3_index3 image xIn channelIn
  rw [← read, preprocess]
  exact loops_set yIn xIn channelIn _

theorem preprocess_border (input buffer : Nat → BitVec 8) {row col channel : Nat}
    (rowIn : row < plInputHeight) (colIn : col < plInputWidth)
    (channelIn : channel < plInputChannels) (border : OnBorder row col) :
    (preprocess input ⟨buffer, false⟩).output
      (index3 plInputWidth plInputChannels row col channel) = 0 := by
  have onBorder : row = 0 ∨ row = 97 ∨ col = 0 ∨ col = 97 := border
  have differs : ∀ y < roiHeight, ∀ x < roiWidth, ∀ other < roiChannels,
      index3 plInputWidth plInputChannels row col channel ≠
        outputIndex y x other := by
    intro y yIn x xIn other otherIn same
    obtain ⟨sameRow, sameCol, -⟩ :=
      index3_injective colIn channelIn (add_border_lt xIn) otherIn same
    have yIn : y < 96 := yIn
    have xIn : x < 96 := xIn
    have sameRow : row = y + 1 := sameRow
    have sameCol : col = x + 1 := sameCol
    omega
  have kept := loops_keep input differs
    ⟨load1 plInputSize (fun _ => 0) buffer, false⟩
  have inside : index3 plInputWidth plInputChannels row col channel <
      plInputSize := index3_lt rowIn colIn channelIn
  exact kept.trans (load1_apply inside)

theorem preprocess_outside (input buffer : Nat → BitVec 8) :
    (preprocess input ⟨buffer, false⟩).outside = false := by
  rw [preprocess]
  exact loops_keep_outside _

/-- Every cell of the buffer has the golden value. -/
theorem preprocess_cell (image : Nat → Nat → Nat → BitVec 8)
    (buffer : Nat → BitVec 8) {row col channel : Nat}
    (rowIn : row < plInputHeight) (colIn : col < plInputWidth)
    (channelIn : channel < plInputChannels) :
    ((preprocess (flatten3 roiWidth roiChannels image) ⟨buffer, false⟩).output
        (index3 plInputWidth plInputChannels row col channel)).toInt =
      quantizeInput96 (fun row col c => (image row col c).toNat) row col
        channel := by
  rcases onBorder_or_pixel rowIn colIn with
    border | ⟨y, yIn, x, xIn, rfl, rfl⟩
  · rw [preprocess_border _ buffer rowIn colIn channelIn border,
      quantizeInput96_border border]
    rfl
  · rw [preprocess_pixel buffer yIn xIn channelIn,
      quantizeInput96_pixel yIn xIn channel, ← toInt_quantizePixel_golden,
      clip_quantizePixel]

/-- Whatever the buffer held before, the preprocessing leaves the golden input
in it. -/
theorem preprocess_golden (image : Nat → Nat → Nat → BitVec 8)
    (buffer : Nat → BitVec 8) :
    PreparesGolden image
      (preprocess (flatten3 roiWidth roiChannels image) ⟨buffer, false⟩) := by
  refine ⟨fun y yIn x xIn channel channelIn => ?_,
    fun row rowIn col colIn channel channelIn border =>
      preprocess_border _ buffer rowIn colIn channelIn border,
    fun index inRange => ?_, preprocess_outside _ buffer⟩
  · rw [preprocess_pixel buffer yIn xIn channelIn, toInt_quantizePixel_golden]
  · have rowIn : index / plInputChannels / plInputWidth < plInputHeight :=
      row_lt inRange
    have cell := preprocess_cell image buffer rowIn
      (Nat.mod_lt (index / plInputChannels) (by decide))
      (Nat.mod_lt index (by decide))
    rw [index3_of_div_mod] at cell
    exact cell

end Golden

end Adas.RoiPreprocess
