import Adas.ExactAccum
import Adas.RoiTypes
import Mathlib.Data.Rat.Floor
import Mathlib.Tactic.Linarith
import Mathlib.Tactic.Positivity

/-!
# Square windows around proposed boxes

The cropper widens a box by a margin, takes the square around the centre that
has the longer side, rounds its edges outwards and makes the result a square
again.  What the frame does not cover is filled with a border.  Coordinates are
exact up to the conversion to `int`, and an `int` wraps around.
-/

namespace Adas.Roi

structure PixelRect where
  x : Int
  y : Int
  width : Int
  height : Int
  deriving DecidableEq, Repr

structure Padding where
  left : Int
  top : Int
  right : Int
  bottom : Int
  deriving DecidableEq, Repr

structure CropConfig where
  marginRatio : ℚ := 15 / 100
  outputSize : Int := 96
  deriving DecidableEq, Repr

structure CroppedRoi where
  frameId : BitVec 32
  roiId : BitVec 32
  objectBbox : BoundingBox
  cropWindow : PixelRect
  padding : Padding
  objectness : ℚ
  frameWidth : BitVec 32
  frameHeight : BitVec 32
  bgrPixels : Mat
  deriving DecidableEq, Repr

namespace PixelRect

/-- `cv::Rect::empty`. -/
def empty (rect : PixelRect) : Bool :=
  decide (rect.width ≤ 0) || decide (rect.height ≤ 0)

/-- The operator `&` of `cv::Rect`. -/
def inter (a b : PixelRect) : PixelRect :=
  let x1 := max a.x b.x
  let y1 := max a.y b.y
  let width := min (a.x + a.width) (b.x + b.width) - x1
  let height := min (a.y + a.height) (b.y + b.height) - y1
  if width ≤ 0 ∨ height ≤ 0 then ⟨0, 0, 0, 0⟩ else ⟨x1, y1, width, height⟩

/-- The pixel belongs to the rectangle. -/
def Contains (rect : PixelRect) (x y : Int) : Prop :=
  (rect.x ≤ x ∧ x < rect.x + rect.width) ∧ rect.y ≤ y ∧ y < rect.y + rect.height

theorem contains_inter (a b : PixelRect) (x y : Int) :
    (a.inter b).Contains x y ↔ a.Contains x y ∧ b.Contains x y := by
  simp only [inter]
  split_ifs with apart
  · simp only [Contains]
    omega
  · simp only [Contains]
    omega

theorem not_empty_iff (rect : PixelRect) :
    rect.empty = false ↔ ∃ x y, rect.Contains x y := by
  simp only [empty, Bool.or_eq_false_iff, decide_eq_false_iff_not, not_le]
  constructor
  · intro hasArea
    refine ⟨rect.x, rect.y, ?_⟩
    simp only [Contains]
    omega
  · rintro ⟨x, y, contains⟩
    simp only [Contains] at contains
    omega

/-- An intersection with pixels is cut out of both rectangles. -/
theorem inter_edges {a b : PixelRect} (meets : (a.inter b).empty = false) :
    (a.inter b).x = max a.x b.x ∧ (a.inter b).y = max a.y b.y ∧
      (a.inter b).x + (a.inter b).width = min (a.x + a.width) (b.x + b.width) ∧
      (a.inter b).y + (a.inter b).height = min (a.y + a.height) (b.y + b.height) := by
  simp only [inter] at meets ⊢
  split_ifs at meets ⊢ with apart
  · exact absurd meets (by decide)
  · exact ⟨rfl, rfl, add_sub_cancel _ _, add_sub_cancel _ _⟩

end PixelRect

/-- The checks of the constructor of the cropper. -/
def CropConfig.isInvalid (config : CropConfig) : Bool :=
  decide (config.marginRatio < 0) ||
    !(config.outputSize == 64 || config.outputSize == 96 || config.outputSize == 128)

theorem CropConfig.default_valid : ({} : CropConfig).isInvalid = false := by
  norm_num [CropConfig.isInvalid]

/-- A cropper whose configuration the constructor has let pass. -/
structure RoiCropper where
  config : CropConfig
  checked : config.isInvalid = false

namespace RoiCropper

/-- The value that an `int` takes. -/
def int (value : Int) : Int :=
  value.bmod (2 ^ 32)

section Window

variable (config : CropConfig) (box : BoundingBox)

def centerX : ℚ :=
  box.x + box.width * (1 / 2)

def centerY : ℚ :=
  box.y + box.height * (1 / 2)

def squareSize : ℚ :=
  let expandedWidth := box.width * (1 + 2 * config.marginRatio)
  let expandedHeight := box.height * (1 + 2 * config.marginRatio)
  max expandedWidth expandedHeight

def left : Int :=
  int ⌊centerX box - squareSize config box * (1 / 2)⌋

def top : Int :=
  int ⌊centerY box - squareSize config box * (1 / 2)⌋

def right : Int :=
  int ⌈centerX box + squareSize config box * (1 / 2)⌉

def bottom : Int :=
  int ⌈centerY box + squareSize config box * (1 / 2)⌉

def initialWidth : Int :=
  int (right config box - left config box)

def initialHeight : Int :=
  int (bottom config box - top config box)

def pixelSize : Int :=
  max (initialWidth config box) (initialHeight config box)

/-- The edge moves by half of what is missing in its direction.  The opposite
edges are not read any more. -/
def widened (edge initial pixelSize : Int) : Int :=
  if initial < pixelSize then
    let difference := int (pixelSize - initial)
    int (edge - difference.tdiv 2)
  else
    edge

def cropWindow : PixelRect where
  x := widened (left config box) (initialWidth config box) (pixelSize config box)
  y := widened (top config box) (initialHeight config box) (pixelSize config box)
  width := pixelSize config box
  height := pixelSize config box

end Window

def frameRect (frame : Mat) : PixelRect :=
  ⟨0, 0, frame.cols, frame.rows⟩

/-- What the frame does not cover of the window. -/
def paddingOf (requested valid : PixelRect) : Padding where
  left := int (valid.x - requested.x)
  top := int (valid.y - requested.y)
  right := int (int (requested.x + requested.width) - int (valid.x + valid.width))
  bottom := int (int (requested.y + requested.height) - int (valid.y + valid.height))

def crop (cropper : RoiCropper) (frame : Mat) (candidate : RoiCandidate) :
    Option CroppedRoi :=
  let box := candidate.objectBbox
  let window := cropWindow cropper.config box
  let valid := window.inter (frameRect frame)
  if !frame.isFrame then
    none
  else if box.width ≤ 0 ∨ box.height ≤ 0 then
    none
  else if squareSize cropper.config box ≤ 0 then
    none
  else if pixelSize cropper.config box ≤ 0 then
    none
  else if valid.empty then
    none
  else
    some {
      frameId := candidate.frameId
      roiId := candidate.roiId
      objectBbox := box
      cropWindow := window
      padding := paddingOf window valid
      objectness := candidate.objectness
      frameWidth := BitVec.ofNat 32 frame.cols
      frameHeight := BitVec.ofNat 32 frame.rows
      bgrPixels :=
        ⟨cropper.config.outputSize.toNat, cropper.config.outputSize.toNat, true⟩ }

section Exact

variable (config : CropConfig) (box : BoundingBox)

/-- The window in unbounded integers. -/
def exactWindow : PixelRect :=
  let left := ⌊centerX box - squareSize config box * (1 / 2)⌋
  let top := ⌊centerY box - squareSize config box * (1 / 2)⌋
  let right := ⌈centerX box + squareSize config box * (1 / 2)⌉
  let bottom := ⌈centerY box + squareSize config box * (1 / 2)⌉
  let side := max (right - left) (bottom - top)
  ⟨left, top, side, side⟩

/-- The coordinates of a window are numbers that an `int` holds. -/
structure FitsInt (window : PixelRect) : Prop where
  left : -2 ^ 31 ≤ window.x
  top : -2 ^ 31 ≤ window.y
  width : window.width < 2 ^ 31
  height : window.height < 2 ^ 31
  right : window.x + window.width < 2 ^ 31
  bottom : window.y + window.height < 2 ^ 31

theorem int_eq {value : Int} (lower : -2 ^ 31 ≤ value) (upper : value < 2 ^ 31) :
    int value = value :=
  FixedWidth.bmod_eq_of_fits (by decide) lower upper

/-- Rounding an interval outwards makes it longer by less than two. -/
theorem roundedOutwards (center size : ℚ) :
    size ≤ (⌈center + size * (1 / 2)⌉ - ⌊center - size * (1 / 2)⌋ : Int) ∧
      ((⌈center + size * (1 / 2)⌉ - ⌊center - size * (1 / 2)⌋ : Int) : ℚ) < size + 2 := by
  have floorLe := Int.floor_le (center - size * (1 / 2))
  have ltFloor := Int.lt_floor_add_one (center - size * (1 / 2))
  have leCeil := Int.le_ceil (center + size * (1 / 2))
  have ceilLt := Int.ceil_lt_add_one (center + size * (1 / 2))
  push_cast
  constructor <;> linarith

/-- Two roundings of one length differ by at most one. -/
theorem rounded_sides_close (x y size : ℚ) :
    ⌈x + size * (1 / 2)⌉ - ⌊x - size * (1 / 2)⌋ ≤
      ⌈y + size * (1 / 2)⌉ - ⌊y - size * (1 / 2)⌋ + 1 := by
  have upper := (roundedOutwards x size).2
  have lower := (roundedOutwards y size).1
  have close : ((⌈x + size * (1 / 2)⌉ - ⌊x - size * (1 / 2)⌋ : Int) : ℚ) <
      ((⌈y + size * (1 / 2)⌉ - ⌊y - size * (1 / 2)⌋ + 2 : Int) : ℚ) := by
    push_cast at upper lower ⊢
    linarith
  have closeInt := Int.cast_lt.mp close
  omega

/-- An edge stays where it is when at most one pixel is missing. -/
theorem widened_eq {edge initial pixelSize : Int} (lower : -2 ^ 31 ≤ edge)
    (upper : edge < 2 ^ 31) (close : pixelSize ≤ initial + 1) :
    widened edge initial pixelSize = edge := by
  unfold widened
  split_ifs with less
  · have missing : pixelSize - initial = 1 := by omega
    have half : (int 1).tdiv 2 = 0 := by decide
    simp only [missing, half, sub_zero]
    exact int_eq lower upper
  · rfl

variable {config box}

theorem squareSize_pos (margin : 0 ≤ config.marginRatio) (width : 0 < box.width) :
    0 < squareSize config box := by
  unfold squareSize
  exact lt_max_of_lt_left (mul_pos width (by linarith))

/-- As long as its coordinates fit, the window is the one in unbounded
integers. -/
theorem cropWindow_eq (fits : FitsInt (exactWindow config box))
    (positive : 0 < squareSize config box) :
    cropWindow config box = exactWindow config box := by
  have sideX := (roundedOutwards (centerX box) (squareSize config box)).1
  have sideY := (roundedOutwards (centerY box) (squareSize config box)).1
  have closeXY := rounded_sides_close (centerX box) (centerY box)
    (squareSize config box)
  have closeYX := rounded_sides_close (centerY box) (centerX box)
    (squareSize config box)
  obtain ⟨fitsLeft, fitsTop, fitsWidth, fitsHeight, fitsRight, fitsBottom⟩ := fits
  simp only [exactWindow, cropWindow, pixelSize, initialWidth, initialHeight, left,
    right, top, bottom] at *
  generalize ⌊centerX box - squareSize config box * (1 / 2)⌋ = l at *
  generalize ⌊centerY box - squareSize config box * (1 / 2)⌋ = t at *
  generalize ⌈centerX box + squareSize config box * (1 / 2)⌉ = r at *
  generalize ⌈centerY box + squareSize config box * (1 / 2)⌉ = b at *
  have positiveX : 0 < r - l := by
    have positiveQ : (0 : ℚ) < (r - l : Int) := lt_of_lt_of_le positive sideX
    exact_mod_cast positiveQ
  have positiveY : 0 < b - t := by
    have positiveQ : (0 : ℚ) < (b - t : Int) := lt_of_lt_of_le positive sideY
    exact_mod_cast positiveQ
  have intL : int l = l := int_eq (by omega) (by omega)
  have intT : int t = t := int_eq (by omega) (by omega)
  have intR : int r = r := int_eq (by omega) (by omega)
  have intB : int b = b := int_eq (by omega) (by omega)
  have intWidth : int (r - l) = r - l := int_eq (by omega) (by omega)
  have intHeight : int (b - t) = b - t := int_eq (by omega) (by omega)
  rw [intL, intT, intR, intB, intWidth, intHeight,
    widened_eq (by omega) (by omega) (by omega),
    widened_eq (by omega) (by omega) (by omega)]

/-- The window covers the expanded square and is longer by less than two. -/
structure Covers (window : PixelRect) (config : CropConfig) (box : BoundingBox) :
    Prop where
  square : window.width = window.height
  left : (window.x : ℚ) ≤ centerX box - squareSize config box / 2
  top : (window.y : ℚ) ≤ centerY box - squareSize config box / 2
  right : centerX box + squareSize config box / 2 ≤ window.x + window.width
  bottom : centerY box + squareSize config box / 2 ≤ window.y + window.height
  side : (window.width : ℚ) < squareSize config box + 2

theorem reaches {near far side : Int} {point : ℚ} (reach : point ≤ far)
    (long : far - near ≤ side) : point ≤ near + side := by
  have longQ : ((far - near : Int) : ℚ) ≤ side := Int.cast_le.mpr long
  push_cast at longQ
  linarith

theorem covers_exactWindow : Covers (exactWindow config box) config box := by
  have sideX := (roundedOutwards (centerX box) (squareSize config box)).2
  have sideY := (roundedOutwards (centerY box) (squareSize config box)).2
  have leftLe := Int.floor_le (centerX box - squareSize config box * (1 / 2))
  have topLe := Int.floor_le (centerY box - squareSize config box * (1 / 2))
  have leRight := Int.le_ceil (centerX box + squareSize config box * (1 / 2))
  have leBottom := Int.le_ceil (centerY box + squareSize config box * (1 / 2))
  unfold exactWindow
  refine ⟨rfl, by linarith, by linarith, ?_, ?_, ?_⟩
  · exact reaches (by linarith) (le_max_left _ _)
  · exact reaches (by linarith) (le_max_right _ _)
  · rw [Int.cast_max]
    exact max_lt sideX sideY

end Exact

section Crop

/-- The border and the visible part fill the window. -/
structure Fills (padding : Padding) (window visible : PixelRect) : Prop where
  left : 0 ≤ padding.left
  top : 0 ≤ padding.top
  right : 0 ≤ padding.right
  bottom : 0 ≤ padding.bottom
  width : padding.left + visible.width + padding.right = window.width
  height : padding.top + visible.height + padding.bottom = window.height

theorem fills_paddingOf {window : PixelRect} {frame : Mat} (fits : FitsInt window)
    (meets : (window.inter (frameRect frame)).empty = false) :
    Fills (paddingOf window (window.inter (frameRect frame))) window
      (window.inter (frameRect frame)) := by
  obtain ⟨x, y, contains⟩ := (PixelRect.not_empty_iff _).mp meets
  obtain ⟨isLeft, isTop, isRight, isBottom⟩ := PixelRect.inter_edges meets
  obtain ⟨fitsLeft, fitsTop, fitsWidth, fitsHeight, fitsRight, fitsBottom⟩ := fits
  generalize window.inter (frameRect frame) = visible at *
  simp only [PixelRect.Contains] at contains
  simp only [frameRect, zero_add] at isLeft isTop isRight isBottom
  unfold paddingOf
  simp (disch := omega) only [int_eq]
  constructor <;> simp only <;> omega

variable {cropper : RoiCropper} {frame : Mat} {candidate : RoiCandidate}

/-- A crop is returned when something of the window is visible. -/
theorem crop_eq (isFrame : frame.isFrame = true)
    (width : 0 < candidate.objectBbox.width) (height : 0 < candidate.objectBbox.height)
    (size : 0 < squareSize cropper.config candidate.objectBbox)
    (side : 0 < pixelSize cropper.config candidate.objectBbox) :
    (cropper.crop frame candidate).isSome =
      !((cropWindow cropper.config candidate.objectBbox).inter
        (frameRect frame)).empty := by
  unfold crop
  simp only [isFrame, Bool.not_true, Bool.false_eq_true, if_false, not_le.mpr width,
    not_le.mpr height, not_le.mpr size, not_le.mpr side, or_self]
  split_ifs with isEmpty
  · simp [isEmpty]
  · simp [isEmpty]

/-- What a returned crop says about the window and the border. -/
theorem of_mem_crop {roi : CroppedRoi} (isRoi : roi ∈ cropper.crop frame candidate) :
    roi.cropWindow = cropWindow cropper.config candidate.objectBbox ∧
      roi.padding = paddingOf roi.cropWindow
        (roi.cropWindow.inter (frameRect frame)) ∧
      (roi.cropWindow.inter (frameRect frame)).empty = false := by
  unfold crop at isRoi
  simp only [Option.mem_def] at isRoi
  split_ifs at isRoi with notFrame noBox noSquare noSide isEmpty
  rw [← Option.some.inj isRoi]
  exact ⟨rfl, rfl, Bool.eq_false_iff.mpr isEmpty⟩

/-- In one direction, an interval that covers the square around a box of the
frame has a pixel of the frame. -/
theorem pixel_of_covering {near side frameSize : Int} {edge length half : ℚ}
    (starts : (near : ℚ) ≤ edge + length * (1 / 2) - half)
    (ends : edge + length * (1 / 2) + half ≤ near + side) (positive : 0 < half)
    (first : 0 ≤ edge) (long : 0 < length) (last : edge + length ≤ frameSize) :
    ∃ pixel, (near ≤ pixel ∧ pixel < near + side) ∧ 0 ≤ pixel ∧ pixel < frameSize := by
  have room : (0 : ℚ) < frameSize := by linarith
  have width : (0 : ℚ) < side := by linarith
  have before : (near : ℚ) < frameSize := by linarith
  have behind : (0 : ℚ) < (near + side : Int) := by
    push_cast
    linarith
  rw [Int.cast_pos] at room width behind
  rw [Int.cast_lt] at before
  exact ⟨max near 0, by omega, by omega⟩

/-- The window of a box in the frame has a pixel of the frame. -/
theorem meets_of_inFrame {config : CropConfig} {box : BoundingBox}
    {window : PixelRect} (covers : Covers window config box)
    (positive : 0 < squareSize config box) (inFrame : box.InFrame frame) :
    ∃ x y, window.Contains x y ∧ (frameRect frame).Contains x y := by
  obtain ⟨square, coversLeft, coversTop, coversRight, coversBottom, _⟩ := covers
  obtain ⟨boxLeft, boxTop, boxWidth, boxHeight, boxRight, boxBottom⟩ := inFrame
  have halfPositive := half_pos positive
  have rightEdge : box.x + box.width ≤ (frame.cols : Int) := by simpa using boxRight
  have bottomEdge : box.y + box.height ≤ (frame.rows : Int) := by simpa using boxBottom
  obtain ⟨x, inWindowX, inFrameX⟩ :=
    pixel_of_covering coversLeft coversRight halfPositive boxLeft boxWidth rightEdge
  obtain ⟨y, inWindowY, inFrameY⟩ :=
    pixel_of_covering coversTop coversBottom halfPositive boxTop boxHeight bottomEdge
  refine ⟨x, y, ⟨inWindowX, inWindowY⟩, ?_⟩
  simpa [PixelRect.Contains, frameRect] using ⟨inFrameX, inFrameY⟩

/-- What is promised of a crop. -/
structure CropsSquare (config : CropConfig) (frame : Mat) (box : BoundingBox)
    (result : Option CroppedRoi) : Prop where
  covers : Covers (cropWindow config box) config box
  visible : ∀ x y,
    ((cropWindow config box).inter (frameRect frame)).Contains x y ↔
      (cropWindow config box).Contains x y ∧ (frameRect frame).Contains x y
  returns : result.isSome = true ↔ ∃ x y,
    (cropWindow config box).Contains x y ∧ (frameRect frame).Contains x y
  returned : ∀ roi ∈ result, roi.cropWindow = cropWindow config box ∧
    Fills roi.padding roi.cropWindow (roi.cropWindow.inter (frameRect frame))
  inside : box.InFrame frame → result.isSome = true

theorem crop_square (cropper : RoiCropper) (isFrame : frame.isFrame = true)
    (candidate : RoiCandidate) (width : 0 < candidate.objectBbox.width)
    (height : 0 < candidate.objectBbox.height)
    (fits : FitsInt (exactWindow cropper.config candidate.objectBbox)) :
    CropsSquare cropper.config frame candidate.objectBbox
      (cropper.crop frame candidate) := by
  have margin : 0 ≤ cropper.config.marginRatio := by
    have checked := cropper.checked
    simp only [CropConfig.isInvalid, Bool.or_eq_false_iff, decide_eq_false_iff_not,
      not_lt] at checked
    exact checked.1
  have positive := squareSize_pos margin width
  have windowEq := cropWindow_eq fits positive
  have covers : Covers (cropWindow cropper.config candidate.objectBbox)
      cropper.config candidate.objectBbox := by
    rw [windowEq]
    exact covers_exactWindow
  have side : 0 < pixelSize cropper.config candidate.objectBbox := by
    have sideQ : (0 : ℚ) < (cropWindow cropper.config candidate.objectBbox).width := by
      linarith [covers.left, covers.right]
    exact Int.cast_pos.mp sideQ
  have returns := crop_eq isFrame width height positive side
  have iff : (cropper.crop frame candidate).isSome = true ↔ ∃ x y,
      (cropWindow cropper.config candidate.objectBbox).Contains x y ∧
        (frameRect frame).Contains x y := by
    rw [returns, Bool.not_eq_true', PixelRect.not_empty_iff]
    simp only [PixelRect.contains_inter]
  refine ⟨covers, PixelRect.contains_inter _ _, iff, ?_, ?_⟩
  · intro roi isRoi
    obtain ⟨isWindow, isPadding, meets⟩ := of_mem_crop isRoi
    refine ⟨isWindow, ?_⟩
    rw [isPadding]
    apply fills_paddingOf _ meets
    rwa [isWindow, windowEq]
  · intro inFrame
    exact iff.mpr (meets_of_inFrame covers positive inFrame)

theorem crop_square_at_corner :
    CropsSquare {} ⟨200, 200, true⟩ ⟨0, 0, 20, 20⟩
      ((⟨{}, CropConfig.default_valid⟩ : RoiCropper).crop ⟨200, 200, true⟩
        ⟨7, 1, ⟨0, 0, 20, 20⟩, 1 / 2⟩) :=
  crop_square ⟨{}, CropConfig.default_valid⟩ rfl ⟨7, 1, ⟨0, 0, 20, 20⟩, 1 / 2⟩
    (by norm_num) (by norm_num) (by constructor <;> decide +kernel)

end Crop

end RoiCropper

end Adas.Roi
