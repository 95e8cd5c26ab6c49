import Mathlib.Data.Rat.Defs

/-!
# Boxes and candidates in a frame

The types that the proposer and the cropper share.  Coordinates are exact
rational numbers, and of an image only the size and the pixel type are kept.
-/

namespace Adas.Roi

/-- A `cv::Mat` without its pixels. -/
structure Mat where
  cols : Nat
  rows : Nat
  isBgr8 : Bool := true
  deriving DecidableEq, Repr

def Mat.empty (mat : Mat) : Bool :=
  mat.cols == 0 || mat.rows == 0

/-- The frames that the proposer and the cropper look at. -/
def Mat.isFrame (mat : Mat) : Bool :=
  !mat.empty && mat.isBgr8

/-- The top left corner of an object and its size. -/
structure BoundingBox where
  x : ℚ
  y : ℚ
  width : ℚ
  height : ℚ
  deriving DecidableEq, Repr

/-- The box has an area and lies in the frame. -/
structure BoundingBox.InFrame (bbox : BoundingBox) (frame : Mat) : Prop where
  left : 0 ≤ bbox.x
  top : 0 ≤ bbox.y
  width : 0 < bbox.width
  height : 0 < bbox.height
  right : bbox.x + bbox.width ≤ frame.cols
  bottom : bbox.y + bbox.height ≤ frame.rows

structure RoiCandidate where
  frameId : BitVec 32
  roiId : BitVec 32
  objectBbox : BoundingBox
  objectness : ℚ
  deriving DecidableEq, Repr

end Adas.Roi
