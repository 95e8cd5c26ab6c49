import Mathlib.Algebra.BigOperators.Intervals
import Mathlib.Data.Int.Bitwise
import Mathlib.Data.Rat.Floor

/-!
# The golden integer model of the classifier

Plain integer arithmetic, layer by layer: a 3x3 convolution with bias, a
multiply and an arithmetic shift without rounding, a clamp to the non-negative
bytes, and a 2x2 maximum pool.  The first layer takes its border with the
input, the other two pad theirs with zeros.

Before the layers the pixels are scaled to the non-negative bytes and rounded,
after them the channels are summed up and a matrix gives a logit for each class.
-/

namespace Adas.GoldenInt8

/-- An array by row, column and channel. -/
abbrev Map := Nat → Nat → Nat → Int

/-- A layer of the export, its weights by output channel, input channel, row
and column. -/
structure Layer where
  weight : Nat → Nat → Nat → Nat → Int
  bias : Nat → Int
  multiplier : Int
  shift : Nat

/-- `np.pad` with zeros around a square map. -/
def pad (size width : Nat) (x : Map) : Map :=
  fun row col c =>
    if width ≤ row ∧ row < size + width ∧ width ≤ col ∧ col < size + width then
      x (row - width) (col - width) c
    else
      0

/-- `round_half_away_from_zero`. -/
def roundHalfAwayFromZero (x : ℚ) : Int :=
  if 0 ≤ x then ⌊x + 1 / 2⌋ else ⌈x - 1 / 2⌉

/-- `quantize_input_96`, with the quotients of the pixels in exact arithmetic. -/
def quantizeInput96 (imgRgbU8 : Nat → Nat → Nat → Nat) : Map :=
  pad 96 1 fun row col c =>
    min (max (roundHalfAwayFromZero (imgRgbU8 row col c * 127 / 255)) 0) 127

def int8Conv3x3 (size channels width : Nat) (x : Map) (layer : Layer) : Map :=
  let padded := if width = 0 then x else pad size width x
  fun row col oc =>
    (∑ ky ∈ Finset.range 3, ∑ kx ∈ Finset.range 3, ∑ ic ∈ Finset.range channels,
      padded (row + ky) (col + kx) ic * layer.weight oc ic ky kx) + layer.bias oc

def requantShiftI64 (acc multiplier : Int) (shift : Nat) : Int :=
  if shift = 0 then acc * multiplier else (acc * multiplier) >>> shift

/-- `np.clip` to 0 and 127 does the rectification as well. -/
def requantReluClamp (acc multiplier : Int) (shift : Nat) : Int :=
  min (max (requantShiftI64 acc multiplier shift) 0) 127

def maxpool2x2 (x : Map) : Map :=
  fun row col c =>
    max (max (x (2 * row) (2 * col) c) (x (2 * row) (2 * col + 1) c))
      (max (x (2 * row + 1) (2 * col) c) (x (2 * row + 1) (2 * col + 1) c))

/-- One layer and its pool. -/
def runLayer (size channels width : Nat) (layer : Layer) (x : Map) : Map :=
  let acc := int8Conv3x3 size channels width x layer
  maxpool2x2 fun row col oc =>
    requantReluClamp (acc row col oc) layer.multiplier layer.shift

/-- The feature map after the third pool, from the padded input. -/
def runGolden (conv0 conv1 conv2 : Layer) (x : Map) : Map :=
  runLayer 24 32 1 conv2 (runLayer 48 16 1 conv1 (runLayer 98 3 0 conv0 x))

/-- The sum of each channel of the feature map. -/
def gapSum (cur : Map) (c : Nat) : Int :=
  ∑ row ∈ Finset.range 12, ∑ col ∈ Finset.range 12, cur row col c

/-- The logits from the sums, with a row of weights for each class. -/
def fcLogits (gapSum : Nat → Int) (fcWeight : Nat → Nat → Int)
    (fcBias : Nat → Int) (classes : Nat) : List Int :=
  (List.range classes).map fun n =>
    ∑ c ∈ Finset.range 64, gapSum c * fcWeight n c + fcBias n

/-- `np.argmax`, the first index of a greatest value. -/
def argmax (values : List Int) : Nat :=
  values.findIdx fun value => values.all (· ≤ value)

end Adas.GoldenInt8
