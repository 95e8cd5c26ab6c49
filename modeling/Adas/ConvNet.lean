import Mathlib.Algebra.BigOperators.Ring.Finset
import Mathlib.Algebra.Order.Field.Basic
import Mathlib.Data.Fintype.Basic

/-!
# Convolutional layers and positive factors

Convolution with a border of zeros, the rectifier, pooling by maxima, the mean
over all places and a linear layer, on feature maps of any size and any number
of channels.  A positive factor for each channel passes through the rectifier
and the pooling, and it can be taken from the output channels of one layer and
given to the input channels of the next.
-/

namespace ConvNet

open Finset

/-- Channels of numbers in a rectangle. -/
@[ext]
structure FeatureMap (K Channel : Type*) where
  height : Nat
  width : Nat
  value : Channel → Nat → Nat → K

variable {K Channel In Out : Type*} [Field K] {kh kw : Nat}

section Layers

/-- A number of the map with one row and one column of zeros around it. -/
def FeatureMap.padded (map : FeatureMap K Channel) (channel : Channel) (y x : Nat) :
    K :=
  if (1 ≤ y ∧ y ≤ map.height) ∧ 1 ≤ x ∧ x ≤ map.width then
    map.value channel (y - 1) (x - 1)
  else
    0

/-- Convolution with stride one and a border of one zero. -/
def conv2d [Fintype In] (weight : Out → In → Fin kh → Fin kw → K) (bias : Out → K)
    (map : FeatureMap K In) : FeatureMap K Out where
  height := map.height + 3 - kh
  width := map.width + 3 - kw
  value out y x := bias out + ∑ channel, ∑ ky : Fin kh, ∑ kx : Fin kw,
    weight out channel ky kx * map.padded channel (y + ky) (x + kx)

def relu [LinearOrder K] (map : FeatureMap K Channel) : FeatureMap K Channel where
  height := map.height
  width := map.width
  value channel y x := max 0 (map.value channel y x)

/-- The maxima of squares of two by two. -/
def maxPool2d [LinearOrder K] (map : FeatureMap K Channel) : FeatureMap K Channel where
  height := map.height / 2
  width := map.width / 2
  value channel y x :=
    max (max (map.value channel (2 * y) (2 * x)) (map.value channel (2 * y) (2 * x + 1)))
      (max (map.value channel (2 * y + 1) (2 * x))
        (map.value channel (2 * y + 1) (2 * x + 1)))

/-- The mean of each channel. -/
def globalMean (map : FeatureMap K Channel) (channel : Channel) : K :=
  (∑ y ∈ range map.height, ∑ x ∈ range map.width, map.value channel y x) /
    (map.height * map.width)

def linear [Fintype In] (weight : Out → In → K) (bias : Out → K) (vector : In → K)
    (out : Out) : K :=
  ∑ channel, weight out channel * vector channel + bias out

end Layers

section Factors

/-- Every channel times its factor. -/
def FeatureMap.scaled (factor : Channel → K) (map : FeatureMap K Channel) :
    FeatureMap K Channel where
  height := map.height
  width := map.width
  value channel y x := factor channel * map.value channel y x

@[simp]
theorem FeatureMap.padded_scaled (factor : Channel → K) (map : FeatureMap K Channel)
    (channel : Channel) (y x : Nat) :
    (map.scaled factor).padded channel y x = factor channel * map.padded channel y x := by
  unfold FeatureMap.padded FeatureMap.scaled
  split_ifs
  · rfl
  · rw [mul_zero]

/-- Factors of the input channels move into the weights. -/
theorem conv2d_scaled [Fintype In] (weight : Out → In → Fin kh → Fin kw → K)
    (bias : Out → K) (factor : In → K) (map : FeatureMap K In) :
    conv2d weight bias (map.scaled factor) =
      conv2d (fun out channel ky kx => weight out channel ky kx * factor channel) bias
        map := by
  ext1
  · rfl
  · rfl
  · ext out y x
    simp only [conv2d, FeatureMap.padded_scaled, mul_assoc]

/-- Factors of the output channels move out of the weights and the biases. -/
theorem conv2d_div [Fintype In] (weight : Out → In → Fin kh → Fin kw → K)
    (bias : Out → K) (factor : Out → K) (map : FeatureMap K In) :
    conv2d (fun out channel ky kx => weight out channel ky kx / factor out)
        (fun out => bias out / factor out) map =
      (conv2d weight bias map).scaled fun out => (factor out)⁻¹ := by
  ext1
  · rfl
  · rfl
  · ext out y x
    simp only [conv2d, FeatureMap.scaled, mul_add, mul_sum, div_eq_inv_mul, mul_assoc]

theorem globalMean_scaled (factor : Channel → K) (map : FeatureMap K Channel) :
    globalMean (map.scaled factor) =
      fun channel => factor channel * globalMean map channel := by
  ext channel
  simp only [globalMean, FeatureMap.scaled, ← mul_sum, mul_div_assoc]

theorem linear_mul [Fintype In] (weight : Out → In → K) (bias : Out → K)
    (factor vector : In → K) :
    linear weight bias (fun channel => factor channel * vector channel) =
      linear (fun out channel => weight out channel * factor channel) bias vector := by
  ext out
  simp only [linear, mul_assoc]

section Positive

variable [LinearOrder K] [IsStrictOrderedRing K] {factor : Channel → K}

theorem relu_scaled (positive : ∀ channel, 0 < factor channel)
    (map : FeatureMap K Channel) :
    relu (map.scaled factor) = (relu map).scaled factor := by
  ext1
  · rfl
  · rfl
  · ext channel y x
    simp only [relu, FeatureMap.scaled]
    rw [mul_max_of_nonneg _ _ (positive channel).le, mul_zero]

theorem maxPool2d_scaled (positive : ∀ channel, 0 < factor channel)
    (map : FeatureMap K Channel) :
    maxPool2d (map.scaled factor) = (maxPool2d map).scaled factor := by
  ext1
  · rfl
  · rfl
  · ext channel y x
    simp only [maxPool2d, FeatureMap.scaled,
      mul_max_of_nonneg _ _ (positive channel).le]

end Positive

end Factors

end ConvNet
