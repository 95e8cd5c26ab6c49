import Adas.ConvNet
import Mathlib.Algebra.Order.Archimedean.Real.Basic
import Mathlib.Analysis.Real.Sqrt
import Mathlib.Logic.Function.Iterate

/-!
# Cross-layer equalization

Before the network is quantized, the ranges of the channels between two layers
are made equal: a channel is divided by a scale where it is computed and
multiplied by the scale where it is used.  Numbers are exact here, and the
network has any number of channels and images of any size.
-/

namespace Adas.CrossLayerEqualization

open ConvNet

variable {Image Mid Next Class C0 C1 C2 : Type*} {kh kw : Nat}

structure ConvParams (Out In : Type*) (kh kw : Nat) where
  weight : Out → In → Fin kh → Fin kw → ℝ
  bias : Out → ℝ

structure FcParams (Class Channel : Type*) where
  weight : Class → Channel → ℝ
  bias : Class → ℝ

/-- The fused parameters of all layers. -/
structure Params (Image C0 C1 C2 Class : Type*) (kh kw : Nat) where
  conv0 : ConvParams C0 Image kh kw
  conv1 : ConvParams C1 C0 kh kw
  conv2 : ConvParams C2 C1 kh kw
  fc : FcParams Class C2

section Forward

/-- What `fused_forward_numpy` returns for one image. -/
structure Activations (C0 C1 C2 Class : Type*) where
  conv0Out : FeatureMap ℝ C0
  conv0Pool : FeatureMap ℝ C0
  conv1Out : FeatureMap ℝ C1
  conv1Pool : FeatureMap ℝ C1
  conv2Out : FeatureMap ℝ C2
  conv2Pool : FeatureMap ℝ C2
  gap : C2 → ℝ
  logits : Class → ℝ

noncomputable def ConvParams.out {Out In : Type*} [Fintype In]
    (conv : ConvParams Out In kh kw) (cur : FeatureMap ℝ In) : FeatureMap ℝ Out :=
  relu (conv2d conv.weight conv.bias cur)

noncomputable def ConvParams.pool {Out In : Type*} [Fintype In]
    (conv : ConvParams Out In kh kw) (cur : FeatureMap ℝ In) : FeatureMap ℝ Out :=
  maxPool2d (conv.out cur)

noncomputable def fusedForward [Fintype Image] [Fintype C0] [Fintype C1] [Fintype C2]
    (params : Params Image C0 C1 C2 Class kh kw) (x : FeatureMap ℝ Image) :
    Activations C0 C1 C2 Class :=
  let conv0Pool := params.conv0.pool x
  let conv1Pool := params.conv1.pool conv0Pool
  let conv2Pool := params.conv2.pool conv1Pool
  let gap := globalMean conv2Pool
  { conv0Out := params.conv0.out x
    conv0Pool := conv0Pool
    conv1Out := params.conv1.out conv0Pool
    conv1Pool := conv1Pool
    conv2Out := params.conv2.out conv1Pool
    conv2Pool := conv2Pool
    gap := gap
    logits := linear params.fc.weight params.fc.bias gap }

end Forward

section Equalize

/-- The largest magnitude in each output channel. -/
noncomputable def outChannelRanges {Out In : Type*}
    (w : Out → In → Fin kh → Fin kw → ℝ) (channel : Out) : ℝ :=
  ⨆ index : In × Fin kh × Fin kw, |w channel index.1 index.2.1 index.2.2|

/-- The largest magnitude in each input channel. -/
noncomputable def inChannelRanges {Out In : Type*}
    (w : Out → In → Fin kh → Fin kw → ℝ) (channel : In) : ℝ :=
  ⨆ index : Out × Fin kh × Fin kw, |w index.1 channel index.2.1 index.2.2|

/-- The largest magnitude in each column. -/
noncomputable def columnRanges (w : Class → Mid → ℝ) (channel : Mid) : ℝ :=
  ⨆ row, |w row channel|

/-- The scales for the ranges on both sides. -/
noncomputable def scales (eps : ℝ) (r1 r2 : Mid → ℝ) (channel : Mid) : ℝ :=
  if r1 channel > eps ∧ r2 channel > eps then √(r1 channel / r2 channel) else 1

/-- What an equalization returns. -/
structure Equalized (Mid In Weights : Type*) (kh kw : Nat) where
  first : ConvParams Mid In kh kw
  second : Weights
  scale : Mid → ℝ

/-- A layer with its output channels divided by the scales. -/
noncomputable def ConvParams.divided {In : Type*} (conv : ConvParams Mid In kh kw)
    (s : Mid → ℝ) : ConvParams Mid In kh kw where
  weight out channel ky kx := conv.weight out channel ky kx / s out
  bias out := conv.bias out / s out

noncomputable def equalizePair (conv : ConvParams Mid Image kh kw)
    (w2 : Next → Mid → Fin kh → Fin kw → ℝ) (eps : ℝ) :
    Equalized Mid Image (Next → Mid → Fin kh → Fin kw → ℝ) kh kw :=
  let s := scales eps (outChannelRanges conv.weight) (inChannelRanges w2)
  ⟨conv.divided s, fun out channel ky kx => w2 out channel ky kx * s channel, s⟩

noncomputable def equalizeConvToFc (conv : ConvParams Mid Image kh kw)
    (wFc : Class → Mid → ℝ) (eps : ℝ) : Equalized Mid Image (Class → Mid → ℝ) kh kw :=
  let s := scales eps (outChannelRanges conv.weight) (columnRanges wFc)
  ⟨conv.divided s, fun out channel => wFc out channel * s channel, s⟩

/-- The default of `eps`. -/
noncomputable def defaultEps : ℝ := 1e-8

variable (p : Params Image C0 C1 C2 Class kh kw)

/-- The three updates in the body of the loop. -/
noncomputable def equalizeConv0 : Params Image C0 C1 C2 Class kh kw :=
  let pair := equalizePair p.conv0 p.conv1.weight defaultEps
  { p with conv0 := pair.first, conv1 := { p.conv1 with weight := pair.second } }

noncomputable def equalizeConv1 : Params Image C0 C1 C2 Class kh kw :=
  let pair := equalizePair p.conv1 p.conv2.weight defaultEps
  { p with conv1 := pair.first, conv2 := { p.conv2 with weight := pair.second } }

noncomputable def equalizeConv2 : Params Image C0 C1 C2 Class kh kw :=
  let pair := equalizeConvToFc p.conv2 p.fc.weight defaultEps
  { p with conv2 := pair.first, fc := { p.fc with weight := pair.second } }

noncomputable def applyCle (iterations : Nat) : Params Image C0 C1 C2 Class kh kw :=
  (fun p => equalizeConv2 (equalizeConv1 (equalizeConv0 p)))^[iterations] p

end Equalize

section Ranges

variable {eps : ℝ} {r1 r2 : Mid → ℝ} {channel : Mid}

theorem scales_pos (nonneg : 0 ≤ eps) (r1 r2 : Mid → ℝ) (channel : Mid) :
    0 < scales eps r1 r2 channel := by
  unfold scales
  split_ifs with valid
  · exact Real.sqrt_pos.mpr
      (div_pos (lt_of_le_of_lt nonneg valid.1) (lt_of_le_of_lt nonneg valid.2))
  · exact one_pos

theorem scales_of_zero (nonneg : 0 ≤ eps) (zero : r1 channel = 0 ∨ r2 channel = 0) :
    scales eps r1 r2 channel = 1 := by
  refine if_neg ?_
  rintro ⟨above1, above2⟩
  rcases zero with zero | zero
  · exact (lt_of_le_of_lt nonneg above1).ne' zero
  · exact (lt_of_le_of_lt nonneg above2).ne' zero

/-- Dividing one range by the scale and multiplying the other with it gives the
geometric mean of both. -/
theorem scales_meet (nonneg : 0 ≤ eps) (valid1 : eps < r1 channel)
    (valid2 : eps < r2 channel) :
    r1 channel / scales eps r1 r2 channel = √(r1 channel * r2 channel) ∧
      r2 channel * scales eps r1 r2 channel = √(r1 channel * r2 channel) := by
  have positive1 : 0 < r1 channel := lt_of_le_of_lt nonneg valid1
  have positive2 : 0 < r2 channel := lt_of_le_of_lt nonneg valid2
  have root1 : 0 < √(r1 channel) := Real.sqrt_pos.mpr positive1
  have root2 : 0 < √(r2 channel) := Real.sqrt_pos.mpr positive2
  rw [scales, if_pos ⟨valid1, valid2⟩, Real.sqrt_div positive1.le,
    Real.sqrt_mul positive1.le]
  constructor
  · rw [div_div_eq_mul_div, mul_div_right_comm, Real.div_sqrt]
  · rw [mul_div_left_comm, Real.div_sqrt]

/-- A common factor of all magnitudes is a factor of the range. -/
theorem iSup_abs_mul {Index : Type*} (value : Index → ℝ) {factor : ℝ}
    (positive : 0 < factor) :
    (⨆ index, |value index * factor|) = (⨆ index, |value index|) * factor := by
  rw [Real.iSup_mul_of_nonneg positive.le]
  simp only [abs_mul, abs_of_pos positive]

theorem iSup_abs_div {Index : Type*} (value : Index → ℝ) {factor : ℝ}
    (positive : 0 < factor) :
    (⨆ index, |value index / factor|) = (⨆ index, |value index|) / factor := by
  simp only [div_eq_mul_inv]
  exact iSup_abs_mul value (inv_pos.mpr positive)

/-- What is promised of the ranges on both sides of an equalization. -/
structure Equalizes (eps : ℝ) (r1 r2 r1New r2New s : Mid → ℝ) : Prop where
  positive : ∀ channel, 0 < s channel
  unscaled : ∀ channel, r1 channel = 0 ∨ r2 channel = 0 → s channel = 1
  meet : ∀ channel, r1 channel > eps → r2 channel > eps →
    r1New channel = √(r1 channel * r2 channel) ∧
      r2New channel = √(r1 channel * r2 channel)

theorem equalizes_scales (nonneg : 0 ≤ eps) (r1 r2 : Mid → ℝ) :
    Equalizes eps r1 r2 (fun channel => r1 channel / scales eps r1 r2 channel)
      (fun channel => r2 channel * scales eps r1 r2 channel) (scales eps r1 r2) where
  positive := scales_pos nonneg r1 r2
  unscaled _ := scales_of_zero nonneg
  meet _ := scales_meet nonneg

variable (conv : ConvParams Mid Image kh kw)

theorem outChannelRanges_divided {s : Mid → ℝ} (positive : ∀ channel, 0 < s channel) :
    outChannelRanges (conv.divided s).weight =
      fun channel => outChannelRanges conv.weight channel / s channel := by
  ext channel
  exact iSup_abs_div _ (positive channel)

/-- One layer is divided by scales, the next convolution is multiplied by them, and
this evens out the ranges. -/
structure PairEqualized (eps : ℝ) (conv convNew : ConvParams Mid Image kh kw)
    (next nextNew : ConvParams Next Mid kh kw) (s : Mid → ℝ) : Prop where
  divided : convNew = conv.divided s
  multiplied : nextNew =
    { next with weight := fun out channel ky kx => next.weight out channel ky kx * s channel }
  ranges : Equalizes eps (outChannelRanges conv.weight) (inChannelRanges next.weight)
    (outChannelRanges convNew.weight) (inChannelRanges nextNew.weight) s

/-- The same with the linear layer behind the last convolution. -/
structure FcEqualized (eps : ℝ) (conv convNew : ConvParams Mid Image kh kw)
    (fc fcNew : FcParams Class Mid) (s : Mid → ℝ) : Prop where
  divided : convNew = conv.divided s
  multiplied : fcNew = { fc with weight := fun row channel => fc.weight row channel * s channel }
  ranges : Equalizes eps (outChannelRanges conv.weight) (columnRanges fc.weight)
    (outChannelRanges convNew.weight) (columnRanges fcNew.weight) s

theorem pairEqualized_equalizePair (nonneg : 0 ≤ eps)
    (next : ConvParams Next Mid kh kw) :
    PairEqualized eps conv (equalizePair conv next.weight eps).first next
      { next with weight := (equalizePair conv next.weight eps).second }
      (equalizePair conv next.weight eps).scale := by
  have positive := scales_pos nonneg (outChannelRanges conv.weight)
    (inChannelRanges next.weight)
  have multiplied : inChannelRanges (equalizePair conv next.weight eps).second =
      fun channel => inChannelRanges next.weight channel *
        scales eps (outChannelRanges conv.weight) (inChannelRanges next.weight) channel := by
    ext channel
    exact iSup_abs_mul _ (positive channel)
  refine ⟨rfl, rfl, ?_⟩
  rw [multiplied]
  unfold equalizePair
  rw [outChannelRanges_divided conv positive]
  exact equalizes_scales nonneg _ _

theorem fcEqualized_equalizeConvToFc (nonneg : 0 ≤ eps) (fc : FcParams Class Mid) :
    FcEqualized eps conv (equalizeConvToFc conv fc.weight eps).first fc
      { fc with weight := (equalizeConvToFc conv fc.weight eps).second }
      (equalizeConvToFc conv fc.weight eps).scale := by
  have positive := scales_pos nonneg (outChannelRanges conv.weight) (columnRanges fc.weight)
  have multiplied : columnRanges (equalizeConvToFc conv fc.weight eps).second =
      fun channel => columnRanges fc.weight channel *
        scales eps (outChannelRanges conv.weight) (columnRanges fc.weight) channel := by
    ext channel
    exact iSup_abs_mul _ (positive channel)
  refine ⟨rfl, rfl, ?_⟩
  rw [multiplied]
  unfold equalizeConvToFc
  rw [outChannelRanges_divided conv positive]
  exact equalizes_scales nonneg _ _

/-- One iteration is three equalizations, each of which leaves the other layers as they
are. -/
def Iterates (eps : ℝ) (before after : Params Image C0 C1 C2 Class kh kw) : Prop :=
  ∃ (first second : Params Image C0 C1 C2 Class kh kw) (s0 : C0 → ℝ) (s1 : C1 → ℝ)
      (s2 : C2 → ℝ),
    (PairEqualized eps before.conv0 first.conv0 before.conv1 first.conv1 s0 ∧
      first.conv2 = before.conv2 ∧ first.fc = before.fc) ∧
    (PairEqualized eps first.conv1 second.conv1 first.conv2 second.conv2 s1 ∧
      second.conv0 = first.conv0 ∧ second.fc = first.fc) ∧
    FcEqualized eps second.conv2 after.conv2 second.fc after.fc s2 ∧
      after.conv0 = second.conv0 ∧ after.conv1 = second.conv1

theorem defaultEps_nonneg : 0 ≤ defaultEps := by
  norm_num [defaultEps]

variable (p : Params Image C0 C1 C2 Class kh kw)

theorem applyCle_succ (iterations : Nat) :
    applyCle p (iterations + 1) =
      equalizeConv2 (equalizeConv1 (equalizeConv0 (applyCle p iterations))) :=
  Function.iterate_succ_apply' _ _ _

theorem iterates_applyCle (iterations : Nat) :
    Iterates defaultEps (applyCle p iterations) (applyCle p (iterations + 1)) := by
  rw [applyCle_succ]
  generalize applyCle p iterations = before
  have step0 := pairEqualized_equalizePair before.conv0 defaultEps_nonneg before.conv1
  have step1 := pairEqualized_equalizePair (equalizeConv0 before).conv1 defaultEps_nonneg
    before.conv2
  have step2 := fcEqualized_equalizeConvToFc
    (equalizeConv1 (equalizeConv0 before)).conv2 defaultEps_nonneg before.fc
  exact ⟨equalizeConv0 before, equalizeConv1 (equalizeConv0 before), _, _, _,
    ⟨step0, rfl, rfl⟩, ⟨step1, rfl, rfl⟩, step2, rfl, rfl⟩

end Ranges

section Preserved

variable [Fintype Image] {s : Mid → ℝ}

/-- What a divided layer computes up to its pooling is divided. -/
theorem pool_divided (positive : ∀ channel, 0 < s channel)
    (conv : ConvParams Mid Image kh kw) (cur : FeatureMap ℝ Image) :
    (conv.divided s).pool cur = (conv.pool cur).scaled fun channel => (s channel)⁻¹ := by
  have inversePositive : ∀ channel, 0 < (s channel)⁻¹ :=
    fun channel => inv_pos.mpr (positive channel)
  unfold ConvParams.pool ConvParams.out ConvParams.divided
  rw [conv2d_div, relu_scaled inversePositive, maxPool2d_scaled inversePositive]

variable [Fintype Mid]

/-- The next convolution takes the division back. -/
theorem conv2d_pool_divided (positive : ∀ channel, 0 < s channel)
    (conv : ConvParams Mid Image kh kw) (w2 : Next → Mid → Fin kh → Fin kw → ℝ)
    (b2 : Next → ℝ) (cur : FeatureMap ℝ Image) :
    conv2d (fun out channel ky kx => w2 out channel ky kx * s channel) b2
        ((conv.divided s).pool cur) = conv2d w2 b2 (conv.pool cur) := by
  rw [pool_divided positive, conv2d_scaled]
  congr 1
  ext out channel ky kx
  rw [mul_assoc, mul_inv_cancel₀ (positive channel).ne', mul_one]

/-- The linear layer takes the division back. -/
theorem linear_pool_divided (positive : ∀ channel, 0 < s channel)
    (conv : ConvParams Mid Image kh kw) (wFc : Class → Mid → ℝ) (b : Class → ℝ)
    (cur : FeatureMap ℝ Image) :
    linear (fun out channel => wFc out channel * s channel) b
        (globalMean ((conv.divided s).pool cur)) =
      linear wFc b (globalMean (conv.pool cur)) := by
  rw [pool_divided positive, globalMean_scaled, linear_mul]
  congr 1
  ext out channel
  rw [mul_assoc, mul_inv_cancel₀ (positive channel).ne', mul_one]

end Preserved

section Network

variable [Fintype Image] [Fintype C0] [Fintype C1] [Fintype C2]
variable (p : Params Image C0 C1 C2 Class kh kw) (x : FeatureMap ℝ Image)

theorem logits_equalizeConv0 :
    (fusedForward (equalizeConv0 p) x).logits = (fusedForward p x).logits := by
  have positive := scales_pos defaultEps_nonneg (outChannelRanges p.conv0.weight)
    (inChannelRanges p.conv1.weight)
  have same := conv2d_pool_divided positive p.conv0 p.conv1.weight p.conv1.bias x
  simp only [fusedForward, equalizeConv0, equalizePair, ConvParams.pool, ConvParams.out]
    at same ⊢
  rw [same]

theorem logits_equalizeConv1 :
    (fusedForward (equalizeConv1 p) x).logits = (fusedForward p x).logits := by
  have positive := scales_pos defaultEps_nonneg (outChannelRanges p.conv1.weight)
    (inChannelRanges p.conv2.weight)
  have same := conv2d_pool_divided positive p.conv1 p.conv2.weight p.conv2.bias
    (p.conv0.pool x)
  simp only [fusedForward, equalizeConv1, equalizePair, ConvParams.pool, ConvParams.out]
    at same ⊢
  rw [same]

theorem logits_equalizeConv2 :
    (fusedForward (equalizeConv2 p) x).logits = (fusedForward p x).logits := by
  have positive := scales_pos defaultEps_nonneg (outChannelRanges p.conv2.weight)
    (columnRanges p.fc.weight)
  exact linear_pool_divided positive p.conv2 p.fc.weight p.fc.bias
    (p.conv1.pool (p.conv0.pool x))

theorem logits_applyCle (iterations : Nat) :
    (fusedForward (applyCle p iterations) x).logits = (fusedForward p x).logits := by
  induction iterations with
  | zero => rfl
  | succ iterations ih =>
      rw [applyCle_succ, logits_equalizeConv2, logits_equalizeConv1, logits_equalizeConv0, ih]

/-- Equalization leaves the logits as they are.  It starts from the parameters that it
is given, and each of its iterations divides by positive scales, leaves a channel with a
zero range alone and evens out the ranges of the channels that it scales, layer by
layer. -/
theorem applyCle_preserves (iterations : Nat) :
    (fusedForward (applyCle p iterations) x).logits = (fusedForward p x).logits ∧
      applyCle p 0 = p ∧
      ∀ index < iterations,
        Iterates defaultEps (applyCle p index) (applyCle p (index + 1)) :=
  ⟨logits_applyCle p x iterations, rfl, fun index _ => iterates_applyCle p index⟩

end Network

end Adas.CrossLayerEqualization
