import Adas.ClassifyOne
import Adas.ExactAccum
import Adas.RowMajor
import Mathlib.Algebra.Order.Ring.Abs
import Mathlib.Tactic.GCongr
import Mathlib.Tactic.Linarith

/-!
# The sums and logits after the accelerator

The server adds up each channel of the feature map, divides the sums by the
scale of the model and takes their products with the weights of each class.
The sums are 32-bit numbers, the logits are added up in 64 bits and must fit
into 32.  Accumulators carry the ghost flag for overflow, here also for the
division and the product of a term.

The divisor is read as a signed number, so one from 2 ^ 31 on divides by a
negative number.
-/

namespace Adas.ClassifierPostprocess

open BoundedLoop FixedWidth
open Accum (Adds)
open ClassifyOne (PostprocessStatus)

abbrev outputWidth : Nat := 12
abbrev outputHeight : Nat := 12
abbrev outputChannels : Nat := 64

section Definitions

/-- The position of a cell of the feature map in the accelerator's output. -/
def outputIndex (y x channel : Nat) : Nat :=
  (y * outputWidth + x) * outputChannels + channel

/-- `adas_classifier_gap_sum`. -/
def gapSum (plOutput : Nat → BitVec 8) (channelSums : Nat → Accum 32) :
    Nat → Accum 32 :=
  let cleared := load1 outputChannels (fun _ => .ofBits 0) channelSums
  forLoop outputHeight (fun y => forLoop outputWidth fun x =>
    forLoop outputChannels fun channel sums =>
      write1 sums channel (sums channel +
        .ofBits ((plOutput (outputIndex y x channel)).signExtend 32))) cleared

/-- One product of `adas_classifier_fc`.  The divisor is cast to `int32_t`, and
the division truncates; it overflows for `INT32_MIN / -1` alone. -/
def fcTerm (channelSum divisor : BitVec 32) (weight : BitVec 8) : Accum 64 :=
  let feature := channelSum.sdiv divisor
  { bits := feature.signExtend 64 * weight.signExtend 64
    overflowed := (channelSum == BitVec.intMin 32 && divisor == -1) ||
      (feature.signExtend 64).smulOverflow (weight.signExtend 64) }

/-- The accumulator of one class. -/
def fcClass (channelSums : Nat → BitVec 32) (divisor : BitVec 32)
    (weights : Nat → BitVec 8) (biases : Nat → BitVec 32) (classIndex : Nat) :
    Accum 64 :=
  forLoop outputChannels (fun channel accumulator =>
    accumulator + fcTerm (channelSums channel) divisor
      (weights (classIndex * outputChannels + channel)))
    (.ofBits ((biases classIndex).signExtend 64))

/-- The test against `INT32_MIN` and `INT32_MAX`. -/
def outsideInt32 (accumulator : BitVec 64) : Bool :=
  accumulator.slt (-2147483648) || BitVec.slt 2147483647 accumulator

/-- What a call of `adas_classifier_fc` comes to, with a ghost flag for an
overflow on the way. -/
structure FcResult where
  status : PostprocessStatus
  logits : Nat → BitVec 32
  overflowed : Bool

variable (channelSums : Nat → BitVec 32) (divisor : BitVec 32)
variable (weights : Nat → BitVec 8) (biases : Nat → BitVec 32)

/-- The loop of `adas_classifier_fc` over the remaining classes. -/
def fcLoop : Nat → Nat → FcResult → FcResult
  | 0, _, result => result
  | remaining + 1, classIndex, result =>
      let accumulator := fcClass channelSums divisor weights biases classIndex
      let overflowed := result.overflowed || accumulator.overflowed
      if outsideInt32 accumulator.bits then
        { result with status := .overflow, overflowed := overflowed }
      else
        fcLoop remaining (classIndex + 1)
          { result with
            logits := write1 result.logits classIndex
              (accumulator.bits.setWidth 32)
            overflowed := overflowed }

/-- `adas_classifier_fc`, which leaves the logits from a failing class on as
they are. -/
def fc (classCount : Nat) (logits : Nat → BitVec 32) : FcResult :=
  if divisor = 0 ∨ classCount = 0 then
    ⟨.invalidArgument, logits, false⟩
  else
    fcLoop channelSums divisor weights biases classCount 0 ⟨.ok, logits, false⟩

end Definitions

section GapSum

variable {plOutput : Nat → BitVec 8} {channel : Nat}

/-- The exact sum of one channel. -/
def exactSum (plOutput : Nat → BitVec 8) (channel : Nat) : Int :=
  ∑ y ∈ Finset.range outputHeight, ∑ x ∈ Finset.range outputWidth,
    (plOutput (outputIndex y x channel)).toInt

/-- A bound on the magnitude of a sum of 144 bytes. -/
abbrev sumSize : Nat := 18432

/-- A bound on the magnitude of the product of a sum and a byte. -/
abbrev termSize : Nat := 2359296

/-- The loops add the bytes of a channel to its sum and to no other. -/
theorem gapSum_holds (channelSums : Nat → Accum 32)
    (channelIn : channel < outputChannels) :
    (gapSum plOutput channelSums channel).Holds sumSize
      (exactSum plOutput channel) := by
  have byteHolds (y x : Nat) :
      (Accum.ofBits ((plOutput (outputIndex y x channel)).signExtend 32)).Holds 128
        (plOutput (outputIndex y x channel)).toInt :=
    Accum.holds_signExtend _ (by decide)
  have adds : Adds (fun sums : Nat → Accum 32 => sums channel)
      (forLoop outputHeight fun y => forLoop outputWidth fun x =>
        forLoop outputChannels fun channel sums =>
          write1 sums channel (sums channel +
            .ofBits ((plOutput (outputIndex y x channel)).signExtend 32)))
      sumSize (exactSum plOutput channel) := by
    refine .forLoop fun y _ => .forLoop fun x _ =>
      .forLoop_once channelIn (fun other _ differs sums => ?_)
        (.of_add (fun sums => ?_) (byteHolds y x))
    · simp [write1, differs.symm]
    · simp [write1]
  have cleared : ((load1 outputChannels (fun _ => Accum.ofBits 0) channelSums)
      channel).Holds 0 0 := by
    rw [load1_apply channelIn]
    exact ⟨rfl, by simp, rfl⟩
  have sum := adds _ 0 0 (by decide) cleared
  rwa [Nat.zero_add, zero_add] at sum

end GapSum

section Fc

variable {channelSums : Nat → BitVec 32} {divisor : BitVec 32}
variable {weights : Nat → BitVec 8} {biases : Nat → BitVec 32}

/-- The magnitude that a channel sum has at most. -/
def SumsBounded (channelSums : Nat → BitVec 32) : Prop :=
  ∀ channel < outputChannels, |(channelSums channel).toInt| ≤ 18432

/-- The logit of a class for a divisor, in exact arithmetic. -/
def exactLogit (channelSums : Nat → BitVec 32) (divisor : Int)
    (weights : Nat → BitVec 8) (biases : Nat → BitVec 32) (classIndex : Nat) :
    Int :=
  (biases classIndex).toInt + ∑ channel ∈ Finset.range outputChannels,
    (channelSums channel).toInt.tdiv divisor *
      (weights (classIndex * outputChannels + channel)).toInt

def FitsInt32 (value : Int) : Prop :=
  -2 ^ 31 ≤ value ∧ value < 2 ^ 31

instance (value : Int) : Decidable (FitsInt32 value) :=
  inferInstanceAs (Decidable (-2 ^ 31 ≤ value ∧ value < 2 ^ 31))

/-- A quotient is no larger than the number that is divided. -/
theorem abs_tdiv_le (value divisor : Int) : |value.tdiv divisor| ≤ |value| := by
  rw [Int.abs_eq_natAbs, Int.abs_eq_natAbs, Int.natAbs_tdiv]
  exact_mod_cast Nat.div_le_self _ _

/-- A term divides and multiplies exactly. -/
theorem fcTerm_holds {channelSum : BitVec 32} (weight : BitVec 8)
    (bounded : |channelSum.toInt| ≤ 18432) :
    (fcTerm channelSum divisor weight).Holds termSize
      (channelSum.toInt.tdiv divisor.toInt * weight.toInt) := by
  have weightBounded : |weight.toInt| ≤ 128 := abs_toInt_le weight
  have quotientBounded := (abs_tdiv_le channelSum.toInt divisor.toInt).trans bounded
  have productBounded :
      |channelSum.toInt.tdiv divisor.toInt * weight.toInt| ≤ 2359296 := by
    rw [abs_mul]
    calc |channelSum.toInt.tdiv divisor.toInt| * |weight.toInt|
        ≤ 18432 * 128 := by gcongr
      _ = 2359296 := by norm_num
  have notMin : channelSum ≠ BitVec.intMin 32 := by
    rintro rfl
    exact absurd bounded (by decide)
  have feature : (channelSum.sdiv divisor).toInt =
      channelSum.toInt.tdiv divisor.toInt :=
    BitVec.toInt_sdiv_of_ne_or_ne _ _ (Or.inl notMin)
  have wideFeature := BitVec.toInt_signExtend_of_le (x := channelSum.sdiv divisor)
    (show 32 ≤ 64 by decide)
  have wideWeight := BitVec.toInt_signExtend_of_le (x := weight)
    (show 8 ≤ 64 by decide)
  obtain ⟨lower, upper⟩ := abs_le.mp productBounded
  refine ⟨?_, productBounded, ?_⟩
  · change ((channelSum.sdiv divisor).signExtend 64 *
      weight.signExtend 64).toInt = _
    rw [toInt_mul_widened _ _ (by decide) (by decide) (by decide), feature]
  · have notMinBool : (channelSum == BitVec.intMin 32) = false := by
      simpa using notMin
    simp only [fcTerm, notMinBool, Bool.false_and, Bool.false_or,
      BitVec.smulOverflow, wideFeature, wideWeight, feature,
      Bool.or_eq_false_iff, decide_eq_false_iff_not]
    constructor <;> norm_num <;> omega

/-- The accumulator of a class holds the logit for the signed divisor. -/
theorem fcClass_holds (divisor : BitVec 32) (weights : Nat → BitVec 8)
    (biases : Nat → BitVec 32) (bounded : SumsBounded channelSums)
    (classIndex : Nat) :
    (fcClass channelSums divisor weights biases classIndex).Holds
      (2 ^ 31 + outputChannels * termSize)
      (exactLogit channelSums divisor.toInt weights biases classIndex) := by
  have adds : Adds (fun accumulator : Accum 64 => accumulator)
      (forLoop outputChannels fun channel accumulator =>
        accumulator + fcTerm (channelSums channel) divisor
          (weights (classIndex * outputChannels + channel)))
      (outputChannels * termSize)
      (∑ channel ∈ Finset.range outputChannels,
        (channelSums channel).toInt.tdiv divisor.toInt *
          (weights (classIndex * outputChannels + channel)).toInt) :=
    .forLoop fun channel channelIn =>
      .of_add (fun _ => rfl) (fcTerm_holds _ (bounded channel channelIn))
  have start : (Accum.ofBits ((biases classIndex).signExtend 64)).Holds (2 ^ 31)
      (biases classIndex).toInt :=
    Accum.holds_signExtend _ (by decide)
  exact adds _ _ _ (by decide) start

theorem outsideInt32_eq_false_iff {accumulator : BitVec 64} :
    outsideInt32 accumulator = false ↔ FitsInt32 accumulator.toInt := by
  have least : (-2147483648 : BitVec 64).toInt = -2147483648 := by decide
  have greatest : (2147483647 : BitVec 64).toInt = 2147483647 := by decide
  simp only [outsideInt32, BitVec.slt, least, greatest, Bool.or_eq_false_iff,
    decide_eq_false_iff_not, FitsInt32]
  norm_num
  omega

/-- A class with a logit that fits stores it, and the loop goes on. -/
theorem fcLoop_succ_of_fits (bounded : SumsBounded channelSums)
    (remaining : Nat) {classIndex : Nat} (result : FcResult)
    (fits : FitsInt32
      (exactLogit channelSums divisor.toInt weights biases classIndex)) :
    ∃ logit : BitVec 32,
      logit.toInt =
        exactLogit channelSums divisor.toInt weights biases classIndex ∧
      fcLoop channelSums divisor weights biases (remaining + 1) classIndex result =
        fcLoop channelSums divisor weights biases remaining (classIndex + 1)
          { result with logits := write1 result.logits classIndex logit } := by
  obtain ⟨exact, -, sound⟩ :=
    fcClass_holds divisor weights biases bounded classIndex
  rw [← exact] at fits ⊢
  refine ⟨_, toInt_setWidth_of_fits (by decide) (by decide) fits.1 fits.2, ?_⟩
  rw [fcLoop, outsideInt32_eq_false_iff.mpr fits, sound, Bool.or_false]
  rfl

/-- A class with a logit that does not fit ends the loop. -/
theorem fcLoop_succ_of_not_fits (bounded : SumsBounded channelSums)
    (remaining : Nat) {classIndex : Nat} (result : FcResult)
    (outside : ¬ FitsInt32
      (exactLogit channelSums divisor.toInt weights biases classIndex)) :
    fcLoop channelSums divisor weights biases (remaining + 1) classIndex result =
      { result with status := .overflow } := by
  obtain ⟨exact, -, sound⟩ :=
    fcClass_holds divisor weights biases bounded classIndex
  rw [← exact] at outside
  have isOutside : outsideInt32 (fcClass channelSums divisor weights biases
      classIndex).bits = true := by
    by_contra inside
    exact outside (outsideInt32_eq_false_iff.mp (by simpa using inside))
  rw [fcLoop, isOutside, sound, Bool.or_false]
  rfl

/-- No accumulator, no product and no quotient overflows on the way. -/
theorem fcLoop_overflowed (bounded : SumsBounded channelSums)
    (remaining classIndex : Nat) (result : FcResult) :
    (fcLoop channelSums divisor weights biases remaining classIndex
      result).overflowed = result.overflowed := by
  induction remaining generalizing classIndex result with
  | zero => rfl
  | succ remaining ih =>
      by_cases fits : FitsInt32
          (exactLogit channelSums divisor.toInt weights biases classIndex)
      · obtain ⟨logit, -, continues⟩ :=
          fcLoop_succ_of_fits bounded remaining result fits
        rw [continues, ih]
      · rw [fcLoop_succ_of_not_fits bounded remaining result fits]

/-- When every logit fits, the loop stores all of them. -/
theorem fcLoop_of_fits (bounded : SumsBounded channelSums)
    (remaining classIndex : Nat) (result : FcResult)
    (fits : ∀ index, classIndex ≤ index → index < classIndex + remaining →
      FitsInt32 (exactLogit channelSums divisor.toInt weights biases index)) :
    (fcLoop channelSums divisor weights biases remaining classIndex
        result).status = result.status ∧
      ∀ index, ((fcLoop channelSums divisor weights biases remaining classIndex
          result).logits index).toInt =
        if classIndex ≤ index ∧ index < classIndex + remaining then
          exactLogit channelSums divisor.toInt weights biases index
        else (result.logits index).toInt := by
  induction remaining generalizing classIndex result with
  | zero =>
      refine ⟨rfl, fun index => ?_⟩
      rw [if_neg (by omega)]
      rfl
  | succ remaining ih =>
      obtain ⟨logit, exact, continues⟩ := fcLoop_succ_of_fits bounded remaining
        result (fits classIndex le_rfl (by omega))
      obtain ⟨status, logits⟩ := ih (classIndex + 1)
        { result with logits := write1 result.logits classIndex logit }
        fun index after before => fits index (by omega) (by omega)
      rw [continues]
      refine ⟨status, fun index => ?_⟩
      rw [logits index]
      simp only [write1]
      by_cases isFirst : index = classIndex
      · rw [if_neg (by omega), if_pos isFirst, if_pos (by omega), isFirst, exact]
      · rw [if_neg isFirst]
        exact if_congr (by omega) rfl rfl

/-- When some logit does not fit, the loop reports an overflow. -/
theorem fcLoop_of_not_fits (bounded : SumsBounded channelSums)
    (remaining classIndex : Nat) (result : FcResult)
    (outside : ∃ index, classIndex ≤ index ∧ index < classIndex + remaining ∧
      ¬ FitsInt32 (exactLogit channelSums divisor.toInt weights biases index)) :
    (fcLoop channelSums divisor weights biases remaining classIndex
      result).status = .overflow := by
  induction remaining generalizing classIndex result with
  | zero =>
      obtain ⟨index, after, before, -⟩ := outside
      omega
  | succ remaining ih =>
      by_cases fits : FitsInt32
          (exactLogit channelSums divisor.toInt weights biases classIndex)
      · obtain ⟨logit, -, continues⟩ :=
          fcLoop_succ_of_fits bounded remaining result fits
        rw [continues]
        apply ih
        obtain ⟨index, after, before, notFits⟩ := outside
        have notFirst : index ≠ classIndex := by
          rintro rfl
          exact notFits fits
        exact ⟨index, by omega, by omega, notFits⟩
      · rw [fcLoop_succ_of_not_fits bounded remaining result fits]

variable {classCount : Nat} (logits : Nat → BitVec 32)

theorem fc_of_accepted (nonzero : divisor ≠ 0) (positive : 0 < classCount) :
    fc channelSums divisor weights biases classCount logits =
      fcLoop channelSums divisor weights biases classCount 0 ⟨.ok, logits, false⟩ := by
  rw [fc, if_neg]
  rintro (zero | zero)
  · exact nonzero zero
  · omega

/-- A call with a divisor and classes whose logits for the signed divisor all
fit stores these logits. -/
theorem fc_of_fits (bounded : SumsBounded channelSums) (nonzero : divisor ≠ 0)
    (positive : 0 < classCount)
    (fits : ∀ classIndex < classCount, FitsInt32
      (exactLogit channelSums divisor.toInt weights biases classIndex)) :
    (fc channelSums divisor weights biases classCount logits).status = .ok ∧
      ∀ classIndex < classCount,
        ((fc channelSums divisor weights biases classCount logits).logits
            classIndex).toInt =
          exactLogit channelSums divisor.toInt weights biases classIndex := by
  rw [fc_of_accepted logits nonzero positive]
  obtain ⟨status, stored⟩ := fcLoop_of_fits bounded classCount 0 ⟨.ok, logits, false⟩
    fun index _ before => fits index (by omega)
  refine ⟨status, fun classIndex inRange => ?_⟩
  rw [stored classIndex, if_pos (by omega)]

theorem fc_of_not_fits (bounded : SumsBounded channelSums) (nonzero : divisor ≠ 0)
    (outside : ∃ classIndex < classCount, ¬ FitsInt32
      (exactLogit channelSums divisor.toInt weights biases classIndex)) :
    (fc channelSums divisor weights biases classCount logits).status =
      .overflow := by
  obtain ⟨classIndex, inRange, notFits⟩ := outside
  rw [fc_of_accepted logits nonzero (by omega)]
  exact fcLoop_of_not_fits bounded classCount 0 ⟨.ok, logits, false⟩
    ⟨classIndex, by omega, by omega, notFits⟩

theorem fc_overflowed (bounded : SumsBounded channelSums) :
    (fc channelSums divisor weights biases classCount logits).overflowed =
      false := by
  rw [fc]
  split_ifs
  · rfl
  · exact fcLoop_overflowed bounded classCount 0 ⟨.ok, logits, false⟩

end Fc

section Divisors

variable (channelSums : Nat → BitVec 32) (divisor : BitVec 32)
variable (weights : Nat → BitVec 8) (biases : Nat → BitVec 32)
variable (classCount : Nat) (logits : Nat → BitVec 32)

/-- The call stores the exact logits for the unsigned divisor when they fit and
reports an overflow when they do not, and nothing overflows on the way. -/
structure ExactOrOverflow : Prop where
  ok_iff : (fc channelSums divisor weights biases classCount logits).status = .ok ↔
    ∀ classIndex < classCount,
      FitsInt32 (exactLogit channelSums divisor.toNat weights biases classIndex)
  stored :
    (fc channelSums divisor weights biases classCount logits).status = .ok →
      ∀ classIndex < classCount,
        ((fc channelSums divisor weights biases classCount logits).logits
            classIndex).toInt =
          exactLogit channelSums divisor.toNat weights biases classIndex
  overflow :
    (fc channelSums divisor weights biases classCount logits).status ≠ .ok →
      (fc channelSums divisor weights biases classCount logits).status = .overflow
  exactSteps :
    (fc channelSums divisor weights biases classCount logits).overflowed = false

/-- The divisor is a positive `int32_t`, or what dividing by the negative number
adds to a class cancels out for every class. -/
def DivisorHarmless : Prop :=
  divisor.toNat < 2 ^ 31 ∨
    ∀ classIndex < classCount,
      ∑ channel ∈ Finset.range outputChannels,
        (channelSums channel).toInt.tdiv (divisor.toNat - 2 ^ 32) *
          (weights (classIndex * outputChannels + channel)).toInt = 0

variable {channelSums divisor weights biases classCount logits}

theorem exactOrOverflow_of_same (bounded : SumsBounded channelSums)
    (nonzero : divisor ≠ 0) (positive : 0 < classCount)
    (same : ∀ classIndex < classCount,
      exactLogit channelSums divisor.toInt weights biases classIndex =
        exactLogit channelSums divisor.toNat weights biases classIndex) :
    ExactOrOverflow channelSums divisor weights biases classCount logits := by
  by_cases fits : ∀ classIndex < classCount, FitsInt32
      (exactLogit channelSums divisor.toInt weights biases classIndex)
  · obtain ⟨status, stored⟩ := fc_of_fits logits bounded nonzero
      positive fits
    refine ⟨iff_of_true status fun classIndex inRange => ?_,
      fun _ classIndex inRange => ?_, fun failed => absurd status failed,
      fc_overflowed logits bounded⟩
    · rw [← same classIndex inRange]
      exact fits classIndex inRange
    · rw [stored classIndex inRange, same classIndex inRange]
  · push Not at fits
    have status := fc_of_not_fits logits bounded nonzero fits
    obtain ⟨classIndex, inRange, notFits⟩ := fits
    have failed : (fc channelSums divisor weights biases classCount logits).status ≠
        .ok := by
      rw [status]
      decide
    refine ⟨iff_of_false failed fun all => ?_, fun ok => absurd ok failed,
      fun _ => status, fc_overflowed logits bounded⟩
    rw [same classIndex inRange] at notFits
    exact notFits (all classIndex inRange)

/-- A number of larger magnitude leaves nothing of a sum of bytes. -/
theorem tdiv_eq_zero_of_large (bounded : SumsBounded channelSums) {number : Int}
    (large : 18432 < |number|) {channel : Nat}
    (channelIn : channel < outputChannels) :
    (channelSums channel).toInt.tdiv number = 0 := by
  have sumBounded := bounded channel channelIn
  rw [Int.abs_eq_natAbs] at sumBounded large
  rw [← Int.natAbs_eq_zero, Int.natAbs_tdiv]
  exact Nat.div_eq_of_lt (by omega)

/-- A divisor from 2 ^ 31 on leaves the bias alone. -/
theorem exactLogit_of_large (bounded : SumsBounded channelSums)
    (large : 2 ^ 31 ≤ divisor.toNat) (weights : Nat → BitVec 8)
    (biases : Nat → BitVec 32) (classIndex : Nat) :
    exactLogit channelSums divisor.toNat weights biases classIndex =
      (biases classIndex).toInt := by
  have isLarge : 18432 < |(divisor.toNat : Int)| := by
    rw [Nat.abs_cast]
    omega
  rw [exactLogit, Finset.sum_eq_zero, add_zero]
  intro channel channelIn
  rw [tdiv_eq_zero_of_large bounded isLarge (Finset.mem_range.mp channelIn),
    zero_mul]

theorem toInt_of_large (large : 2 ^ 31 ≤ divisor.toNat) :
    divisor.toInt = (divisor.toNat : Int) - 2 ^ 32 := by
  rw [BitVec.toInt_eq_toNat_cond, if_neg (by omega)]
  norm_num

theorem exactOrOverflow_iff (bounded : SumsBounded channelSums)
    (nonzero : divisor ≠ 0) (positive : 0 < classCount) :
    ExactOrOverflow channelSums divisor weights biases classCount logits ↔
      DivisorHarmless channelSums divisor weights classCount := by
  by_cases small : divisor.toNat < 2 ^ 31
  · have same : divisor.toInt = divisor.toNat := by
      rw [BitVec.toInt_eq_toNat_cond, if_pos (by omega)]
    refine iff_of_true (exactOrOverflow_of_same bounded nonzero positive
      fun classIndex _ => ?_) (.inl small)
    rw [same]
  have large : 2 ^ 31 ≤ divisor.toNat := not_lt.mp small
  have signed := toInt_of_large large
  have biasAlone := exactLogit_of_large bounded large weights biases
  constructor
  · intro exact
    have biasesFit : ∀ classIndex < classCount, FitsInt32
        (exactLogit channelSums divisor.toNat weights biases classIndex) := by
      intro classIndex _
      rw [biasAlone]
      exact toInt_fits (biases classIndex) le_rfl
    have ok := exact.ok_iff.mpr biasesFit
    -- The signed logits fit as well, so they are the ones that are stored.
    have fits : ∀ classIndex < classCount, FitsInt32
        (exactLogit channelSums divisor.toInt weights biases classIndex) := by
      by_contra outside
      push Not at outside
      rw [fc_of_not_fits logits bounded nonzero outside] at ok
      cases ok
    refine .inr fun classIndex inRange => ?_
    have stored := (fc_of_fits logits bounded nonzero positive fits).2
      classIndex inRange
    rw [exact.stored ok classIndex inRange, biasAlone, exactLogit, signed]
      at stored
    omega
  · rintro (isSmall | cancels)
    · exact absurd isSmall small
    · refine exactOrOverflow_of_same bounded nonzero positive
        fun classIndex inRange => ?_
      rw [biasAlone, exactLogit, signed, cancels classIndex inRange, add_zero]

/-- A divisor that is not among the last 18432 of its type leaves nothing of a
sum on the negative side either. -/
theorem divisorHarmless_of_le (bounded : SumsBounded channelSums)
    (le : divisor.toNat ≤ 2 ^ 32 - 18433) :
    DivisorHarmless channelSums divisor weights classCount := by
  have isLarge : 18432 < |(divisor.toNat : Int) - 2 ^ 32| := by
    rw [lt_abs]
    omega
  refine .inr fun classIndex _ => Finset.sum_eq_zero fun channel channelIn => ?_
  rw [tdiv_eq_zero_of_large bounded isLarge (Finset.mem_range.mp channelIn),
    zero_mul]

end Divisors

section Calls

/-- The sums that `adas_classifier_gap_sum` leaves for `adas_classifier_fc`. -/
def gapSums (plOutput : Nat → BitVec 8) (channelSums : Nat → Accum 32) :
    Nat → BitVec 32 :=
  fun channel => (gapSum plOutput channelSums channel).bits

variable {divisor : BitVec 32} {classCount : Nat}

theorem toInt_gapSums (plOutput : Nat → BitVec 8) (channelSums : Nat → Accum 32)
    {channel : Nat} (channelIn : channel < outputChannels) :
    (gapSums plOutput channelSums channel).toInt = exactSum plOutput channel :=
  (gapSum_holds channelSums channelIn).exact

theorem gapSums_bounded (plOutput : Nat → BitVec 8)
    (channelSums : Nat → Accum 32) : SumsBounded (gapSums plOutput channelSums) := by
  intro channel channelIn
  rw [toInt_gapSums plOutput channelSums channelIn]
  exact (gapSum_holds channelSums channelIn).bounded

theorem fc_noClasses (channelSums : Nat → BitVec 32) (divisor : BitVec 32)
    (weights : Nat → BitVec 8) (biases logits : Nat → BitVec 32) :
    (fc channelSums divisor weights biases 0 logits).status = .invalidArgument := by
  rw [fc, if_pos (.inr rfl)]

/-- For the sums of a feature map, `adas_classifier_fc` is exact or reports an
overflow just when there is a class and the sign of the divisor does no harm.
The sums are so small that the last 18432 divisors alone can do harm. -/
theorem fc_exact_iff (plOutput : Nat → BitVec 8) (channelSums : Nat → Accum 32)
    (nonzero : divisor ≠ 0) (weights : Nat → BitVec 8)
    (biases logits : Nat → BitVec 32) (classCount : Nat) :
    (ExactOrOverflow (gapSums plOutput channelSums) divisor weights biases
        classCount logits ↔
      0 < classCount ∧
        DivisorHarmless (gapSums plOutput channelSums) divisor weights
          classCount) ∧
      (divisor.toNat ≤ 2 ^ 32 - 18433 →
        DivisorHarmless (gapSums plOutput channelSums) divisor weights
          classCount) := by
  have bounded := gapSums_bounded plOutput channelSums
  refine ⟨?_, divisorHarmless_of_le bounded⟩
  rcases Nat.eq_zero_or_pos classCount with rfl | positive
  · refine iff_of_false (fun exact => ?_) fun both => both.1.false
    have failed := fc_noClasses (gapSums plOutput channelSums) divisor weights
      biases logits
    have ok := exact.ok_iff.mpr fun classIndex inRange => by omega
    rw [ok] at failed
    cases failed
  · rw [exactOrOverflow_iff bounded nonzero positive, and_iff_right positive]

/-- The averages of a map whose cells are up to 127, with weights of both signs for
two classes. -/
theorem fc_exact_iff_average :
    ExactOrOverflow
      (gapSums (fun index => BitVec.ofNat 8 (index % 128)) fun _ => .ofBits 7) 144
      (BitVec.ofNat 8) (fun _ => -5) 2 (fun _ => 0) := by
  obtain ⟨exact_iff, harmless⟩ := fc_exact_iff (fun index => BitVec.ofNat 8 (index % 128))
    (fun _ => .ofBits 7) (show (144 : BitVec 32) ≠ 0 by decide) (BitVec.ofNat 8)
    (fun _ => -5) (fun _ => 0) 2
  exact exact_iff.mpr ⟨by decide, harmless (by decide)⟩

/-- A feature map with one cell of value one, in the first channel, and the
weights of a class that looks at this channel. -/
def oneCell : Nat → BitVec 8 :=
  fun index => if index = 0 then 1 else 0

/-- The greatest divisor is taken for minus one, which turns the logit of one
cell around instead of dividing it away. -/
theorem not_fc_exact :
    ¬ ∀ (plOutput : Nat → BitVec 8) (channelSums : Nat → Accum 32)
        (divisor : BitVec 32) (weights : Nat → BitVec 8)
        (biases logits : Nat → BitVec 32) (classCount : Nat),
      divisor ≠ 0 → 0 < classCount →
        ExactOrOverflow (gapSums plOutput channelSums) divisor weights biases
          classCount logits := by
  intro exact
  have harmless := (exactOrOverflow_iff (gapSums_bounded _ _) (by decide)
    (by decide)).mp (exact oneCell (fun _ => .ofBits 0) 0xFFFFFFFF oneCell
      (fun _ => 0) (fun _ => 0) 1 (by decide) (by decide))
  rcases harmless with small | cancels
  · exact absurd small (by decide)
  have turned := cancels 0 (by decide)
  rw [Finset.sum_eq_single_of_mem 0 (by decide) fun channel _ other => by
    simp [oneCell, other]] at turned
  rw [toInt_gapSums oneCell _ (by decide)] at turned
  revert turned
  decide +kernel

end Calls

end Adas.ClassifierPostprocess
