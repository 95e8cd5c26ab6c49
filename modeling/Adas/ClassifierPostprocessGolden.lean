import Adas.ClassifierPostprocess
import Adas.GoldenInt8

/-!
# The postprocessing computes the golden class

The server passes the sums on to the logits and the logits on to the choice of
the class.  With a divisor of one the logits and the class are those of the
golden model for the array that lies flat in the accelerator's output, unless
some logit does not fit into 32 bits.
-/

namespace Adas.ClassifierPostprocess

open ClassifyOne (PostprocessStatus argmax argmaxLoop kMaxClassCount)
open RowMajor (flatten2 flatten3)
open RoiProtocol (kInvalidClassId)

/-- What the postprocessing of one region comes to. -/
structure Postprocessed where
  status : PostprocessStatus
  logits : List Int
  classId : BitVec 32
  overflowed : Bool

/-- The part of `classify_one` from the sums to the class, with what the arrays
hold before. -/
def postprocess (plOutput : Nat → BitVec 8) (channelSums : Nat → Accum 32)
    (gapDivisor : BitVec 32) (fcWeights : Nat → BitVec 8)
    (fcBiases : Nat → BitVec 32) (classCount : Nat) (logits : Nat → BitVec 32) :
    Postprocessed :=
  let result := fc (gapSums plOutput channelSums) gapDivisor fcWeights fcBiases
    classCount logits
  let logits := (List.range classCount).map fun index => (result.logits index).toInt
  let (argmaxStatus, classId) :=
    if result.status = .ok then argmax logits kInvalidClassId
    else (result.status, kInvalidClassId)
  { status := argmaxStatus
    logits := logits
    classId := classId
    overflowed := result.overflowed ||
      (List.range outputChannels).any fun channel =>
        (gapSum plOutput channelSums channel).overflowed }

section Argmax

/-- The value at the position is greater than those before it and at least as
great as those after it. -/
theorem golden_argmax_eq {before after : List Int} {best : Int}
    (lower : ∀ value ∈ before, value < best) (upper : ∀ value ∈ after, value ≤ best) :
    GoldenInt8.argmax (before ++ best :: after) = before.length := by
  have notBefore : before.findIdx (fun value =>
      (before ++ best :: after).all (· ≤ value)) = before.length := by
    rw [List.findIdx_eq_length]
    intro value mem
    simp only [List.all_eq_false, decide_eq_true_eq]
    exact ⟨best, by simp, not_le.mpr (lower value mem)⟩
  have isBest : (before ++ best :: after).all (· ≤ best) = true := by
    simp only [List.all_append, List.all_cons, Bool.and_eq_true, List.all_eq_true,
      decide_eq_true_eq]
    exact ⟨fun value mem => (lower value mem).le, le_rfl, upper⟩
  rw [GoldenInt8.argmax, List.findIdx_append, notBefore,
    if_neg (lt_irrefl _), List.findIdx_cons, isBest]
  simp

/-- The loop carries the first greatest value among those it has looked at. -/
theorem argmaxLoop_golden (logits : List Int) {before between : List Int}
    {best : Int} (lower : ∀ value ∈ before, value < best)
    (upper : ∀ value ∈ between, value ≤ best) :
    argmaxLoop before.length best (before.length + 1 + between.length) logits =
      GoldenInt8.argmax (before ++ best :: (between ++ logits)) := by
  induction logits generalizing before between best with
  | nil =>
      rw [List.append_nil, golden_argmax_eq lower upper]
      rfl
  | cons logit logits ih =>
      rw [argmaxLoop]
      split_ifs with better
      · have allLower : ∀ value ∈ before ++ best :: between, value < logit := by
          intro value mem
          rcases List.mem_append.mp mem with inBefore | inRest
          · exact (lower value inBefore).trans better
          rcases List.mem_cons.mp inRest with rfl | inBetween
          · exact better
          · exact (upper value inBetween).trans_lt better
        have continued := @ih (before ++ best :: between) [] logit allLower (by simp)
        simp only [List.length_append, List.length_cons, List.length_nil,
          List.nil_append, List.append_assoc, List.cons_append] at continued
        rw [← continued]
        congr 1 <;> omega
      · have stillUpper : ∀ value ∈ between ++ [logit], value ≤ best := by
          intro value mem
          rcases List.mem_append.mp mem with inBetween | isLogit
          · exact upper value inBetween
          · rw [List.mem_singleton.mp isLogit]
            exact not_lt.mp better
        have continued := ih lower stillUpper
        simp only [List.length_append, List.length_singleton, List.append_assoc,
          List.singleton_append] at continued
        rw [← continued]
        congr 1

theorem argmaxLoop_cons (logit : Int) (logits : List Int) :
    argmaxLoop 0 logit 1 logits = GoldenInt8.argmax (logit :: logits) :=
  @argmaxLoop_golden logits [] [] logit (by simp) (by simp)

theorem argmax_golden {logits : List Int} (classes : logits ≠ [])
    (classId : BitVec 32) :
    argmax logits classId = (.ok, BitVec.ofNat 32 (GoldenInt8.argmax logits)) := by
  cases logits with
  | nil => exact absurd rfl classes
  | cons logit logits => rw [argmax, argmaxLoop_cons]

/-- The golden class is one of the classes. -/
theorem golden_argmax_lt {logits : List Int} (classes : logits ≠ []) :
    GoldenInt8.argmax logits < logits.length := by
  cases logits with
  | nil => exact absurd rfl classes
  | cons logit logits =>
      rw [← argmaxLoop_cons, List.length_cons, Nat.add_comm]
      exact ClassifyOne.argmaxLoop_lt Nat.zero_lt_one logit logits

/-- The class is not cut off when the server counts the classes. -/
theorem toNat_golden_argmax {logits : List Int} (classes : logits ≠ [])
    (counted : logits.length ≤ kMaxClassCount) :
    (BitVec.ofNat 32 (GoldenInt8.argmax logits)).toNat =
      GoldenInt8.argmax logits := by
  have inRange : GoldenInt8.argmax logits < 4294967295 :=
    (golden_argmax_lt classes).trans_le counted
  rw [BitVec.toNat_ofNat]
  exact Nat.mod_eq_of_lt (by omega)

end Argmax

section Runs

variable {plOutput : Nat → BitVec 8} {channelSums : Nat → Accum 32}
variable {gapDivisor : BitVec 32} {fcWeights : Nat → BitVec 8}
variable {fcBiases : Nat → BitVec 32} {classCount : Nat}

/-- The logits of all classes for the signed divisor. -/
def exactLogits (plOutput : Nat → BitVec 8) (channelSums : Nat → Accum 32)
    (gapDivisor : BitVec 32) (fcWeights : Nat → BitVec 8)
    (fcBiases : Nat → BitVec 32) (classCount : Nat) : List Int :=
  (List.range classCount).map
    (exactLogit (gapSums plOutput channelSums) gapDivisor.toInt fcWeights fcBiases)

theorem forall_exactLogits_iff {property : Int → Prop} :
    (∀ logit ∈ exactLogits plOutput channelSums gapDivisor fcWeights fcBiases
        classCount, property logit) ↔
      ∀ classIndex < classCount, property (exactLogit
        (gapSums plOutput channelSums) gapDivisor.toInt fcWeights fcBiases
        classIndex) := by
  simp only [exactLogits, List.forall_mem_map, List.mem_range]

theorem exactLogits_ne_nil (positive : 0 < classCount) :
    exactLogits plOutput channelSums gapDivisor fcWeights fcBiases classCount ≠
      [] := by
  rw [← List.length_pos_iff, exactLogits, List.length_map, List.length_range]
  exact positive

theorem gapSum_overflowed (plOutput : Nat → BitVec 8)
    (channelSums : Nat → Accum 32) :
    ((List.range outputChannels).any fun channel =>
      (gapSum plOutput channelSums channel).overflowed) = false := by
  rw [List.any_eq_false]
  intro channel mem
  rw [(gapSum_holds channelSums (List.mem_range.mp mem)).sound]
  exact Bool.false_ne_true

theorem postprocess_overflowed (logits : Nat → BitVec 32) :
    (postprocess plOutput channelSums gapDivisor fcWeights fcBiases classCount
      logits).overflowed = false :=
  Bool.or_eq_false_iff.mpr
    ⟨fc_overflowed logits (gapSums_bounded plOutput channelSums),
      gapSum_overflowed plOutput channelSums⟩

/-- When the logits fit, they are chosen from. -/
theorem postprocess_of_fits (logits : Nat → BitVec 32)
    (nonzero : gapDivisor ≠ 0) (positive : 0 < classCount)
    (fits : ∀ logit ∈ exactLogits plOutput channelSums gapDivisor fcWeights
      fcBiases classCount, FitsInt32 logit) :
    postprocess plOutput channelSums gapDivisor fcWeights fcBiases classCount
        logits =
      { status := .ok
        logits := exactLogits plOutput channelSums gapDivisor fcWeights fcBiases
          classCount
        classId := BitVec.ofNat 32 (GoldenInt8.argmax (exactLogits plOutput
          channelSums gapDivisor fcWeights fcBiases classCount))
        overflowed := false } := by
  obtain ⟨ok, stored⟩ := fc_of_fits logits (gapSums_bounded plOutput channelSums)
    nonzero positive (forall_exactLogits_iff.mp fits)
  have sameLogits : (List.range classCount).map (fun index =>
      ((fc (gapSums plOutput channelSums) gapDivisor fcWeights fcBiases classCount
        logits).logits index).toInt) =
      exactLogits plOutput channelSums gapDivisor fcWeights fcBiases
        classCount :=
    List.map_congr_left fun index mem => stored index (List.mem_range.mp mem)
  simp only [postprocess, ok, if_true, sameLogits,
    argmax_golden (exactLogits_ne_nil positive), gapSum_overflowed,
    fc_overflowed logits (gapSums_bounded plOutput channelSums), Bool.or_false]

/-- When some logit does not fit, there is no class. -/
theorem postprocess_of_not_fits (logits : Nat → BitVec 32)
    (nonzero : gapDivisor ≠ 0)
    (outside : ¬ ∀ logit ∈ exactLogits plOutput channelSums gapDivisor fcWeights
      fcBiases classCount, FitsInt32 logit) :
    (postprocess plOutput channelSums gapDivisor fcWeights fcBiases classCount
        logits).status = .overflow ∧
      (postprocess plOutput channelSums gapDivisor fcWeights fcBiases classCount
        logits).classId = kInvalidClassId := by
  rw [forall_exactLogits_iff] at outside
  push Not at outside
  have overflow := fc_of_not_fits logits (gapSums_bounded plOutput channelSums)
    nonzero outside
  simp [postprocess, overflow]

end Runs

section Golden

/-- The golden logits of arrays of bytes. -/
def goldenLogits (featureMap : Nat → Nat → Nat → BitVec 8)
    (fcWeight : Nat → Nat → BitVec 8) (fcBias : Nat → BitVec 32)
    (classes : Nat) : List Int :=
  GoldenInt8.fcLogits
    (GoldenInt8.gapSum fun row col c => (featureMap row col c).toInt)
    (fun n c => (fcWeight n c).toInt) (fun n => (fcBias n).toInt) classes

/-- The result has the golden logits and the golden class when the logits fit
into 32 bits, and an overflow and no class when they do not. -/
structure ComputesGolden (result : Postprocessed) (golden : List Int) : Prop where
  exactSteps : result.overflowed = false
  ok : (∀ logit ∈ golden, FitsInt32 logit) →
    result.status = .ok ∧ result.logits = golden ∧
      result.classId = BitVec.ofNat 32 (GoldenInt8.argmax golden)
  toNat_classId : (∀ logit ∈ golden, FitsInt32 logit) →
    golden.length ≤ kMaxClassCount →
      result.classId.toNat = GoldenInt8.argmax golden
  overflow : ¬ (∀ logit ∈ golden, FitsInt32 logit) →
    result.status = .overflow ∧ result.classId = kInvalidClassId

variable {featureMap : Nat → Nat → Nat → BitVec 8}
variable {fcWeight : Nat → Nat → BitVec 8} {fcBias : Nat → BitVec 32}

/-- The sum over a flat feature map is the sum over the array. -/
theorem exactSum_flatten3 {channel : Nat} (channelIn : channel < outputChannels) :
    exactSum (flatten3 outputWidth outputChannels featureMap) channel =
      GoldenInt8.gapSum (fun row col c => (featureMap row col c).toInt) channel := by
  refine Finset.sum_congr rfl fun row _ => Finset.sum_congr rfl fun col colIn => ?_
  exact congrArg BitVec.toInt (RowMajor.flatten3_index3 featureMap
    (Finset.mem_range.mp colIn) channelIn)

/-- The logit over flat weights with a divisor of one is the golden logit. -/
theorem exactLogit_flatten2 (channelSums : Nat → Accum 32) (classIndex : Nat) :
    exactLogit (gapSums (flatten3 outputWidth outputChannels featureMap) channelSums)
        (1 : BitVec 32).toInt (flatten2 outputChannels fcWeight) fcBias classIndex =
      ∑ c ∈ Finset.range outputChannels,
        GoldenInt8.gapSum (fun row col c => (featureMap row col c).toInt) c *
          (fcWeight classIndex c).toInt + (fcBias classIndex).toInt := by
  rw [exactLogit, add_comm]
  congr 1
  refine Finset.sum_congr rfl fun channel channelIn => ?_
  have inRange := Finset.mem_range.mp channelIn
  have weight : flatten2 outputChannels fcWeight
      (classIndex * outputChannels + channel) = fcWeight classIndex channel :=
    RowMajor.flatten2_index2 fcWeight inRange
  have one : (1 : BitVec 32).toInt = 1 := by decide
  rw [one, Int.tdiv_one, weight, toInt_gapSums _ _ inRange,
    exactSum_flatten3 inRange]

theorem goldenLogits_eq (channelSums : Nat → Accum 32) (classes : Nat) :
    goldenLogits featureMap fcWeight fcBias classes =
      exactLogits (flatten3 outputWidth outputChannels featureMap) channelSums 1
        (flatten2 outputChannels fcWeight) fcBias classes := by
  refine List.map_congr_left fun classIndex _ => ?_
  exact (exactLogit_flatten2 channelSums classIndex).symm

/-- For every feature map, all weights and biases and any number of classes, the
postprocessing with a divisor of one computes the golden logits and the golden
class, or reports an overflow. -/
theorem postprocess_golden (featureMap : Nat → Nat → Nat → BitVec 8)
    (fcWeight : Nat → Nat → BitVec 8) (fcBias : Nat → BitVec 32)
    {classCount : Nat} (positive : 0 < classCount)
    (channelSums : Nat → Accum 32) (logits : Nat → BitVec 32) :
    ComputesGolden
      (postprocess (flatten3 outputWidth outputChannels featureMap) channelSums 1
        (flatten2 outputChannels fcWeight) fcBias classCount logits)
      (goldenLogits featureMap fcWeight fcBias classCount) := by
  have nonzero : (1 : BitVec 32) ≠ 0 := by decide
  rw [goldenLogits_eq channelSums]
  refine ⟨postprocess_overflowed logits, fun fits => ?_, fun fits counted => ?_,
    fun outside => postprocess_of_not_fits logits nonzero outside⟩
  · rw [postprocess_of_fits logits nonzero positive fits]
    exact ⟨rfl, rfl, rfl⟩
  · rw [postprocess_of_fits logits nonzero positive fits]
    exact toNat_golden_argmax (exactLogits_ne_nil positive) counted

/-- A map of ones with two equal classes, of which the first is chosen. -/
theorem postprocess_golden_ones :
    ComputesGolden
      (postprocess (flatten3 outputWidth outputChannels fun _ _ _ => 1)
        (fun _ => .ofBits 9) 1 (flatten2 outputChannels fun _ _ => 1)
        (fun _ => -3) 2 fun _ => 4)
      (goldenLogits (fun _ _ _ => 1) (fun _ _ => 1) (fun _ => -3) 2) :=
  postprocess_golden (fun _ _ _ => 1) (fun _ _ => 1) (fun _ => -3) (by decide)
    (fun _ => .ofBits 9) fun _ => 4

end Golden

end Adas.ClassifierPostprocess
