import Adas.RoiProtocol

/-!
# How the server classifies one region

`classify_one` takes an image through the preprocessing, the accelerator and
the postprocessing.  Each stage can fail, and each failure has a status of its
own in the response.  The file models the stages by what they come to for an
image, and the choice of the class as the code makes it, and shows that every
result is one that the client accepts.
-/

namespace Adas.ClassifyOne

open Control (RoiResult)
open RoiProtocol

/-- `adas_roi_preprocess_status_t`. -/
inductive PreprocessStatus where
  | ok
  | invalidArgument
  deriving DecidableEq, Repr

/-- `adas_classifier_device_status_t`. -/
inductive DeviceStatus where
  | ok
  | invalidArgument
  | ioError
  | abiMismatch
  deriving DecidableEq, Repr

/-- `adas_classifier_postprocess_status_t`. -/
inductive PostprocessStatus where
  | ok
  | invalidArgument
  | overflow
  deriving DecidableEq, Repr

/-- `UINT32_MAX`, the most classes that the server's arguments may give. -/
def kMaxClassCount : Nat := 4294967295

/-- The part of the model that is looked at. -/
structure Model where
  classCount : Nat
  counted : classCount ≤ kMaxClassCount

section Argmax

/-- The loop of `adas_classifier_argmax`, with the logits from `index` on still
to be compared with the best one. -/
def argmaxLoop (bestIndex : Nat) (bestLogit : Int) (index : Nat) :
    List Int → Nat
  | [] => bestIndex
  | logit :: logits =>
      if bestLogit < logit then
        argmaxLoop index logit (index + 1) logits
      else
        argmaxLoop bestIndex bestLogit (index + 1) logits

/-- `adas_classifier_argmax`, which leaves `class_id` as it is when there are no
logits. -/
def argmax (logits : List Int) (classId : BitVec 32) :
    PostprocessStatus × BitVec 32 :=
  match logits with
  | [] => (.invalidArgument, classId)
  | logit :: logits => (.ok, BitVec.ofNat 32 (argmaxLoop 0 logit 1 logits))

theorem argmaxLoop_lt {bestIndex index : Nat} (before : bestIndex < index)
    (bestLogit : Int) (logits : List Int) :
    argmaxLoop bestIndex bestLogit index logits < index + logits.length := by
  induction logits generalizing bestIndex bestLogit index with
  | nil => exact before
  | cons logit logits ih =>
      rw [argmaxLoop, List.length_cons, Nat.add_comm logits.length,
        ← Nat.add_assoc]
      split_ifs
      · exact ih (Nat.lt_succ_self index) logit
      · exact ih (Nat.lt_succ_of_lt before) bestLogit

/-- The class is one of those that have a logit, so it is not the invalid one. -/
theorem argmax_ne_invalid {logits : List Int}
    (counted : logits.length ≤ kMaxClassCount) {classId : BitVec 32}
    (ok : (argmax logits classId).1 = .ok) :
    (argmax logits classId).2 ≠ kInvalidClassId := by
  cases logits with
  | nil => simp [argmax] at ok
  | cons logit logits =>
      have inside := argmaxLoop_lt Nat.zero_lt_one logit logits
      have atMost : logits.length + 1 ≤ 4294967295 := counted
      intro invalid
      have value : (BitVec.ofNat 32 (argmaxLoop 0 logit 1 logits)).toNat =
          4294967295 := congrArg BitVec.toNat invalid
      rw [BitVec.toNat_ofNat] at value
      omega

end Argmax

section Stages

/-- What the stages of `classify_one` come to: whether the device's buffers are
mapped, the status of each stage, whether there is memory for the logits, the
logits, and the confidence if it could be computed. -/
structure Stages (model : Model) where
  ifmap : Bool
  plOutput : Bool
  preprocess : PreprocessStatus
  run : DeviceStatus
  gapSum : PostprocessStatus
  allocated : Bool
  fc : PostprocessStatus
  logits : List Int
  logitsSize : logits.length = model.classCount
  confidencePpm : Option (BitVec 32)
  confidenceInRange : ∀ ppm ∈ confidencePpm, ppm ≤ kConfidencePpmMax

def failedResult (status : BitVec 32) : RoiResult where
  status := status
  classId := kInvalidClassId
  confidencePpm := 0#32

def classifyOne {model : Model} (stages : Stages model) : RoiResult :=
  if !stages.ifmap || !stages.plOutput then
    failedResult kStatusInvalidPayload
  else if stages.preprocess ≠ .ok then
    failedResult kStatusInvalidPayload
  else if stages.run ≠ .ok then
    failedResult kStatusAcceleratorError
  else if stages.gapSum ≠ .ok then
    failedResult kStatusPostprocessError
  else if !stages.allocated then
    failedResult kStatusPostprocessError
  else
    let (argmaxStatus, classId) :=
      if stages.fc = .ok then argmax stages.logits kInvalidClassId
      else (stages.fc, kInvalidClassId)
    if argmaxStatus ≠ .ok then
      failedResult kStatusPostprocessError
    else
      -- A confidence that could not be computed stays at zero.
      { status := kStatusOk
        classId := classId
        confidencePpm := stages.confidencePpm.getD 0#32 }

theorem zeroInRange : 0#32 ≤ kConfidencePpmMax := by
  decide

theorem failedResult_obeysContract {status : BitVec 32}
    (failed : status ≠ kStatusOk) (known : status ≤ kStatusPostprocessError) :
    ObeysContract (failedResult status) :=
  ⟨known, zeroInRange, fun ok => absurd ok failed, fun _ => ⟨rfl, rfl⟩⟩

/-- Whatever the stages come to, the result obeys the contract of a response. -/
theorem classifyOne_obeysContract {model : Model} (stages : Stages model) :
    ObeysContract (classifyOne stages) := by
  have invalidPayload : ObeysContract (failedResult kStatusInvalidPayload) :=
    failedResult_obeysContract (by decide) (by decide)
  have acceleratorError : ObeysContract (failedResult kStatusAcceleratorError) :=
    failedResult_obeysContract (by decide) (by decide)
  have postprocessError : ObeysContract (failedResult kStatusPostprocessError) :=
    failedResult_obeysContract (by decide) (by decide)
  have inRange : stages.confidencePpm.getD 0#32 ≤ kConfidencePpmMax := by
    cases computed : stages.confidencePpm with
    | none => exact zeroInRange
    | some ppm => exact stages.confidenceInRange ppm computed
  have counted : stages.logits.length ≤ kMaxClassCount :=
    stages.logitsSize.trans_le model.counted
  unfold classifyOne
  generalize selection :
    (if stages.fc = .ok then argmax stages.logits kInvalidClassId
      else (stages.fc, kInvalidClassId)) = selected
  have selects : selected.1 = .ok → selected.2 ≠ kInvalidClassId := by
    intro ok
    by_cases fcOk : stages.fc = .ok
    · rw [if_pos fcOk] at selection
      subst selection
      exact argmax_ne_invalid counted ok
    · rw [if_neg fcOk] at selection
      subst selection
      exact absurd ok fcOk
  obtain ⟨argmaxStatus, classId⟩ := selected
  dsimp only
  split_ifs with unmapped preprocessFailed runFailed gapSumFailed unallocated
    argmaxFailed
  · exact invalidPayload
  · exact invalidPayload
  · exact acceleratorError
  · exact postprocessError
  · exact postprocessError
  · exact postprocessError
  · have known : kStatusOk ≤ kStatusPostprocessError := by decide
    exact ⟨known, inRange, fun _ => selects (not_not.mp argmaxFailed),
      fun failed => absurd rfl failed⟩

end Stages

end Adas.ClassifyOne
