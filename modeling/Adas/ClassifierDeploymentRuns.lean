import Adas.ClassifierDeployment
import Mathlib.Tactic.Set

/-!
# The deployed classifier computes the golden model

Whatever the order of the steps, the accelerator finds the weights of the files
and the image of the request, and the server reads the output of its own
computation, until a `RUN` fails for the first time.  So every result up to
then has the class of the golden model.
-/

namespace Adas.ClassifierDeployment

open BoundedLoop MemoryRegion
open ClassifierDriver (Buffer Parameters Errno)
open ClassifierEngine (LayerParams Scratch EngineStatics Agrees)
open ClassifierModel (Model)
open ClassifierPostprocess (FitsInt32 exactLogit exactLogits exactSum)
open GoldenInt8 (quantizeInput96)
open RowMajor (index3 index4 index4_lt flatten3)

section Contents

/-- The three arrays of weights are in their regions. -/
structure HoldsWeights (model : Model) (arena : Nat → Byte) : Prop where
  wConv0 : Buffer.wConv0.region.Holds arena (byteAt model.wConv0)
  wConv1 : Buffer.wConv1.region.Holds arena (byteAt model.wConv1)
  wConv2 : Buffer.wConv2.region.Holds arena (byteAt model.wConv2)

/-- The accelerator's input is the golden input for the image. -/
def HoldsImage (image arena : Nat → Byte) : Prop :=
  Agrees 98 3 (fun row col c => Buffer.ifmap.region.read arena (index3 98 3 row col c))
    (quantizeInput96 (pixels image))

/-- The output is the golden map of the image. -/
def HoldsMap (model : Model) (image output : Nat → Byte) : Prop :=
  Agrees 12 64 (fun row col c => output (index3 12 64 row col c))
    (goldenMap model image)

variable {model : Model} {image arena : Nat → Byte}

/-- The copies do not overwrite each other. -/
theorem holdsWeights_copyWeights (model : Model) (arena : Nat → Byte) :
    HoldsWeights model (copyWeights model arena) where
  wConv0 := ((holds_copy _ _ _).copy (by decide)).copy (by decide)
  wConv1 := (holds_copy _ _ _).copy (by decide)
  wConv2 := holds_copy _ _ _

/-- The preprocessing stores nothing behind the input. -/
theorem preprocess_keeps (image arena : Nat → Byte) {address : Nat}
    (behind : RoiPreprocess.plInputSize ≤ address) :
    (RoiPreprocess.preprocess image ⟨arena, false⟩).output address =
      arena address := by
  have differs : ∀ y < RoiPreprocess.roiHeight, ∀ x < RoiPreprocess.roiWidth,
      ∀ channel < RoiPreprocess.roiChannels,
        address ≠ RoiPreprocess.outputIndex y x channel := by
    intro y yIn x xIn channel channelIn same
    have inside := RoiPreprocess.outputIndex_lt yIn xIn channelIn
    omega
  have kept := RoiPreprocess.loops_keep image differs
    ⟨load1 RoiPreprocess.plInputSize (fun _ => 0) arena, false⟩
  have cleared : load1 RoiPreprocess.plInputSize (fun _ => (0 : Byte)) arena address =
      arena address := by
    have keeps : ∀ i < RoiPreprocess.plInputSize,
        Keeps (fun array : Nat → Byte => array address)
          fun array => write1 array i 0 := by
      intro i inside array
      exact if_neg (by omega)
    exact Keeps.forLoop keeps arena
  exact kept.trans cleared

theorem HoldsWeights.preprocess (holds : HoldsWeights model arena)
    (image : Nat → Byte) :
    HoldsWeights model (RoiPreprocess.preprocess image ⟨arena, false⟩).output := by
  have behind : ∀ address, 0x8000 ≤ address →
      (RoiPreprocess.preprocess image ⟨arena, false⟩).output address =
        arena address := by
    intro address above
    apply preprocess_keeps
    have size : RoiPreprocess.plInputSize = 28812 := rfl
    omega
  refine ⟨holds.wConv0.congr fun address inside => behind _ ?_,
    holds.wConv1.congr fun address inside => behind _ ?_,
    holds.wConv2.congr fun address inside => behind _ ?_⟩
  · exact inside.1
  · exact le_trans (by decide) inside.1
  · exact le_trans (by decide) inside.1

theorem holdsImage_preprocess (image arena : Nat → Byte) :
    HoldsImage image (RoiPreprocess.preprocess image ⟨arena, false⟩).output := by
  intro row rowIn col colIn c cIn
  have payload : flatten3 96 3 (fun row col c => image (index3 96 3 row col c)) =
      image := by
    funext index
    exact congrArg image (RowMajor.index3_of_div_mod 96 3 index)
  have cell := RoiPreprocess.preprocess_cell
    (fun row col c => image (index3 96 3 row col c)) arena rowIn colIn cIn
  rw [payload] at cell
  simp only [MemoryRegion.read, Buffer.region, Nat.zero_add]
  exact cell

end Contents

section Engine

/-- Two layers have the same weights, biases and requantization. -/
structure SameLayer (layer other : GoldenInt8.Layer) (channels outCh : Nat) :
    Prop where
  weight : ∀ oc < outCh, ∀ ic < channels, ∀ ky < 3, ∀ kx < 3,
    layer.weight oc ic ky kx = other.weight oc ic ky kx
  bias : ∀ oc < outCh, layer.bias oc = other.bias oc
  multiplier : layer.multiplier = other.multiplier
  shift : layer.shift = other.shift

/-- Two maps have the same cells. -/
def MapsAgree (size channels : Nat) (x y : GoldenInt8.Map) : Prop :=
  ∀ row < size, ∀ col < size, ∀ c < channels, x row col c = y row col c

/-- A convolution looks at cells of the map alone. -/
theorem int8Conv3x3_congr {size channels width outCh : Nat}
    {layer other : GoldenInt8.Layer} {x y : GoldenInt8.Map}
    (same : SameLayer layer other channels outCh) (maps : MapsAgree size channels x y)
    {row col oc : Nat} (rowIn : row + 2 < size + 2 * width)
    (colIn : col + 2 < size + 2 * width) (ocIn : oc < outCh) :
    GoldenInt8.int8Conv3x3 size channels width x layer row col oc =
      GoldenInt8.int8Conv3x3 size channels width y other row col oc := by
  have padded : ∀ ky < 3, ∀ kx < 3, ∀ ic < channels,
      (if width = 0 then x else GoldenInt8.pad size width x) (row + ky) (col + kx) ic =
        (if width = 0 then y else GoldenInt8.pad size width y) (row + ky) (col + kx)
          ic := by
    intro ky kyIn kx kxIn ic icIn
    split_ifs with unpadded
    · exact maps _ (by omega) _ (by omega) ic icIn
    · simp only [GoldenInt8.pad]
      split_ifs with inside
      · exact maps _ (by omega) _ (by omega) ic icIn
      · rfl
  simp only [GoldenInt8.int8Conv3x3, same.bias oc ocIn]
  congr 1
  refine Finset.sum_congr rfl fun ky kyIn => Finset.sum_congr rfl fun kx kxIn =>
    Finset.sum_congr rfl fun ic icIn => ?_
  rw [padded ky (Finset.mem_range.mp kyIn) kx (Finset.mem_range.mp kxIn) ic
      (Finset.mem_range.mp icIn),
    same.weight oc ocIn ic (Finset.mem_range.mp icIn) ky (Finset.mem_range.mp kyIn) kx
      (Finset.mem_range.mp kxIn)]

/-- The same layer makes the same map from the same map. -/
theorem SameLayer.runLayer {layer other : GoldenInt8.Layer}
    {size channels width outCh outSize : Nat} {x y : GoldenInt8.Map}
    (same : SameLayer layer other channels outCh) (fits : 2 * outSize + 2 ≤ size + 2 * width)
    (maps : MapsAgree size channels x y) :
    MapsAgree outSize outCh (GoldenInt8.runLayer size channels width layer x)
      (GoldenInt8.runLayer size channels width other y) := by
  intro row rowIn col colIn oc ocIn
  simp only [GoldenInt8.runLayer, GoldenInt8.maxpool2x2, same.multiplier, same.shift]
  rw [int8Conv3x3_congr same maps (by omega) (by omega) ocIn,
    int8Conv3x3_congr same maps (by omega) (by omega) ocIn,
    int8Conv3x3_congr same maps (by omega) (by omega) ocIn,
    int8Conv3x3_congr same maps (by omega) (by omega) ocIn]

theorem Agrees.trans {size channels : Nat} {ifmap : ClassifierEngine.Fmap}
    {x y : GoldenInt8.Map} (agrees : Agrees size channels ifmap x)
    (maps : MapsAgree size channels x y) : Agrees size channels ifmap y :=
  fun row rowIn col colIn c cIn =>
    (agrees row rowIn col colIn c cIn).trans (maps row rowIn col colIn c cIn)

/-- The shift fits into the byte that the engine takes. -/
theorem setWidth_shift (shift : BitVec 8) :
    (shift.setWidth 32).setWidth 8 = shift := by
  rw [BitVec.setWidth_setWidth_of_le _ (by decide), BitVec.setWidth_eq]

section Layer

variable {count : Nat} {weight : Nat → Nat → Nat → Nat → Byte}
variable {bias : Fin count → BitVec 32}

theorem layerAt_bias {oc : Nat} (inside : oc < count)
    (requant : ClassifierDriver.Requant) :
    (layerAt weight bias requant).b oc = bias ⟨oc, inside⟩ :=
  dif_pos inside

theorem layerAt_shift (weight : Nat → Nat → Nat → Nat → Byte)
    (bias : Fin count → BitVec 32) (multiplier : BitVec 32) (shift : BitVec 8) :
    (layerAt weight bias ⟨multiplier, shift.setWidth 32⟩).rq.shift = shift :=
  setWidth_shift shift

/-- A layer that the accelerator finds is supported when the one in the files
is. -/
theorem supported_layerAt {layer : GoldenInt8.Layer} {multiplier : BitVec 32}
    {shift : BitVec 8} (supported : Supported layer count)
    (biasEq : ∀ i : Fin count, layer.bias i = (bias i).toInt)
    (shiftEq : layer.shift = shift.toNat) :
    (layerAt weight bias ⟨multiplier, shift.setWidth 32⟩).Supported count := by
  refine ⟨fun oc inside => ?_, ?_, ?_⟩
  · rw [layerAt_bias inside, ← biasEq]
    exact supported.bias oc inside
  · rw [layerAt_shift, ← shiftEq]
    exact supported.shift_ge
  · rw [layerAt_shift, ← shiftEq]
    exact supported.shift_le

end Layer

variable {model : Model} {image arena : Nat → Byte}

theorem sameLayer_conv0 (weights : HoldsWeights model arena) :
    SameLayer (conv0At (plParameters model) arena).oihw (goldenConv0 model) 3 16 where
  weight _ ocIn _ icIn _ kyIn _ kxIn := congrArg BitVec.toInt
    (weights.wConv0 _ (index4_lt ocIn icIn kyIn kxIn))
  bias _ ocIn := congrArg BitVec.toInt (layerAt_bias ocIn _)
  multiplier := rfl
  shift := congrArg BitVec.toNat (layerAt_shift _ _ _ _)

theorem sameLayer_conv1 (weights : HoldsWeights model arena) :
    SameLayer (conv1At (plParameters model) arena).wpack (goldenConv1 model) 16 32 where
  weight _ ocIn _ icIn _ kyIn _ kxIn := congrArg BitVec.toInt
    (weights.wConv1 _ (index4_lt ocIn kyIn kxIn icIn))
  bias _ ocIn := congrArg BitVec.toInt (layerAt_bias ocIn _)
  multiplier := rfl
  shift := congrArg BitVec.toNat (layerAt_shift _ _ _ _)

theorem sameLayer_conv2 (weights : HoldsWeights model arena) :
    SameLayer (conv2At (plParameters model) arena).wpack (goldenConv2 model) 32 64 where
  weight _ ocIn _ icIn _ kyIn _ kxIn := congrArg BitVec.toInt
    (weights.wConv2 _ (index4_lt ocIn kyIn kxIn icIn))
  bias _ ocIn := congrArg BitVec.toInt (layerAt_bias ocIn _)
  multiplier := rfl
  shift := congrArg BitVec.toNat (layerAt_shift _ _ _ _)

/-- The three layers of the files are supported. -/
structure ModelSupported (model : Model) : Prop where
  conv0 : Supported (goldenConv0 model) 16
  conv1 : Supported (goldenConv1 model) 32
  conv2 : Supported (goldenConv2 model) 64

/-- The engine on layers that are those of the golden model. -/
theorem classifierTop_agrees {conv0 conv1 conv2 : LayerParams}
    {golden0 golden1 golden2 : GoldenInt8.Layer} {ifmap : ClassifierEngine.Fmap}
    {x : GoldenInt8.Map} (scratch : Scratch) (statics : EngineStatics)
    (out : ClassifierEngine.Fmap) (supported0 : conv0.Supported 16)
    (supported1 : conv1.Supported 32) (supported2 : conv2.Supported 64)
    (same0 : SameLayer conv0.oihw golden0 3 16)
    (same1 : SameLayer conv1.wpack golden1 16 32)
    (same2 : SameLayer conv2.wpack golden2 32 64) (input : Agrees 98 3 ifmap x) :
    Agrees 12 64
      (ClassifierEngine.classifierTop scratch statics ifmap conv0 conv1 conv2 out).out
      (GoldenInt8.runGolden golden0 golden1 golden2 x) := by
  obtain ⟨map0, sound0⟩ := ClassifierEngine.conv0_golden scratch statics.conv0
    statics.fmap0p false supported0 input
  have golden0 := Agrees.trans map0 (same0.runLayer (by decide) fun _ _ _ _ _ _ => rfl)
  obtain ⟨map1, sound1⟩ := ClassifierEngine.conv1_golden scratch statics.conv1
    statics.fmap1p false supported1 golden0
  have golden1 := Agrees.trans map1 (same1.runLayer (by decide) fun _ _ _ _ _ _ => rfl)
  obtain ⟨map2, -⟩ := ClassifierEngine.conv2_golden scratch statics.conv2 out false
    supported2 golden1
  have golden2 := Agrees.trans map2 (same2.runLayer (by decide) fun _ _ _ _ _ _ => rfl)
  simp only [ClassifierEngine.classifierTop, sound0, sound1]
  exact golden2

/-- The accelerator computes the golden map of the image when it finds the
weights, the parameters and the image. -/
theorem engineRun_golden (supported : ModelSupported model) (scratch : Scratch)
    (statics : EngineStatics) (output : Nat → Byte)
    (weights : HoldsWeights model arena) (holdsImage : HoldsImage image arena) :
    Agrees 12 64 (engineRun scratch statics output (plParameters model) arena).out
      (goldenMap model image) :=
  classifierTop_agrees scratch statics _
    (supported_layerAt supported.conv0 (fun _ => rfl) rfl)
    (supported_layerAt supported.conv1 (fun _ => rfl) rfl)
    (supported_layerAt supported.conv2 (fun _ => rfl) rfl)
    (sameLayer_conv0 weights) (sameLayer_conv1 weights) (sameLayer_conv2 weights)
    holdsImage

end Engine

section Results

open ClassifyOne (DeviceStatus classifyOne)
open RoiProtocol (kStatusOk kStatusAcceleratorError kStatusPostprocessError kInvalidClassId)

/-- What is promised of a result: the class of the golden model, or that some
logit does not fit or there was no memory. -/
structure IsGolden (model : Model) (answer : Answer) : Prop where
  ok : answer.result.status = kStatusOk →
    (∀ logit ∈ goldenLogits model answer.image, FitsInt32 logit) ∧
      answer.result.classId.toNat = GoldenInt8.argmax (goldenLogits model answer.image)
  failed : answer.result.status ≠ kStatusOk →
    answer.result.status = kStatusPostprocessError ∧
      (answer.allocated = false ∨
        ¬ ∀ logit ∈ goldenLogits model answer.image, FitsInt32 logit)

/-- A model that can be loaded, and the divisor with which its sums stay those of the
golden model. -/
structure Usable (model : Model) : Prop where
  classes : 0 < model.classCount
  divisor : model.gapDivisor = 1

theorem Usable.divisor_ne_zero {model : Model} (usable : Usable model) :
    model.gapDivisor ≠ 0 := by
  rw [usable.divisor]
  decide

variable {deployment : Deployment} {image output : Nat → Byte}

/-- The sums of the golden map are those of the output. -/
theorem exactSum_of_holdsMap {model : Model} (holds : HoldsMap model image output)
    {c : Nat} (cIn : c < 64) :
    exactSum output c = GoldenInt8.gapSum (goldenMap model image) c := by
  refine Finset.sum_congr rfl fun row rowIn => Finset.sum_congr rfl fun col colIn => ?_
  exact holds row (Finset.mem_range.mp rowIn) col (Finset.mem_range.mp colIn) c cIn

theorem exactLogits_of_holdsMap {model : Model} (usable : Usable model)
    (holds : HoldsMap model image output) (channelSums : Nat → Accum 32) :
    exactLogits output channelSums model.gapDivisor (fcWeightAt model)
      (fcBiasAt model) model.classCount = goldenLogits model image := by
  rw [← dividedLogits_of_one usable.divisor]
  refine List.map_congr_left fun n _ => ?_
  rw [exactLogit]
  congr 1
  refine Finset.sum_congr rfl fun c cIn => ?_
  have inside := Finset.mem_range.mp cIn
  rw [ClassifierPostprocess.toInt_gapSums _ _ inside, exactSum_of_holdsMap holds inside]

/-- A `RUN` that failed is reported as such. -/
theorem status_of_run_failed {status : DeviceStatus} (failed : status ≠ .ok)
    (channelSums : Nat → Accum 32) (logits : Option (Nat → BitVec 32)) :
    (classifyOne (finishStages deployment output status channelSums logits)).status =
      kStatusAcceleratorError := by
  simp [classifyOne, finishStages, failed, ClassifyOne.failedResult]

variable (channelSums : Nat → Accum 32) (logits : Nat → BitVec 32)

/-- When the golden logits fit, the result has the golden class. -/
theorem classifyOne_of_fits (usable : Usable deployment.model)
    (holds : HoldsMap deployment.model image output)
    (fits : ∀ logit ∈ goldenLogits deployment.model image, FitsInt32 logit) :
    (classifyOne (finishStages deployment output .ok channelSums (some logits))).status =
        kStatusOk ∧
      (classifyOne (finishStages deployment output .ok channelSums
        (some logits))).classId.toNat =
          GoldenInt8.argmax (goldenLogits deployment.model image) := by
  have golden := exactLogits_of_holdsMap usable holds channelSums
  rw [← golden] at fits
  obtain ⟨ok, stored⟩ := ClassifierPostprocess.fc_of_fits logits
    (ClassifierPostprocess.gapSums_bounded output channelSums) usable.divisor_ne_zero
    usable.classes (ClassifierPostprocess.forall_exactLogits_iff.mp fits)
  set stages := finishStages deployment output .ok channelSums (some logits)
    with stagesEq
  have status : stages.fc = .ok := ok
  have values : stages.logits = goldenLogits deployment.model image := by
    rw [← golden]
    exact List.map_congr_left fun i mem => stored i (List.mem_range.mp mem)
  have nonempty : goldenLogits deployment.model image ≠ [] := by
    rw [← golden]
    exact ClassifierPostprocess.exactLogits_ne_nil usable.classes
  have counted : (goldenLogits deployment.model image).length ≤
      ClassifyOne.kMaxClassCount := by
    rw [← values]
    exact stages.logitsSize.trans_le deployment.counted
  have result : classifyOne stages =
      { status := kStatusOk
        classId := BitVec.ofNat 32
          (GoldenInt8.argmax (goldenLogits deployment.model image))
        confidencePpm := stages.confidencePpm.getD 0#32 } := by
    simp only [classifyOne, status, if_true, values,
      ClassifierPostprocess.argmax_golden nonempty]
    rfl
  rw [result]
  exact ⟨rfl, ClassifierPostprocess.toNat_golden_argmax nonempty counted⟩

/-- When some golden logit does not fit, there is no class. -/
theorem classifyOne_of_not_fits (usable : Usable deployment.model)
    (holds : HoldsMap deployment.model image output)
    (outside : ¬ ∀ logit ∈ goldenLogits deployment.model image, FitsInt32 logit) :
    (classifyOne (finishStages deployment output .ok channelSums (some logits))).status =
      kStatusPostprocessError := by
  rw [← exactLogits_of_holdsMap usable holds channelSums,
    ClassifierPostprocess.forall_exactLogits_iff] at outside
  push Not at outside
  have status : (finishStages deployment output .ok channelSums (some logits)).fc =
      .overflow :=
    ClassifierPostprocess.fc_of_not_fits logits
      (ClassifierPostprocess.gapSums_bounded output channelSums) usable.divisor_ne_zero outside
  simp only [classifyOne, status]
  rfl

/-- On the golden map the rest of `classify_one` gives the golden class. -/
theorem isGolden_of_holdsMap (usable : Usable deployment.model)
    (holds : HoldsMap deployment.model image output) (logits : Option (Nat → BitVec 32)) :
    IsGolden deployment.model ⟨image, logits.isSome,
      classifyOne (finishStages deployment output .ok channelSums logits)⟩ := by
  have different : kStatusPostprocessError ≠ kStatusOk := by decide
  cases logits with
  | none =>
      have status : (classifyOne (finishStages deployment output .ok channelSums
          none)).status = kStatusPostprocessError := rfl
      exact ⟨fun ok => absurd (status.symm.trans ok) different,
        fun _ => ⟨status, Or.inl rfl⟩⟩
  | some logits =>
      by_cases fits : ∀ logit ∈ goldenLogits deployment.model image, FitsInt32 logit
      · obtain ⟨status, classId⟩ :=
          classifyOne_of_fits channelSums logits usable holds fits
        exact ⟨fun _ => ⟨fits, classId⟩, fun failed => absurd status failed⟩
      · have status :=
          classifyOne_of_not_fits channelSums logits usable holds fits
        exact ⟨fun ok => absurd (status.symm.trans ok) different,
          fun _ => ⟨status, Or.inr fits⟩⟩

/-- The layers end with a clamp, so that the sums of the golden map are small. -/
theorem abs_gapSum_goldenMap_le (model : Model) (image : Nat → Byte) (c : Nat) :
    |GoldenInt8.gapSum (goldenMap model image) c| ≤ 18288 := by
  have clamped : ∀ acc multiplier shift,
      |GoldenInt8.requantReluClamp acc multiplier shift| ≤ 127 := by
    intro acc multiplier shift
    rw [GoldenInt8.requantReluClamp, abs_le]
    omega
  have cell : ∀ row col, |goldenMap model image row col c| ≤ 127 := fun row col =>
    abs_max_le_max_abs_abs.trans (max_le
      (abs_max_le_max_abs_abs.trans (max_le (clamped _ _ _) (clamped _ _ _)))
      (abs_max_le_max_abs_abs.trans (max_le (clamped _ _ _) (clamped _ _ _))))
  calc |GoldenInt8.gapSum (goldenMap model image) c|
      ≤ ∑ _row ∈ Finset.range 12, ∑ _col ∈ Finset.range 12, (127 : Int) :=
        (Finset.abs_sum_le_sum_abs _ _).trans (Finset.sum_le_sum fun row _ =>
          (Finset.abs_sum_le_sum_abs _ _).trans (Finset.sum_le_sum fun col _ => cell row col))
    _ = 18288 := by simp

/-- With small biases every golden logit fits. -/
theorem goldenLogits_fit {model : Model} (image : Nat → Byte)
    (small : ∀ n < model.classCount, |(fcBiasAt model n).toInt| ≤ 2 ^ 30) :
    ∀ logit ∈ goldenLogits model image, FitsInt32 logit := by
  intro logit mem
  obtain ⟨n, nIn, rfl⟩ := List.mem_map.mp mem
  have bias := small n (List.mem_range.mp nIn)
  have sum : |∑ c ∈ Finset.range 64, GoldenInt8.gapSum (goldenMap model image) c *
      (fcWeightAt model (n * 64 + c)).toInt| ≤ 149815296 := by
    calc |∑ c ∈ Finset.range 64, GoldenInt8.gapSum (goldenMap model image) c *
          (fcWeightAt model (n * 64 + c)).toInt|
        ≤ ∑ _c ∈ Finset.range 64, (18288 * 128 : Int) := by
          refine (Finset.abs_sum_le_sum_abs _ _).trans (Finset.sum_le_sum fun c _ => ?_)
          rw [abs_mul]
          exact mul_le_mul (abs_gapSum_goldenMap_le model image c)
            (FixedWidth.abs_toInt_le _) (abs_nonneg _) (by decide)
      _ = 149815296 := by simp
  rw [abs_le] at bias sum
  dsimp only [FitsInt32]
  omega

end Results

section Runs

open ClassifyOne (DeviceStatus)
open RoiProtocol (kStatusAcceleratorError)

variable {deployment : Deployment} {system : System} {model : Model}
variable {device next : ServerDevice} {image : Nat → Byte}

/-- The device has the weights and parameters of the model. -/
structure Configured (model : Model) (device : ServerDevice) : Prop where
  weights : HoldsWeights model device.ifmap
  parametersSet : device.parametersSet = true
  parameters : device.parameters = plParameters model

/-- No ioctl is under way, and nothing is left of an earlier one. -/
def Rests (device : ServerDevice) : Prop :=
  device.call = .free ∧ device.core.Quiet

/-- The accelerator works on the image, or its output is that of the image. -/
def Works (model : Model) (image : Nat → Byte) (device : ServerDevice) : Prop :=
  (∃ computation, device.core.running = some computation ∧
      device.core.apDone = false ∧ computation.parameters = plParameters model ∧
      HoldsWeights model computation.ifmap ∧ HoldsImage image computation.ifmap) ∨
    (device.core.running = none ∧ HoldsMap model image device.output)

/-- The device in the `RUN` ioctl for an image. -/
def CallHolds (model : Model) (image : Nat → Byte) (device : ServerDevice) : Prop :=
  match device.call with
  | .free => False
  | .starting _ => device.core.Quiet ∧ HoldsImage image device.ifmap
  | .polling _ => Works model image device
  | .sleeping _ => Works model image device

/-- What holds of the device at each stage, as long as no `RUN` has failed. -/
def StageHolds (model : Model) (device : ServerDevice) : Stage → Prop
  | .receiving => Rests device
  | .received _ => Rests device
  | .preprocessed image => Rests device ∧ HoldsImage image device.ifmap
  | .calling image => CallHolds model image device
  | .returned image .ok => Rests device ∧ HoldsMap model image device.output
  | .returned _ _ => True

/-- What the clock and an accelerator at rest can do to the device. -/
structure Unaffected (device next : ServerDevice) : Prop where
  ifmap : next.ifmap = device.ifmap
  output : device.core.running = none → next.output = device.output
  parametersSet : next.parametersSet = device.parametersSet
  parameters : next.parameters = device.parameters
  core : next.core = device.core
  call : next.call = device.call

theorem Unaffected.configured (unaffected : Unaffected device next)
    (configured : Configured model device) : Configured model next := by
  refine ⟨?_, ?_, ?_⟩
  · rw [unaffected.ifmap]
    exact configured.weights
  · rw [unaffected.parametersSet]
    exact configured.parametersSet
  · rw [unaffected.parameters]
    exact configured.parameters

theorem Unaffected.rests (unaffected : Unaffected device next) (rests : Rests device) :
    Rests next := by
  rw [Rests, unaffected.call, unaffected.core]
  exact rests

theorem Unaffected.works (unaffected : Unaffected device next)
    (works : Works model image device) : Works model image next := by
  rw [Works, unaffected.core]
  refine works.imp_right fun ⟨idle, map⟩ => ⟨idle, ?_⟩
  rw [unaffected.output idle]
  exact map

theorem Unaffected.stageHolds (unaffected : Unaffected device next) {stage : Stage}
    (holds : StageHolds model device stage) : StageHolds model next stage := by
  cases stage with
  | receiving | received _ => exact unaffected.rests holds
  | preprocessed image =>
      refine ⟨unaffected.rests holds.1, ?_⟩
      rw [unaffected.ifmap]
      exact holds.2
  | calling image =>
      simp only [StageHolds, CallHolds, unaffected.call] at holds ⊢
      cases call : device.call with
      | free => simp [call] at holds
      | starting _ =>
          simp only [call] at holds
          dsimp only
          rw [unaffected.core, unaffected.ifmap]
          exact holds
      | polling _ | sleeping _ =>
          simp only [call] at holds
          exact unaffected.works holds
  | returned image status =>
      cases status with
      | ok =>
          refine ⟨unaffected.rests holds.1, ?_⟩
          rw [unaffected.output holds.1.2.1]
          exact holds.2
      | invalidArgument | ioError | abiMismatch => trivial

theorem unaffected_tick (deployment : Deployment) (device : ServerDevice)
    (count : BitVec 32) :
    Unaffected device (drive deployment device (.tick count)).1 :=
  ⟨rfl, fun _ => rfl, rfl, rfl, rfl, rfl⟩

theorem unaffected_progress (deployment : Deployment) (device : ServerDevice)
    (output : Nat → Byte) :
    Unaffected device (drive deployment device (.progress output)).1 := by
  cases running : device.core.running with
  | none =>
      simp only [drive, ClassifierDriver.step, running]
      exact ⟨rfl, fun _ => rfl, rfl, rfl, rfl, rfl⟩
  | some computation =>
      simp only [drive, ClassifierDriver.step, running]
      exact ⟨rfl, fun idle => by simp [running] at idle, rfl, rfl, rfl, rfl⟩

/-- The start hands the image to the accelerator. -/
theorem works_start (configured : Configured model device)
    (quiet : device.core.Quiet) (holdsImage : HoldsImage image device.ifmap)
    (core : next.core = device.core.startWith device.request) :
    Works model image next := by
  have started : next.core = { device.core with running := some device.request } := by
    rw [core, ClassifierDriver.Core.startWith, quiet.1]
  refine Or.inl ⟨device.request, ?_, ?_, configured.parameters, configured.weights,
    holdsImage⟩
  · rw [started]
  · rw [started]
    exact quiet.2

/-- Until the bit is set, reading the control register changes nothing. -/
theorem Works.read (works : Works model image device)
    (core : next.core = { device.core with apDone := false })
    (output : next.output = device.output) : Works model image next := by
  rw [Works, core, output]
  exact works.imp (fun ⟨computation, running, _, own⟩ =>
    ⟨computation, running, rfl, own⟩) id

/-- When the bit is read as set, the output is that of the image. -/
theorem Works.done (works : Works model image device)
    (done : device.core.apDone = true) :
    device.core.running = none ∧ HoldsMap model image device.output := by
  rcases works with ⟨_, _, notDone, _⟩ | finished
  · rw [notDone] at done
    cases done
  · exact finished

/-- A step of the server in the ioctl keeps what holds of the call, and leaves
the ioctl with success only when the output is that of the image. -/
theorem drive_waiting (deployment : Deployment) (configured : Configured model device)
    (holds : CallHolds model image device) (waiting : Waiting) :
    Configured model (drive deployment device waiting.action).1 ∧
      StageHolds model (drive deployment device waiting.action).1
        (afterDrive image (drive deployment device waiting.action).2) := by
  cases call : device.call with
  | free => simp [CallHolds, call] at holds
  | starting timeoutMs =>
      have before : device.core.Quiet ∧ HoldsImage image device.ifmap := by
        simpa only [CallHolds, call] using holds
      cases waiting with
      | start =>
          simp only [Waiting.action, drive, ClassifierDriver.step, call]
          exact ⟨⟨configured.weights, configured.parametersSet, configured.parameters⟩,
            works_start configured before.1 before.2 rfl⟩
      | poll | wake =>
          simp only [Waiting.action, drive, ClassifierDriver.step, call]
          exact ⟨configured, holds⟩
  | polling deadline =>
      have works : Works model image device := by
        simpa only [CallHolds, call] using holds
      cases waiting with
      | poll =>
          cases done : device.core.apDone with
          | true =>
              obtain ⟨idle, map⟩ := works.done done
              simp only [Waiting.action, drive, ClassifierDriver.step, call,
                ClassifierDriver.Core.readDone, done, if_true]
              exact ⟨⟨configured.weights, configured.parametersSet,
                configured.parameters⟩, ⟨rfl, idle, rfl⟩, map⟩
          | false =>
              simp only [Waiting.action, drive, ClassifierDriver.step, call,
                ClassifierDriver.Core.readDone, done, Bool.false_eq_true, if_false]
              exact ⟨⟨configured.weights, configured.parametersSet,
                configured.parameters⟩, works.read rfl rfl⟩
      | start | wake =>
          simp only [Waiting.action, drive, ClassifierDriver.step, call]
          exact ⟨configured, holds⟩
  | sleeping deadline =>
      have works : Works model image device := by
        simpa only [CallHolds, call] using holds
      cases waiting with
      | wake =>
          cases early : ClassifierDriver.timeBefore device.jiffies deadline with
          | true =>
              simp only [Waiting.action, drive, ClassifierDriver.step, call, early,
                if_true]
              exact ⟨⟨configured.weights, configured.parametersSet,
                configured.parameters⟩, works⟩
          | false =>
              simp only [Waiting.action, drive, ClassifierDriver.step, call, early,
                Bool.false_eq_true, if_false]
              exact ⟨⟨configured.weights, configured.parametersSet,
                configured.parameters⟩, trivial⟩
      | start | poll =>
          simp only [Waiting.action, drive, ClassifierDriver.step, call]
          exact ⟨configured, holds⟩

/-- The completion leaves the golden map in the output. -/
theorem works_complete (supported : ModelSupported model) {scratch : Scratch}
    {statics : EngineStatics} {computation : ClassifierDriver.Computation (Nat → Byte)}
    (works : Works model image device)
    (running : device.core.running = some computation)
    (core : next.core.running = none)
    (output : next.output = flatten3 12 64
      (engineRun scratch statics device.output computation.parameters
        computation.ifmap).out) :
    Works model image next := by
  rcases works with ⟨own, runs, -, parameters, weights, holdsImage⟩ | ⟨idle, -⟩
  · rw [running, Option.some_inj] at runs
    subst runs
    refine Or.inr ⟨core, fun row rowIn col colIn c cIn => ?_⟩
    have golden := engineRun_golden supported scratch statics device.output weights
      holdsImage row rowIn col colIn c cIn
    rw [← parameters] at golden
    dsimp only
    rw [output, RowMajor.flatten3_index3 _ colIn cIn]
    exact golden
  · simp [idle] at running

/-- The accelerator completes only while the server waits for it. -/
theorem stageHolds_complete {computation : ClassifierDriver.Computation (Nat → Byte)}
    {stage : Stage} (holds : StageHolds model device stage)
    (running : device.core.running = some computation) (call : next.call = device.call)
    (completes : ∀ image, Works model image device → Works model image next) :
    StageHolds model next stage := by
  have notQuiet : ¬ device.core.Quiet := fun quiet => by
    simp [quiet.1] at running
  cases stage with
  | receiving | received _ => exact absurd holds.2 notQuiet
  | preprocessed image => exact absurd holds.1.2 notQuiet
  | calling image =>
      simp only [StageHolds, CallHolds, call] at holds ⊢
      cases isCall : device.call with
      | free => simp [isCall] at holds
      | starting _ =>
          simp only [isCall] at holds
          exact absurd holds.1 notQuiet
      | polling _ | sleeping _ =>
          simp only [isCall] at holds
          exact completes image holds
  | returned image status =>
      cases status with
      | ok => exact absurd holds.1.2 notQuiet
      | invalidArgument | ioError | abiMismatch => trivial

/-- No `RUN` has failed so far. -/
structure Healthy (system : System) : Prop where
  answers : ∀ answer ∈ system.answers, answer.result.status ≠ kStatusAcceleratorError
  returned : ∀ image status, system.stage = .returned image status → status = .ok

/-- What holds of the system: the results before the first failure are golden,
and until then the device is as the stage of the server has it. -/
structure Sound (model : Model) (system : System) : Prop where
  golden : ∀ (index : Nat) answer, system.answers[index]? = some answer →
    (∀ earlier ≤ index, ∀ other, system.answers[earlier]? = some other →
      other.result.status ≠ kStatusAcceleratorError) → IsGolden model answer
  configured : Healthy system → Configured model system.device
  stage : Healthy system → StageHolds model system.device system.stage

/-- An event that leads to no result keeps what holds. -/
theorem Sound.keep {next : System} (sound : Sound model system)
    (answers : next.answers = system.answers)
    (returned : ∀ image status, system.stage = .returned image status →
      next.stage = .returned image status)
    (moves : Configured model system.device →
      StageHolds model system.device system.stage →
        Configured model next.device ∧ StageHolds model next.device next.stage) :
    Sound model next := by
  have healthy : Healthy next → Healthy system := fun healthy =>
    ⟨answers ▸ healthy.answers, fun image status isReturned =>
      healthy.returned image status (returned image status isReturned)⟩
  refine ⟨?_, fun still => ?_, fun still => ?_⟩
  · rw [answers]
    exact sound.golden
  · exact (moves (sound.configured (healthy still)) (sound.stage (healthy still))).1
  · exact (moves (sound.configured (healthy still)) (sound.stage (healthy still))).2

/-- The result of an image that the accelerator has returned is golden unless a
`RUN` has failed. -/
theorem Sound.finish {image : Nat → Byte} {status : DeviceStatus}
    (usable : Usable deployment.model) (sound : Sound deployment.model system)
    (isReturned : system.stage = .returned image status)
    (channelSums : Nat → Accum 32) (logits : Option (Nat → BitVec 32)) :
    Sound deployment.model
      (step deployment system (.finish channelSums logits)) := by
  set answer : Answer := ⟨image, logits.isSome, ClassifyOne.classifyOne (finishStages
    deployment system.device.output status channelSums logits)⟩ with answerEq
  have next : step deployment system (.finish channelSums logits) =
      ⟨system.device, system.statics, .receiving, system.answers ++ [answer]⟩ := by
    simp only [step, isReturned, answerEq]
  -- When no result so far is a failure, the `RUN` for the image has not failed.
  have healthy : (∀ other ∈ system.answers ++ [answer],
      other.result.status ≠ kStatusAcceleratorError) →
        status = .ok ∧ Healthy system := by
    intro noError
    have ok : status = .ok := by
      by_contra failed
      exact noError answer (by simp) (status_of_run_failed failed channelSums logits)
    refine ⟨ok, fun other mem => noError other (List.mem_append_left _ mem), ?_⟩
    intro otherImage other same
    rw [isReturned, Stage.returned.injEq] at same
    exact same.2.symm.trans ok
  have holds : (∀ other ∈ system.answers ++ [answer],
      other.result.status ≠ kStatusAcceleratorError) →
        Configured deployment.model system.device ∧ Rests system.device ∧
          IsGolden deployment.model answer := by
    intro noError
    obtain ⟨rfl, isHealthy⟩ := healthy noError
    have stage := sound.stage isHealthy
    rw [isReturned] at stage
    exact ⟨sound.configured isHealthy, stage.1,
      isGolden_of_holdsMap channelSums usable stage.2 logits⟩
  rw [next]
  refine ⟨fun index other isAnswer noError => ?_, fun still => (holds still.answers).1,
    fun still => (holds still.answers).2.1⟩
  rcases Nat.lt_or_ge index system.answers.length with before | after
  · refine sound.golden index other ?_ fun earlier atMost third isThird => ?_
    · rwa [List.getElem?_append_left before] at isAnswer
    · refine noError earlier atMost third ?_
      rwa [List.getElem?_append_left (by omega)]
  · have last : index = system.answers.length := by
      have inRange := (List.getElem?_eq_some_iff.mp isAnswer).1
      simp only [List.length_append, List.length_singleton] at inRange
      omega
    subst last
    rw [List.getElem?_concat_length, Option.some_inj] at isAnswer
    subst isAnswer
    refine (holds fun third mem => ?_).2.2
    obtain ⟨earlier, isEarlier⟩ := List.mem_iff_getElem?.mp mem
    have inRange := (List.getElem?_eq_some_iff.mp isEarlier).1
    simp only [List.length_append, List.length_singleton] at inRange
    exact noError earlier (by omega) third isEarlier

/-- Every event keeps what holds of the system. -/
theorem Sound.step (usable : Usable deployment.model)
    (supported : ModelSupported deployment.model)
    (sound : Sound deployment.model system) (event : Event) :
    Sound deployment.model (step deployment system event) := by
  cases event with
  | receive image =>
      cases stage : system.stage with
      | receiving =>
          refine sound.keep (by simp [ClassifierDeployment.step, stage])
            (by simp [stage]) fun configured holds => ?_
          simpa [ClassifierDeployment.step, stage, StageHolds] using
            And.intro configured holds
      | received _ | preprocessed _ | calling _ | returned _ _ =>
          simpa only [ClassifierDeployment.step, stage] using sound
  | preprocess =>
      cases stage : system.stage with
      | received image =>
          refine sound.keep (by simp [ClassifierDeployment.step, stage])
            (by simp [stage]) fun configured holds => ?_
          simp only [ClassifierDeployment.step, stage, drive, ClassifierDriver.step]
            at holds ⊢
          exact ⟨⟨configured.weights.preprocess image, configured.parametersSet,
            configured.parameters⟩, holds, holdsImage_preprocess image _⟩
      | receiving | preprocessed _ | calling _ | returned _ _ =>
          simpa only [ClassifierDeployment.step, stage] using sound
  | run =>
      cases stage : system.stage with
      | preprocessed image =>
          refine sound.keep (by simp [ClassifierDeployment.step, stage])
            (by simp [stage]) fun configured holds => ?_
          rw [stage] at holds
          obtain ⟨⟨free, quiet⟩, holdsImage⟩ := holds
          have accepted : ¬ (system.device.parametersSet = false ∨
              (1000 : BitVec 32) = 0) := by
            rw [configured.parametersSet]
            decide
          simp only [ClassifierDeployment.step, stage, drive, ClassifierDriver.step,
            free, ClassifierDriver.enterRun, if_neg accepted, afterDrive]
          exact ⟨⟨configured.weights, configured.parametersSet, configured.parameters⟩,
            quiet, holdsImage⟩
      | receiving | received _ | calling _ | returned _ _ =>
          simpa only [ClassifierDeployment.step, stage] using sound
  | waiting waiting =>
      cases stage : system.stage with
      | calling image =>
          refine sound.keep (by simp [ClassifierDeployment.step, stage])
            (by simp [stage]) fun configured holds => ?_
          rw [stage] at holds
          simpa only [ClassifierDeployment.step, stage] using
            drive_waiting deployment configured holds waiting
      | receiving | received _ | preprocessed _ | returned _ _ =>
          simpa only [ClassifierDeployment.step, stage] using sound
  | tick count =>
      have unaffected := unaffected_tick deployment system.device count
      exact sound.keep rfl (fun _ _ same => same) fun configured holds =>
        ⟨unaffected.configured configured, unaffected.stageHolds holds⟩
  | progress output =>
      have unaffected := unaffected_progress deployment system.device output
      exact sound.keep rfl (fun _ _ same => same) fun configured holds =>
        ⟨unaffected.configured configured, unaffected.stageHolds holds⟩
  | complete scratch =>
      cases running : system.device.core.running with
      | none => simpa only [ClassifierDeployment.step, running] using sound
      | some computation =>
          refine sound.keep (by simp only [ClassifierDeployment.step, running])
            (fun _ _ same => by simpa only [ClassifierDeployment.step, running] using same)
            fun configured holds => ?_
          simp only [ClassifierDeployment.step, running, ClassifierDriver.step]
          exact ⟨⟨configured.weights, configured.parametersSet, configured.parameters⟩,
            stageHolds_complete holds running rfl fun image works =>
              works_complete supported works running rfl rfl⟩
  | finish channelSums logits =>
      cases stage : system.stage with
      | returned image status => exact sound.finish usable stage channelSums logits
      | receiving | received _ | preprocessed _ | calling _ =>
          simpa only [ClassifierDeployment.step, stage] using sound

/-- A model that has been loaded with a divisor of one is usable. -/
theorem usable_of_load {environment : ClassifierModel.Environment}
    {directory : ClassifierModel.CString} {metadata : ClassifierModel.Metadata}
    (loads : ClassifierModel.load environment (some ClassifierModel.cleared)
      (some directory) (some metadata) = (.ok, some model))
    (divisor : metadata.gapDivisor = 1) : Usable model := by
  have accepted : ClassifierModel.isRejected environment ClassifierModel.cleared directory
      metadata = false := by
    rw [← Bool.not_eq_true]
    intro rejected
    have refused : ClassifierModel.load environment (some ClassifierModel.cleared)
        (some directory) (some metadata) =
          (.invalidArgument, some ClassifierModel.cleared) :=
      ClassifierModel.load_rejected rejected
    rw [refused] at loads
    cases loads
  obtain ⟨same, isSame, loaded⟩ := ClassifierModel.loaded_of_load
    (congrArg Prod.fst loads)
  rw [loads, Option.some_inj] at isSame
  subst isSame
  simp only [ClassifierModel.isRejected, Bool.or_eq_false_iff, beq_eq_false_iff_ne]
    at accepted
  constructor
  · rw [loaded.classCount]
    exact Nat.pos_of_ne_zero accepted.1.1.1.1.2
  · rw [loaded.gapDivisor]
    exact divisor

/-- The configuration of a device at rest leaves it at rest. -/
theorem configure_ok {configured : ServerDevice} (rests : Rests device)
    (configures : configure model device = (configured, .ok ())) :
    Configured model configured ∧ Rests configured := by
  simp only [configure, ClassifierDriver.setParameters] at configures
  split_ifs at configures with tooLarge
  · cases configures
  · rw [Prod.mk.injEq] at configures
    obtain ⟨rfl, -⟩ := configures
    exact ⟨⟨holdsWeights_copyWeights model device.ifmap, rfl, rfl⟩, rests⟩

/-- Every run of the system keeps what holds of it. -/
theorem sound_run (usable : Usable deployment.model)
    (supported : ModelSupported deployment.model) (rests : Rests device)
    {configured : ServerDevice}
    (configures : configure deployment.model device = (configured, .ok ()))
    (statics : EngineStatics) (events : List Event) :
    Sound deployment.model ((machine deployment configured statics).runFrom
      (machine deployment configured statics).init events) := by
  refine EventMachine.run_induction (machine deployment configured statics)
    (fun _ system _ => Sound deployment.model system) ?_
    (fun _ _ _ event sound => sound.step usable supported event) events
  obtain ⟨isConfigured, stillRests⟩ := configure_ok rests configures
  exact ⟨fun index answer isAnswer => by simp [machine] at isAnswer,
    fun _ => isConfigured, fun _ => stillRests⟩

/-- The results that the server has given after some events. -/
def answersAfter (deployment : Deployment) (configured : ServerDevice)
    (statics : EngineStatics) (events : List Event) : List Answer :=
  ((machine deployment configured statics).runFrom
    (machine deployment configured statics).init events).answers

end Runs

section Example

open ClassifyOne (classifyOne)
open RoiProtocol (kStatusAcceleratorError kStatusOk)

/-- A `RUN` that succeeded is not reported as failed. -/
theorem status_of_run_ok {model : ClassifyOne.Model}
    (stages : ClassifyOne.Stages model) (ok : stages.run = .ok) :
    (classifyOne stages).status ≠ kStatusAcceleratorError := by
  simp only [classifyOne, ok, ne_eq, not_true_eq_false, if_false]
  split_ifs <;> simp [ClassifyOne.failedResult, kStatusAcceleratorError,
    RoiProtocol.kStatusInvalidPayload, RoiProtocol.kStatusPostprocessError,
    RoiProtocol.kStatusOk]

/-- Weights and biases that tell their positions, and six classes. -/
def countingModel : Model where
  wConv0 := (List.range 432).map (BitVec.ofNat 8)
  wConv1 := (List.range 4608).map (BitVec.ofNat 8)
  wConv2 := (List.range 18432).map (BitVec.ofNat 8)
  bConv0 := (List.range 16).flatMap fun oc => [BitVec.ofNat 8 oc, 1, 0, 0]
  bConv1 := (List.range 32).flatMap fun oc => [BitVec.ofNat 8 oc, 2, 0, 0]
  bConv2 := (List.range 64).flatMap fun oc => [BitVec.ofNat 8 oc, 3, 0, 0]
  rqConv0 := ⟨0x40000000, 40⟩
  rqConv1 := ⟨0x50000000, 41⟩
  rqConv2 := ⟨0x60000000, 42⟩
  fcWeights := some ((List.range 384).map (BitVec.ofNat 8))
  fcBiases := some ((List.range 6).flatMap fun n => [BitVec.ofNat 8 n, 4, 0, 0])
  classCount := 6
  gapDivisor := 1

/-- A kernel that counts in milliseconds. -/
def countingDeployment : Deployment where
  model := countingModel
  counted := by decide
  msecsToJiffies timeoutMs := timeoutMs
  confidence _ _ := none
  confidenceInRange _ _ _ isSome := by cases isSome

/-- A device that holds leftovers. -/
def usedDevice : ServerDevice where
  parametersSet := false
  parameters := ⟨fun _ => ⟨7, 99⟩, fun _ => 7, fun _ => 7, fun _ => 7⟩
  ifmap _ := 77
  output _ := 77
  jiffies := 5
  core := {}
  call := .free
  starts := 0

/-- One image, with a tick of the clock while the accelerator runs. -/
def oneImage : List Event :=
  [.receive fun index => BitVec.ofNat 8 index, .preprocess, .run, .waiting .start, .tick 3, .waiting .poll,
    .complete ClassifierEngine.usedScratch, .waiting .wake, .waiting .poll,
    .finish (fun _ => .ofBits 1) (some fun _ => 1)]

def configuredDevice : ServerDevice :=
  (configure countingModel usedDevice).1

/-- The system when only the result is left to be given. -/
def beforeFinish : System :=
  (machine countingDeployment configuredDevice ClassifierEngine.usedStatics).stateAt
    oneImage 9

theorem answers_oneImage :
    answersAfter countingDeployment configuredDevice ClassifierEngine.usedStatics oneImage =
      [⟨fun index => BitVec.ofNat 8 index, true,
        classifyOne (finishStages countingDeployment beforeFinish.device.output .ok
          (fun _ => .ofBits 1) (some fun _ => 1))⟩] := by
  have stage : beforeFinish.stage = .returned (fun index => BitVec.ofNat 8 index) .ok := rfl
  have noAnswer : beforeFinish.answers = [] := rfl
  have last : answersAfter countingDeployment configuredDevice ClassifierEngine.usedStatics
      oneImage = (step countingDeployment beforeFinish
        (.finish (fun _ => .ofBits 1) (some fun _ => 1))).answers := rfl
  rw [last]
  simp only [step, stage, noAnswer, List.nil_append, Option.isSome_some]

end Example

end Adas.ClassifierDeployment
