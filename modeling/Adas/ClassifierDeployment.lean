import Adas.ClassifierEngineGolden
import Adas.ClassifierModel
import Adas.ClassifierPostprocessGolden
import Adas.ClassifierRegisters
import Adas.RoiPreprocess

/-!
# The classifier as it is deployed

The server copies the weights that it has loaded into the DMA buffer, hands the
biases to the driver and then classifies one image after the other.  Between
its steps, and while it waits in the `RUN` ioctl, the accelerator and the clock
take theirs in any order.  The accelerator finds its input and its weights in
the buffer and its parameters in the registers, and runs the engine on them
with whatever its static arrays hold since the last time.

The buffer is kept in two halves: what the accelerator reads, below
`ADAS_CLASSIFIER_OUTPUT_OFFSET`, and what it writes.
-/

namespace Adas.ClassifierDeployment

open ClassifierDriver (Board Device Action Parameters Buffer Errno)
open ClassifierEngine (LayerParams Scratch EngineStatics EngineRun classifierTop)
open ClassifierModel (Model)
open ClassifyOne (DeviceStatus PostprocessStatus Stages classifyOne kMaxClassCount)
open Control (RoiResult)
open RowMajor (index3 index4 flatten3)
open RoiProtocol (kConfidencePpmMax kInvalidClassId)

abbrev Byte := BitVec 8

section Arrays

/-- A byte of an array. -/
def byteAt (bytes : List Byte) (index : Nat) : Byte :=
  bytes.getD index 0

/-- An element of an array of `int32_t`, lowest byte first. -/
def int32At (bytes : List Byte) (index : Nat) : BitVec 32 :=
  byteAt bytes (4 * index + 3) ++ byteAt bytes (4 * index + 2) ++
    byteAt bytes (4 * index + 1) ++ byteAt bytes (4 * index)

end Arrays

section GoldenSide

/-- `load_export` for the first layer, whose weights are not transposed. -/
def goldenConv0 (model : Model) : GoldenInt8.Layer where
  weight oc ic ky kx := (byteAt model.wConv0 (index4 3 3 3 oc ic ky kx)).toInt
  bias oc := (int32At model.bConv0 oc).toInt
  multiplier := model.rqConv0.multiplier.toInt
  shift := model.rqConv0.shift.toNat

/-- `load_export` transposes the weights of the other two layers back. -/
def goldenConv1 (model : Model) : GoldenInt8.Layer where
  weight oc ic ky kx := (byteAt model.wConv1 (index4 3 3 16 oc ky kx ic)).toInt
  bias oc := (int32At model.bConv1 oc).toInt
  multiplier := model.rqConv1.multiplier.toInt
  shift := model.rqConv1.shift.toNat

def goldenConv2 (model : Model) : GoldenInt8.Layer where
  weight oc ic ky kx := (byteAt model.wConv2 (index4 3 3 32 oc ky kx ic)).toInt
  bias oc := (int32At model.bConv2 oc).toInt
  multiplier := model.rqConv2.multiplier.toInt
  shift := model.rqConv2.shift.toNat

def fcWeightAt (model : Model) : Nat → Byte :=
  byteAt (model.fcWeights.getD [])

def fcBiasAt (model : Model) : Nat → BitVec 32 :=
  int32At (model.fcBiases.getD [])

/-- The pixels of a payload. -/
def pixels (image : Nat → Byte) : Nat → Nat → Nat → Nat :=
  fun row col c => (image (index3 96 3 row col c)).toNat

/-- The feature map that `run_golden` computes for an image. -/
def goldenMap (model : Model) (image : Nat → Byte) : GoldenInt8.Map :=
  GoldenInt8.runGolden (goldenConv0 model) (goldenConv1 model) (goldenConv2 model)
    (GoldenInt8.quantizeInput96 (pixels image))

/-- The logits of `run_golden`, which takes the sums as they are. -/
def goldenLogits (model : Model) (image : Nat → Byte) : List Int :=
  GoldenInt8.fcLogits (GoldenInt8.gapSum (goldenMap model image))
    (fun n c => (fcWeightAt model (n * 64 + c)).toInt)
    (fun n => (fcBiasAt model n).toInt) model.classCount

/-- The logits when the sums are divided as the server is told to. -/
def dividedLogits (model : Model) (image : Nat → Byte) : List Int :=
  (List.range model.classCount).map fun n =>
    (fcBiasAt model n).toInt + ∑ c ∈ Finset.range 64,
      (GoldenInt8.gapSum (goldenMap model image) c).tdiv model.gapDivisor.toInt *
        (fcWeightAt model (n * 64 + c)).toInt

/-- A divisor of one gives the logits of `run_golden`. -/
theorem dividedLogits_of_one {model : Model} (one : model.gapDivisor = 1)
    (image : Nat → Byte) : dividedLogits model image = goldenLogits model image := by
  have divisor : model.gapDivisor.toInt = 1 := by rw [one]; decide
  refine List.map_congr_left fun n _ => ?_
  simp only [divisor, Int.tdiv_one]
  exact add_comm _ _

/-- A layer is in the range that the engine and the driver support. -/
structure Supported (layer : GoldenInt8.Layer) (outCh : Nat) : Prop where
  bias : ∀ oc < outCh, |layer.bias oc| ≤ 2 ^ 30
  shift_ge : 32 ≤ layer.shift
  shift_le : layer.shift ≤ 63

end GoldenSide

section Setup

/-- The request of `adas_classifier_device_load_parameters`. -/
def plParameters (model : Model) : Parameters where
  requant
    | 0 => ⟨model.rqConv0.multiplier, model.rqConv0.shift.setWidth 32⟩
    | 1 => ⟨model.rqConv1.multiplier, model.rqConv1.shift.setWidth 32⟩
    | 2 => ⟨model.rqConv2.multiplier, model.rqConv2.shift.setWidth 32⟩
  biasConv0 i := int32At model.bConv0 i
  biasConv1 i := int32At model.bConv1 i
  biasConv2 i := int32At model.bConv2 i

/-- The three copies of `main` into the mapped buffer. -/
def copyWeights (model : Model) (arena : Nat → Byte) : Nat → Byte :=
  let arena := Buffer.wConv0.region.copy (byteAt model.wConv0) arena
  let arena := Buffer.wConv1.region.copy (byteAt model.wConv1) arena
  Buffer.wConv2.region.copy (byteAt model.wConv2) arena

abbrev ServerDevice := Device (Nat → Byte) (Nat → Byte)

/-- What `main` does with the open device before it listens. -/
def configure (model : Model) (device : ServerDevice) :
    ServerDevice × Except Errno Unit :=
  ClassifierDriver.setParameters
    { device with ifmap := copyWeights model device.ifmap }
    (some (plParameters model))

end Setup

section Accelerator

local instance convolutions_neZero : NeZero 3 := ⟨three_ne_zero⟩

/-- A layer as the accelerator finds it: its weights in the buffer, the rest in
the registers. -/
def layerAt {count : Nat} (weight : Nat → Nat → Nat → Nat → Byte)
    (bias : Fin count → BitVec 32) (requant : ClassifierDriver.Requant) :
    LayerParams where
  w := weight
  b i := if inside : i < count then bias ⟨i, inside⟩ else 0
  rq := ⟨requant.multiplier, requant.shift.setWidth 8⟩

def conv0At (parameters : Parameters) (arena : Nat → Byte) : LayerParams :=
  layerAt
    (fun oc ic ky kx => Buffer.wConv0.region.read arena (index4 3 3 3 oc ic ky kx))
    parameters.biasConv0 (parameters.requant 0)

def conv1At (parameters : Parameters) (arena : Nat → Byte) : LayerParams :=
  layerAt
    (fun oc ky kx ic => Buffer.wConv1.region.read arena (index4 3 3 16 oc ky kx ic))
    parameters.biasConv1 (parameters.requant 1)

def conv2At (parameters : Parameters) (arena : Nat → Byte) : LayerParams :=
  layerAt
    (fun oc ky kx ic => Buffer.wConv2.region.read arena (index4 3 3 32 oc ky kx ic))
    parameters.biasConv2 (parameters.requant 2)

/-- A call of the engine on the buffer. -/
def engineRun (scratch : Scratch) (statics : EngineStatics) (output : Nat → Byte)
    (parameters : Parameters) (arena : Nat → Byte) : EngineRun :=
  classifierTop scratch statics
    (fun row col c => Buffer.ifmap.region.read arena (index3 98 3 row col c))
    (conv0At parameters arena) (conv1At parameters arena) (conv2At parameters arena)
    (fun row col c => output (index3 12 64 row col c))

end Accelerator

section Server

/-- What a server goes on: its model, how the kernel converts a timeout, and the
confidence that floating point arithmetic gives for some logits. -/
structure Deployment where
  model : Model
  counted : model.classCount ≤ kMaxClassCount
  msecsToJiffies : BitVec 32 → BitVec 32
  confidence : List Int → BitVec 32 → Option (BitVec 32)
  confidenceInRange : ∀ logits classId, ∀ ppm ∈ confidence logits classId,
    ppm ≤ kConfidencePpmMax

/-- How far `classify_one` is with an image. -/
inductive Stage where
  | receiving
  | received (image : Nat → Byte)
  | preprocessed (image : Nat → Byte)
  | calling (image : Nat → Byte)
  | returned (image : Nat → Byte) (status : DeviceStatus)

/-- A result, with the image that it is for and whether there was memory for the
logits. -/
structure Answer where
  image : Nat → Byte
  allocated : Bool
  result : RoiResult

/-- The server, the driver and the accelerator. -/
structure System where
  device : ServerDevice
  statics : EngineStatics
  stage : Stage
  answers : List Answer

/-- A step of the server that waits in the `RUN` ioctl. -/
inductive Waiting where
  | start
  | poll
  | wake

def Waiting.action {Image Output : Type} : Waiting → Action Image Output
  | .start => .start
  | .poll => .poll
  | .wake => .wake

/-- Something that happens.  A completion comes with what the accelerator's
local arrays hold, and a result with what the stack and a new block hold. -/
inductive Event where
  | receive (image : Nat → Byte)
  | preprocess
  | run
  | waiting (waiting : Waiting)
  | tick (count : BitVec 32)
  | progress (output : Nat → Byte)
  | complete (scratch : Scratch)
  | finish (channelSums : Nat → Accum 32) (logits : Option (Nat → BitVec 32))

variable (deployment : Deployment)

/-- The board for a step in which the accelerator computes `compute`. -/
def board (device : ServerDevice)
    (compute : Parameters → (Nat → Byte) → Nat → Byte) :
    Board (Nat → Byte) (Nat → Byte) where
  compute := compute
  msecsToJiffies := deployment.msecsToJiffies
  registers := device.parameters
  ifmap := device.ifmap
  output := device.output
  jiffies := device.jiffies

/-- A step of the driver, in which the accelerator does not complete. -/
def drive (device : ServerDevice) (action : Action (Nat → Byte) (Nat → Byte)) :
    ServerDevice × Option (Except Errno Unit) :=
  ClassifierDriver.step (board deployment device fun _ _ => device.output) device
    action

/-- `adas_classifier_device_run`. -/
def runStatus : Except Errno Unit → DeviceStatus
  | .ok () => .ok
  | .error _ => .ioError

/-- Where `classify_one` is after a step of the driver. -/
def afterDrive (image : Nat → Byte) : Option (Except Errno Unit) → Stage
  | none => .calling image
  | some answer => .returned image (runStatus answer)

/-- The part of `classify_one` after the accelerator, with what the stack and
the block for the logits hold before. -/
def finishStages (output : Nat → Byte) (status : DeviceStatus)
    (channelSums : Nat → Accum 32) (logits : Option (Nat → BitVec 32)) :
    Stages ⟨deployment.model.classCount, deployment.counted⟩ :=
  let model := deployment.model
  let result := ClassifierPostprocess.fc
    (ClassifierPostprocess.gapSums output channelSums) model.gapDivisor
    (fcWeightAt model) (fcBiasAt model) model.classCount (logits.getD fun _ => 0)
  let values := (List.range model.classCount).map fun i => (result.logits i).toInt
  { ifmap := true
    plOutput := true
    preprocess := .ok
    run := status
    gapSum := .ok
    allocated := logits.isSome
    fc := result.status
    logits := values
    logitsSize := (List.length_map _).trans List.length_range
    confidencePpm := deployment.confidence values
      (ClassifyOne.argmax values kInvalidClassId).2
    confidenceInRange := deployment.confidenceInRange _ _ }

/-- One event.  What cannot happen where the server is does nothing. -/
def step (system : System) : Event → System
  | .receive image =>
      match system.stage with
      | .receiving => { system with stage := .received image }
      | _ => system
  | .preprocess =>
      match system.stage with
      | .received image =>
          let arena := (RoiPreprocess.preprocess image
            ⟨system.device.ifmap, false⟩).output
          { system with
            device := (drive deployment system.device (.writeIfmap arena)).1
            stage := .preprocessed image }
      | _ => system
  | .run =>
      match system.stage with
      | .preprocessed image =>
          let driven := drive deployment system.device (.run (some 1000))
          { system with device := driven.1, stage := afterDrive image driven.2 }
      | _ => system
  | .waiting waiting =>
      match system.stage with
      | .calling image =>
          let driven := drive deployment system.device waiting.action
          { system with device := driven.1, stage := afterDrive image driven.2 }
      | _ => system
  | .tick count =>
      { system with device := (drive deployment system.device (.tick count)).1 }
  | .progress output =>
      { system with device := (drive deployment system.device (.progress output)).1 }
  | .complete scratch =>
      match system.device.core.running with
      | some computation =>
          let run := engineRun scratch system.statics system.device.output
          { system with
            device := (ClassifierDriver.step
              (board deployment system.device fun parameters arena =>
                flatten3 12 64 (run parameters arena).out)
              system.device .complete).1
            statics := (run computation.parameters computation.ifmap).statics }
      | none => system
  | .finish channelSums logits =>
      match system.stage with
      | .returned image status =>
          { system with
            stage := .receiving
            answers := system.answers ++ [{
              image := image
              allocated := logits.isSome
              result := classifyOne (finishStages deployment system.device.output
                status channelSums logits) }] }
      | _ => system

/-- The system from the moment at which `main` has configured the device. -/
def machine (device : ServerDevice) (statics : EngineStatics) :
    EventMachine System Event Unit where
  init := ⟨device, statics, .receiving, []⟩
  step system event := (step deployment system event, ())

end Server

end Adas.ClassifierDeployment
