import Adas.ClassifierDeploymentRuns

/-!
# The network that the exporter writes

The exporter writes each array of the quantized network into a file, the
weights of the last two layers with their input channel moved to the end.  The
server loads the files without looking at their contents, and the golden model
reads the same files and moves the channel back.  The file shows that nothing
is lost or exchanged on the way: a directory with the files of a network can
be loaded, and what is loaded is that network.
-/

namespace Adas.ExportedNetwork

open ClassifierDeployment
open ClassifierModel (Field Model Metadata Environment CString expectedSize)
open RowMajor (index4 flatten2 flatten4)

/-- A layer as `quantize_conv` returns it, its weights by output channel, input
channel, row and column. -/
structure QuantizedLayer where
  weightInt8 : Nat → Nat → Nat → Nat → Byte
  biasInt32 : Nat → BitVec 32
  requant : ClassifierModel.Requant

structure Network where
  conv0 : QuantizedLayer
  conv1 : QuantizedLayer
  conv2 : QuantizedLayer
  fcWeightInt8 : Nat → Nat → Byte
  fcBiasInt32 : Nat → BitVec 32
  classes : Nat

section Files

/-- `tobytes` of an array of bytes that is flat already. -/
def tobytes (count : Nat) (flat : Nat → Byte) : List Byte :=
  (List.range count).map flat

/-- `tobytes` of an array of `int32`, lowest byte first. -/
def tobytesInt32 (count : Nat) (values : Nat → BitVec 32) : List Byte :=
  tobytes (count * 4) fun position =>
    (values (position / 4)).extractLsb' (8 * (position % 4)) 8

/-- `np.transpose(weight, (0, 2, 3, 1))`. -/
def wpack (weight : Nat → Nat → Nat → Nat → Byte) : Nat → Nat → Nat → Nat → Byte :=
  fun oc ky kx ic => weight oc ic ky kx

/-- The files that `main` of the exporter writes. -/
def Network.file (network : Network) : Field → List Byte
  | .wConv0 => tobytes (16 * 3 * 3 * 3) (flatten4 3 3 3 network.conv0.weightInt8)
  | .wConv1 =>
      tobytes (32 * 3 * 3 * 16) (flatten4 3 3 16 (wpack network.conv1.weightInt8))
  | .wConv2 =>
      tobytes (64 * 3 * 3 * 32) (flatten4 3 3 32 (wpack network.conv2.weightInt8))
  | .bConv0 => tobytesInt32 16 network.conv0.biasInt32
  | .bConv1 => tobytesInt32 32 network.conv1.biasInt32
  | .bConv2 => tobytesInt32 64 network.conv2.biasInt32
  | .fcWeight => tobytes (network.classes * 64) (flatten2 64 network.fcWeightInt8)
  | .fcBias => tobytesInt32 network.classes network.fcBiasInt32

/-- What the server is told about a network. -/
def Network.metadata (network : Network) (gapDivisor : BitVec 32) : Metadata where
  classCount := network.classes
  gapDivisor := gapDivisor
  rqConv0 := network.conv0.requant
  rqConv1 := network.conv1.requant
  rqConv2 := network.conv2.requant

/-- The layer of the golden model. -/
def QuantizedLayer.layer (layer : QuantizedLayer) : GoldenInt8.Layer where
  weight oc ic ky kx := (layer.weightInt8 oc ic ky kx).toInt
  bias oc := (layer.biasInt32 oc).toInt
  multiplier := layer.requant.multiplier.toInt
  shift := layer.requant.shift.toNat

/-- The feature map of the network. -/
def Network.map (network : Network) (image : Nat → Byte) : GoldenInt8.Map :=
  GoldenInt8.runGolden network.conv0.layer network.conv1.layer network.conv2.layer
    (GoldenInt8.quantizeInput96 (pixels image))

/-- The logits that `run_golden` computes for the network. -/
def Network.goldenLogits (network : Network) (image : Nat → Byte) : List Int :=
  GoldenInt8.fcLogits (GoldenInt8.gapSum (network.map image))
    (fun n c => (network.fcWeightInt8 n c).toInt)
    (fun n => (network.fcBiasInt32 n).toInt) network.classes

/-- The logits of the network, with the sums divided. -/
def Network.logits (network : Network) (gapDivisor : BitVec 32) (image : Nat → Byte) :
    List Int :=
  (List.range network.classes).map fun n =>
    (network.fcBiasInt32 n).toInt + ∑ c ∈ Finset.range 64,
      (GoldenInt8.gapSum (network.map image) c).tdiv gapDivisor.toInt *
        (network.fcWeightInt8 n c).toInt

end Files

section Bytes

@[simp]
theorem length_tobytes (count : Nat) (flat : Nat → Byte) :
    (tobytes count flat).length = count :=
  (List.length_map flat).trans List.length_range

theorem byteAt_tobytes {count index : Nat} (flat : Nat → Byte) (inside : index < count) :
    byteAt (tobytes count flat) index = flat index := by
  simp [byteAt, tobytes, inside]

theorem int32At_tobytesInt32 {count index : Nat} (values : Nat → BitVec 32)
    (inside : index < count) :
    int32At (tobytesInt32 count values) index = values index := by
  have byte : ∀ k < 4, byteAt (tobytesInt32 count values) (4 * index + k) =
      (values index).extractLsb' (8 * k) 8 := by
    intro k below
    have quotient : (4 * index + k) / 4 = index := by omega
    have remainder : (4 * index + k) % 4 = k := by omega
    rw [tobytesInt32, byteAt_tobytes _ (by omega), quotient, remainder]
  have first := byte 0 (by omega)
  rw [Nat.add_zero] at first
  rw [int32At, byte 3 (by omega), byte 2 (by omega), byte 1 (by omega), first]
  exact RoiProtocol.append_extractLsb'_u32 (values index)

end Bytes

section RoundTrip

variable {network : Network} {model : Model} {gapDivisor : BitVec 32}

/-- The model's arrays are the files of the network, and its numbers are those
that the server is told. -/
structure Holds (network : Network) (gapDivisor : BitVec 32) (model : Model) : Prop where
  arrays : ∀ field, model.array field = some (network.file field)
  rqConv0 : model.rqConv0 = network.conv0.requant
  rqConv1 : model.rqConv1 = network.conv1.requant
  rqConv2 : model.rqConv2 = network.conv2.requant
  classCount : model.classCount = network.classes
  divisor : model.gapDivisor = gapDivisor

/-- Every file has the size that the server expects. -/
theorem length_file (network : Network) (gapDivisor : BitVec 32) (field : Field) :
    (network.file field).length =
      expectedSize (network.metadata gapDivisor) field := by
  cases field <;> simp [Network.file, tobytesInt32, expectedSize, Field.size,
    Network.metadata, ClassifierModel.kWConv0Size, ClassifierModel.kWConv1Size,
    ClassifierModel.kWConv2Size, ClassifierModel.kBConv0Count,
    ClassifierModel.kBConv1Count, ClassifierModel.kBConv2Count,
    ClassifierModel.kSizeofInt32, ClassifierModel.kOutputChannels]

/-- The bytes of a layer's biases and requantization are read as they were. -/
theorem sameLayer_of_weight {layer : GoldenInt8.Layer} {source : QuantizedLayer}
    {channels outCh : Nat} {biases : List Byte} {requant : ClassifierModel.Requant}
    (weight : ∀ oc < outCh, ∀ ic < channels, ∀ ky < 3, ∀ kx < 3,
      layer.weight oc ic ky kx = (source.weightInt8 oc ic ky kx).toInt)
    (biasesEq : biases = tobytesInt32 outCh source.biasInt32)
    (requantEq : requant = source.requant)
    (bias : ∀ oc, layer.bias oc = (int32At biases oc).toInt)
    (multiplier : layer.multiplier = requant.multiplier.toInt)
    (shift : layer.shift = requant.shift.toNat) :
    SameLayer layer source.layer channels outCh := by
  subst biasesEq requantEq
  refine ⟨weight, fun oc ocIn => ?_, multiplier, shift⟩
  rw [bias, int32At_tobytesInt32 _ ocIn]
  rfl

/-- Moving the input channel to the end and reading it there is moving it back. -/
theorem byteAt_wpack {channels outCh oc ic ky kx : Nat}
    (weight : Nat → Nat → Nat → Nat → Byte) (ocIn : oc < outCh) (icIn : ic < channels)
    (kyIn : ky < 3) (kxIn : kx < 3) :
    byteAt (tobytes (outCh * 3 * 3 * channels) (flatten4 3 3 channels (wpack weight)))
      (index4 3 3 channels oc ky kx ic) = weight oc ic ky kx := by
  rw [byteAt_tobytes _ (RowMajor.index4_lt ocIn kyIn kxIn icIn),
    RowMajor.flatten4_index4 _ kyIn kxIn icIn, wpack]

theorem Holds.array (holds : Holds network gapDivisor model) (field : Field)
    {bytes : List Byte} (isArray : model.array field = some bytes) :
    bytes = network.file field :=
  Option.some_inj.mp (isArray.symm.trans (holds.arrays field))

theorem Holds.conv0 (holds : Holds network gapDivisor model) :
    SameLayer (goldenConv0 model) network.conv0.layer 3 16 := by
  refine sameLayer_of_weight (fun oc ocIn ic icIn ky kyIn kx kxIn =>
    congrArg BitVec.toInt ?_) (holds.array .bConv0 rfl) holds.rqConv0 (fun _ => rfl) rfl
    rfl
  rw [holds.array .wConv0 rfl, Network.file,
    byteAt_tobytes _ (RowMajor.index4_lt ocIn icIn kyIn kxIn),
    RowMajor.flatten4_index4 _ icIn kyIn kxIn]

theorem Holds.conv1 (holds : Holds network gapDivisor model) :
    SameLayer (goldenConv1 model) network.conv1.layer 16 32 := by
  refine sameLayer_of_weight (fun oc ocIn ic icIn ky kyIn kx kxIn =>
    congrArg BitVec.toInt ?_) (holds.array .bConv1 rfl) holds.rqConv1 (fun _ => rfl) rfl
    rfl
  rw [holds.array .wConv1 rfl]
  exact byteAt_wpack _ ocIn icIn kyIn kxIn

theorem Holds.conv2 (holds : Holds network gapDivisor model) :
    SameLayer (goldenConv2 model) network.conv2.layer 32 64 := by
  refine sameLayer_of_weight (fun oc ocIn ic icIn ky kyIn kx kxIn =>
    congrArg BitVec.toInt ?_) (holds.array .bConv2 rfl) holds.rqConv2 (fun _ => rfl) rfl
    rfl
  rw [holds.array .wConv2 rfl]
  exact byteAt_wpack _ ocIn icIn kyIn kxIn

/-- The golden map of the files is that of the network. -/
theorem Holds.map (holds : Holds network gapDivisor model) (image : Nat → Byte) :
    MapsAgree 12 64 (goldenMap model image) (network.map image) :=
  holds.conv2.runLayer (by decide) (holds.conv1.runLayer (by decide)
    (holds.conv0.runLayer (by decide) fun _ _ _ _ _ _ => rfl))

theorem Holds.gapSum (holds : Holds network gapDivisor model) (image : Nat → Byte)
    {c : Nat} (cIn : c < 64) :
    GoldenInt8.gapSum (goldenMap model image) c =
      GoldenInt8.gapSum (network.map image) c :=
  Finset.sum_congr rfl fun row rowIn => Finset.sum_congr rfl fun col colIn =>
    holds.map image row (Finset.mem_range.mp rowIn) col (Finset.mem_range.mp colIn) c cIn

/-- The matrix and the biases of the last layer are read as they were. -/
theorem Holds.fc (holds : Holds network gapDivisor model) {n : Nat}
    (nIn : n < network.classes) :
    fcBiasAt model n = network.fcBiasInt32 n ∧
      ∀ c < 64, fcWeightAt model (n * 64 + c) = network.fcWeightInt8 n c := by
  constructor
  · have isArray : model.fcBiases = some (network.file .fcBias) := holds.arrays .fcBias
    rw [fcBiasAt, isArray, Option.getD_some, Network.file, int32At_tobytesInt32 _ nIn]
  · intro c cIn
    have isArray : model.fcWeights = some (network.file .fcWeight) :=
      holds.arrays .fcWeight
    have inside : n * 64 + c < network.classes * 64 := RowMajor.index2_lt nIn cIn
    rw [fcWeightAt, isArray, Option.getD_some, Network.file, byteAt_tobytes _ inside]
    exact RowMajor.flatten2_index2 _ cIn

/-- So the products of a class are the same, whatever is done to the sums before. -/
theorem Holds.products (holds : Holds network gapDivisor model) (image : Nat → Byte)
    (scaled : Int → Int) {n : Nat} (nIn : n < network.classes) :
    ∑ c ∈ Finset.range 64, scaled (GoldenInt8.gapSum (goldenMap model image) c) *
        (fcWeightAt model (n * 64 + c)).toInt =
      ∑ c ∈ Finset.range 64, scaled (GoldenInt8.gapSum (network.map image) c) *
        (network.fcWeightInt8 n c).toInt := by
  refine Finset.sum_congr rfl fun c cMem => ?_
  have cIn := Finset.mem_range.mp cMem
  rw [holds.gapSum image cIn, (holds.fc nIn).2 c cIn]

/-- The golden logits of the files are those of the network. -/
theorem Holds.goldenLogits (holds : Holds network gapDivisor model) (image : Nat → Byte) :
    goldenLogits model image = network.goldenLogits image := by
  rw [ClassifierDeployment.goldenLogits, Network.goldenLogits, GoldenInt8.fcLogits,
    GoldenInt8.fcLogits, holds.classCount]
  refine List.map_congr_left fun n mem => ?_
  have nIn := List.mem_range.mp mem
  have products := holds.products image id nIn
  simp only [id_eq] at products
  rw [products, (holds.fc nIn).1]

/-- So are the logits that the server comes to with its divisor. -/
theorem Holds.dividedLogits (holds : Holds network gapDivisor model) (image : Nat → Byte) :
    dividedLogits model image = network.logits gapDivisor image := by
  rw [ClassifierDeployment.dividedLogits, Network.logits, holds.classCount, holds.divisor]
  refine List.map_congr_left fun n mem => ?_
  have nIn := List.mem_range.mp mem
  rw [(holds.fc nIn).1, holds.products image (fun sum => sum.tdiv gapDivisor.toInt) nIn]

/-- The directory has the files of the network, and they can be read. -/
def Serves (environment : Environment) (directory : CString) (network : Network) :
    Prop :=
  ∀ field : Field, ∃ file,
    environment.fopen (ClassifierModel.joined directory field.filename) = some file ∧
      file.bytes = network.file field ∧ file.Holds (network.file field).length

variable {environment : Environment} {directory : CString}

/-- What the server loads from the files of a network. -/
theorem load_of_serves (serves : Serves environment directory network)
    (isDirectory : directory ≠ []) (classes : 0 < network.classes)
    (divisor : gapDivisor ≠ 0)
    (pathsFit : ∀ field : Field, (ClassifierModel.joined directory field.filename).length <
      ClassifierModel.kPathCapacity)
    (weights : (environment.malloc
      (network.classes * ClassifierModel.kOutputChannels)).isSome)
    (biases : (environment.malloc
      (network.classes * ClassifierModel.kSizeofInt32)).isSome) :
    ∃ model, ClassifierModel.load environment (some ClassifierModel.cleared)
        (some directory) (some (network.metadata gapDivisor)) = (.ok, some model) ∧
      Holds network gapDivisor model := by
  have isOk : (ClassifierModel.load environment (some ClassifierModel.cleared)
      (some directory) (some (network.metadata gapDivisor))).1 = .ok := by
    have hasClasses : 0 < (network.metadata gapDivisor).classCount := classes
    have hasDivisor : (network.metadata gapDivisor).gapDivisor ≠ 0 := divisor
    have givesWeights : (environment.malloc ((network.metadata gapDivisor).classCount *
      ClassifierModel.kOutputChannels)).isSome := weights
    have givesBiases : (environment.malloc ((network.metadata gapDivisor).classCount *
      ClassifierModel.kSizeofInt32)).isSome := biases
    rw [ClassifierModel.load_ok_iff isDirectory hasClasses hasDivisor pathsFit
      givesWeights givesBiases]
    intro field
    obtain ⟨file, opens, -, holds⟩ := serves field
    rw [length_file network gapDivisor] at holds
    exact ⟨file, opens, holds⟩
  obtain ⟨model, isModel, loaded⟩ := ClassifierModel.loaded_of_load isOk
  refine ⟨model, Prod.ext isOk isModel, fun field => ?_, loaded.rqConv0, loaded.rqConv1,
    loaded.rqConv2, loaded.classCount, loaded.gapDivisor⟩
  obtain ⟨file, opens, isArray⟩ := loaded.arrays field
  obtain ⟨served, opens', bytes, -⟩ := serves field
  rw [ClassifierModel.opened_eq (pathsFit field), opens', Option.some_inj] at opens
  rw [isArray, ← opens, bytes]

/-- A network that is exported, copied into a directory and loaded by the server is
classified with as it was: for every image the golden logits of the loaded files are
those of the network, and so are the logits with the sums divided by the divisor. -/
theorem exported_is_loaded (network : Network) {gapDivisor : BitVec 32}
    {environment : Environment} {directory : CString}
    (serves : Serves environment directory network)
    (isDirectory : directory ≠ []) (classes : 0 < network.classes)
    (divisor : gapDivisor ≠ 0)
    (pathsFit : ∀ field : Field, (ClassifierModel.joined directory field.filename).length <
      ClassifierModel.kPathCapacity)
    (weights : (environment.malloc
      (network.classes * ClassifierModel.kOutputChannels)).isSome)
    (biases : (environment.malloc
      (network.classes * ClassifierModel.kSizeofInt32)).isSome) :
    ∃ model, ClassifierModel.load environment (some ClassifierModel.cleared)
        (some directory) (some (network.metadata gapDivisor)) = (.ok, some model) ∧
      (∀ image, MapsAgree 12 64 (goldenMap model image) (network.map image)) ∧
      (∀ image, goldenLogits model image = network.goldenLogits image) ∧
      ∀ image, dividedLogits model image = network.logits gapDivisor image := by
  obtain ⟨model, loads, holds⟩ :=
    load_of_serves serves isDirectory classes divisor pathsFit weights biases
  exact ⟨model, loads, holds.map, holds.goldenLogits, holds.dividedLogits⟩

/-- Files that can be read to their end, and blocks of zeros. -/
def served (directory : CString) (network : Network) : Environment where
  sizeMax := 4294967295
  fopen path :=
    (Field.order.find? fun field =>
      ClassifierModel.joined directory field.filename = path).map fun field =>
        ⟨network.file field, none, true⟩
  malloc size := if size ≤ 4294967295 then some fun _ => 0 else none
  bounded _ above := if_neg (Nat.not_le.mpr above)

/-- Weights that tell their positions. -/
def countingLayer : QuantizedLayer where
  weightInt8 oc ic ky kx := BitVec.ofNat 8 (oc + 3 * ic + 5 * ky + 7 * kx)
  biasInt32 oc := BitVec.ofNat 32 (1000 * oc)
  requant := ⟨0x40000000, 40⟩

def countingNetwork : Network where
  conv0 := countingLayer
  conv1 := countingLayer
  conv2 := countingLayer
  fcWeightInt8 n c := BitVec.ofNat 8 (n + c)
  fcBiasInt32 n := BitVec.ofNat 32 n
  classes := 6

theorem exported_is_loaded_counting :
    ∃ model, ClassifierModel.load (served "model".toList countingNetwork)
        (some ClassifierModel.cleared) (some "model".toList)
        (some (countingNetwork.metadata 1)) = (.ok, some model) ∧
      (∀ image, MapsAgree 12 64 (goldenMap model image) (countingNetwork.map image)) ∧
      (∀ image, goldenLogits model image = countingNetwork.goldenLogits image) ∧
      ∀ image, dividedLogits model image = countingNetwork.logits 1 image := by
  have serves : Serves (served "model".toList countingNetwork) "model".toList
      countingNetwork := by
    intro field
    refine ⟨⟨countingNetwork.file field, none, true⟩, ?_, rfl, rfl, rfl, rfl⟩
    have found : (Field.order.find? fun other =>
        ClassifierModel.joined "model".toList other.filename =
          ClassifierModel.joined "model".toList field.filename) = some field := by
      cases field <;> decide
    simp only [served, found, Option.map_some]
  exact exported_is_loaded countingNetwork serves (by decide) (by decide) (by decide)
    (fun field => by cases field <;> decide) rfl rfl

end RoundTrip

end Adas.ExportedNetwork
