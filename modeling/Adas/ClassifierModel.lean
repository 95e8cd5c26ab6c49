import Adas.ByteFile
import Adas.EventMachine
import Mathlib.Order.Defs.LinearOrder

/-!
# Loading the classifier's model

The model is read from eight files into arrays of which two are allocated for
the purpose.  Every file must have exactly the size of its array.  When a file
has not, or cannot be read, the model is cleared.

An array is kept as the bytes that it has in memory.  What the files contain,
which reads fail and what an allocation gives are the environment's choice.
-/

namespace Adas.ClassifierModel

abbrev Byte := BitVec 8

/-- A string without its terminating zero. -/
abbrev CString := List Char

/-- `adas_classifier_model_status_t`. -/
inductive Status where
  | ok
  | invalidArgument
  | ioError
  | sizeMismatch
  | outOfMemory
  deriving DecidableEq, Repr

structure Requant where
  multiplier : BitVec 32
  shift : BitVec 8
  deriving DecidableEq, Repr

/-- `adas_classifier_model_metadata_t`. -/
structure Metadata where
  classCount : Nat
  gapDivisor : BitVec 32
  rqConv0 : Requant
  rqConv1 : Requant
  rqConv2 : Requant
  deriving DecidableEq, Repr

/-- `adas_classifier_model_t`, with `none` for a null pointer. -/
structure Model where
  wConv0 : List Byte
  wConv1 : List Byte
  wConv2 : List Byte
  bConv0 : List Byte
  bConv1 : List Byte
  bConv2 : List Byte
  rqConv0 : Requant
  rqConv1 : Requant
  rqConv2 : Requant
  fcWeights : Option (List Byte)
  fcBiases : Option (List Byte)
  classCount : Nat
  gapDivisor : BitVec 32
  deriving DecidableEq, Repr

/-- What lies outside of the program: the files by their paths, and the
contents of an allocated block.  No block is larger than `SIZE_MAX`. -/
structure Environment where
  sizeMax : Nat
  fopen : CString → Option (ByteFile Byte)
  malloc : Nat → Option (Nat → Byte)
  bounded : ∀ size, sizeMax < size → malloc size = none

section Sizes

def kWConv0Size : Nat := 16 * 3 * 3 * 3
def kWConv1Size : Nat := 32 * 16 * 3 * 3
def kWConv2Size : Nat := 64 * 32 * 3 * 3
def kBConv0Count : Nat := 16
def kBConv1Count : Nat := 32
def kBConv2Count : Nat := 64
def kOutputChannels : Nat := 64
def kSizeofInt32 : Nat := 4

/-- `memset(model, 0, sizeof(*model))`. -/
def cleared : Model where
  wConv0 := List.replicate kWConv0Size 0
  wConv1 := List.replicate kWConv1Size 0
  wConv2 := List.replicate kWConv2Size 0
  bConv0 := List.replicate (kBConv0Count * kSizeofInt32) 0
  bConv1 := List.replicate (kBConv1Count * kSizeofInt32) 0
  bConv2 := List.replicate (kBConv2Count * kSizeofInt32) 0
  rqConv0 := ⟨0, 0⟩
  rqConv1 := ⟨0, 0⟩
  rqConv2 := ⟨0, 0⟩
  fcWeights := none
  fcBiases := none
  classCount := 0
  gapDivisor := 0

/-- `adas_classifier_model_init`. -/
def init (_ : Model) : Model :=
  cleared

/-- `adas_classifier_model_unload`. -/
def unload (_ : Model) : Model :=
  cleared

end Sizes

section Files

def kPathCapacity : Nat := 4096

/-- The directory and the filename with one separator. -/
def joined (directory filename : CString) : CString :=
  let separator := if directory.getLast? = some '/' then [] else ['/']
  directory ++ separator ++ filename

/-- `make_path`. -/
def makePath (directory filename : CString) : Option CString :=
  if kPathCapacity ≤ (joined directory filename).length then
    none
  else
    some (joined directory filename)

/-- `read_exact_file`, with what is in the destination afterwards. -/
def readExactFile (environment : Environment) (directory filename : CString)
    (destination : List Byte) (expectedSize : Nat) : Status × List Byte :=
  match makePath directory filename with
  | none => (.invalidArgument, destination)
  | some path =>
      match environment.fopen path with
      | none => (.ioError, destination)
      | some file =>
          let got := file.fread expectedSize
          let destination := got ++ destination.drop got.length
          if got.length ≠ expectedSize then
            if file.failsAt got.length then
              (.ioError, destination)
            else
              (.sizeMismatch, destination)
          else if (file.fgetc expectedSize).isSome then
            (.sizeMismatch, destination)
          else if file.failsAt expectedSize then
            (.ioError, destination)
          else if !file.closes then
            (.ioError, destination)
          else
            (.ok, destination)

/-- The arrays in the order in which they are read. -/
inductive Field where
  | wConv0
  | wConv1
  | wConv2
  | bConv0
  | bConv1
  | bConv2
  | fcWeight
  | fcBias
  deriving DecidableEq, Repr

def Field.order : List Field :=
  [.wConv0, .wConv1, .wConv2, .bConv0, .bConv1, .bConv2, .fcWeight, .fcBias]

def Field.filename : Field → CString
  | .wConv0 => "w_conv0.bin".toList
  | .wConv1 => "w_conv1.bin".toList
  | .wConv2 => "w_conv2.bin".toList
  | .bConv0 => "b_conv0.bin".toList
  | .bConv1 => "b_conv1.bin".toList
  | .bConv2 => "b_conv2.bin".toList
  | .fcWeight => "fc_weight.bin".toList
  | .fcBias => "fc_bias.bin".toList

/-- The size that is expected of the file, given those of the two arrays that
are allocated. -/
def Field.size (fcWeightSize fcBiasSize : Nat) : Field → Nat
  | .wConv0 => kWConv0Size
  | .wConv1 => kWConv1Size
  | .wConv2 => kWConv2Size
  | .bConv0 => kBConv0Count * kSizeofInt32
  | .bConv1 => kBConv1Count * kSizeofInt32
  | .bConv2 => kBConv2Count * kSizeofInt32
  | .fcWeight => fcWeightSize
  | .fcBias => fcBiasSize

/-- What is in the array, unless it is not allocated. -/
def Model.array (model : Model) : Field → Option (List Byte)
  | .wConv0 => some model.wConv0
  | .wConv1 => some model.wConv1
  | .wConv2 => some model.wConv2
  | .bConv0 => some model.bConv0
  | .bConv1 => some model.bConv1
  | .bConv2 => some model.bConv2
  | .fcWeight => model.fcWeights
  | .fcBias => model.fcBiases

def Model.setArray (model : Model) (bytes : List Byte) : Field → Model
  | .wConv0 => { model with wConv0 := bytes }
  | .wConv1 => { model with wConv1 := bytes }
  | .wConv2 => { model with wConv2 := bytes }
  | .bConv0 => { model with bConv0 := bytes }
  | .bConv1 => { model with bConv1 := bytes }
  | .bConv2 => { model with bConv2 := bytes }
  | .fcWeight => { model with fcWeights := some bytes }
  | .fcBias => { model with fcBiases := some bytes }

end Files

section Load

variable (environment : Environment)

/-- The reads, each of which is made when those before it were successful. -/
def readFields (directory : CString) (size : Field → Nat) :
    List Field → Model → Status × Model
  | [], model => (.ok, model)
  | field :: rest, model =>
      let read := readExactFile environment directory field.filename
        ((model.array field).getD []) (size field)
      if read.1 = .ok then
        readFields directory size rest (model.setArray read.2 field)
      else
        (read.1, model.setArray read.2 field)

/-- The first checks of the arguments, and those that keep the sizes within
`size_t`. -/
def isRejected (model : Model) (directory : CString) (metadata : Metadata) : Bool :=
  directory.isEmpty || metadata.classCount == 0 || metadata.gapDivisor == 0 ||
    model.fcWeights.isSome || model.fcBiases.isSome ||
    (decide (environment.sizeMax / kOutputChannels < metadata.classCount) ||
      decide (environment.sizeMax / kSizeofInt32 < metadata.classCount))

/-- A product of type `size_t`. -/
def sizeProduct (a b : Nat) : Nat :=
  a * b % (environment.sizeMax + 1)

/-- The copy of the metadata into the model. -/
def Model.copy (model : Model) (metadata : Metadata) : Model :=
  { model with
    rqConv0 := metadata.rqConv0
    rqConv1 := metadata.rqConv1
    rqConv2 := metadata.rqConv2
    classCount := metadata.classCount
    gapDivisor := metadata.gapDivisor }

/-- The reads into an allocated model and what follows them. -/
def readModel (model : Model) (directory : CString) (metadata : Metadata)
    (fcWeightSize fcBiasSize : Nat) : Status × Model :=
  let read := readFields environment directory
    (Field.size fcWeightSize fcBiasSize) Field.order model
  if read.1 = .ok then
    (.ok, read.2.copy metadata)
  else
    (read.1, unload read.2)

/-- `adas_classifier_model_load`, with `none` for a null pointer. -/
def load (model : Option Model) (directory : Option CString)
    (metadata : Option Metadata) : Status × Option Model :=
  match model, directory, metadata with
  | some model, some directory, some metadata =>
      if isRejected environment model directory metadata then
        (.invalidArgument, some model)
      else
        let fcWeightSize := sizeProduct environment metadata.classCount kOutputChannels
        let fcBiasSize := sizeProduct environment metadata.classCount kSizeofInt32
        match environment.malloc fcWeightSize, environment.malloc fcBiasSize with
        | some weights, some biases =>
            let model := { model with
              fcWeights := some ((List.range fcWeightSize).map weights)
              fcBiases := some ((List.range fcBiasSize).map biases) }
            let loaded := readModel environment model directory metadata
              fcWeightSize fcBiasSize
            (loaded.1, some loaded.2)
        | _, _ => (.outOfMemory, some (unload model))
  | model, _, _ => (.invalidArgument, model)

end Load

section Reads

variable {environment : Environment} {directory : CString}

/-- The file that is opened for an array. -/
def opened (environment : Environment) (directory filename : CString) :
    Option (ByteFile Byte) :=
  (makePath directory filename).bind environment.fopen

/-- There is a file for the array, it can be read and has the expected size. -/
def Exact (environment : Environment) (directory : CString) (size : Field → Nat)
    (field : Field) : Prop :=
  ∃ file, opened environment directory field.filename = some file ∧
    file.Holds (size field)

theorem readExactFile_eq {filename : CString} {file : ByteFile Byte}
    (isOpened : opened environment directory filename = some file)
    (destination : List Byte) (size : Nat) :
    (readExactFile environment directory filename destination size).2 =
        file.fread size ++ destination.drop (file.fread size).length ∧
      ((readExactFile environment directory filename destination size).1 = .ok ↔
        file.Holds size) := by
  obtain ⟨path, isPath, isFile⟩ := Option.bind_eq_some_iff.mp isOpened
  rw [ByteFile.holds_iff, ← Option.not_isSome_iff_eq_none]
  simp only [readExactFile, isPath, isFile]
  split_ifs with short failed trailing failedAtEnd notClosed
  · exact ⟨rfl, by simp [short]⟩
  · exact ⟨rfl, by simp [short]⟩
  · exact ⟨rfl, by simp [trailing]⟩
  · exact ⟨rfl, by simp [failedAtEnd]⟩
  · exact ⟨rfl, by simpa using fun _ _ _ => by simpa using notClosed⟩
  · exact ⟨rfl, by simpa using ⟨by simpa using short, by simpa using trailing,
      by simpa using failedAtEnd, by simpa using notClosed⟩⟩

theorem readExactFile_ok_iff {filename : CString} (destination : List Byte)
    (size : Nat) :
    (readExactFile environment directory filename destination size).1 = .ok ↔
      ∃ file, opened environment directory filename = some file ∧
        file.Holds size := by
  cases isOpened : opened environment directory filename with
  | some file => simp [(readExactFile_eq isOpened destination size).2]
  | none =>
      simp only [reduceCtorEq, false_and, exists_false, iff_false]
      unfold opened at isOpened
      unfold readExactFile
      cases isPath : makePath directory filename with
      | none => exact fun isOk => nomatch isOk
      | some path =>
          rw [isPath, Option.bind_some] at isOpened
          simp [isOpened]

@[simp]
theorem Model.array_setArray (model : Model) (bytes : List Byte) (field : Field) :
    (model.setArray bytes field).array field = some bytes := by
  cases field <;> rfl

@[simp]
theorem Model.array_setArray_of_ne (model : Model) (bytes : List Byte)
    {field other : Field} (differ : other ≠ field) :
    (model.setArray bytes field).array other = model.array other := by
  cases field <;> cases other <;> first | rfl | exact absurd rfl differ

/-- All reads are successful when all files are exact. -/
theorem readFields_ok_iff (size : Field → Nat) (fields : List Field) (model : Model) :
    (readFields environment directory size fields model).1 = .ok ↔
      ∀ field ∈ fields, Exact environment directory size field := by
  induction fields generalizing model with
  | nil => simp [readFields]
  | cons field rest ih =>
      rw [readFields, List.forall_mem_cons, Exact,
        ← readExactFile_ok_iff ((model.array field).getD [])]
      split_ifs with isOk
      · rw [ih, isOk]
        simp
      · simp [isOk]

/-- An array that is not read stays. -/
theorem array_readFields_of_notMem (size : Field → Nat) {fields : List Field}
    {other : Field} (notMem : other ∉ fields) (model : Model) :
    (readFields environment directory size fields model).2.array other =
      model.array other := by
  induction fields generalizing model with
  | nil => rfl
  | cons field rest ih =>
      rw [List.mem_cons, not_or] at notMem
      rw [readFields]
      split_ifs
      · rw [ih notMem.2, Model.array_setArray_of_ne _ _ notMem.1]
      · exact Model.array_setArray_of_ne _ _ notMem.1

/-- After successful reads into arrays of the right sizes the arrays are the
files. -/
theorem array_readFields (size : Field → Nat) {fields : List Field}
    (nodup : fields.Nodup) {model : Model}
    (sized : ∀ field ∈ fields, ((model.array field).getD []).length = size field)
    (isOk : (readFields environment directory size fields model).1 = .ok) :
    ∀ field ∈ fields, ∃ file, opened environment directory field.filename = some file ∧
      (readFields environment directory size fields model).2.array field =
        some file.bytes := by
  induction fields generalizing model with
  | nil => exact fun field mem => absurd mem List.not_mem_nil
  | cons field rest ih =>
      have firstOk : (readExactFile environment directory field.filename
          ((model.array field).getD []) (size field)).1 = .ok := by
        rw [readExactFile_ok_iff]
        exact (readFields_ok_iff size _ model).mp isOk field List.mem_cons_self
      rw [List.nodup_cons] at nodup
      simp only [readFields, if_pos firstOk] at isOk ⊢
      obtain ⟨file, isOpened, holds⟩ := (readExactFile_ok_iff _ _).mp firstOk
      have bytes : (readExactFile environment directory field.filename
          ((model.array field).getD []) (size field)).2 = file.bytes := by
        rw [(readExactFile_eq isOpened _ _).1, holds.fread_eq, holds.length,
          ← sized field List.mem_cons_self, List.drop_length, List.append_nil]
      intro other mem
      rcases List.mem_cons.mp mem with rfl | inRest
      · refine ⟨file, isOpened, ?_⟩
        rw [array_readFields_of_notMem size nodup.1, Model.array_setArray, bytes]
      · refine ih nodup.2 ?_ isOk other inRest
        intro later laterMem
        have differ : later ≠ field := fun same => nodup.1 (same ▸ laterMem)
        rw [Model.array_setArray_of_ne _ _ differ]
        exact sized later (List.mem_cons_of_mem _ laterMem)

theorem mem_order (field : Field) : field ∈ Field.order := by
  cases field <;> decide

end Reads

section Outcomes

variable {environment : Environment} {directory : CString} {metadata : Metadata}

/-- What the files must hold for the metadata. -/
def expectedSize (metadata : Metadata) : Field → Nat :=
  Field.size (metadata.classCount * kOutputChannels)
    (metadata.classCount * kSizeofInt32)

/-- The model is that of the files and the metadata. -/
structure Loaded (environment : Environment) (directory : CString)
    (metadata : Metadata) (model : Model) : Prop where
  arrays : ∀ field, ∃ file, opened environment directory field.filename = some file ∧
    model.array field = some file.bytes
  rqConv0 : model.rqConv0 = metadata.rqConv0
  rqConv1 : model.rqConv1 = metadata.rqConv1
  rqConv2 : model.rqConv2 = metadata.rqConv2
  classCount : model.classCount = metadata.classCount
  gapDivisor : model.gapDivisor = metadata.gapDivisor

/-- The cleared model with its two blocks. -/
def allocated (weights biases : Nat → Byte) (metadata : Metadata) : Model :=
  { cleared with
    fcWeights := some ((List.range (metadata.classCount * kOutputChannels)).map weights)
    fcBiases := some ((List.range (metadata.classCount * kSizeofInt32)).map biases) }

theorem sized_allocated (weights biases : Nat → Byte) (metadata : Metadata)
    (field : Field) :
    (((allocated weights biases metadata).array field).getD []).length =
      expectedSize metadata field := by
  cases field <;> simp [allocated, cleared, Model.array, expectedSize, Field.size]

/-- The checks of the arguments keep the sizes within `size_t`. -/
theorem sizeProduct_eq {model : Model}
    (accepted : isRejected environment model directory metadata = false) :
    sizeProduct environment metadata.classCount kOutputChannels =
        metadata.classCount * kOutputChannels ∧
      sizeProduct environment metadata.classCount kSizeofInt32 =
        metadata.classCount * kSizeofInt32 := by
  simp only [isRejected, Bool.or_eq_false_iff, decide_eq_false_iff_not, Nat.not_lt,
    Nat.le_div_iff_mul_le (show 0 < kOutputChannels by decide),
    Nat.le_div_iff_mul_le (show 0 < kSizeofInt32 by decide)] at accepted
  exact ⟨Nat.mod_eq_of_lt (Nat.lt_succ_of_le accepted.2.1),
    Nat.mod_eq_of_lt (Nat.lt_succ_of_le accepted.2.2)⟩

theorem Model.array_copy (model : Model) (field : Field) :
    (model.copy metadata).array field = model.array field := by
  cases field <;> rfl

theorem readModel_ok_iff (model : Model) (fcWeightSize fcBiasSize : Nat) :
    (readModel environment model directory metadata fcWeightSize fcBiasSize).1 = .ok ↔
      ∀ field, Exact environment directory (Field.size fcWeightSize fcBiasSize)
        field := by
  have reads : (readFields environment directory (Field.size fcWeightSize fcBiasSize)
      Field.order model).1 = .ok ↔ ∀ field,
        Exact environment directory (Field.size fcWeightSize fcBiasSize) field := by
    simpa [mem_order] using readFields_ok_iff (Field.size fcWeightSize fcBiasSize)
      Field.order model
  rw [← reads, readModel]
  split_ifs with isOk
  · simp [isOk]
  · simp [isOk]

theorem readModel_failed {model : Model} {fcWeightSize fcBiasSize : Nat}
    (failed :
      (readModel environment model directory metadata fcWeightSize fcBiasSize).1 ≠ .ok) :
    (readModel environment model directory metadata fcWeightSize fcBiasSize).2 =
      cleared := by
  simp only [readModel] at failed ⊢
  split_ifs at failed ⊢
  · exact absurd rfl failed
  · rfl

theorem loaded_readModel {weights biases : Nat → Byte}
    (isOk : (readModel environment (allocated weights biases metadata) directory metadata
      (metadata.classCount * kOutputChannels)
      (metadata.classCount * kSizeofInt32)).1 = .ok) :
    Loaded environment directory metadata
      (readModel environment (allocated weights biases metadata) directory metadata
        (metadata.classCount * kOutputChannels)
        (metadata.classCount * kSizeofInt32)).2 := by
  have readsOk : (readFields environment directory (expectedSize metadata) Field.order
      (allocated weights biases metadata)).1 = .ok := by
    rw [readFields_ok_iff]
    exact fun field _ => (readModel_ok_iff _ _ _).mp isOk field
  have arrays := array_readFields (expectedSize metadata) (by decide)
    (fun field _ => sized_allocated weights biases metadata field) readsOk
  have result : (readModel environment (allocated weights biases metadata) directory
      metadata (metadata.classCount * kOutputChannels)
      (metadata.classCount * kSizeofInt32)).2 =
      (readFields environment directory (expectedSize metadata) Field.order
        (allocated weights biases metadata)).2.copy metadata := by
    rw [readModel, ← expectedSize, if_pos readsOk]
  rw [result]
  refine ⟨?_, rfl, rfl, rfl, rfl, rfl⟩
  intro field
  rw [Model.array_copy]
  exact arrays field (mem_order field)

theorem load_cleared (accepted : isRejected environment cleared directory metadata = false)
    {weights biases : Nat → Byte}
    (weightsGiven :
      environment.malloc (metadata.classCount * kOutputChannels) = some weights)
    (biasesGiven :
      environment.malloc (metadata.classCount * kSizeofInt32) = some biases) :
    load environment (some cleared) (some directory) (some metadata) =
      ((readModel environment (allocated weights biases metadata) directory metadata
        (metadata.classCount * kOutputChannels)
        (metadata.classCount * kSizeofInt32)).1,
      some (readModel environment (allocated weights biases metadata) directory metadata
        (metadata.classCount * kOutputChannels)
        (metadata.classCount * kSizeofInt32)).2) := by
  obtain ⟨weightSize, biasSize⟩ := sizeProduct_eq accepted
  simp only [load, accepted, weightSize, biasSize, weightsGiven, biasesGiven,
    Bool.false_eq_true, if_false]
  rfl

/-- A load that goes past the checks of the arguments and fails clears the
model. -/
theorem load_failed {model : Model}
    (accepted : isRejected environment model directory metadata = false)
    (failed : (load environment (some model) (some directory) (some metadata)).1 ≠ .ok) :
    (load environment (some model) (some directory) (some metadata)).2 =
      some cleared := by
  simp only [load, accepted, Bool.false_eq_true, if_false] at failed ⊢
  cases weightsGiven : environment.malloc
      (sizeProduct environment metadata.classCount kOutputChannels) with
  | none => rfl
  | some weights =>
      cases biasesGiven : environment.malloc
          (sizeProduct environment metadata.classCount kSizeofInt32) with
      | none => rfl
      | some biases =>
          rw [weightsGiven, biasesGiven] at failed
          exact congrArg some (readModel_failed failed)

/-- The checks of the arguments, with `none` for a null pointer. -/
def rejects (environment : Environment) :
    Option Model → Option CString → Option Metadata → Bool
  | some model, some directory, some metadata =>
      isRejected environment model directory metadata
  | _, _, _ => true

theorem load_rejected {model : Option Model} {directory : Option CString}
    {metadata : Option Metadata}
    (rejected : rejects environment model directory metadata = true) :
    load environment model directory metadata = (.invalidArgument, model) := by
  rcases model with _ | model
  · rfl
  rcases directory with _ | directory
  · rfl
  rcases metadata with _ | metadata
  · rfl
  exact if_pos rejected

/-- A model that is loaded is not loaded once more. -/
theorem Loaded.rejects {model : Model} (loaded : Loaded environment directory metadata model)
    (other : Environment) (path : Option CString) (next : Option Metadata) :
    ClassifierModel.rejects other (some model) path next = true := by
  obtain ⟨file, _, weights⟩ := loaded.arrays .fcWeight
  change model.fcWeights = some file.bytes at weights
  rcases path with _ | path
  · rfl
  rcases next with _ | next
  · rfl
  simp [ClassifierModel.rejects, isRejected, weights]

theorem opened_eq {filename : CString}
    (fits : (joined directory filename).length < kPathCapacity) :
    opened environment directory filename =
      environment.fopen (joined directory filename) := by
  rw [opened, makePath, if_neg (Nat.not_le.mpr fits), Option.bind_some]

/-- A block of the right size exists only for sizes within `size_t`. -/
theorem accepted_of_allocates (isDirectory : directory ≠ [])
    (classes : 0 < metadata.classCount) (divisor : metadata.gapDivisor ≠ 0)
    (weights : (environment.malloc (metadata.classCount * kOutputChannels)).isSome) :
    isRejected environment cleared directory metadata = false := by
  have fits : metadata.classCount * kOutputChannels ≤ environment.sizeMax := by
    by_contra above
    rw [environment.bounded _ (Nat.not_le.mp above)] at weights
    exact Bool.false_ne_true weights
  have smaller : metadata.classCount * kSizeofInt32 ≤
      metadata.classCount * kOutputChannels := Nat.mul_le_mul_left _ (by decide)
  simp only [isRejected, cleared, Bool.or_eq_false_iff, decide_eq_false_iff_not,
    Nat.not_lt, Nat.le_div_iff_mul_le (show 0 < kOutputChannels by decide),
    Nat.le_div_iff_mul_le (show 0 < kSizeofInt32 by decide)]
  simpa [isDirectory, fits, Nat.pos_iff_ne_zero.mp classes,
    Nat.le_trans smaller fits] using divisor

/-- The blocks have been given when a load has returned `OK`. -/
theorem allocates_of_load
    (accepted : isRejected environment cleared directory metadata = false)
    (isOk : (load environment (some cleared) (some directory) (some metadata)).1 = .ok) :
    ∃ weights biases,
      environment.malloc (metadata.classCount * kOutputChannels) = some weights ∧
        environment.malloc (metadata.classCount * kSizeofInt32) = some biases := by
  obtain ⟨weightSize, biasSize⟩ := sizeProduct_eq accepted
  simp only [load, accepted, weightSize, biasSize, Bool.false_eq_true, if_false] at isOk
  split at isOk
  · next weights biases weightsGiven biasesGiven =>
      exact ⟨weights, biases, weightsGiven, biasesGiven⟩
  · cases isOk

/-- A model whose load has returned `OK` is that of the files. -/
theorem loaded_of_load
    (isOk : (load environment (some cleared) (some directory) (some metadata)).1 = .ok) :
    ∃ model, (load environment (some cleared) (some directory) (some metadata)).2 =
      some model ∧ Loaded environment directory metadata model := by
  have accepted : isRejected environment cleared directory metadata = false := by
    rw [← Bool.not_eq_true]
    intro rejected
    have refused : load environment (some cleared) (some directory) (some metadata) =
        (.invalidArgument, some cleared) := load_rejected rejected
    rw [refused] at isOk
    cases isOk
  obtain ⟨weights, biases, weightsGiven, biasesGiven⟩ := allocates_of_load accepted isOk
  rw [load_cleared accepted weightsGiven biasesGiven] at isOk ⊢
  exact ⟨_, rfl, loaded_readModel isOk⟩

/-- Loading a cleared model needs all eight files, each of its exact size. -/
theorem load_ok_iff (isDirectory : directory ≠ [])
    (classes : 0 < metadata.classCount) (divisor : metadata.gapDivisor ≠ 0)
    (pathsFit : ∀ field : Field,
      (joined directory field.filename).length < kPathCapacity)
    (weights : (environment.malloc (metadata.classCount * kOutputChannels)).isSome)
    (biases : (environment.malloc (metadata.classCount * kSizeofInt32)).isSome) :
    (load environment (some cleared) (some directory) (some metadata)).1 = .ok ↔
      ∀ field : Field, ∃ file,
        environment.fopen (joined directory field.filename) = some file ∧
          file.Holds (expectedSize metadata field) := by
  have accepted := accepted_of_allocates isDirectory classes divisor weights
  obtain ⟨weights, weightsGiven⟩ := Option.isSome_iff_exists.mp weights
  obtain ⟨biases, biasesGiven⟩ := Option.isSome_iff_exists.mp biases
  rw [load_cleared accepted weightsGiven biasesGiven, readModel_ok_iff]
  refine forall_congr' fun field => ?_
  rw [Exact, opened_eq (pathsFit field), expectedSize]

end Outcomes

section Runs

/-- A call on the model. -/
inductive Call where
  | load (environment : Environment) (directory : Option CString)
      (metadata : Option Metadata)
  | unload

/-- A model between its calls, from its initialization on. -/
def machine : EventMachine Model Call Status where
  init := init cleared
  step model call :=
    match call with
    | .load environment directory metadata =>
        let (status, after) := load environment (some model) directory metadata
        (after.getD model, status)
    | .unload => (unload model, .ok)

/-- The model is empty or that of some files. -/
def ClearedOrLoaded (model : Model) : Prop :=
  model = cleared ∨ ∃ environment directory metadata,
    Loaded environment directory metadata model

theorem next_clearedOrLoaded (model : Model) (call : Call)
    (before : ClearedOrLoaded model) : ClearedOrLoaded (machine.next model call) := by
  cases call with
  | unload => exact Or.inl rfl
  | load environment directory metadata =>
      change ClearedOrLoaded ((load environment (some model) directory metadata).2.getD
        model)
      cases rejected : rejects environment (some model) directory metadata with
      | true =>
          rw [load_rejected rejected]
          exact before
      | false =>
          rcases before with rfl | ⟨source, path, described, loaded⟩
          · rcases directory with _ | directory
            · cases rejected
            rcases metadata with _ | metadata
            · cases rejected
            by_cases isOk : (load environment (some cleared) (some directory)
                (some metadata)).1 = .ok
            · obtain ⟨model, isModel, loaded⟩ := loaded_of_load isOk
              rw [isModel]
              exact Or.inr ⟨environment, directory, metadata, loaded⟩
            · rw [load_failed rejected isOk]
              exact Or.inl rfl
          · rw [loaded.rejects] at rejected
            cases rejected

/-- Between any calls the model is empty or completely that of some files. -/
theorem run_clearedOrLoaded (calls : List Call) {index : Nat}
    (inRun : index ≤ calls.length) : ClearedOrLoaded (machine.stateAt calls index) :=
  machine.stateAt_invariant ClearedOrLoaded (fun _ => True) (Or.inl rfl)
    (fun model call _ => next_clearedOrLoaded model call) (fun _ _ => trivial) inRun

/-- What is promised of a load. -/
structure AllOrNothing (environment : Environment) : Prop where
  okIff : ∀ (directory : CString) (metadata : Metadata), directory ≠ [] →
    0 < metadata.classCount → metadata.gapDivisor ≠ 0 →
    (∀ field : Field, (joined directory field.filename).length < kPathCapacity) →
    (environment.malloc (metadata.classCount * kOutputChannels)).isSome →
    (environment.malloc (metadata.classCount * kSizeofInt32)).isSome →
    ((load environment (some cleared) (some directory) (some metadata)).1 = .ok ↔
      ∀ field : Field, ∃ file,
        environment.fopen (joined directory field.filename) = some file ∧
          file.Holds (expectedSize metadata field))
  loaded : ∀ (directory : CString) (metadata : Metadata),
    (load environment (some cleared) (some directory) (some metadata)).1 = .ok →
    ∃ model, (load environment (some cleared) (some directory) (some metadata)).2 =
      some model ∧ Loaded environment directory metadata model
  failed : ∀ (model : Model) (directory : CString) (metadata : Metadata),
    isRejected environment model directory metadata = false →
    (load environment (some model) (some directory) (some metadata)).1 ≠ .ok →
    (load environment (some model) (some directory) (some metadata)).2 = some cleared
  rejected : ∀ (model : Option Model) (directory : Option CString)
    (metadata : Option Metadata), rejects environment model directory metadata = true →
    load environment model directory metadata = (.invalidArgument, model)
  notTwice : ∀ (source : Environment) (directory : CString) (metadata : Metadata)
    (model : Model), Loaded source directory metadata model →
    ∀ other next, rejects environment (some model) other next = true

theorem load_allOrNothing (environment : Environment) : AllOrNothing environment where
  okIff _ _ := load_ok_iff
  loaded _ _ := loaded_of_load
  failed _ _ _ := load_failed
  rejected _ _ _ := load_rejected
  notTwice _ _ _ _ loaded := loaded.rejects environment

end Runs

end Adas.ClassifierModel
