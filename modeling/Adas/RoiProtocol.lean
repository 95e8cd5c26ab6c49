import Mathlib.Data.List.Basic
import Adas.SafetyBridge

/-!
# The wire format of the region protocol

The client sends a header, a bounding box and an image for every region, and
the server answers with a header and a result.  All integers are big-endian;
the floats of the box are sent as their bit patterns.  This file models the
codecs field by field, at the offsets of the protocol, and shows that encoding
and decoding undo each other.
-/

namespace Adas.RoiProtocol

open Control (RoiBbox RoiResult)

abbrev Byte := BitVec 8

/-- The bit pattern of a `float`. -/
abbrev F32 := BitVec 32

def kMagic : BitVec 32 := 0x524F4931#32
def kVersion : BitVec 16 := 2#16
def kMessageRequest : BitVec 16 := 1#16
def kMessageResponse : BitVec 16 := 2#16

def kWidth : Nat := 96
def kHeight : Nat := 96
def kChannels : Nat := 3
def kImagePayloadSize : Nat := kWidth * kHeight * kChannels
def kBboxPayloadSize : Nat := 28
def kRequestPayloadSize : Nat := kBboxPayloadSize + kImagePayloadSize
def kHeaderSize : Nat := 20
def kResultPayloadSize : Nat := 12

def kStatusOk : BitVec 32 := 0#32
def kStatusInvalidHeader : BitVec 32 := 1#32
def kStatusInvalidPayload : BitVec 32 := 2#32
def kStatusAcceleratorError : BitVec 32 := 3#32
def kStatusPostprocessError : BitVec 32 := 4#32

def kInvalidClassId : BitVec 32 := 0xFFFFFFFF#32
def kConfidencePpmMax : BitVec 32 := 1000000#32

structure RoiHeader where
  magic : BitVec 32
  version : BitVec 16
  messageType : BitVec 16
  frameId : BitVec 32
  roiId : BitVec 32
  payloadSize : BitVec 32
  deriving DecidableEq, Repr

section Words

/-- `memcpy` of some bytes to an offset of a buffer. -/
def writeAt (destination : List Byte) (offset : Nat) (bytes : List Byte) :
    List Byte :=
  destination.take offset ++ bytes ++ destination.drop (offset + bytes.length)

/-- The bytes of an integer in network order. -/
def networkU16 (value : BitVec 16) : List Byte :=
  [value.extractLsb' 8 8, value.extractLsb' 0 8]

def networkU32 (value : BitVec 32) : List Byte :=
  [value.extractLsb' 24 8, value.extractLsb' 16 8, value.extractLsb' 8 8,
    value.extractLsb' 0 8]

def writeU16 (destination : List Byte) (offset : Nat) (value : BitVec 16) :
    List Byte :=
  writeAt destination offset (networkU16 value)

def writeU32 (destination : List Byte) (offset : Nat) (value : BitVec 32) :
    List Byte :=
  writeAt destination offset (networkU32 value)

def readU16 (source : List Byte) (offset : Nat) : BitVec 16 :=
  source.getD offset 0#8 ++ source.getD (offset + 1) 0#8

def readU32 (source : List Byte) (offset : Nat) : BitVec 32 :=
  source.getD offset 0#8 ++ source.getD (offset + 1) 0#8 ++
    source.getD (offset + 2) 0#8 ++ source.getD (offset + 3) 0#8

/-- A `float` travels as the integer with its bits. -/
def writeF32 (destination : List Byte) (offset : Nat) (value : F32) :
    List Byte :=
  writeU32 destination offset value

def readF32 (source : List Byte) (offset : Nat) : F32 :=
  readU32 source offset

end Words

section Codecs

def encodeHeader (destination : List Byte) (header : RoiHeader) : List Byte :=
  let destination := writeU32 destination 0 header.magic
  let destination := writeU16 destination 4 header.version
  let destination := writeU16 destination 6 header.messageType
  let destination := writeU32 destination 8 header.frameId
  let destination := writeU32 destination 12 header.roiId
  writeU32 destination 16 header.payloadSize

def decodeHeader (source : List Byte) : RoiHeader where
  magic := readU32 source 0
  version := readU16 source 4
  messageType := readU16 source 6
  frameId := readU32 source 8
  roiId := readU32 source 12
  payloadSize := readU32 source 16

def isValidRequestHeader (header : RoiHeader) : Bool :=
  header.magic == kMagic && header.version == kVersion &&
    header.messageType == kMessageRequest &&
    header.payloadSize == BitVec.ofNat 32 kRequestPayloadSize

def isValidResponseHeader (header : RoiHeader) : Bool :=
  header.magic == kMagic && header.version == kVersion &&
    header.messageType == kMessageResponse &&
    header.payloadSize == BitVec.ofNat 32 kResultPayloadSize

def encodeBbox (destination : List Byte) (bbox : RoiBbox F32) : List Byte :=
  let destination := writeF32 destination 0 bbox.x
  let destination := writeF32 destination 4 bbox.y
  let destination := writeF32 destination 8 bbox.width
  let destination := writeF32 destination 12 bbox.height
  let destination := writeF32 destination 16 bbox.objectness
  let destination := writeU32 destination 20 bbox.frameWidth
  writeU32 destination 24 bbox.frameHeight

def decodeBbox (source : List Byte) : RoiBbox F32 where
  x := readF32 source 0
  y := readF32 source 4
  width := readF32 source 8
  height := readF32 source 12
  objectness := readF32 source 16
  frameWidth := readU32 source 20
  frameHeight := readU32 source 24

def encodeResult (destination : List Byte) (result : RoiResult) : List Byte :=
  let destination := writeU32 destination 0 result.status
  let destination := writeU32 destination 4 result.classId
  writeU32 destination 8 result.confidencePpm

def decodeResult (source : List Byte) : RoiResult where
  status := readU32 source 0
  classId := readU32 source 4
  confidencePpm := readU32 source 8

end Codecs

section Wire

/-- The fields of a header in network order, one after the other. -/
def headerBytes (header : RoiHeader) : List Byte :=
  networkU32 header.magic ++ networkU16 header.version ++
    networkU16 header.messageType ++ networkU32 header.frameId ++
    networkU32 header.roiId ++ networkU32 header.payloadSize

def bboxBytes (bbox : RoiBbox F32) : List Byte :=
  networkU32 bbox.x ++ networkU32 bbox.y ++ networkU32 bbox.width ++
    networkU32 bbox.height ++ networkU32 bbox.objectness ++
    networkU32 bbox.frameWidth ++ networkU32 bbox.frameHeight

def resultBytes (result : RoiResult) : List Byte :=
  networkU32 result.status ++ networkU32 result.classId ++
    networkU32 result.confidencePpm

@[simp]
theorem length_headerBytes (header : RoiHeader) :
    (headerBytes header).length = kHeaderSize :=
  rfl

@[simp]
theorem length_bboxBytes (bbox : RoiBbox F32) :
    (bboxBytes bbox).length = kBboxPayloadSize :=
  rfl

@[simp]
theorem length_resultBytes (result : RoiResult) :
    (resultBytes result).length = kResultPayloadSize :=
  rfl

variable (destination : List Byte)

/-- The offsets line up: whatever the buffer holds, encoding fills it from its
start with the fields in network order. -/
theorem encodeHeader_eq (header : RoiHeader) :
    encodeHeader destination header =
      headerBytes header ++ destination.drop kHeaderSize := by
  simp [encodeHeader, headerBytes, writeU32, writeU16, writeAt, networkU32,
    networkU16, kHeaderSize]

theorem encodeBbox_eq (bbox : RoiBbox F32) :
    encodeBbox destination bbox =
      bboxBytes bbox ++ destination.drop kBboxPayloadSize := by
  simp [encodeBbox, bboxBytes, writeF32, writeU32, writeAt, networkU32,
    kBboxPayloadSize]

theorem encodeResult_eq (result : RoiResult) :
    encodeResult destination result =
      resultBytes result ++ destination.drop kResultPayloadSize := by
  simp [encodeResult, resultBytes, writeU32, writeAt, networkU32,
    kResultPayloadSize]

/-- A buffer of just the size is filled. -/
@[simp]
theorem encodeHeader_replicate (header : RoiHeader) :
    encodeHeader (List.replicate kHeaderSize 0#8) header = headerBytes header := by
  rw [encodeHeader_eq, List.drop_replicate, Nat.sub_self, List.replicate_zero,
    List.append_nil]

@[simp]
theorem encodeBbox_replicate (bbox : RoiBbox F32) :
    encodeBbox (List.replicate kBboxPayloadSize 0#8) bbox = bboxBytes bbox := by
  rw [encodeBbox_eq, List.drop_replicate, Nat.sub_self, List.replicate_zero,
    List.append_nil]

end Wire

section RoundTrips

theorem append_extractLsb'_u16 (value : BitVec 16) :
    value.extractLsb' 8 8 ++ value.extractLsb' 0 8 = value :=
  BitVec.extractLsb'_append_extractLsb'

theorem append_extractLsb'_u32 (value : BitVec 32) :
    value.extractLsb' 24 8 ++ value.extractLsb' 16 8 ++ value.extractLsb' 8 8 ++
      value.extractLsb' 0 8 = value := by
  apply BitVec.eq_of_getLsbD_eq
  intro index inRange
  simp only [BitVec.getLsbD_append, BitVec.getLsbD_extractLsb']
  split_ifs <;> simp <;> grind

theorem networkU16_append (high low : Byte) :
    networkU16 (high ++ low) = [high, low] := by
  have highEq : (high ++ low).extractLsb' 8 8 = high :=
    BitVec.extractLsb'_append_eq_left
  have lowEq : (high ++ low).extractLsb' 0 8 = low :=
    BitVec.extractLsb'_append_eq_right
  simp only [networkU16, highEq, lowEq]

theorem networkU32_append (first second third fourth : Byte) :
    networkU32 (first ++ second ++ third ++ fourth) =
      [first, second, third, fourth] := by
  simp only [networkU32, List.cons.injEq, and_true]
  refine ⟨?_, ?_, ?_, ?_⟩ <;>
    apply BitVec.eq_of_getLsbD_eq <;>
    intro index inRange <;>
    simp only [BitVec.getLsbD_append, BitVec.getLsbD_extractLsb'] <;>
    grind

/-- The bytes of an integer that has been read are those it was read from. -/
theorem networkU16_readU16 {source : List Byte} {offset : Nat}
    (inside : offset + 2 ≤ source.length) :
    networkU16 (readU16 source offset) = (source.drop offset).take 2 := by
  rw [readU16, networkU16_append]
  apply List.ext_getElem
  · simp
    omega
  · intro index inField inSource
    simp only [List.length_cons, List.length_nil] at inField
    obtain rfl | rfl : index = 0 ∨ index = 1 := by omega
    · simp [List.getElem?_eq_getElem (show offset < source.length by omega)]
    · simp [List.getElem?_eq_getElem (show offset + 1 < source.length by omega)]

theorem networkU32_readU32 {source : List Byte} {offset : Nat}
    (inside : offset + 4 ≤ source.length) :
    networkU32 (readU32 source offset) = (source.drop offset).take 4 := by
  rw [readU32, networkU32_append]
  apply List.ext_getElem
  · simp
    omega
  · intro index inField inSource
    simp only [List.length_cons, List.length_nil] at inField
    obtain rfl | rfl | rfl | rfl :
        index = 0 ∨ index = 1 ∨ index = 2 ∨ index = 3 := by omega
    · simp [List.getElem?_eq_getElem (show offset < source.length by omega)]
    · simp [List.getElem?_eq_getElem (show offset + 1 < source.length by omega)]
    · simp [List.getElem?_eq_getElem (show offset + 2 < source.length by omega)]
    · simp [List.getElem?_eq_getElem (show offset + 3 < source.length by omega)]

/-- Decoding undoes encoding, on every header. -/
@[simp]
theorem decodeHeader_headerBytes (header : RoiHeader) :
    decodeHeader (headerBytes header) = header := by
  obtain ⟨magic, version, messageType, frameId, roiId, payloadSize⟩ := header
  simp only [decodeHeader, headerBytes, networkU16, networkU32, List.cons_append,
    List.nil_append, RoiHeader.mk.injEq]
  exact ⟨append_extractLsb'_u32 magic, append_extractLsb'_u16 version,
    append_extractLsb'_u16 messageType, append_extractLsb'_u32 frameId,
    append_extractLsb'_u32 roiId, append_extractLsb'_u32 payloadSize⟩

@[simp]
theorem decodeBbox_bboxBytes (bbox : RoiBbox F32) :
    decodeBbox (bboxBytes bbox) = bbox := by
  obtain ⟨x, y, width, height, objectness, frameWidth, frameHeight⟩ := bbox
  simp only [decodeBbox, bboxBytes, networkU32, List.cons_append, List.nil_append,
    RoiBbox.mk.injEq]
  exact ⟨append_extractLsb'_u32 x, append_extractLsb'_u32 y,
    append_extractLsb'_u32 width, append_extractLsb'_u32 height,
    append_extractLsb'_u32 objectness, append_extractLsb'_u32 frameWidth,
    append_extractLsb'_u32 frameHeight⟩

@[simp]
theorem decodeResult_resultBytes (result : RoiResult) :
    decodeResult (resultBytes result) = result := by
  obtain ⟨status, classId, confidencePpm⟩ := result
  simp only [decodeResult, RoiResult.mk.injEq]
  exact ⟨append_extractLsb'_u32 status, append_extractLsb'_u32 classId,
    append_extractLsb'_u32 confidencePpm⟩

/-- Encoding undoes decoding, on every buffer that is long enough. -/
theorem headerBytes_decodeHeader {source : List Byte}
    (long : kHeaderSize ≤ source.length) :
    headerBytes (decodeHeader source) = source.take kHeaderSize := by
  have inside : 20 ≤ source.length := long
  simp only [headerBytes, decodeHeader]
  rw [networkU32_readU32 (by omega), networkU16_readU16 (by omega),
    networkU16_readU16 (by omega), networkU32_readU32 (by omega),
    networkU32_readU32 (by omega), networkU32_readU32 (by omega), List.drop_zero,
    ← List.take_add, ← List.take_add, ← List.take_add, ← List.take_add,
    ← List.take_add]
  rfl

theorem bboxBytes_decodeBbox {source : List Byte}
    (long : kBboxPayloadSize ≤ source.length) :
    bboxBytes (decodeBbox source) = source.take kBboxPayloadSize := by
  have inside : 28 ≤ source.length := long
  simp only [bboxBytes, decodeBbox, readF32]
  rw [networkU32_readU32 (by omega), networkU32_readU32 (by omega),
    networkU32_readU32 (by omega), networkU32_readU32 (by omega),
    networkU32_readU32 (by omega), networkU32_readU32 (by omega),
    networkU32_readU32 (by omega), List.drop_zero, ← List.take_add,
    ← List.take_add, ← List.take_add, ← List.take_add, ← List.take_add,
    ← List.take_add]
  rfl

theorem resultBytes_decodeResult {source : List Byte}
    (long : kResultPayloadSize ≤ source.length) :
    resultBytes (decodeResult source) = source.take kResultPayloadSize := by
  have inside : 12 ≤ source.length := long
  simp only [resultBytes, decodeResult]
  rw [networkU32_readU32 (by omega), networkU32_readU32 (by omega),
    networkU32_readU32 (by omega), List.drop_zero, ← List.take_add,
    ← List.take_add]
  rfl

end RoundTrips

section Messages

/-- The header of a request, as the client fills it in. -/
def requestHeader (frameId roiId : BitVec 32) : RoiHeader where
  magic := kMagic
  version := kVersion
  messageType := kMessageRequest
  frameId := frameId
  roiId := roiId
  payloadSize := BitVec.ofNat 32 kRequestPayloadSize

/-- The header of a response, as the server fills it in. -/
def responseHeader (frameId roiId : BitVec 32) : RoiHeader where
  magic := kMagic
  version := kVersion
  messageType := kMessageResponse
  frameId := frameId
  roiId := roiId
  payloadSize := BitVec.ofNat 32 kResultPayloadSize

/-- A well-formed request. -/
structure RoiRequest where
  frameId : BitVec 32
  roiId : BitVec 32
  bbox : RoiBbox F32
  image : List Byte
  imageSize : image.length = kImagePayloadSize

def RoiRequest.header (request : RoiRequest) : RoiHeader :=
  requestHeader request.frameId request.roiId

/-- A request on the wire. -/
def RoiRequest.bytes (request : RoiRequest) : List Byte :=
  headerBytes request.header ++ (bboxBytes request.bbox ++ request.image)

/-- A response on the wire. -/
def responseBytes (frameId roiId : BitVec 32) (result : RoiResult) : List Byte :=
  headerBytes (responseHeader frameId roiId) ++ resultBytes result

/-- The contract of a response: a known status, a confidence in range, a class
when the status is OK and none otherwise. -/
structure ObeysContract (payload : RoiResult) : Prop where
  status : payload.status ≤ kStatusPostprocessError
  confidence : payload.confidencePpm ≤ kConfidencePpmMax
  classified : payload.status = kStatusOk → payload.classId ≠ kInvalidClassId
  failed : payload.status ≠ kStatusOk →
    payload.classId = kInvalidClassId ∧ payload.confidencePpm = 0#32

theorem RoiRequest.length_bytes (request : RoiRequest) :
    request.bytes.length = kHeaderSize + kRequestPayloadSize := by
  rw [bytes, List.length_append, List.length_append, length_headerBytes,
    length_bboxBytes, request.imageSize, kRequestPayloadSize]

theorem length_responseBytes (frameId roiId : BitVec 32) (result : RoiResult) :
    (responseBytes frameId roiId result).length =
      kHeaderSize + kResultPayloadSize := by
  rw [responseBytes, List.length_append, length_headerBytes, length_resultBytes]

theorem responseBytes_ne_nil (frameId roiId : BitVec 32) (result : RoiResult) :
    responseBytes frameId roiId result ≠ [] :=
  List.cons_ne_nil _ _

@[simp]
theorem isValidRequestHeader_requestHeader (frameId roiId : BitVec 32) :
    isValidRequestHeader (requestHeader frameId roiId) = true := by
  simp [isValidRequestHeader, requestHeader]

@[simp]
theorem isValidResponseHeader_responseHeader (frameId roiId : BitVec 32) :
    isValidResponseHeader (responseHeader frameId roiId) = true := by
  simp [isValidResponseHeader, responseHeader]

/-- A valid response header is one that a server fills in. -/
theorem isValidResponseHeader_iff {header : RoiHeader} :
    isValidResponseHeader header = true ↔
      header = responseHeader header.frameId header.roiId := by
  obtain ⟨magic, version, messageType, frameId, roiId, payloadSize⟩ := header
  simp [isValidResponseHeader, responseHeader, and_assoc]

end Messages

end Adas.RoiProtocol
