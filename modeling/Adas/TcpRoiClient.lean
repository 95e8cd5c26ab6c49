import Adas.EventMachine
import Adas.StreamProgram
import Adas.RoiProtocol

/-!
# The region client's end of the connection

`classify` sends one request and waits for its response.  It has many exits
after the first byte has been sent, and each of them either hands a result to
the caller or tears the connection down.  So over one connection the requests
and the responses of the calls that returned `Ok` are all that has passed, and
what is left of an abandoned response is never taken for a later one.
-/

namespace Adas.Network

open Control (RoiBbox RoiResult)
open RoiProtocol
open StreamProgram (Socket SendResult RecvResult Ensures Reads Writes Delivers Takes
  arriving settle run bytewise)

inductive TcpClientStatus where
  | ok
  | invalidArgument
  | notConnected
  | systemError
  | peerClosed
  | protocolError
  deriving DecidableEq, Repr

structure ClassificationResult where
  frameId : BitVec 32 := 0#32
  roiId : BitVec 32 := 0#32
  status : BitVec 32 := 0#32
  classId : BitVec 32 := 0#32
  confidencePpm : BitVec 32 := 0#32
  deriving DecidableEq, Repr

/-- `CV_8UC3`: three channels of one byte. -/
def kCv8uc3 : Int := 16

/-- The part of `cv::Mat` that is looked at.  `data` are the elements row by
row, without the gaps that a matrix has when it is not continuous. -/
structure Mat where
  type : Int
  cols : Int
  rows : Int
  isContinuous : Bool
  data : List Byte
  sized : type = kCv8uc3 → 0 ≤ rows → (data.length : Int) = rows * cols * 3

def Mat.empty (mat : Mat) : Bool :=
  mat.data.isEmpty

def Mat.clone (mat : Mat) : Mat :=
  { mat with isContinuous := true }

structure BoundingBox where
  x : F32
  y : F32
  width : F32
  height : F32

structure PreparedRoi where
  frameId : BitVec 32
  roiId : BitVec 32
  objectBbox : BoundingBox
  objectness : F32
  frameWidth : BitVec 32
  frameHeight : BitVec 32
  rgbPixels : Mat

namespace PreparedRoi

/-- The image has the format that the server expects. -/
def isExpected (roi : PreparedRoi) : Bool :=
  !(roi.rgbPixels.empty || roi.rgbPixels.type != kCv8uc3 ||
    roi.rgbPixels.cols != kWidth || roi.rgbPixels.rows != kHeight)

def bbox (roi : PreparedRoi) : RoiBbox F32 where
  x := roi.objectBbox.x
  y := roi.objectBbox.y
  width := roi.objectBbox.width
  height := roi.objectBbox.height
  objectness := roi.objectness
  frameWidth := roi.frameWidth
  frameHeight := roi.frameHeight

/-- The pixels of an expected image fill the payload. -/
theorem length_data {roi : PreparedRoi} (expected : roi.isExpected = true) :
    roi.rgbPixels.data.length = kImagePayloadSize := by
  simp only [isExpected, Bool.not_eq_true', Bool.or_eq_false_iff,
    bne_eq_false_iff_eq] at expected
  obtain ⟨⟨⟨-, isRgb⟩, cols⟩, rows⟩ := expected
  have sized := roi.rgbPixels.sized isRgb (rows ▸ Int.natCast_nonneg kHeight)
  rw [cols, rows] at sized
  exact Int.ofNat_inj.mp sized

/-- What `classify` sends for a region. -/
def requestBytes (roi : PreparedRoi) : List Byte :=
  headerBytes (requestHeader roi.frameId roi.roiId) ++
    (bboxBytes roi.bbox ++ roi.rgbPixels.data)

/-- The request for an expected region. -/
def request (roi : PreparedRoi) (expected : roi.isExpected = true) :
    RoiRequest where
  frameId := roi.frameId
  roiId := roi.roiId
  bbox := roi.bbox
  image := roi.rgbPixels.data
  imageSize := length_data expected

end PreparedRoi

/-- The client, with the socket of its connection. -/
structure TcpRoiClient where
  socket : Option (Socket Byte) := none

namespace TcpRoiClient

/-- What `classify` returns: the status, the caller's result, and whether the
client is still connected. -/
structure ClassifyReturn where
  status : TcpClientStatus
  result : ClassificationResult
  connected : Bool

/-- A block that was transferred, and whether the client is still connected. -/
structure TransferReturn where
  status : TcpClientStatus
  connected : Bool
  bytes : List Byte := []

def sendAll (connected : Bool) (data : List Byte) :
    StreamProgram Byte TransferReturn :=
  if !connected then
    pure { status := .notConnected, connected := connected }
  else
    .send data fun
      | .complete => pure { status := .ok, connected := true }
      | .closed => pure { status := .peerClosed, connected := false }
      | .failed => pure { status := .systemError, connected := false }

def receiveAll (connected : Bool) (size : Nat) :
    StreamProgram Byte TransferReturn :=
  if !connected then
    pure { status := .notConnected, connected := connected }
  else
    .receive size fun
      | .complete, got => pure ⟨.ok, true, got⟩
      | .closed, got => pure ⟨.peerClosed, false, got⟩
      | .failed, got => pure ⟨.systemError, false, got⟩

/-- The checks of `classify` on a payload. -/
def rejectsPayload (wireResult : RoiResult) : Bool :=
  decide (kStatusPostprocessError < wireResult.status) ||
    decide (kConfidencePpmMax < wireResult.confidencePpm) ||
    (wireResult.status == kStatusOk && wireResult.classId == kInvalidClassId) ||
    (wireResult.status != kStatusOk &&
      (wireResult.classId != kInvalidClassId || wireResult.confidencePpm != 0#32))

/-- `classify` from the response header on. -/
def receiveResponse (connected : Bool) (roi : PreparedRoi)
    (result : ClassificationResult) : StreamProgram Byte ClassifyReturn := do
  let header ← receiveAll connected kHeaderSize
  if header.status ≠ .ok then
    pure ⟨header.status, result, header.connected⟩
  else
    let responseHeader := decodeHeader header.bytes
    if !isValidResponseHeader responseHeader ||
        responseHeader.frameId != roi.frameId ||
        responseHeader.roiId != roi.roiId then
      pure ⟨.protocolError, result, false⟩
    else do
      let payload ← receiveAll header.connected kResultPayloadSize
      if payload.status ≠ .ok then
        pure ⟨payload.status, result, payload.connected⟩
      else
        let wireResult := decodeResult payload.bytes
        if rejectsPayload wireResult then
          pure ⟨.protocolError, result, false⟩
        else
          pure
            { status := .ok
              result :=
                { frameId := responseHeader.frameId
                  roiId := responseHeader.roiId
                  status := wireResult.status
                  classId := wireResult.classId
                  confidencePpm := wireResult.confidencePpm }
              connected := payload.connected }

/-- `classify`. -/
def classify (connected : Bool) (roi : PreparedRoi)
    (result : ClassificationResult) : StreamProgram Byte ClassifyReturn :=
  if !connected then
    pure ⟨.notConnected, result, connected⟩
  else if !roi.isExpected then
    pure ⟨.invalidArgument, result, connected⟩
  else
    let continuousRoi :=
      if roi.rgbPixels.isContinuous then roi.rgbPixels else roi.rgbPixels.clone
    if continuousRoi.empty then
      pure ⟨.systemError, result, connected⟩
    else do
      let header ← sendAll connected
        (encodeHeader (List.replicate kHeaderSize 0#8)
          (requestHeader roi.frameId roi.roiId))
      if header.status ≠ .ok then
        pure ⟨header.status, result, header.connected⟩
      else do
        let bbox ← sendAll header.connected
          (encodeBbox (List.replicate kBboxPayloadSize 0#8) roi.bbox)
        if bbox.status ≠ .ok then
          pure ⟨bbox.status, result, bbox.connected⟩
        else do
          let image ← sendAll bbox.connected
            (continuousRoi.data.take kImagePayloadSize)
          if image.status ≠ .ok then
            pure ⟨image.status, result, image.connected⟩
          else
            receiveResponse image.connected roi result

/-- The payload passes the checks exactly when it obeys the contract. -/
theorem rejectsPayload_eq_false_iff {payload : RoiResult} :
    rejectsPayload payload = false ↔ ObeysContract payload := by
  simp only [rejectsPayload, Bool.or_eq_false_iff, decide_eq_false_iff_not,
    BitVec.not_lt, Bool.and_eq_false_imp, beq_iff_eq, beq_eq_false_iff_ne,
    bne_iff_ne, bne_eq_false_iff_eq]
  constructor
  · rintro ⟨⟨⟨status, confidence⟩, classified⟩, failed⟩
    exact ⟨status, confidence, classified, failed⟩
  · rintro ⟨status, confidence, classified, failed⟩
    exact ⟨⟨⟨status, confidence⟩, classified⟩, failed⟩

/-- The caller's result for a region and a payload. -/
def resultOf (roi : PreparedRoi) (payload : RoiResult) : ClassificationResult where
  frameId := roi.frameId
  roiId := roi.roiId
  status := payload.status
  classId := payload.classId
  confidencePpm := payload.confidencePpm

/-- The header is a valid response header with the ids of the region. -/
def Answers (roi : PreparedRoi) (header : RoiHeader) : Prop :=
  isValidResponseHeader header = true ∧ header.frameId = roi.frameId ∧
    header.roiId = roi.roiId

/-- What a call that ends with `Ok` has read: a header that answers the region
and a payload that obeys the contract, which is the result. -/
structure ReadsAnswer (roi : PreparedRoi) (result : ClassificationResult)
    (received after : List Byte) : Prop where
  answer : ∃ header payload : List Byte, header.length = kHeaderSize ∧
    payload.length = kResultPayloadSize ∧ Answers roi (decodeHeader header) ∧
    ObeysContract (decodeResult payload) ∧
    result = resultOf roi (decodeResult payload) ∧
    after = received ++ header ++ payload

/-- What `classify` leaves behind.  `Ok` comes with the whole request sent and
the answer read; any other status comes with the result as it was, and with no
byte sent or received unless the client is disconnected. -/
structure Attributes (roi : PreparedRoi) (result : ClassificationResult)
    (sent received : List Byte) (returned : ClassifyReturn)
    (sentAfter receivedAfter : List Byte) : Prop where
  ok : returned.status = .ok → roi.isExpected = true ∧
    returned.connected = true ∧ sentAfter = sent ++ roi.requestBytes ∧
      ReadsAnswer roi returned.result received receivedAfter
  unchanged : returned.status ≠ .ok → returned.result = result
  disconnected : returned.status ≠ .ok → returned.connected = true →
    sentAfter = sent ∧ receivedAfter = received

section Classify

variable {roi : PreparedRoi} {result : ClassificationResult}
variable {sent received sentAfter receivedAfter : List Byte}

theorem attributes_of_disconnected {status : TcpClientStatus}
    (failed : status ≠ .ok) :
    Attributes roi result sent received ⟨status, result, false⟩ sentAfter
      receivedAfter :=
  ⟨fun ok => absurd ok failed, fun _ => rfl, fun _ connected => by simp at connected⟩

theorem ensures_sendAll {Result : Type}
    {post : Result → List Byte → List Byte → Prop} {data : List Byte}
    {andThen : TransferReturn → StreamProgram Byte Result}
    (completes : Ensures post (andThen { status := .ok, connected := true })
      (sent ++ data) received)
    (fails : ∀ status part, status ≠ .ok →
      Ensures post (andThen { status := status, connected := false })
        (sent ++ part) received) :
    Ensures post (sendAll true data >>= andThen) sent received :=
  ⟨completes, fun part _ =>
    ⟨fails .peerClosed part (by decide), fails .systemError part (by decide)⟩⟩

theorem ensures_receiveAll {Result : Type}
    {post : Result → List Byte → List Byte → Prop} {size : Nat}
    {andThen : TransferReturn → StreamProgram Byte Result}
    (completes : ∀ got, got.length = size →
      Ensures post (andThen ⟨.ok, true, got⟩) sent (received ++ got))
    (fails : ∀ status part, status ≠ .ok →
      Ensures post (andThen ⟨status, false, part⟩) sent (received ++ part)) :
    Ensures post (receiveAll true size >>= andThen) sent received :=
  ⟨completes, fun part _ =>
    ⟨fails .peerClosed part (by decide), fails .systemError part (by decide)⟩⟩

/-- From the response header on, with the request sent. -/
theorem ensures_receiveResponse (expected : roi.isExpected = true) :
    Ensures (Attributes roi result sent received)
      (receiveResponse true roi result) (sent ++ roi.requestBytes) received := by
  unfold receiveResponse
  apply ensures_receiveAll
  · intro header headerSize
    simp only [ne_eq, not_true_eq_false, if_false]
    split_ifs with rejected
    · exact attributes_of_disconnected (by decide)
    · simp only [Bool.or_eq_true, Bool.not_eq_true', bne_iff_ne, ne_eq, not_or,
        Bool.not_eq_false, not_not] at rejected
      obtain ⟨⟨valid, frameId⟩, roiId⟩ := rejected
      apply ensures_receiveAll
      · intro payload payloadSize
        simp only [not_true_eq_false, if_false]
        split_ifs with rejectedPayload
        · exact attributes_of_disconnected (by decide)
        · have contract :=
            rejectsPayload_eq_false_iff.mp (eq_false_of_ne_true rejectedPayload)
          refine ⟨fun _ => ⟨expected, rfl, rfl, ⟨header, payload, headerSize,
            payloadSize, ⟨valid, frameId, roiId⟩, contract, ?_, rfl⟩⟩,
            fun failed => absurd rfl failed, fun failed => absurd rfl failed⟩
          rw [frameId, roiId]
          rfl
      · intro status part failed
        simp only [failed, not_false_eq_true, if_true]
        exact attributes_of_disconnected failed
  · intro status part failed
    simp only [ne_eq, failed, not_false_eq_true, if_true]
    exact attributes_of_disconnected failed

/-- Every exit of `classify` attributes its result. -/
theorem ensures_classify (connected : Bool) :
    Ensures (Attributes roi result sent received)
      (classify connected roi result) sent received := by
  unfold classify
  cases connected with
  | false => exact attributes_of_disconnected (by decide)
  | true =>
      have nothing : ∀ status, status ≠ .ok →
          Attributes roi result sent received ⟨status, result, true⟩ sent
            received :=
        fun status failed => ⟨fun ok => absurd ok failed, fun _ => rfl,
          fun _ _ => ⟨rfl, rfl⟩⟩
      have sameData : (if roi.rgbPixels.isContinuous = true then roi.rgbPixels
          else roi.rgbPixels.clone).data = roi.rgbPixels.data := by
        split_ifs <;> rfl
      simp only [Bool.not_true, Bool.false_eq_true, if_false]
      generalize (if roi.rgbPixels.isContinuous = true then roi.rgbPixels
        else roi.rgbPixels.clone) = continuousRoi at sameData ⊢
      split_ifs with unexpected missing
      · exact nothing .invalidArgument (by decide)
      · exact nothing .systemError (by decide)
      · have expected : roi.isExpected = true := by simpa using unexpected
        rw [sameData, List.take_of_length_le
          (PreparedRoi.length_data expected).le]
        apply ensures_sendAll
        · simp only [ne_eq, not_true_eq_false, if_false]
          apply ensures_sendAll
          · simp only [not_true_eq_false, if_false]
            apply ensures_sendAll
            · simp only [not_true_eq_false, if_false, encodeHeader_replicate,
                encodeBbox_replicate, List.append_assoc]
              exact ensures_receiveResponse expected
            · intro status part failed
              simp only [failed, not_false_eq_true, if_true]
              exact attributes_of_disconnected failed
          · intro status part failed
            simp only [failed, not_false_eq_true, if_true]
            exact attributes_of_disconnected failed
        · intro status part failed
          simp only [ne_eq, failed, not_false_eq_true, if_true]
          exact attributes_of_disconnected failed

end Classify

section Exchanges

variable {roi : PreparedRoi} {result : ClassificationResult}

/-- Without an image of the expected format nothing is sent. -/
theorem classify_unexpected (unexpected : roi.isExpected = false) :
    classify true roi result = .done ⟨.invalidArgument, result, true⟩ := by
  rw [classify, unexpected]
  rfl

/-- A block that is sent whole. -/
theorem writes_sendAll {Result : Type} {data more : List Byte}
    {andThen : TransferReturn → StreamProgram Byte Result}
    {after : StreamProgram Byte Result} (notEmpty : data ≠ [])
    (rest : Writes (settle (andThen { status := .ok, connected := true })) more
      after) :
    Writes (settle (sendAll true data >>= andThen)) (data ++ more) after :=
  .settle_send notEmpty rest

/-- A block that is received whole is handed over as it came. -/
theorem reads_receiveAll {Result : Type} {size : Nat} {got more : List Byte}
    {andThen : TransferReturn → StreamProgram Byte Result}
    {after : StreamProgram Byte Result} (whole : got.length = size)
    (notEmpty : got ≠ []) (rest : Reads (settle (andThen ⟨.ok, true, got⟩)) more
      after) :
    Reads (settle (receiveAll true size >>= andThen)) (got ++ more) after :=
  .settle_receive whole notEmpty rest

/-- A call for an expected region writes its request and then waits for the
response. -/
theorem writes_classify (expected : roi.isExpected = true) :
    Writes (settle (classify true roi result)) roi.requestBytes
      (settle (receiveResponse true roi result)) := by
  have sameData : (if roi.rgbPixels.isContinuous = true then roi.rgbPixels
      else roi.rgbPixels.clone).data = roi.rgbPixels.data := by
    split_ifs <;> rfl
  unfold classify
  simp only [Bool.not_true, Bool.false_eq_true, if_false, expected,
    encodeHeader_replicate, encodeBbox_replicate]
  generalize (if roi.rgbPixels.isContinuous = true then roi.rgbPixels
    else roi.rgbPixels.clone) = continuousRoi at sameData ⊢
  have dataSize : continuousRoi.data.length = kImagePayloadSize := by
    rw [sameData]
    exact PreparedRoi.length_data expected
  have dataNotEmpty : continuousRoi.data ≠ [] := by
    rw [← List.length_pos_iff, dataSize]
    decide
  have notMissing : continuousRoi.empty = false :=
    List.isEmpty_eq_false_iff.mpr dataNotEmpty
  have threeBlocks : roi.requestBytes =
      headerBytes (requestHeader roi.frameId roi.roiId) ++
        (bboxBytes roi.bbox ++ (continuousRoi.data ++ [])) := by
    rw [List.append_nil, sameData]
    rfl
  rw [notMissing, threeBlocks, List.take_of_length_le dataSize.le]
  simp only [Bool.false_eq_true, if_false]
  apply writes_sendAll (List.cons_ne_nil _ _)
  simp only [ne_eq, not_true_eq_false, if_false]
  apply writes_sendAll (List.cons_ne_nil _ _)
  simp only [not_true_eq_false, if_false]
  apply writes_sendAll dataNotEmpty
  simp only [not_true_eq_false, if_false]
  exact .refl _

/-- The response to a region is read and accepted. -/
theorem reads_receiveResponse {payload : RoiResult}
    (contract : ObeysContract payload) :
    Reads (settle (receiveResponse true roi result))
      (responseBytes roi.frameId roi.roiId payload)
      (.done ⟨.ok, resultOf roi payload, true⟩) := by
  have accepted : rejectsPayload payload = false :=
    rejectsPayload_eq_false_iff.mpr contract
  unfold receiveResponse responseBytes
  refine reads_receiveAll rfl (List.cons_ne_nil _ _) ?_
  simp only [ne_eq, not_true_eq_false, if_false, decodeHeader_headerBytes,
    isValidResponseHeader_responseHeader]
  simp only [responseHeader, bne_self_eq_false, Bool.not_true, Bool.or_self,
    Bool.false_eq_true, if_false]
  rw [← List.append_nil (resultBytes payload)]
  refine reads_receiveAll rfl (List.cons_ne_nil _ _) ?_
  simp only [not_true_eq_false, if_false, decodeResult_resultBytes, accepted,
    Bool.false_eq_true]
  exact .refl _

/-- Of a response to another region the header is read, and the rest abandoned. -/
theorem reads_otherResponse {frameId roiId : BitVec 32}
    (other : frameId ≠ roi.frameId ∨ roiId ≠ roi.roiId) :
    Reads (settle (receiveResponse true roi result))
      (headerBytes (responseHeader frameId roiId))
      (.done ⟨.protocolError, result, false⟩) := by
  have rejected : (!isValidResponseHeader (responseHeader frameId roiId) ||
      (responseHeader frameId roiId).frameId != roi.frameId ||
      (responseHeader frameId roiId).roiId != roi.roiId) = true := by
    rw [isValidResponseHeader_responseHeader]
    simpa [responseHeader] using other
  unfold receiveResponse
  rw [← List.append_nil (headerBytes (responseHeader frameId roiId))]
  refine reads_receiveAll rfl (List.cons_ne_nil _ _) ?_
  simp only [ne_eq, not_true_eq_false, if_false, decodeHeader_headerBytes, rejected,
    if_true]
  exact .refl _

end Exchanges

section Calls

def isConnected (client : TcpRoiClient) : Bool :=
  client.socket.isSome

def disconnect (_ : TcpRoiClient) : TcpRoiClient where
  socket := none

/-- What the system calls of `connectToServer` return, and the socket that is
connected if they all succeed. -/
structure ConnectResults where
  newSocket : Int
  conversionResult : Int
  connectionResult : Int
  sends : List SendResult
  recvs : List (RecvResult Byte)

def connectToServer (client : TcpRoiClient) (serverAddress : String)
    (serverPort : BitVec 16) (results : ConnectResults) :
    TcpClientStatus × TcpRoiClient :=
  if serverAddress.isEmpty || serverPort == 0#16 then
    (.invalidArgument, client)
  else if client.isConnected then
    (.invalidArgument, client)
  else if results.newSocket < 0 then
    (.systemError, client)
  else if results.conversionResult ≠ 1 then
    (.invalidArgument, client)
  else if results.connectionResult < 0 then
    (.systemError, client)
  else
    (.ok, { socket := some { sends := results.sends, recvs := results.recvs } })

/-- A call on the client.  The result is the caller's object before the call. -/
inductive Call where
  | connectToServer (serverAddress : String) (serverPort : BitVec 16)
      (results : ConnectResults)
  | classify (roi : PreparedRoi) (result : ClassificationResult)
  | disconnect

/-- What the caller sees when a call returns. -/
inductive Return where
  | connected (status : TcpClientStatus)
  | classified (status : TcpClientStatus) (result : ClassificationResult)
  | disconnected

/-- An execution of `classify`, with the socket as the call leaves it. -/
def runClassify (client : TcpRoiClient) (roi : PreparedRoi)
    (result : ClassificationResult) : Option (ClassifyReturn × Socket Byte) :=
  run (classify client.isConnected roi result) (client.socket.getD {})

/-- One call; `none` if it waits for the peer for ever. -/
def call (client : TcpRoiClient) : Call → Option (Return × TcpRoiClient)
  | .connectToServer serverAddress serverPort results =>
      let (status, after) :=
        client.connectToServer serverAddress serverPort results
      some (.connected status, after)
  | .classify roi result =>
      (client.runClassify roi result).map fun (returned, socket) =>
        (.classified returned.status returned.result,
          { socket := if returned.connected then some socket else none })
  | .disconnect => some (.disconnected, client.disconnect)

/-- Calls one after the other.  After a call that has not returned there are no
others. -/
def machine : EventMachine (Option TcpRoiClient) Call (Option Return) where
  init := some {}
  step
    | none, _ => (none, none)
    | some client, next =>
        match client.call next with
        | none => (none, none)
        | some (returned, after) => (some after, some returned)

/-- The client after some calls. -/
def clientAfter (calls : List Call) : Option TcpRoiClient :=
  machine.runFrom machine.init calls

variable {roi : PreparedRoi} {result : ClassificationResult} {socket : Socket Byte}
  {returned : ClassifyReturn} {answer later : List Byte}

/-- A call on a socket that takes the request goes by what the response makes of it. -/
theorem runClassify_of_reads (expected : roi.isExpected = true) {count : Nat}
    (takes : Takes socket.sends (roi.requestBytes.length + count))
    (delivers : Delivers socket.recvs) (arrives : arriving socket.recvs = answer ++ later)
    (reads : Reads (settle (receiveResponse true roi result)) answer (.done returned)) :
    ∃ after : Socket Byte, Takes after.sends count ∧ Delivers after.recvs ∧
      arriving after.recvs = later ∧ after.received = socket.received ++ answer ∧
      runClassify { socket := some socket } roi result = some (returned, after) := by
  obtain ⟨sends, sendsTake, writes⟩ := (writes_classify expected).run takes
  obtain ⟨recvs, recvsDeliver, recvsEq, runs⟩ := @reads.run _ _ _ _ _ later
    { socket with sends := sends, sent := socket.sent ++ roi.requestBytes } delivers arrives
  refine ⟨⟨sends, recvs, socket.sent ++ roi.requestBytes, socket.received ++ answer⟩,
    sendsTake, recvsDeliver, recvsEq, rfl, ?_⟩
  rw [StreamProgram.run_settle] at writes
  exact writes.trans runs

end Calls

section Alignment

/-- A region and the result that `classify` returned with `Ok`. -/
structure Exchange where
  roi : PreparedRoi
  result : ClassificationResult

namespace Exchange

def payload (exchange : Exchange) : RoiResult where
  status := exchange.result.status
  classId := exchange.result.classId
  confidencePpm := exchange.result.confidencePpm

def request (exchange : Exchange) : List Byte :=
  exchange.roi.requestBytes

/-- The one response that carries the ids of the region and the result. -/
def response (exchange : Exchange) : List Byte :=
  responseBytes exchange.roi.frameId exchange.roi.roiId exchange.payload

end Exchange

/-- A connection that is made has no exchanges yet. -/
def addExchange (exchanges : List Exchange) :
    Call × Option Return → List Exchange
  | (.connectToServer _ _ _, some (.connected .ok)) => []
  | (.classify roi _, some (.classified .ok result)) =>
      exchanges ++ [⟨roi, result⟩]
  | _ => exchanges

/-- The exchanges on the current connection, from the calls and what they
returned. -/
def exchangesAfter (calls : List Call) : List Exchange :=
  (machine.collectFrom (fun client next => some (next, machine.emits client next))
    machine.init calls).foldl addExchange []

/-- A connection on which the requests and responses of the exchanges have
passed, and nothing else. -/
structure Aligned (exchanges : List Exchange) (socket : Socket Byte) : Prop where
  sent : socket.sent = exchanges.flatMap Exchange.request
  received : socket.received = exchanges.flatMap Exchange.response

/-- An answer is, byte for byte, the response that carries the result. -/
theorem ReadsAnswer.response {roi : PreparedRoi} {result : ClassificationResult}
    {received after : List Byte} (reads : ReadsAnswer roi result received after) :
    after = received ++ Exchange.response ⟨roi, result⟩ := by
  obtain ⟨header, payload, headerSize, payloadSize, ⟨valid, frameId, roiId⟩, -,
    rfl, rfl⟩ := reads.answer
  have headerEq : headerBytes (responseHeader roi.frameId roi.roiId) = header := by
    rw [← frameId, ← roiId, ← isValidResponseHeader_iff.mp valid,
      headerBytes_decodeHeader headerSize.ge, ← headerSize, List.take_length]
  have payloadEq : resultBytes (decodeResult payload) = payload := by
    rw [resultBytes_decodeResult payloadSize.ge, ← payloadSize, List.take_length]
  rw [Exchange.response, responseBytes, headerEq, List.append_assoc]
  exact congrArg (fun bytes => received ++ (header ++ bytes)) payloadEq.symm

/-- Every execution of `classify` attributes its result. -/
theorem runClassify_attributes {client : TcpRoiClient} {roi : PreparedRoi}
    {result : ClassificationResult} {returned : ClassifyReturn}
    {after : Socket Byte}
    (runs : client.runClassify roi result = some (returned, after)) :
    Attributes roi result (client.socket.getD {}).sent
      (client.socket.getD {}).received returned after.sent after.received :=
  Ensures.of_run (ensures_classify client.isConnected) runs

theorem clientAfter_append (calls : List Call) (next : Call) :
    clientAfter (calls ++ [next]) = machine.next (clientAfter calls) next :=
  machine.runFrom_append machine.init calls [next]

/-- A call that returns leaves its socket, or no connection. -/
theorem clientAfter_classify (calls : List Call) {client : TcpRoiClient}
    {roi : PreparedRoi} {result : ClassificationResult} {returned : ClassifyReturn}
    {after : Socket Byte}
    (before : clientAfter calls = some client)
    (runs : client.runClassify roi result = some (returned, after)) :
    clientAfter (calls ++ [.classify roi result]) =
      some { socket := if returned.connected then some after else none } := by
  rw [clientAfter_append, before]
  simp only [EventMachine.next, machine, call, runs, Option.map_some]

theorem exchangesAfter_append (calls : List Call) (next : Call) :
    exchangesAfter (calls ++ [next]) =
      addExchange (exchangesAfter calls)
        (next, machine.emits (clientAfter calls) next) := by
  rw [exchangesAfter, machine.collectFrom_append, List.foldl_append]
  rfl

/-- Every call keeps the connection aligned. -/
theorem Aligned.call {exchanges : List Exchange} {client after : TcpRoiClient}
    (aligned : ∀ socket, client.socket = some socket → Aligned exchanges socket)
    {next : Call} {returned : Return}
    (calls : client.call next = some (returned, after)) :
    ∀ socket, after.socket = some socket →
      Aligned (addExchange exchanges (next, some returned)) socket := by
  cases next with
  | connectToServer serverAddress serverPort results =>
      simp only [TcpRoiClient.call, connectToServer] at calls
      split_ifs at calls <;>
        obtain ⟨rfl, rfl⟩ := Prod.mk.inj (Option.some.inj calls)
      all_goals try exact aligned
      rintro socket ⟨⟩
      exact ⟨rfl, rfl⟩
  | classify roi result =>
      obtain ⟨⟨outcome, socketAfter⟩, runs, returns⟩ :=
        Option.map_eq_some_iff.mp calls
      obtain ⟨rfl, rfl⟩ := Prod.mk.inj returns
      have attributes := runClassify_attributes runs
      rintro socket stillConnected
      have connected : outcome.connected = true ∧ socketAfter = socket := by
        simpa using stillConnected
      obtain ⟨connected, rfl⟩ := connected
      cases before : client.socket with
      | none =>
          -- Without a connection there is none afterwards.
          simp only [runClassify, isConnected, before] at runs
          obtain ⟨rfl, -⟩ := Prod.mk.inj (Option.some.inj runs)
          simp at connected
      | some socketBefore =>
          have alignedBefore := aligned socketBefore before
          rw [before, Option.getD_some] at attributes
          by_cases ok : outcome.status = .ok
          · obtain ⟨-, -, sent, reads⟩ := attributes.ok ok
            rw [ok]
            constructor
            · rw [sent, alignedBefore.sent]
              simp [addExchange, Exchange.request]
            · rw [reads.response, alignedBefore.received]
              simp [addExchange]
          · obtain ⟨sent, received⟩ := attributes.disconnected ok connected
            have same : addExchange exchanges (.classify roi result,
                some (.classified outcome.status outcome.result)) =
                exchanges := by
              cases status : outcome.status <;> first | rfl | exact absurd status ok
            rw [same]
            exact ⟨sent.trans alignedBefore.sent,
              received.trans alignedBefore.received⟩
  | disconnect =>
      obtain ⟨rfl, rfl⟩ := Prod.mk.inj (Option.some.inj calls)
      rintro socket ⟨⟩

/-- In every state that calls lead to, the connection is aligned. -/
theorem aligned_clientAfter (calls : List Call) :
    ∀ client, clientAfter calls = some client →
      ∀ socket, client.socket = some socket →
        Aligned (exchangesAfter calls) socket := by
  induction calls using List.reverseRecOn with
  | nil =>
      rintro client ⟨⟩ socket ⟨⟩
  | append_singleton calls next ih =>
      intro client
      rw [clientAfter_append, exchangesAfter_append]
      cases before : clientAfter calls with
      | none =>
          rintro ⟨⟩
      | some clientBefore =>
          simp only [EventMachine.next, EventMachine.emits, machine]
          cases returns : clientBefore.call next with
          | none => rintro ⟨⟩
          | some outcome =>
              rintro ⟨⟩
              exact Aligned.call (ih clientBefore before) returns

/-- After these calls, a connection is aligned.  A call of `classify` that
returns attributes its result, and has taken the next bytes of the stream. -/
structure AttributesResults (calls : List Call) (client : TcpRoiClient) :
    Prop where
  aligned : ∀ socket, client.socket = some socket →
    Aligned (exchangesAfter calls) socket
  attributes : ∀ roi result returned after,
    client.runClassify roi result = some (returned, after) →
      Attributes roi result (client.socket.getD {}).sent
        (client.socket.getD {}).received returned after.sent after.received
  inOrder : ∀ roi result returned after,
    client.runClassify roi result = some (returned, after) →
      after.received ++ arriving after.recvs =
        (client.socket.getD {}).received ++
          arriving (client.socket.getD {}).recvs

/-- After every sequence of calls, whatever the sockets do: `classify` returns
`Ok` only with the answer to its own request, and then with exactly its values;
otherwise the result is as it was, and the client is disconnected if anything
was sent or received.  So on a connection the responses that were read are those
of the requests that were sent, in order. -/
theorem results_are_attributed (calls : List Call) :
    ∀ client ∈ clientAfter calls, AttributesResults calls client :=
  fun client reached =>
    ⟨aligned_clientAfter calls client reached,
      fun _ _ _ _ runs => runClassify_attributes runs,
      fun _ _ _ _ runs => StreamProgram.run_received runs⟩

/-- A grey region with these ids. -/
def greyRoi (frameId roiId : BitVec 32) (grey : Byte) : PreparedRoi where
  frameId := frameId
  roiId := roiId
  objectBbox := ⟨0x41200000, 0x41A00000, 0x42C80000, 0x42480000⟩
  objectness := 0x3F400000
  frameWidth := 640
  frameHeight := 360
  rgbPixels :=
    { type := kCv8uc3
      cols := kWidth
      rows := kHeight
      isContinuous := true
      data := List.replicate kImagePayloadSize grey
      sized := fun _ _ => by rw [List.length_replicate]; decide }

theorem isExpected_greyRoi (frameId roiId : BitVec 32) (grey : Byte) :
    (greyRoi frameId roiId grey).isExpected = true :=
  rfl

def carResult : RoiResult where
  status := kStatusOk
  classId := 1
  confidencePpm := 900000

theorem obeysContract_carResult : ObeysContract carResult :=
  rejectsPayload_eq_false_iff.mp (by decide)

/-- A connection on which the second response is one to another region. -/
def wrongSecond : ConnectResults where
  newSocket := 3
  conversionResult := 1
  connectionResult := 0
  sends := List.replicate 60000 (.sent 999)
  recvs := bytewise (responseBytes 7 0 carResult ++
    (headerBytes (responseHeader 7 2) ++ resultBytes carResult))

def connecting : Call :=
  .connectToServer "192.168.10.2" 5000 wrongSecond

def firstRoi : PreparedRoi :=
  greyRoi 7 0 90

def secondRoi : PreparedRoi :=
  greyRoi 7 1 200

/-- The socket when the connection has been made. -/
def freshSocket : Socket Byte :=
  { sends := wrongSecond.sends, recvs := wrongSecond.recvs }

/-- The client after the first response, and after the one that it abandons. -/
theorem clientAfter_wrongSecond :
    ∃ socket : Socket Byte, socket.received = responseBytes 7 0 carResult ∧
      clientAfter [connecting, .classify firstRoi {}] = some { socket := some socket } ∧
      clientAfter [connecting, .classify firstRoi {}, .classify secondRoi {}] =
        some {} := by
  have connects : clientAfter [connecting] = some { socket := some freshSocket } := rfl
  have firstSize : firstRoi.requestBytes.length = 27696 :=
    (firstRoi.request (isExpected_greyRoi 7 0 90)).length_bytes
  have secondSize : secondRoi.requestBytes.length = 27696 :=
    (secondRoi.request (isExpected_greyRoi 7 1 200)).length_bytes
  have takes : Takes freshSocket.sends
      (firstRoi.requestBytes.length + (secondRoi.requestBytes.length + 0)) := by
    rw [firstSize, secondSize, freshSocket, wrongSecond]
    exact (StreamProgram.takes_replicate 999 60000).fewer (by decide)
  have delivers : Delivers freshSocket.recvs := by
    rw [freshSocket, wrongSecond]
    exact StreamProgram.delivers_bytewise _
  have arrives : arriving freshSocket.recvs = responseBytes 7 0 carResult ++
      (headerBytes (responseHeader 7 2) ++ resultBytes carResult) := by
    rw [freshSocket, wrongSecond]
    exact StreamProgram.arriving_bytewise _
  obtain ⟨socket, takesOn, deliversOn, arrivesOn, received, answered⟩ :=
    @runClassify_of_reads firstRoi {} freshSocket _ _ _ (isExpected_greyRoi 7 0 90) _
      takes delivers arrives (@reads_receiveResponse firstRoi {} _ obeysContract_carResult)
  have first : clientAfter [connecting, .classify firstRoi {}] =
      some { socket := some socket } := clientAfter_classify [connecting] connects answered
  obtain ⟨_, -, -, -, -, abandoned⟩ :=
    @runClassify_of_reads secondRoi {} socket _ _ _ (isExpected_greyRoi 7 1 200) _
      takesOn deliversOn arrivesOn
      (@reads_otherResponse secondRoi {} 7 2 (.inr (by decide)))
  exact ⟨socket, received, first,
    clientAfter_classify [connecting, .classify firstRoi {}] first abandoned⟩

/-- The first call returns `Ok` and leaves its request and its response on the
connection; the second one abandons a response and the connection with it. -/
theorem results_are_attributed_wrongSecond :
    (∃ socket : Socket Byte, socket.received = responseBytes 7 0 carResult ∧
      AttributesResults [connecting, .classify firstRoi {}] { socket := some socket }) ∧
      AttributesResults [connecting, .classify firstRoi {}, .classify secondRoi {}] {} := by
  obtain ⟨socket, received, answered, abandoned⟩ := clientAfter_wrongSecond
  exact ⟨⟨socket, received, results_are_attributed _ _ answered⟩,
    results_are_attributed _ _ abandoned⟩

end Alignment

end TcpRoiClient

end Adas.Network
