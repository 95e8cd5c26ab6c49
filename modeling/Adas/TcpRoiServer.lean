import Adas.StreamProgram
import Adas.RoiProtocol

/-!
# The region server's end of the connection

The server receives a request as three blocks (header, bounding box and image)
and answers it with one block.  It checks the header before it reads on, so a
header that is not a request's costs twenty bytes and no more.  However the
socket cuts the stream, the requests come out as they were encoded.
-/

namespace Adas.TcpRoiServer

open Control (RoiBbox RoiResult)
open RoiProtocol
open StreamProgram (Socket Reads Writes Delivers arriving settle run bytewise
  arriving_bytewise delivers_bytewise)

/-- `adas_tcp_roi_status_t`. -/
inductive Status where
  | ok
  | peerClosed
  | invalidArgument
  | systemError
  | protocolError
  deriving DecidableEq, Repr

/-- The part of `adas_tcp_roi_server_t` that a request depends on. -/
structure Server where
  clientFd : Int

/-- The buffers of the caller that a request is received into. -/
structure RequestBuffers where
  header : RoiHeader
  bbox : RoiBbox F32
  image : List Byte

def receiveAll (size : Nat) : StreamProgram Byte (Status × List Byte) :=
  .receive size fun
    | .complete, got => pure (.ok, got)
    | .closed, got => pure (.peerClosed, got)
    | .failed, got => pure (.systemError, got)

def sendAll (buffer : List Byte) : StreamProgram Byte Status :=
  .send buffer fun
    | .complete => pure .ok
    | .closed => pure .peerClosed
    | .failed => pure .systemError

/-- `adas_tcp_roi_server_receive_request`. -/
def receiveRequest (server : Server) (out : RequestBuffers) :
    StreamProgram Byte (Status × RequestBuffers) :=
  if server.clientFd < 0 then
    pure (.invalidArgument, out)
  else do
    let headerBuffer ← receiveAll kHeaderSize
    if headerBuffer.1 ≠ .ok then
      pure (headerBuffer.1, out)
    else
      let header := decodeHeader headerBuffer.2
      if !isValidRequestHeader header then
        pure (.protocolError, { out with header := header })
      else do
        let bboxBuffer ← receiveAll kBboxPayloadSize
        if bboxBuffer.1 ≠ .ok then
          pure (bboxBuffer.1, { out with header := header })
        else do
          let bbox := decodeBbox bboxBuffer.2
          let payload ← receiveAll kImagePayloadSize
          -- The image is received into the caller's buffer.
          let image := payload.2 ++ out.image.drop payload.2.length
          pure (payload.1, { header := header, bbox := bbox, image := image })

/-- `adas_tcp_roi_server_send_result`: header and result in one block. -/
def sendResult (server : Server) (request : RoiHeader) (result : RoiResult) :
    StreamProgram Byte Status :=
  if server.clientFd < 0 then
    pure .invalidArgument
  else if kConfidencePpmMax < result.confidencePpm then
    pure .invalidArgument
  else
    let buffer := List.replicate (kHeaderSize + kResultPayloadSize) 0#8
    let encoded :=
      encodeHeader buffer (responseHeader request.frameId request.roiId)
    sendAll (encoded.take kHeaderSize ++
      encodeResult (encoded.drop kHeaderSize) result)

variable {server : Server}

/-- What the caller finds in its buffers after a request. -/
def buffersOf (request : RoiRequest) : RequestBuffers where
  header := request.header
  bbox := request.bbox
  image := request.image

/-- A block that is received whole is handed over as it came. -/
theorem reads_receiveAll {Result : Type} {size : Nat} {got more : List Byte}
    {andThen : Status × List Byte → StreamProgram Byte Result}
    {after : StreamProgram Byte Result} (whole : got.length = size)
    (notEmpty : got ≠ []) (rest : Reads (settle (andThen (.ok, got))) more after) :
    Reads (settle (receiveAll size >>= andThen)) (got ++ more) after :=
  .settle_receive whole notEmpty rest

/-- A connected server reads a request off the stream, byte for byte. -/
theorem reads_receiveRequest (connected : 0 ≤ server.clientFd)
    (request : RoiRequest) (out : RequestBuffers)
    (outSize : out.image.length = kImagePayloadSize) :
    Reads (settle (receiveRequest server out)) request.bytes
      (.done (.ok, buffersOf request)) := by
  have imageNotEmpty : request.image ≠ [] := by
    rw [← List.length_pos_iff, request.imageSize]
    decide
  rw [receiveRequest, if_neg (not_lt.mpr connected), RoiRequest.bytes]
  refine reads_receiveAll rfl (List.cons_ne_nil _ _) ?_
  simp only [ne_eq, not_true_eq_false, if_false, decodeHeader_headerBytes,
    RoiRequest.header, isValidRequestHeader_requestHeader, Bool.not_true,
    Bool.false_eq_true]
  refine reads_receiveAll rfl (List.cons_ne_nil _ _) ?_
  simp only [not_true_eq_false, if_false, decodeBbox_bboxBytes]
  rw [← List.append_nil request.image]
  apply reads_receiveAll request.imageSize imageNotEmpty
  have filled : out.image.drop request.image.length = [] := by
    rw [List.drop_eq_nil_iff, request.imageSize, outSize]
  simp only [filled, List.append_nil]
  exact .refl _

/-- A connected server reads the header that it rejects, and nothing more. -/
theorem reads_rejected (connected : 0 ≤ server.clientFd) {header : List Byte}
    (size : header.length = kHeaderSize)
    (rejected : isValidRequestHeader (decodeHeader header) = false)
    (out : RequestBuffers) :
    Reads (settle (receiveRequest server out)) header
      (.done (.protocolError, { out with header := decodeHeader header })) := by
  have notEmpty : header ≠ [] := by
    rw [← List.length_pos_iff, size]
    decide
  rw [receiveRequest, if_neg (not_lt.mpr connected), ← List.append_nil header]
  apply reads_receiveAll size notEmpty
  simp only [ne_eq, not_true_eq_false, if_false, rejected, Bool.not_false,
    if_true, List.append_nil]
  exact .refl _

/-- A connected server writes a result as one response. -/
theorem writes_sendResult (connected : 0 ≤ server.clientFd) (request : RoiHeader)
    {result : RoiResult} (inRange : result.confidencePpm ≤ kConfidencePpmMax) :
    Writes (settle (sendResult server request result))
      (responseBytes request.frameId request.roiId result) (.done .ok) := by
  have encoded : encodeHeader (List.replicate (kHeaderSize + kResultPayloadSize) 0#8)
        (responseHeader request.frameId request.roiId) =
      headerBytes (responseHeader request.frameId request.roiId) ++
        List.replicate kResultPayloadSize 0#8 := by
    rw [encodeHeader_eq, List.drop_replicate, Nat.add_sub_cancel_left]
  have nothingLeft :
      (List.replicate kResultPayloadSize 0#8).drop kResultPayloadSize = [] := rfl
  rw [sendResult, if_neg (not_lt.mpr connected),
    if_neg (BitVec.not_lt.mpr inRange)]
  simp only [encoded]
  rw [← length_headerBytes (responseHeader request.frameId request.roiId),
    List.take_left, List.drop_left, encodeResult_eq, nothingLeft,
    List.append_nil, ← List.append_nil (responseBytes _ _ _)]
  exact .send (List.cons_ne_nil _ _) (.refl _)

section Calls

/-- What a call has returned and the bytes it has taken from the stream. -/
structure CallReturn where
  status : Status
  out : RequestBuffers
  consumed : List Byte

/-- Successive calls into the same buffers. -/
def receiveCalls (server : Server) : Nat → RequestBuffers → Socket Byte →
    Option (List CallReturn × Socket Byte)
  | 0, _, socket => some ([], socket)
  | count + 1, out, socket =>
      (run (receiveRequest server out) socket).bind fun ((status, filled), after) =>
        (receiveCalls server count filled after).map fun (returns, last) =>
          (⟨status, filled, after.received.drop socket.received.length⟩ :: returns,
            last)

/-- A request that was received whole. -/
def received (request : RoiRequest) : CallReturn where
  status := .ok
  out := buffersOf request
  consumed := request.bytes

/-- However the requests arrive, every call returns the next one and takes its
bytes. -/
theorem receiveCalls_requests (connected : 0 ≤ server.clientFd)
    (requests : List RoiRequest) {later : List Byte} {out : RequestBuffers}
    (outSize : out.image.length = kImagePayloadSize) {socket : Socket Byte}
    (delivers : Delivers socket.recvs)
    (arrives : arriving socket.recvs = requests.flatMap RoiRequest.bytes ++ later) :
    ∃ recvs, arriving recvs = later ∧
      receiveCalls server requests.length out socket =
        some (requests.map received, { socket with
          recvs := recvs
          received := socket.received ++ requests.flatMap RoiRequest.bytes }) := by
  induction requests generalizing out socket with
  | nil => exact ⟨socket.recvs, arrives, by simp [receiveCalls]⟩
  | cons request requests ih =>
      rw [List.flatMap_cons, List.append_assoc] at arrives
      obtain ⟨left, leftDelivers, leftEq, runs⟩ :=
        (reads_receiveRequest connected request out outSize).run delivers arrives
      obtain ⟨recvs, recvsEq, calls⟩ := @ih (buffersOf request) request.imageSize
        { socket with
          recvs := left, received := socket.received ++ request.bytes }
        leftDelivers leftEq
      rw [StreamProgram.run_settle] at runs
      refine ⟨recvs, recvsEq, ?_⟩
      rw [List.length_cons, receiveCalls, runs, run]
      simp only [Option.bind_some, calls]
      simp [received]

end Calls

/-- However the bytes arrive, the requests are framed as they were encoded. -/
def FramesRequests : Prop :=
  ∀ (server : Server) (requests : List RoiRequest) (later : List Byte)
    (out : RequestBuffers) (socket : Socket Byte), 0 ≤ server.clientFd →
    out.image.length = kImagePayloadSize → Delivers socket.recvs →
    arriving socket.recvs = requests.flatMap RoiRequest.bytes ++ later →
    ∃ recvs, arriving recvs = later ∧
      receiveCalls server requests.length out socket =
        some (requests.map received, { socket with
          recvs := recvs
          received := socket.received ++ requests.flatMap RoiRequest.bytes })

/-- A header that is not a request's is rejected at the cost of its bytes. -/
def RejectsHeaders : Prop :=
  ∀ (server : Server) (header later : List Byte) (out : RequestBuffers)
    (socket : Socket Byte), 0 ≤ server.clientFd →
    header.length = kHeaderSize →
    isValidRequestHeader (decodeHeader header) = false → Delivers socket.recvs →
    arriving socket.recvs = header ++ later →
    ∃ recvs, arriving recvs = later ∧
      run (receiveRequest server out) socket =
        some ((.protocolError, { out with header := decodeHeader header }),
          { socket with recvs := recvs, received := socket.received ++ header })

/-- An encoder fills a buffer of its size with the fields in network order, and
the decoder and the encoder undo each other. -/
def CodecsInverse {Value : Type} (size : Nat)
    (encode : List Byte → Value → List Byte) (decode : List Byte → Value)
    (fields : Value → List Byte) : Prop :=
  ∀ destination : List Byte, destination.length = size →
    (∀ value, encode destination value = fields value ∧
      decode (encode destination value) = value) ∧
    ∀ source : List Byte, source.length = size →
      encode destination (decode source) = source

theorem codecsInverse {Value : Type} {size : Nat}
    {encode : List Byte → Value → List Byte} {decode : List Byte → Value}
    {fields : Value → List Byte}
    (encodeEq : ∀ destination value,
      encode destination value = fields value ++ destination.drop size)
    (decodeFields : ∀ value, decode (fields value) = value)
    (fieldsDecode : ∀ {source : List Byte}, size ≤ source.length →
      fields (decode source) = source.take size) :
    CodecsInverse size encode decode fields := by
  intro destination destinationSize
  have filled : destination.drop size = [] := by
    rw [List.drop_eq_nil_iff]
    omega
  constructor
  · intro value
    rw [encodeEq, filled, List.append_nil]
    exact ⟨rfl, decodeFields value⟩
  · intro source sourceSize
    rw [encodeEq, filled, List.append_nil, fieldsDecode (by omega), ← sourceSize,
      List.take_length]

/-- Requests are framed for every fragmentation of the stream, each at the cost
of its 27696 bytes; the codecs are inverse to each other; and a header that is
not a request's is rejected at the cost of 20 bytes. -/
theorem requests_are_framed :
    FramesRequests ∧ (∀ request : RoiRequest, request.bytes.length = 27696) ∧
      CodecsInverse 20 encodeHeader decodeHeader headerBytes ∧
      CodecsInverse 28 encodeBbox decodeBbox bboxBytes ∧
      CodecsInverse 12 encodeResult decodeResult resultBytes ∧
      RejectsHeaders := by
  refine ⟨?_, RoiRequest.length_bytes,
    codecsInverse encodeHeader_eq decodeHeader_headerBytes headerBytes_decodeHeader,
    codecsInverse encodeBbox_eq decodeBbox_bboxBytes bboxBytes_decodeBbox,
    codecsInverse encodeResult_eq decodeResult_resultBytes resultBytes_decodeResult,
    ?_⟩
  · intro server requests later out socket connected outSize delivers arrives
    exact receiveCalls_requests connected requests outSize delivers arrives
  · intro server header later out socket connected size rejected delivers arrives
    obtain ⟨recvs, -, recvsEq, runs⟩ :=
      (reads_rejected connected size rejected out).run delivers arrives
    rw [StreamProgram.run_settle] at runs
    exact ⟨recvs, recvsEq, runs⟩

section Bytewise

def firstRequest : RoiRequest where
  frameId := 7
  roiId := 0
  bbox := ⟨0x41200000, 0x41A00000, 0x42C80000, 0x42480000, 0x3F400000, 640, 360⟩
  image := List.replicate kImagePayloadSize 200
  imageSize := by rw [List.length_replicate]

def secondRequest : RoiRequest where
  frameId := 7
  roiId := 1
  bbox := ⟨0x43000000, 0x41A00000, 0x42C80000, 0x42480000, 0x3F000000, 640, 360⟩
  image := List.replicate kImagePayloadSize 90
  imageSize := by rw [List.length_replicate]

/-- A header of the right size that begins with no magic number. -/
def strangeHeader : List Byte :=
  List.replicate kHeaderSize 0x41

def emptyBuffers : RequestBuffers where
  header := decodeHeader []
  bbox := decodeBbox []
  image := List.replicate kImagePayloadSize 0

/-- A socket on which a stream comes byte for byte. -/
def trickling (stream : List Byte) : Socket Byte where
  recvs := bytewise stream

/-- Two requests and a header that is none, byte for byte. -/
theorem requests_are_framed_bytewise :
    (∃ recvs, arriving recvs = strangeHeader ∧
      receiveCalls ⟨3⟩ 2 emptyBuffers
          (trickling (firstRequest.bytes ++ (secondRequest.bytes ++ strangeHeader))) =
        some ([received firstRequest, received secondRequest],
          { recvs := recvs, received := firstRequest.bytes ++ secondRequest.bytes })) ∧
      ∃ recvs, arriving recvs = firstRequest.bytes ∧
        run (receiveRequest ⟨3⟩ emptyBuffers)
            (trickling (strangeHeader ++ firstRequest.bytes)) =
          some ((.protocolError,
              { emptyBuffers with header := decodeHeader strangeHeader }),
            { recvs := recvs, received := strangeHeader }) := by
  obtain ⟨frames, -, -, -, -, rejects⟩ := requests_are_framed
  have connected : 0 ≤ (⟨3⟩ : Server).clientFd := by decide
  have both : [firstRequest, secondRequest].flatMap RoiRequest.bytes =
      firstRequest.bytes ++ secondRequest.bytes := by
    rw [List.flatMap_cons, List.flatMap_cons, List.flatMap_nil, List.append_nil]
  constructor
  · have framed := frames ⟨3⟩ [firstRequest, secondRequest] strangeHeader emptyBuffers
      (trickling (firstRequest.bytes ++ (secondRequest.bytes ++ strangeHeader))) connected
      (by rw [emptyBuffers, List.length_replicate]) (delivers_bytewise _)
      (by rw [both, List.append_assoc, trickling, arriving_bytewise])
    rw [both] at framed
    exact framed
  · exact rejects ⟨3⟩ strangeHeader firstRequest.bytes emptyBuffers
      (trickling (strangeHeader ++ firstRequest.bytes)) connected (by decide) (by decide)
      (delivers_bytewise _) (arriving_bytewise _)

end Bytewise

end Adas.TcpRoiServer
