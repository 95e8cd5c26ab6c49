import Adas.EventMachine
import Adas.LatestSlot
import Adas.LengthFramed
import Adas.RoiCropper

/-!
# The stream for the browsers

`MjpegStreamServer` hands each frame from the classification loop to an encoder
thread and each encoded picture to the threads of the browsers, through one slot
with the newest value each.  A browser gets its pictures as parts of one endless
HTTP response, written piece by piece, and is given up when a write fails.

The threads see each other at the critical sections of the two slots and at the
flag that `stop` clears.  A wait with a timeout may end at any time; it ends in one
step with the section behind it, since only the flag can change between the two.
What OpenCV does is taken as it is.
-/

namespace Adas.MjpegStreamServer

open LengthFramed (Byte ascii PartFormat)
open Roi (BoundingBox PixelRect)

section Drawing

structure RoiOverlay where
  bbox : BoundingBox
  status : BitVec 32
  classId : BitVec 32
  confidencePpm : BitVec 32

/-- The part of `MjpegServerConfig` that the pictures depend on. -/
structure MjpegServerConfig where
  jpegQuality : Int := 80
  overlayMinConfidencePpm : BitVec 32 := 600000

def kClassNames : List String :=
  ["background", "car", "person", "sign_warning", "sign_prohibition", "sign_mandatory"]

def classLabel (classId : BitVec 32) : String :=
  if classId = BitVec.allOnes 32 then "invalid"
  else
    match kClassNames[classId.toNat]? with
    | some name => name
    | none => "class" ++ toString classId.toNat

/-- What is drawn for an overlay: the outline of a box and a label. -/
structure Drawing where
  box : PixelRect
  ok : Bool
  label : String

/-- `static_cast<int>` of a coordinate. -/
def truncated (coordinate : ℚ) : Int :=
  coordinate.num.tdiv coordinate.den

/-- What the loop of `drawOverlays` draws for an overlay, if it does not skip it. -/
def drawing (cols rows : Int) (minConfidencePpm : BitVec 32) (overlay : RoiOverlay) :
    Option Drawing :=
  if overlay.status = 0 ∧ overlay.confidencePpm < minConfidencePpm then none
  else
    let box : PixelRect := ⟨truncated overlay.bbox.x, truncated overlay.bbox.y,
      truncated overlay.bbox.width, truncated overlay.bbox.height⟩
    let box := box.inter ⟨0, 0, cols, rows⟩
    if box.width ≤ 0 ∨ box.height ≤ 0 then none
    else
      let label :=
        if overlay.status = 0 then
          classLabel overlay.classId ++ " " ++
            toString (overlay.confidencePpm.toNat / 10000) ++ "%"
        else "ERR" ++ toString overlay.status.toNat
      some ⟨box, decide (overlay.status = 0), label⟩

/-- What OpenCV does with a picture.  The size of an encoded one is a `size_t`. -/
structure OpenCv (Picture : Type*) where
  cols : Picture → Int
  rows : Picture → Int
  draw : Picture → Drawing → Picture
  imencode : Int → Picture → Option (List Byte)
  imencode_size : ∀ quality picture jpeg, imencode quality picture = some jpeg →
    jpeg.length < 2 ^ 64

variable {Picture : Type*} (cv : OpenCv Picture)

def drawOverlays (canvas : Picture) (overlays : List RoiOverlay)
    (minConfidencePpm : BitVec 32) : Picture :=
  (overlays.filterMap (drawing (cv.cols canvas) (cv.rows canvas) minConfidencePpm)).foldl
    cv.draw canvas

/-- What the encoder makes of a frame and its overlays. -/
def encoded (config : MjpegServerConfig) (frame : Picture × List RoiOverlay) :
    Option (List Byte) :=
  cv.imencode config.jpegQuality
    (drawOverlays cv frame.1 frame.2 config.overlayMinConfidencePpm)

end Drawing

section Response

def kHeader : List Byte :=
  ascii ("HTTP/1.0 200 OK\r\nServer: adas-jetson-mjpeg\r\nConnection: close\r\n" ++
    "Cache-Control: no-cache, private\r\nPragma: no-cache\r\n" ++
    "Content-Type: multipart/x-mixed-replace; boundary=adasframe\r\n\r\n").toList

/-- The texts around the length and the picture. -/
def partFormat : PartFormat where
  start := ascii "--adasframe\r\nContent-Type: image/jpeg\r\nContent-Length: ".toList
  afterLength := 13
  middle := ascii "\n\r\n".toList
  finish := ascii "\r\n".toList
  lengthEnds := rfl

/-- What `snprintf` leaves in a buffer, and the length that it returns. -/
def snprintf (capacity : Nat) (text : List Byte) : List Byte × Nat :=
  (text.take (capacity - 1) ++ [0], text.length)

/-- The three blocks that are written for a picture. -/
def blocks (jpeg : List Byte) : List (List Byte) :=
  let partHeader := snprintf 128 (partFormat.header jpeg.length)
  [partHeader.1.take partHeader.2, jpeg, partFormat.finish]

end Response

section Threads

/-- Where the encoder thread is in its loop. -/
inductive Encoder (Picture : Type*) where
  | checking
  | waiting
  | encoding (frame : Picture × List RoiOverlay)
  | storing (jpeg : List Byte)
  | exited

/-- Where the thread of a browser is: `receiving` is the `recv` that nothing limits,
`closing` and `leaving` are the two statements at the end of the thread. -/
inductive Place where
  | accepted
  | receiving
  | writing
  | checking
  | waiting
  | closing
  | leaving
  | exited
  deriving DecidableEq

/-- The thread of a browser: what it still has to write and what the socket took. -/
structure Client where
  place : Place
  lastSent : BitVec 64
  pending : List (List Byte)
  written : List Byte

structure Server (Picture : Type*) where
  running : Bool
  frames : LatestSlot (Picture × List RoiOverlay)
  hasFrame : Bool
  encoder : Encoder Picture
  lastEncoded : BitVec 64
  jpegs : LatestSlot (List Byte)
  clients : List Client
  clientCount : Nat

/-- What the thread of a browser meets: its next statement or the end of a wait,
`send` takes some bytes of the block, or `send` fails. -/
inductive Move where
  | proceed (timedOut : Bool)
  | sent (count : Nat)
  | failed

inductive Event (Picture : Type*) where
  | publish (frame : Picture) (overlays : List RoiOverlay)
  | encoder (timedOut : Bool)
  | accept
  | client (index : Nat) (move : Move)
  | stop

inductive Happening (Picture : Type*) where
  | quiet
  | published (frame : Picture × List RoiOverlay)
  | stored (jpeg : List Byte)

variable {Picture : Type*} (cv : OpenCv Picture) (config : MjpegServerConfig)

def started : Server Picture where
  running := true
  frames := .empty
  hasFrame := false
  encoder := .checking
  lastEncoded := 0
  jpegs := .empty
  clients := []
  clientCount := 0

/-- `publish`, which is called by the thread that calls `stop`. -/
def publish (server : Server Picture) (frame : Picture) (overlays : List RoiOverlay) :
    Server Picture × Happening Picture :=
  if server.running then
    ({ server with frames := server.frames.publish (frame, overlays), hasFrame := true },
      .published (frame, overlays))
  else (server, .quiet)

/-- `encoderLoop`, step by step. -/
def encoderStep (server : Server Picture) (timedOut : Bool) :
    Server Picture × Happening Picture :=
  match server.encoder with
  | .checking =>
      if server.running then ({ server with encoder := .waiting }, .quiet)
      else ({ server with encoder := .exited }, .quiet)
  | .waiting =>
      let hasNews := server.hasFrame && server.frames.isNew server.lastEncoded
      if !server.running then ({ server with encoder := .exited }, .quiet)
      else if hasNews then
        match server.frames.latest with
        | some frame =>
            ({ server with
              lastEncoded := server.frames.version, encoder := .encoding frame }, .quiet)
        | none => (server, .quiet)
      else if timedOut then ({ server with encoder := .checking }, .quiet)
      else (server, .quiet)
  | .encoding frame =>
      match encoded cv config frame with
      | some jpeg => ({ server with encoder := .storing jpeg }, .quiet)
      | none => ({ server with encoder := .checking }, .quiet)
  | .storing jpeg =>
      ({ server with jpegs := server.jpegs.publish jpeg, encoder := .checking },
        .stored jpeg)
  | .exited => (server, .quiet)

/-- `writeAll` makes no call for an empty block. -/
def skipEmpty (blocks : List (List Byte)) : List (List Byte) :=
  blocks.dropWhile List.isEmpty

/-- The client with these blocks to write. -/
def Client.write (client : Client) (blocks : List (List Byte)) : Client :=
  { client with
    pending := skipEmpty blocks
    place := if (skipEmpty blocks).isEmpty then .checking else .writing }

/-- `clientLoop` where it does not write. -/
def Client.proceed (server : Server Picture) (client : Client) (timedOut : Bool) :
    Client :=
  match client.place with
  | .accepted => { client with place := .receiving }
  | .receiving => client.write [kHeader]
  | .checking =>
      if server.running then { client with place := .waiting }
      else { client with place := .closing }
  | .waiting =>
      if !server.running then { client with place := .closing }
      else if server.jpegs.isNew client.lastSent then
        match server.jpegs.latest with
        | some (byte :: bytes) =>
            Client.write { client with lastSent := server.jpegs.version }
              (blocks (byte :: bytes))
        | _ => { client with place := .checking }
      else if timedOut then { client with place := .checking }
      else client
  | .closing => { client with place := .leaving }
  | .leaving => { client with place := .exited }
  | .writing => client
  | .exited => client

/-- One step of `clientLoop`.  An interrupted `send` is repeated and changes nothing. -/
def Client.step (server : Server Picture) (client : Client) : Move → Client
  | .proceed timedOut => client.proceed server timedOut
  | .sent count =>
      match client.place, client.pending with
      | .writing, block :: blocks =>
          if 0 < count ∧ count ≤ block.length then
            Client.write { client with written := client.written ++ block.take count }
              (block.drop count :: blocks)
          else client
      | _, _ => client
  | .failed =>
      match client.place with
      | .writing => { client with place := .closing }
      | _ => client

/-- The first statement of a thread raises the counter, before the `recv`; the last
one lowers it, after the `close`. -/
def countAfter (client : Client) (move : Move) (clientCount : Nat) : Nat :=
  match client.place, move with
  | .accepted, .proceed _ => clientCount + 1
  | .leaving, .proceed _ => clientCount - 1
  | _, _ => clientCount

def clientStep (server : Server Picture) (index : Nat) (move : Move) :
    Server Picture × Happening Picture :=
  match server.clients[index]? with
  | some client =>
      ({ server with
        clients := server.clients.set index (client.step server move)
        clientCount := countAfter client move server.clientCount },
        .quiet)
  | none => (server, .quiet)

def accepted : Client where
  place := .accepted
  lastSent := 0
  pending := []
  written := []

def step (server : Server Picture) : Event Picture → Server Picture × Happening Picture
  | .publish frame overlays => publish server frame overlays
  | .encoder timedOut => encoderStep cv config server timedOut
  | .accept => ({ server with clients := server.clients ++ [accepted] }, .quiet)
  | .client index move => clientStep server index move
  | .stop => ({ server with running := false }, .quiet)

def machine : EventMachine (Server Picture) (Event Picture) (Happening Picture) where
  init := started
  step := step cv config

end Threads

section Views

/-- The pictures that a browser finds in a response, each by its length. -/
def viewed (written : List Byte) : List (List Byte) :=
  match written.dropPrefix? kHeader with
  | some parts => partFormat.readAll parts
  | none => []

def Client.awaitsRequest (client : Client) : Bool :=
  client.place = .receiving

/-- The response has begun and its end is not decided. -/
def Client.isServed (client : Client) : Bool :=
  client.place = .writing || client.place = .checking || client.place = .waiting

def Client.isLeaving (client : Client) : Bool :=
  client.place = .closing || client.place = .leaving

end Views

end Adas.MjpegStreamServer
