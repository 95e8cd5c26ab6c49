import Adas.LatencyStats
import Adas.MjpegStreamServer
import Adas.RoiProposer
import Adas.TcpRoiClient

/-!
# The main loop of the Jetson

Each turn of the loop takes the newest frame, has regions proposed in it, sends the
crops of the regions to the board one after the other, hands the results to the
stream and keeps the measurements of the turn.  A frame without regions is skipped,
except that the board is told every now and then that there was nothing to see.

A turn is given by what it gets from outside: the frame, what the detector puts out,
the answers of the board, and the readings of the steady clock in nanoseconds.
-/

namespace Adas.JetsonRoiClient

open Metrics (LatencyStats)
open MjpegStreamServer (RoiOverlay)
open Network (ClassificationResult)
open Roi (Mat BoundingBox RoiCandidate RoiCropper RoiProposer CroppedRoi CropConfig)

section Preprocessing

structure PreparedRoi where
  frameId : BitVec 32
  roiId : BitVec 32
  objectBbox : BoundingBox
  objectness : ℚ
  frameWidth : BitVec 32
  frameHeight : BitVec 32
  rgbPixels : Mat
  deriving DecidableEq, Repr

/-- `RoiPreprocessor::prepare`. -/
def prepare (cropped : CroppedRoi) : Option PreparedRoi :=
  if cropped.bgrPixels.empty || !cropped.bgrPixels.isBgr8 ||
      cropped.bgrPixels.cols != 96 || cropped.bgrPixels.rows != 96 then
    none
  else
    some {
      frameId := cropped.frameId
      roiId := cropped.roiId
      objectBbox := cropped.objectBbox
      objectness := cropped.objectness
      frameWidth := cropped.frameWidth
      frameHeight := cropped.frameHeight
      rgbPixels := cropped.bgrPixels }

end Preprocessing

section Records

/-- The mark of a region without an answer. -/
def kStatusNoReply : BitVec 32 := 0xffffffff

structure RoiRecord where
  roiIndex : Int
  cropUs : Int
  rttUs : Int
  status : BitVec 32
  classId : BitVec 32
  confidencePpm : BitVec 32
  deriving DecidableEq, Repr

structure Metrics where
  capture : LatencyStats := {}
  propose : LatencyStats := {}
  crop : LatencyStats := {}
  rtt : LatencyStats := {}
  publish : LatencyStats := {}
  frame : LatencyStats := {}
  work : LatencyStats := {}
  frameByRoiCount : Nat → LatencyStats := fun _ => {}
  statusCounts : BitVec 32 → Nat := fun _ => 0
  frames : Nat := 0
  rois : Nat := 0

/-- A line of the CSV file.  A region that is missing leaves its cells empty. -/
structure CsvRow where
  frameId : BitVec 32
  roiIndex : Int
  roiCount : Nat
  captureUs : Int
  proposeUs : Int
  roi : Option RoiRecord
  publishUs : Int
  frameUs : Int
  deriving DecidableEq, Repr

/-- `elapsed_us`. -/
def elapsedUs (start stop : Nat) : Int :=
  ((stop : Int) - start).tdiv 1000

/-- `monotonic_ms` at a reading of the clock. -/
def monotonicMs (reading : Nat) : Nat :=
  reading / 1000000

end Records

/-- The arguments and what is read from the environment. -/
structure Settings where
  fullFrameMode : Bool := false
  warmupFrames : Nat := 10
  csvOpen : Bool := true
  emptyFrameHeartbeat : Bool := true
  heartbeatIntervalMs : Nat := 150
  streaming : Bool := true
  proposer : RoiProposer

def cropper : RoiCropper where
  config := {}
  checked := CropConfig.default_valid

/-- What comes of one region: the clock before it, when it is cropped and when it is
answered, and the answer, if `classify` returns `Ok`. -/
structure RoiTurn where
  begun : Nat
  cropped : Nat
  answered : Nat
  answer : Option ClassificationResult

/-- A turn that gets a frame. -/
structure FrameTurn where
  frame : Mat
  engine : Option (Nat → ℚ)
  begun : Nat
  captured : Nat
  looked : Nat
  proposed : Nat
  rois : Nat → RoiTurn
  requested : Nat
  publishing : Nat
  ended : Nat

inductive Turn where
  | stopRequested
  | timeout
  | captureFailed
  | frame (turn : FrameTurn)

structure State where
  running : Bool := true
  captureFailed : Bool := false
  threw : Bool := false
  frameId : BitVec 32 := 0
  lastRequestMs : Nat := 0
  metrics : Metrics := {}
  csv : List CsvRow := []
  measureStart : Option Nat := none
  measureEnd : Nat := 0

/-- What a turn shows: its requests, and the overlays that are published. -/
structure Shown where
  requests : List PreparedRoi := []
  published : Option (List RoiOverlay) := none

section Rois

/-- The locals of the loop over the candidates. -/
structure RoiLoop where
  metrics : Metrics
  roiIndex : Int := 0
  records : List RoiRecord := []
  overlays : List RoiOverlay := []
  requests : List PreparedRoi := []

/-- The region is measured. -/
def RoiLoop.measure (loop : RoiLoop) (roi : RoiTurn) : RoiLoop :=
  let result := roi.answer.getD {}
  let cropUs := elapsedUs roi.begun roi.cropped
  let rttUs := elapsedUs roi.cropped roi.answered
  let status := if roi.answer.isSome then result.status else kStatusNoReply
  { loop with
    metrics := { loop.metrics with
      crop := loop.metrics.crop.add cropUs
      rtt := loop.metrics.rtt.add rttUs
      rois := loop.metrics.rois + 1
      statusCounts := Function.update loop.metrics.statusCounts status
        (loop.metrics.statusCounts status + 1) }
    records := loop.records ++ [⟨loop.roiIndex, cropUs, rttUs, result.status,
      result.classId, result.confidencePpm⟩] }

/-- The region is handed to the stream. -/
def RoiLoop.overlay (loop : RoiLoop) (candidate : RoiCandidate) (roi : RoiTurn) :
    RoiLoop :=
  let drawn : RoiOverlay :=
    match roi.answer with
    | some result =>
        ⟨candidate.objectBbox, result.status, result.classId, result.confidencePpm⟩
    | none => ⟨candidate.objectBbox, kStatusNoReply, BitVec.allOnes 32, 0⟩
  { loop with overlays := loop.overlays ++ [drawn], roiIndex := loop.roiIndex + 1 }

/-- What is sent for a candidate. -/
def request (frame : Mat) (candidate : RoiCandidate) : Option PreparedRoi :=
  (cropper.crop frame candidate).bind prepare

/-- One candidate. -/
def roiStep (frame : Mat) (counted heartbeat : Bool) (loop : RoiLoop)
    (candidate : RoiCandidate) (roi : RoiTurn) : RoiLoop :=
  match request frame candidate with
  | none => loop
  | some prepared =>
      let asked := { loop with requests := loop.requests ++ [prepared] }
      let measured := if counted && !heartbeat then asked.measure roi else asked
      if !heartbeat then measured.overlay candidate roi else measured

/-- The loop over the candidates from the place of the first one on. -/
def roiLoop (frame : Mat) (counted heartbeat : Bool) (rois : Nat → RoiTurn) :
    Nat → RoiLoop → List RoiCandidate → RoiLoop
  | _, loop, [] => loop
  | place, loop, candidate :: candidates =>
      roiLoop frame counted heartbeat rois (place + 1)
        (roiStep frame counted heartbeat loop candidate (rois place)) candidates

end Rois

section Frames

/-- The whole frame as a candidate. -/
def fullFrame (frame : Mat) (frameId : BitVec 32) : RoiCandidate where
  frameId := frameId
  roiId := 0
  objectBbox := ⟨0, 0, frame.cols, frame.rows⟩
  objectness := 1

/-- The candidate that says that there was nothing to see. -/
def heartbeatRoi (frameId : BitVec 32) : RoiCandidate where
  frameId := frameId
  roiId := 0
  objectBbox := ⟨0, 0, 32, 32⟩
  objectness := 0

/-- The candidates of a frame; `none` if `propose` throws. -/
def found (settings : Settings) (frameId : BitVec 32) (turn : FrameTurn) :
    Option (List RoiCandidate) :=
  if settings.fullFrameMode then
    some [fullFrame turn.frame frameId]
  else
    settings.proposer.propose turn.frame frameId turn.engine

/-- `frame_ms - last_request_ms`, as a `uint64_t`. -/
def sinceRequest (frameMs lastRequestMs : Nat) : Nat :=
  (frameMs + 2 ^ 64 - lastRequestMs) % 2 ^ 64

def isHeartbeat (settings : Settings) (lastRequestMs frameMs : Nat)
    (candidates : List RoiCandidate) : Bool :=
  settings.emptyFrameHeartbeat && candidates.isEmpty &&
    decide (settings.heartbeatIntervalMs ≤ sinceRequest frameMs lastRequestMs)

/-- What is sent for the candidates of a frame. -/
def sending (settings : Settings) (state : State) (turn : FrameTurn)
    (candidates : List RoiCandidate) : List RoiCandidate :=
  if isHeartbeat settings state.lastRequestMs (monotonicMs turn.looked) candidates then
    [heartbeatRoi state.frameId]
  else
    candidates

/-- The lines of a frame. -/
def csvRows (frameId : BitVec 32) (turn : FrameTurn) (records : List RoiRecord) :
    List CsvRow :=
  let row (roiIndex : Int) (roi : Option RoiRecord) : CsvRow :=
    { frameId := frameId
      roiIndex := roiIndex
      roiCount := records.length
      captureUs := elapsedUs turn.begun turn.captured
      proposeUs := elapsedUs turn.captured turn.proposed
      roi := roi
      publishUs := elapsedUs turn.publishing turn.ended
      frameUs := elapsedUs turn.begun turn.ended }
  if records.isEmpty then [row (-1) none]
  else records.map fun record => row record.roiIndex (some record)

/-- The measurements at the end of a frame that counts. -/
def measureFrame (turn : FrameTurn) (loop : RoiLoop) : Metrics :=
  let captureUs := elapsedUs turn.begun turn.captured
  let frameUs := elapsedUs turn.begun turn.ended
  let metrics := loop.metrics
  { metrics with
    capture := metrics.capture.add captureUs
    propose := metrics.propose.add (elapsedUs turn.captured turn.proposed)
    publish := metrics.publish.add (elapsedUs turn.publishing turn.ended)
    frame := metrics.frame.add frameUs
    work := metrics.work.add (frameUs - captureUs)
    frames := metrics.frames + 1
    frameByRoiCount := Function.update metrics.frameByRoiCount loop.records.length
      ((metrics.frameByRoiCount loop.records.length).add frameUs) }

/-- The warm-up is over. -/
def isCounted (settings : Settings) (frameId : BitVec 32) : Bool :=
  decide (settings.warmupFrames ≤ frameId.toNat)

/-- The loop over the candidates of a frame. -/
def sendAll (settings : Settings) (state : State) (turn : FrameTurn)
    (candidates : List RoiCandidate) : RoiLoop :=
  let heartbeat :=
    isHeartbeat settings state.lastRequestMs (monotonicMs turn.looked) candidates
  roiLoop turn.frame (isCounted settings state.frameId) heartbeat turn.rois 0
    { metrics := state.metrics } (sending settings state turn candidates)

/-- A turn that has got its frame and its candidates. -/
def process (settings : Settings) (state : State) (turn : FrameTurn)
    (candidates : List RoiCandidate) : State × Shown :=
  let counted := isCounted settings state.frameId
  let loop := sendAll settings state turn candidates
  ({ state with
      frameId := state.frameId + 1
      lastRequestMs :=
        if (sending settings state turn candidates).isEmpty then state.lastRequestMs
        else monotonicMs turn.requested
      metrics := if counted then measureFrame turn loop else loop.metrics
      csv :=
        if counted && settings.csvOpen then
          state.csv ++ csvRows state.frameId turn loop.records
        else
          state.csv
      measureStart :=
        if counted && state.measureStart.isNone then some turn.begun
        else state.measureStart
      measureEnd := if counted then turn.ended else state.measureEnd },
    { requests := loop.requests
      published := if settings.streaming then some loop.overlays else none })

def turnStep (settings : Settings) (state : State) : Turn → State × Shown
  | .stopRequested => ({ state with running := false }, {})
  | .timeout => (state, {})
  | .captureFailed => ({ state with running := false, captureFailed := true }, {})
  | .frame turn =>
      match found settings state.frameId turn with
      | none => ({ state with running := false, threw := true }, {})
      | some candidates => process settings state turn candidates

def step (settings : Settings) (state : State) (turn : Turn) : State × Shown :=
  if state.running then turnStep settings state turn else (state, {})

/-- The loop as a machine that reads its turns. -/
def machine (settings : Settings) : EventMachine State Turn Shown where
  init := {}
  step := step settings

end Frames

end Adas.JetsonRoiClient
