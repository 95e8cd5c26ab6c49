import Adas.ClassifierServer
import Adas.JetsonRoiClientRuns
import Adas.KeyedRuns

/-!
# Frames on the Jetson, frames on the board

The Jetson sends the regions of a frame one after the other and says nothing when the
frame is over.  The board takes a new number for the start of the next frame.  What it
judges together is nevertheless always what has been sent for one frame: the regions
of two frames are never mixed and no judged frame lacks a region.  The sign of life
brings an empty frame about.

A connection gets what the Jetson sends from some frame on, until it breaks.
-/

namespace Adas.FrameServing

open Control (RoiBbox RoiResult SafetyBridge.Settings)
open Control.ClassifierServer (Request Connection FrameBatch served frameRuns batchOf
  judgedBatches mainCalls connectionCalls Collected sameFrame)
open JetsonRoiClient (PreparedRoi SentFrame CameraFrame Turn sentFrames)

/-- What the board reads of a region. -/
def bboxOf (roi : PreparedRoi) : RoiBbox ℚ where
  x := roi.objectBbox.x
  y := roi.objectBbox.y
  width := roi.objectBbox.width
  height := roi.objectBbox.height
  objectness := roi.objectness
  frameWidth := roi.frameWidth
  frameHeight := roi.frameHeight

/-- The request for a region, as it arrives. -/
structure Carries (roi : PreparedRoi) (request : Request ℚ) : Prop where
  frameId : request.frameId = roi.frameId
  bbox : request.bbox = bboxOf roi

/-- The requests for a frame. -/
def Carried (frame : SentFrame) (lot : List (Request ℚ)) : Prop :=
  List.Forall₂ Carries frame.requests lot

/-- A connection serves the beginning of what is sent for some frames. -/
def Arrives (frames : List SentFrame) (connection : Connection ℚ) : Prop :=
  ∃ lots, List.Forall₂ Carried frames lots ∧
    served connection.requests <+: lots.flatten

/-- What is judged together has been sent for one frame, all of it: one request for each
region found in the frame, or a sign of life, which leaves nothing to judge. -/
structure JudgedAlone (settings : JetsonRoiClient.Settings) (bridge : SafetyBridge.Settings ℚ)
    (frame : SentFrame) (run : List (Request ℚ)) : Prop where
  carried : Carried frame run
  regions : frame.heartbeat = false →
    ∃ candidates,
      JetsonRoiClient.found settings frame.frameId frame.turn = some candidates ∧
        frame.requests.map (fun roi => (roi.roiId, roi.objectBbox, roi.objectness)) =
          candidates.map fun candidate =>
            (candidate.roiId, candidate.objectBbox, candidate.objectness)
  silent : frame.heartbeat = true → batchOf bridge run = ⟨[], false⟩

variable {settings : JetsonRoiClient.Settings} {bridge : SafetyBridge.Settings ℚ}
  {frames : List SentFrame} {lots : List (List (Request ℚ))}

theorem frameId_of_carried {frame : SentFrame} {lot : List (Request ℚ)}
    (sound : frame.Sound settings) (carried : Carried frame lot) :
    ∀ request ∈ lot, request.frameId = frame.frameId := by
  intro request isRequest
  obtain ⟨place, isPlace, rfl⟩ := List.mem_iff_getElem.mp isRequest
  have sameLength := carried.length_eq
  have carries := carried.get (sameLength ▸ isPlace) isPlace
  exact carries.frameId.trans (sound.numbered _ (List.getElem_mem _))

/-- The lots of frames with different numbers can be told apart. -/
theorem separate_of_carried (sound : ∀ frame ∈ frames, frame.Sound settings)
    (differ : frames.IsChain fun first second => first.frameId ≠ second.frameId)
    (carried : List.Forall₂ Carried frames lots) :
    KeyedRuns.Separate Request.frameId lots := by
  induction carried with
  | nil => exact ⟨List.not_mem_nil, by simp, List.IsChain.nil⟩
  | @cons frame lot frames lots isCarried carried ih =>
      have here := sound frame List.mem_cons_self
      have soundLater := fun later isLater => sound later (List.mem_cons_of_mem frame isLater)
      have later := ih soundLater differ.tail
      have numbers := frameId_of_carried here isCarried
      constructor
      · rw [List.mem_cons, not_or]
        refine ⟨fun nothing => here.nonempty ?_, later.nonempty⟩
        rw [Carried, ← nothing] at isCarried
        exact List.forall₂_nil_right_iff.mp isCarried
      · intro other isOther
        rcases List.mem_cons.mp isOther with rfl | isOther
        · intro first isFirst second isSecond
          rw [numbers first isFirst, numbers second isSecond]
        · exact later.oneKey other isOther
      · rw [List.isChain_cons]
        refine ⟨fun next isNext first isFirst second isSecond => ?_, later.differ⟩
        cases carried with
        | nil => cases isNext
        | @cons nextFrame nextLot _ _ nextCarried _ =>
            obtain rfl : nextLot = next := Option.some.inj isNext
            rw [numbers first isFirst, frameId_of_carried
              (soundLater nextFrame List.mem_cons_self) nextCarried second isSecond]
            exact (List.isChain_cons_cons.mp differ).1

/-- A sign of life is dropped, so that nothing is left to judge. -/
theorem batchOf_silent {frame : SentFrame} {run : List (Request ℚ)}
    (sound : frame.Sound settings) (carried : Carried frame run)
    (heartbeat : frame.heartbeat = true) : batchOf bridge run = ⟨[], false⟩ := by
  obtain ⟨roi, isOne, objectness⟩ := sound.silent heartbeat
  rw [Carried, isOne] at carried
  obtain ⟨request, rest, carries, nothing, rfl⟩ := List.forall₂_cons_left_iff.mp carried
  obtain rfl := List.forall₂_nil_left_iff.mp nothing
  have low : request.bbox.objectness = 0 := by
    rw [carries.bbox]
    exact objectness
  have unusable : Control.SafetyBridge.unusable request.bbox = true := by
    have small : FloatOps.lt request.bbox.objectness Control.SafetyBridge.minObjectness =
        true := by
      rw [low]
      decide +kernel
    rw [Control.SafetyBridge.unusable, small]
    rfl
  have dropped : Control.SafetyBridge.observe bridge request.bbox request.result = .dropped := by
    rw [Control.SafetyBridge.observe, if_pos unusable]
  simp [batchOf, Control.ClassifierServer.accepted, Control.ClassifierServer.raisesFlag,
    Control.ClassifierServer.backgroundSlow, dropped]

/-- The runs of a connection are the lots of its frames, the last one maybe in part. -/
theorem frameRuns_of_arrives {connection : Connection ℚ}
    (sound : ∀ frame ∈ frames, frame.Sound settings)
    (differ : frames.IsChain fun first second => first.frameId ≠ second.frameId)
    (arrives : Arrives frames connection) :
    (frameRuns connection).length ≤ frames.length ∧
      List.Forall₂ Carried (frames.take (frameRuns connection).dropLast.length)
        (frameRuns connection).dropLast := by
  obtain ⟨lots, carried, arrived⟩ := arrives
  obtain ⟨whole, count⟩ := (separate_of_carried sound differ carried).runs arrived
  constructor
  · rw [carried.length_eq]
    exact count
  · have sameFront : (frameRuns connection).dropLast =
        lots.take (frameRuns connection).dropLast.length :=
      List.prefix_iff_eq_take.mp whole
    have front := List.forall₂_take (frameRuns connection).dropLast.length carried
    rwa [← sameFront] at front

/-- What one connection judges: frames in the order in which they have been sent. -/
structure Judged (settings : JetsonRoiClient.Settings) (bridge : SafetyBridge.Settings ℚ)
    (frames : List SentFrame) (judged : List (SentFrame × List (Request ℚ))) : Prop where
  inOrder : judged.map Prod.fst <+: frames
  alone : ∀ pair ∈ judged, JudgedAlone settings bridge pair.1 pair.2

variable (bridge) in
theorem judged_of_arrives {connection : Connection ℚ}
    (sound : ∀ frame ∈ frames, frame.Sound settings)
    (differ : frames.IsChain fun first second => first.frameId ≠ second.frameId)
    (arrives : Arrives frames connection) :
    ∃ judged, judged.map Prod.snd = (frameRuns connection).dropLast ∧
      Judged settings bridge frames judged := by
  obtain ⟨-, carried⟩ := frameRuns_of_arrives sound differ arrives
  obtain ⟨sameLength, pairs⟩ := List.forall₂_iff_zip.mp carried
  refine ⟨_, List.map_snd_zip sameLength.ge, ?_, ?_⟩
  · rw [List.map_fst_zip sameLength.le]
    exact List.take_prefix _ _
  · rintro ⟨frame, run⟩ isPair
    have isCarried := pairs isPair
    have isSound := sound frame (List.mem_of_mem_take (List.of_mem_zip isPair).1)
    exact ⟨isCarried, isSound.regions, batchOf_silent isSound isCarried⟩

/-- Frame by frame.  On every connection the board judges frames that the Jetson has
sent, in that order and one at a time, each with all that has been sent for it: one
region for each candidate of the frame, or nothing at all. -/
theorem frames_judged_alone (settings : JetsonRoiClient.Settings)
    (bridge : SafetyBridge.Settings ℚ) {turns : List Turn}
    (cameras : ∀ frame, Turn.frame frame ∈ turns → CameraFrame frame.frame)
    (unwrapped : turns.length ≤ 2 ^ 32) {connections : List (Connection ℚ)}
    (arrive : ∀ connection ∈ connections,
      ∃ start, Arrives ((sentFrames settings turns).drop start) connection)
    (shutdownMs : Nat) :
    ∃ judged : List (List (SentFrame × List (Request ℚ))),
      judgedBatches bridge {} (mainCalls connections shutdownMs) =
        judged.flatten.map (fun pair => batchOf bridge pair.2) ∧
      List.Forall₂ (fun connection pairs =>
        pairs.map Prod.snd = (frameRuns connection).dropLast ∧
          ∃ start, Judged settings bridge ((sentFrames settings turns).drop start) pairs)
        connections judged := by
  have sound := JetsonRoiClient.sentFrames_sound settings cameras
  have differ := JetsonRoiClient.sentFrames_differ settings cameras unwrapped
  rw [mainCalls, Control.ClassifierServer.judgedBatches_append,
    Control.ClassifierServer.judgedBatches_connections connections {} ⟨rfl, rfl⟩,
    show judgedBatches bridge _ [.forceStop shutdownMs] = [] from rfl, List.append_nil]
  induction connections with
  | nil => exact ⟨[], rfl, List.Forall₂.nil⟩
  | cons connection connections ih =>
      obtain ⟨start, arrives⟩ := arrive connection List.mem_cons_self
      obtain ⟨pairs, sameRuns, judged⟩ := judged_of_arrives bridge
        (fun frame isFrame => sound frame (List.mem_of_mem_drop isFrame))
        (differ.drop start) arrives
      obtain ⟨rest, sameBatches, restJudged⟩ := ih fun other isOther =>
        arrive other (List.mem_cons_of_mem _ isOther)
      refine ⟨pairs :: rest, ?_, .cons ⟨sameRuns, start, judged⟩ restJudged⟩
      rw [List.flatMap_cons, sameBatches, ← sameRuns, List.map_map, List.flatten_cons,
        List.map_append]
      rfl

section Road

open Roi.RoiProposer (decodedBoxes sortedBoxes proposals byScore)

/-- The detector sees two objects side by side. -/
def twoCars (place : Nat) : ℚ :=
  if place < 2 then
    100 + 120 * place
  else if place < 2 * Roi.kPredictionCount then
    160
  else if place < 4 * Roi.kPredictionCount then
    40
  else if place < 4 * Roi.kPredictionCount + 2 then
    9 / 10 - (place - 4 * Roi.kPredictionCount : Nat) / 10
  else
    0

/-- A frame and what the detector sees in it. -/
def roadFrame (ms : Nat) (engine : Option (Nat → ℚ)) : JetsonRoiClient.FrameTurn where
  frame := ⟨640, 360, true⟩
  engine := engine
  begun := (ms - 40) * 1000000
  captured := (ms - 10) * 1000000
  looked := ms * 1000000
  proposed := ms * 1000000
  rois := fun _ => ⟨ms * 1000000, ms * 1000000, (ms + 15) * 1000000, some {}⟩
  requested := (ms + 15) * 1000000
  publishing := (ms + 15) * 1000000
  ended := (ms + 16) * 1000000

/-- Two cars, and then an empty road. -/
def road : List Turn :=
  [.frame (roadFrame 1000 (some twoCars)), .timeout, .frame (roadFrame 1100 none),
    .frame (roadFrame 1200 none), .frame (roadFrame 1400 none)]

def roadSettings : JetsonRoiClient.Settings where
  proposer := ⟨{}, Roi.ProposerConfig.default_valid⟩

/-- The region of the prediction at `index`. -/
def car (index : Nat) : Roi.RoiCandidate :=
  Roi.RoiProposer.candidate 0 index
    (Roi.RoiProposer.decodeBox ⟨640, 360, true⟩ twoCars index)

theorem found_twoCars :
    JetsonRoiClient.found roadSettings 0 (roadFrame 1000 (some twoCars)) =
      some [car 0, car 1] := by
  have decoded : decodedBoxes {} ⟨640, 360, true⟩ twoCars =
      [Roi.RoiProposer.decodeBox ⟨640, 360, true⟩ twoCars 0,
        Roi.RoiProposer.decodeBox ⟨640, 360, true⟩ twoCars 1] := by
    decide +kernel
  have sorted : sortedBoxes {} ⟨640, 360, true⟩ twoCars =
      [Roi.RoiProposer.decodeBox ⟨640, 360, true⟩ twoCars 0,
        Roi.RoiProposer.decodeBox ⟨640, 360, true⟩ twoCars 1] := by
    rw [sortedBoxes, decoded]
    exact List.mergeSort_of_pairwise (by decide +kernel)
  have proposed : proposals {} 0 ⟨640, 360, true⟩ twoCars = [car 0, car 1] := by
    rw [proposals, sorted]
    decide +kernel
  have resizes : Roi.RoiProposer.resizes ⟨640, 360, true⟩ = true := by decide +kernel
  simp only [JetsonRoiClient.found, roadSettings, roadFrame, Roi.RoiProposer.propose,
    resizes, if_true, proposed, Bool.false_eq_true, if_false]
  rfl

/-- Both cars are sent. -/
theorem sent_twoCars :
    ∃ frame ∈ sentFrames roadSettings road, frame.requests.length = 2 := by
  have busy : (JetsonRoiClient.sending roadSettings {} (roadFrame 1000 (some twoCars))
      [car 0, car 1]).isEmpty = false := rfl
  have requests : (JetsonRoiClient.process roadSettings {}
      (roadFrame 1000 (some twoCars)) [car 0, car 1]).2.requests.length = 2 := by
    decide +kernel
  have isSent : JetsonRoiClient.sentOf roadSettings {}
      (.frame (roadFrame 1000 (some twoCars))) = some {
        turn := roadFrame 1000 (some twoCars)
        heartbeat := false
        frameId := 0
        requests := (JetsonRoiClient.process roadSettings {}
          (roadFrame 1000 (some twoCars)) [car 0, car 1]).2.requests } := by
    simp only [JetsonRoiClient.sentOf, JetsonRoiClient.step, JetsonRoiClient.turnStep,
      found_twoCars, if_true, busy, Bool.false_eq_true, if_false]
    rfl
  exact ⟨_, List.mem_append_left _ (Option.mem_toList.mpr isSent), requests⟩

/-- The requests for a frame as they arrive three milliseconds later. -/
def arriving (frame : SentFrame) : List (Request ℚ) :=
  frame.requests.map fun roi =>
    { frameId := roi.frameId
      bbox := bboxOf roi
      result := ⟨0, 1, 900000⟩
      sent := true
      flushMs := frame.arrival.time + 3
      addMs := frame.arrival.time + 10
      stopMs := frame.arrival.time + 12 }

theorem carried_arriving (frame : SentFrame) : Carried frame (arriving frame) := by
  rw [Carried, arriving, List.forall₂_map_right_iff, List.forall₂_same]
  exact fun roi _ => ⟨rfl, rfl⟩

theorem served_of_sent {requests : List (Request ℚ)}
    (sent : ∀ request ∈ requests, request.sent = true) : served requests = requests := by
  induction requests with
  | nil => rfl
  | cons request requests ih =>
      rw [served, if_pos (sent request List.mem_cons_self),
        ih fun other isOther => sent other (List.mem_cons_of_mem request isOther)]

/-- A connection on which all frames of a run arrive. -/
def roadConnection (settings : JetsonRoiClient.Settings) (turns : List Turn) :
    Connection ℚ where
  requests := (sentFrames settings turns).flatMap arriving
  failedMs := 2000

theorem arrives_roadConnection (settings : JetsonRoiClient.Settings) (turns : List Turn) :
    Arrives (sentFrames settings turns) (roadConnection settings turns) := by
  refine ⟨(sentFrames settings turns).map arriving, ?_, ?_⟩
  · rw [List.forall₂_map_right_iff, List.forall₂_same]
    exact fun frame _ => carried_arriving frame
  · rw [roadConnection, served_of_sent, List.flatMap_def]
    intro request isRequest
    obtain ⟨frame, -, isArriving⟩ := List.mem_flatMap.mp isRequest
    obtain ⟨roi, -, rfl⟩ := List.mem_map.mp isArriving
    rfl

theorem cameraFrame_roadFrame (ms : Nat) (engine : Option (Nat → ℚ)) :
    CameraFrame (roadFrame ms engine).frame :=
  ⟨rfl, by norm_num [roadFrame], by norm_num [roadFrame]⟩

theorem cameras_road : ∀ frame, Turn.frame frame ∈ road → CameraFrame frame.frame := by
  intro frame isFrame
  simp only [road, List.mem_cons, Turn.frame.injEq, reduceCtorEq, false_or,
    List.not_mem_nil, or_false] at isFrame
  rcases isFrame with rfl | rfl | rfl | rfl <;> exact cameraFrame_roadFrame _ _

end Road

/-- A frame with two regions and signs of life after it; the board judges all but the
last of these. -/
theorem frames_judged_alone_road :
    (∃ frame ∈ sentFrames roadSettings road, frame.requests.length = 2) ∧
    ∃ judged : List (List (SentFrame × List (Request ℚ))),
      judgedBatches {} {} (mainCalls [roadConnection roadSettings road] 2000) =
        judged.flatten.map (fun pair => batchOf {} pair.2) ∧
      List.Forall₂ (fun connection pairs =>
        pairs.map Prod.snd = (frameRuns connection).dropLast ∧
          ∃ start, Judged roadSettings {}
            ((sentFrames roadSettings road).drop start) pairs)
        [roadConnection roadSettings road] judged :=
  ⟨sent_twoCars, frames_judged_alone roadSettings {} cameras_road (by simp [road])
    (fun connection isConnection =>
      ⟨0, by rw [List.mem_singleton.mp isConnection]; exact arrives_roadConnection _ _⟩)
    2000⟩

end Adas.FrameServing
