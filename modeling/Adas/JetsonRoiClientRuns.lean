import Adas.JetsonRoiClient
import Adas.KeepAlive

/-!
# What the Jetson sends

Every candidate that the proposer finds, the whole frame and the sign of life can be
cropped, so that every frame with candidates sends one request for each of them and
no frame sends anything else.  With the sign of life switched on, the frames that
send are never far apart.
-/

namespace Adas.JetsonRoiClient

open Roi (Mat BoundingBox RoiCandidate RoiCropper RoiProposer CroppedRoi CropConfig)
open Roi.RoiCropper (squareSize exactWindow FitsInt cropWindow frameRect)

section Crops

/-- What a camera delivers. -/
structure CameraFrame (frame : Mat) : Prop where
  isFrame : frame.isFrame = true
  cols : frame.cols < 2 ^ 28
  rows : frame.rows < 2 ^ 28

variable {frame : Mat} {box : BoundingBox}

theorem squareSize_le (inFrame : box.InFrame frame) (camera : CameraFrame frame) :
    0 < squareSize {} box ∧ squareSize {} box ≤ 2 ^ 29 := by
  have cols : (frame.cols : ℚ) ≤ 2 ^ 28 := by exact_mod_cast camera.cols.le
  have rows : (frame.rows : ℚ) ≤ 2 ^ 28 := by exact_mod_cast camera.rows.le
  refine ⟨RoiCropper.squareSize_pos (by norm_num) inFrame.width, ?_⟩
  have left := inFrame.left
  have top := inFrame.top
  have right := inFrame.right
  have bottom := inFrame.bottom
  simp only [squareSize, sup_le_iff]
  constructor
  · linarith
  · linarith

/-- The edges of a window around a point of the frame. -/
theorem edges_bounded {center size : ℚ} (nonneg : 0 ≤ center) (inside : center ≤ 2 ^ 28)
    (positive : 0 < size) (bounded : size ≤ 2 ^ 29) :
    -2 ^ 28 ≤ ⌊center - size * (1 / 2)⌋ ∧ ⌊center - size * (1 / 2)⌋ ≤ 2 ^ 28 ∧
      ⌈center + size * (1 / 2)⌉ ≤ 2 ^ 29 := by
  refine ⟨?_, ?_, ?_⟩
  · rw [Int.le_floor]
    push_cast
    linarith
  · have below := Int.floor_le (center - size * (1 / 2))
    have above : (⌊center - size * (1 / 2)⌋ : ℚ) ≤ 2 ^ 28 := by linarith
    exact_mod_cast above
  · rw [Int.ceil_le]
    push_cast
    linarith

theorem fitsInt_of_inFrame (inFrame : box.InFrame frame) (camera : CameraFrame frame) :
    FitsInt (exactWindow {} box) := by
  have cols : (frame.cols : ℚ) ≤ 2 ^ 28 := by exact_mod_cast camera.cols.le
  have rows : (frame.rows : ℚ) ≤ 2 ^ 28 := by exact_mod_cast camera.rows.le
  obtain ⟨left, top, width, height, right, bottom⟩ := inFrame
  obtain ⟨positive, bounded⟩ :=
    squareSize_le ⟨left, top, width, height, right, bottom⟩ camera
  have centerX : 0 ≤ RoiCropper.centerX box ∧ RoiCropper.centerX box ≤ 2 ^ 28 := by
    rw [RoiCropper.centerX]
    constructor <;> linarith
  have centerY : 0 ≤ RoiCropper.centerY box ∧ RoiCropper.centerY box ≤ 2 ^ 28 := by
    rw [RoiCropper.centerY]
    constructor <;> linarith
  obtain ⟨leftLower, leftUpper, rightUpper⟩ :=
    edges_bounded centerX.1 centerX.2 positive bounded
  obtain ⟨topLower, topUpper, bottomUpper⟩ :=
    edges_bounded centerY.1 centerY.2 positive bounded
  constructor <;> simp only [exactWindow] <;> omega

/-- The proposer's candidates and the whole frame can be cropped. -/
theorem crop_isSome {candidate : RoiCandidate} (camera : CameraFrame frame)
    (inFrame : candidate.objectBbox.InFrame frame) :
    (cropper.crop frame candidate).isSome = true := by
  obtain ⟨positive, -⟩ := squareSize_le inFrame camera
  have window := RoiCropper.cropWindow_eq (fitsInt_of_inFrame inFrame camera) positive
  have covers : RoiCropper.Covers (cropWindow {} candidate.objectBbox) {}
      candidate.objectBbox := by
    rw [window]
    exact RoiCropper.covers_exactWindow
  have side : 0 < RoiCropper.pixelSize {} candidate.objectBbox := by
    have sideQ : (0 : ℚ) < (cropWindow {} candidate.objectBbox).width := by
      linarith [covers.left, covers.right]
    exact Int.cast_pos.mp sideQ
  rw [@RoiCropper.crop_eq cropper frame candidate camera.isFrame inFrame.width
    inFrame.height positive side, Bool.not_eq_true', Roi.PixelRect.not_empty_iff]
  obtain ⟨x, y, inWindow, visible⟩ := RoiCropper.meets_of_inFrame covers positive inFrame
  exact ⟨x, y, (Roi.PixelRect.contains_inter _ _ x y).mpr ⟨inWindow, visible⟩⟩

/-- The sign of life can be cropped from every frame. -/
theorem crop_heartbeat (camera : CameraFrame frame) (frameId : BitVec 32) :
    (cropper.crop frame (heartbeatRoi frameId)).isSome = true := by
  have window : cropWindow {} ⟨0, 0, 32, 32⟩ = ⟨-5, -5, 42, 42⟩ := by decide +kernel
  have size : squareSize {} ⟨0, 0, 32, 32⟩ = 208 / 5 := by decide +kernel
  have side : 0 < RoiCropper.pixelSize {} ⟨0, 0, 32, 32⟩ := by decide +kernel
  have notEmpty : 0 < frame.cols ∧ 0 < frame.rows := by
    have isFrame := camera.isFrame
    simp only [Mat.isFrame, Mat.empty, Bool.and_eq_true, Bool.not_eq_true',
      Bool.or_eq_false_iff, beq_eq_false_iff_ne] at isFrame
    omega
  have length : (0 : ℚ) < 32 := by norm_num
  have positive : 0 < squareSize {} ⟨0, 0, 32, 32⟩ := by
    rw [size]
    norm_num
  rw [@RoiCropper.crop_eq cropper frame (heartbeatRoi frameId) camera.isFrame length length
    positive side, Bool.not_eq_true', Roi.PixelRect.not_empty_iff]
  refine ⟨0, 0, (Roi.PixelRect.contains_inter _ _ 0 0).mpr ?_⟩
  rw [heartbeatRoi, cropper, window]
  simp only [Roi.PixelRect.Contains, frameRect]
  omega

/-- Whatever has been cropped can be sent. -/
theorem request_isSome {candidate : RoiCandidate}
    (cropped : (cropper.crop frame candidate).isSome = true) :
    (request frame candidate).isSome = true := by
  obtain ⟨roi, isRoi⟩ := Option.isSome_iff_exists.mp cropped
  have pixels : roi.bgrPixels = ⟨96, 96, true⟩ := by
    simp only [RoiCropper.crop] at isRoi
    split_ifs at isRoi
    rw [← Option.some.inj isRoi]
    rfl
  rw [request, isRoi, Option.bind_some, prepare, pixels]
  rfl

/-- What is sent for a candidate says where the candidate is. -/
theorem of_request {candidate : RoiCandidate} {roi : PreparedRoi}
    (isRequest : request frame candidate = some roi) :
    roi.frameId = candidate.frameId ∧ roi.roiId = candidate.roiId ∧
      roi.objectBbox = candidate.objectBbox ∧ roi.objectness = candidate.objectness := by
  obtain ⟨cropped, isCropped, isPrepared⟩ := Option.bind_eq_some_iff.mp isRequest
  simp only [RoiCropper.crop] at isCropped
  split_ifs at isCropped
  obtain rfl := Option.some.inj isCropped
  simp only [prepare] at isPrepared
  split_ifs at isPrepared
  obtain rfl := Option.some.inj isPrepared
  exact ⟨rfl, rfl, rfl, rfl⟩

end Crops

section Requests

variable {settings : Settings} {state : State} {turn : FrameTurn}
  {candidates : List RoiCandidate}

theorem mem_proposals {proposer : RoiProposer} {frame : Mat} {frameId : BitVec 32}
    {output : Nat → ℚ} {candidate : RoiCandidate}
    (isProposal : candidate ∈
      RoiProposer.proposals proposer.config frameId frame output) :
    candidate.objectBbox.InFrame frame ∧ candidate.frameId = frameId := by
  rw [RoiProposer.proposals_eq_numbered proposer.config frameId proposer.checked] at isProposal
  obtain ⟨box, isBox, place, rfl⟩ := RoiProposer.mem_numbered isProposal
  obtain ⟨index, admissible, rfl⟩ := RoiProposer.prediction_of_mem_keptBoxes isBox
  exact ⟨RoiProposer.inFrame_decodeBox admissible.2.2, rfl⟩

/-- Every candidate of a frame lies in it and carries its number. -/
theorem mem_found (camera : CameraFrame turn.frame) {frameId : BitVec 32}
    (areFound : found settings frameId turn = some candidates) :
    ∀ candidate ∈ candidates,
      candidate.objectBbox.InFrame turn.frame ∧ candidate.frameId = frameId := by
  intro candidate isCandidate
  rw [found] at areFound
  split_ifs at areFound with fullFrameMode
  · obtain rfl := Option.some.inj areFound
    obtain rfl := List.mem_singleton.mp isCandidate
    have isFrame := camera.isFrame
    simp only [Mat.isFrame, Mat.empty, Bool.and_eq_true, Bool.not_eq_true',
      Bool.or_eq_false_iff, beq_eq_false_iff_ne] at isFrame
    refine ⟨⟨le_refl 0, le_refl 0, ?_, ?_, ?_, ?_⟩, rfl⟩
    · exact Nat.cast_pos.mpr (Nat.pos_of_ne_zero isFrame.1.1)
    · exact Nat.cast_pos.mpr (Nat.pos_of_ne_zero isFrame.1.2)
    · exact (zero_add _).le
    · exact (zero_add _).le
  · cases engine : turn.engine with
    | none =>
        rw [engine, RoiProposer.propose] at areFound
        obtain rfl := Option.some.inj areFound
        exact absurd isCandidate List.not_mem_nil
    | some output =>
        rw [engine, RoiProposer.propose, if_pos camera.isFrame] at areFound
        split_ifs at areFound
        obtain rfl := Option.some.inj areFound
        exact mem_proposals isCandidate

/-- What is sent for the frame carries its number, and nothing is lost. -/
theorem mem_sending (camera : CameraFrame turn.frame)
    (areFound : found settings state.frameId turn = some candidates) :
    ∀ candidate ∈ sending settings state turn candidates,
      (request turn.frame candidate).isSome = true ∧
        candidate.frameId = state.frameId := by
  intro candidate isCandidate
  rw [sending] at isCandidate
  split_ifs at isCandidate
  · obtain rfl := List.mem_singleton.mp isCandidate
    exact ⟨request_isSome (crop_heartbeat camera _), rfl⟩
  · obtain ⟨inFrame, isNumber⟩ := mem_found camera areFound candidate isCandidate
    exact ⟨request_isSome (crop_isSome camera inFrame), isNumber⟩

@[simp]
theorem measure_requests (loop : RoiLoop) (roi : RoiTurn) :
    (loop.measure roi).requests = loop.requests :=
  rfl

@[simp]
theorem overlay_requests (loop : RoiLoop) (candidate : RoiCandidate) (roi : RoiTurn) :
    (loop.overlay candidate roi).requests = loop.requests :=
  rfl

theorem roiStep_requests (frame : Mat) (counted heartbeat : Bool) (loop : RoiLoop)
    (candidate : RoiCandidate) (roi : RoiTurn) :
    (roiStep frame counted heartbeat loop candidate roi).requests =
      loop.requests ++ (request frame candidate).toList := by
  rw [roiStep]
  cases request frame candidate with
  | none => exact (List.append_nil _).symm
  | some prepared => cases counted <;> cases heartbeat <;> rfl

theorem roiLoop_requests (frame : Mat) (counted heartbeat : Bool) (rois : Nat → RoiTurn)
    (place : Nat) (loop : RoiLoop) (candidates : List RoiCandidate) :
    (roiLoop frame counted heartbeat rois place loop candidates).requests =
      loop.requests ++ candidates.filterMap (request frame) := by
  induction candidates generalizing place loop with
  | nil => exact (List.append_nil _).symm
  | cons candidate candidates ih =>
      rw [roiLoop, ih, roiStep_requests, List.append_assoc]
      cases isRequest : request frame candidate <;> simp [isRequest]

/-- A turn sends one request for each candidate. -/
theorem process_requests :
    (process settings state turn candidates).2.requests =
      (sending settings state turn candidates).filterMap (request turn.frame) := by
  simp only [process, sendAll, roiLoop_requests, List.nil_append]

end Requests

section Frames

/-- A frame that has sent requests. -/
structure SentFrame where
  turn : FrameTurn
  heartbeat : Bool
  frameId : BitVec 32
  requests : List PreparedRoi

def SentFrame.arrival (frame : SentFrame) : KeepAlive.Arrival where
  time := monotonicMs frame.turn.looked
  busy := !frame.heartbeat
  done := monotonicMs frame.turn.requested

/-- The frame of a turn, if it sends. -/
def sentOf (settings : Settings) (state : State) (turn : Turn) : Option SentFrame :=
  match turn with
  | .frame frame =>
      if state.running then
        match found settings state.frameId frame with
        | none => none
        | some candidates =>
            if (sending settings state frame candidates).isEmpty then none
            else some {
              turn := frame
              heartbeat := isHeartbeat settings state.lastRequestMs
                (monotonicMs frame.looked) candidates
              frameId := state.frameId
              requests := (step settings state turn).2.requests }
      else
        none
  | _ => none

/-- The frames of a run that send. -/
def sentFrames (settings : Settings) (turns : List Turn) : List SentFrame :=
  (machine settings).collectFrom (sentOf settings) (machine settings).init turns

/-- A turn that gets a frame, and whether something is found in it. -/
def arrivalOf (settings : Settings) (state : State) : Turn → Option KeepAlive.Arrival
  | .frame frame =>
      if state.running then
        (found settings state.frameId frame).map fun candidates =>
          ⟨monotonicMs frame.looked, !candidates.isEmpty, monotonicMs frame.requested⟩
      else
        none
  | _ => none

def arrivals (settings : Settings) (turns : List Turn) : List KeepAlive.Arrival :=
  (machine settings).collectFrom (arrivalOf settings) (machine settings).init turns

variable {settings : Settings}

/-- A turn that is no frame, or gets no candidates, sends nothing. -/
theorem step_cases (settings : Settings) (state : State) (turn : Turn) :
    (sentOf settings state turn = none ∧ arrivalOf settings state turn = none ∧
      (step settings state turn).1.lastRequestMs = state.lastRequestMs ∧
      (step settings state turn).1.frameId = state.frameId) ∨
    ∃ frame candidates, turn = .frame frame ∧ state.running = true ∧
      found settings state.frameId frame = some candidates ∧
      step settings state turn = process settings state frame candidates := by
  cases running : state.running with
  | false =>
      left
      cases turn <;> simp [sentOf, arrivalOf, step, running]
  | true =>
      cases turn with
      | frame frame =>
          cases areFound : found settings state.frameId frame with
          | none =>
              left
              simp [sentOf, arrivalOf, step, turnStep, running, areFound]
          | some candidates =>
              right
              refine ⟨frame, candidates, rfl, rfl, areFound, ?_⟩
              simp [step, turnStep, running, areFound]
      | _ =>
          left
          simp [sentOf, arrivalOf, step, turnStep, running]

theorem sinceRequest_eq {frameMs lastRequestMs : Nat} (inOrder : lastRequestMs ≤ frameMs)
    (fits : frameMs < 2 ^ 64) :
    sinceRequest frameMs lastRequestMs = frameMs - lastRequestMs := by
  rw [sinceRequest, Nat.sub_add_comm inOrder, Nat.add_mod_right, Nat.mod_eq_of_lt]
  exact (Nat.sub_le _ _).trans_lt fits

/-- With the sign of life on, a frame sends exactly when a call sends that keeps the
link alive. -/
theorem sends_iff (heartbeats : settings.emptyFrameHeartbeat = true) {state : State}
    {frame : FrameTurn} (inOrder : state.lastRequestMs ≤ monotonicMs frame.looked)
    (fits : monotonicMs frame.looked < 2 ^ 64) (candidates : List RoiCandidate) :
    KeepAlive.sends settings.heartbeatIntervalMs state.lastRequestMs
        ⟨monotonicMs frame.looked, !candidates.isEmpty, monotonicMs frame.requested⟩ =
      !(sending settings state frame candidates).isEmpty := by
  rw [KeepAlive.sends, sending, isHeartbeat, heartbeats, sinceRequest_eq inOrder fits]
  cases candidates with
  | nil =>
      by_cases due : settings.heartbeatIntervalMs ≤
        monotonicMs frame.looked - state.lastRequestMs
      · simp [due]
      · simp [due]
  | cons candidate candidates => simp

/-- With the sign of life on, the frames that send are the calls that keep the link
alive. -/
theorem sent_eq_keepAlive (heartbeats : settings.emptyFrameHeartbeat = true)
    {gap work : Nat} {turns : List Turn} {state : State}
    (punctual : KeepAlive.Punctual gap work
      ((machine settings).collectFrom (arrivalOf settings) state turns))
    (inOrder : ∀ arrival ∈ (machine settings).collectFrom (arrivalOf settings) state turns,
      state.lastRequestMs ≤ arrival.time ∧ arrival.time < 2 ^ 64) :
    ((machine settings).collectFrom (sentOf settings) state turns).map SentFrame.arrival =
      KeepAlive.sent settings.heartbeatIntervalMs state.lastRequestMs
        ((machine settings).collectFrom (arrivalOf settings) state turns) := by
  induction turns generalizing state with
  | nil => rfl
  | cons turn turns ih =>
      rw [EventMachine.collectFrom_cons] at punctual inOrder ⊢
      rw [EventMachine.collectFrom_cons]
      rcases step_cases settings state turn with
        ⟨notSent, noArrival, sameRequest, -⟩ |
        ⟨frame, candidates, rfl, running, areFound, isStep⟩
      · rw [noArrival] at punctual inOrder ⊢
        rw [notSent]
        have next := ih punctual
        rw [EventMachine.next, show (machine settings).step = step settings from rfl,
          sameRequest] at next
        exact next inOrder
      · have isArrival : arrivalOf settings state (.frame frame) =
            some ⟨monotonicMs frame.looked, !candidates.isEmpty,
              monotonicMs frame.requested⟩ := by
          rw [arrivalOf, if_pos running, areFound]
          rfl
        rw [isArrival] at punctual inOrder ⊢
        simp only [Option.toList_some, List.singleton_append] at punctual inOrder ⊢
        have here := inOrder _ List.mem_cons_self
        rw [KeepAlive.sent, sends_iff heartbeats here.1 here.2]
        have request : ((machine settings).next state (.frame frame)).lastRequestMs =
            if (sending settings state frame candidates).isEmpty then state.lastRequestMs
            else monotonicMs frame.requested := by
          rw [EventMachine.next, show (machine settings).step = step settings from rfl,
            isStep]
          rfl
        cases nothing : (sending settings state frame candidates).isEmpty with
        | true =>
            have notSent : sentOf settings state (.frame frame) = none := by
              rw [sentOf, if_pos running, areFound]
              exact if_pos nothing
            rw [nothing, if_pos rfl] at request
            have next := ih punctual.tail
            rw [request] at next
            rw [notSent]
            exact next fun arrival isLater =>
              inOrder arrival (List.mem_cons_of_mem _ isLater)
        | false =>
            have isBusy : isHeartbeat settings state.lastRequestMs
                (monotonicMs frame.looked) candidates = candidates.isEmpty := by
              rw [sending] at nothing
              cases candidates with
              | nil =>
                  split_ifs at nothing with due
                  · exact due
                  · cases nothing
              | cons candidate candidates => simp [isHeartbeat]
            have isSent : sentOf settings state (.frame frame) = some {
                turn := frame
                heartbeat := candidates.isEmpty
                frameId := state.frameId
                requests := (step settings state (.frame frame)).2.requests } := by
              rw [sentOf, if_pos running, areFound, ← isBusy]
              exact if_neg (by simp [nothing])
            rw [nothing, if_neg Bool.false_ne_true] at request
            have later := punctual.done_le
            have next := ih punctual.tail
            rw [request] at next
            rw [isSent]
            exact congrArg (List.cons _) (next fun arrival isLater =>
              ⟨later arrival isLater,
                (inOrder arrival (List.mem_cons_of_mem _ isLater)).2⟩)

/-- What is known of a frame that sends: one request for each of its candidates, or a
single one that says that there is nothing to see. -/
structure SentFrame.Sound (settings : Settings) (frame : SentFrame) : Prop where
  nonempty : frame.requests ≠ []
  numbered : ∀ roi ∈ frame.requests, roi.frameId = frame.frameId
  silent : frame.heartbeat = true → ∃ roi, frame.requests = [roi] ∧ roi.objectness = 0
  regions : frame.heartbeat = false →
    ∃ candidates, found settings frame.frameId frame.turn = some candidates ∧
      frame.requests.map (fun roi => (roi.roiId, roi.objectBbox, roi.objectness)) =
        candidates.map fun candidate =>
          (candidate.roiId, candidate.objectBbox, candidate.objectness)

/-- The requests say of each region where it is. -/
theorem map_filterMap_request {frame : Mat} {candidates : List RoiCandidate}
    (areSent : ∀ candidate ∈ candidates, (request frame candidate).isSome = true) :
    (candidates.filterMap (request frame)).map
        (fun roi => (roi.roiId, roi.objectBbox, roi.objectness)) =
      candidates.map fun candidate =>
        (candidate.roiId, candidate.objectBbox, candidate.objectness) := by
  induction candidates with
  | nil => rfl
  | cons candidate candidates ih =>
      obtain ⟨roi, isRequest⟩ :=
        Option.isSome_iff_exists.mp (areSent candidate List.mem_cons_self)
      obtain ⟨-, sameId, sameBbox, sameObjectness⟩ := of_request isRequest
      have rest := ih fun other isOther => areSent other (List.mem_cons_of_mem _ isOther)
      rw [List.filterMap_cons_some isRequest, List.map_cons, List.map_cons, rest, sameId,
        sameBbox, sameObjectness]

theorem sound_of_sentOf {settings : Settings} {state : State} {frame : FrameTurn}
    (camera : CameraFrame frame.frame) {sent : SentFrame}
    (isSent : sentOf settings state (.frame frame) = some sent) :
    sent.frameId = state.frameId ∧ sent.Sound settings := by
  rw [sentOf] at isSent
  cases running : state.running with
  | false => simp [running] at isSent
  | true =>
      cases areFound : found settings state.frameId frame with
      | none => simp [running, areFound] at isSent
      | some candidates =>
          simp only [running, areFound, if_true] at isSent
          split_ifs at isSent with nothing
          have requests : (step settings state (.frame frame)).2.requests =
              (sending settings state frame candidates).filterMap
                (request frame.frame) := by
            rw [step, if_pos running, turnStep, areFound]
            exact process_requests
          have members := mem_sending camera areFound
          have regions := map_filterMap_request fun candidate isCandidate =>
            (members candidate isCandidate).1
          rw [← requests] at regions
          obtain rfl := Option.some.inj isSent
          refine ⟨rfl, ?_, ?_, ?_, ?_⟩
          · intro none
            rw [show (step settings state (.frame frame)).2.requests = [] from none]
              at regions
            exact nothing (List.isEmpty_iff.mpr (List.map_eq_nil_iff.mp regions.symm))
          · intro roi isRoi
            rw [show (step settings state (.frame frame)).2.requests = _ from requests] at isRoi
            obtain ⟨candidate, isCandidate, isRequest⟩ := List.mem_filterMap.mp isRoi
            exact (of_request isRequest).1.trans (members candidate isCandidate).2
          · intro heartbeat
            have one : sending settings state frame candidates =
                [heartbeatRoi state.frameId] := by
              rw [sending]
              exact if_pos heartbeat
            rw [one, List.map_singleton] at regions
            obtain ⟨roi, isOne, same⟩ := List.map_eq_singleton_iff.mp regions
            exact ⟨roi, isOne, congrArg (fun triple => triple.2.2) same⟩
          · intro notHeartbeat
            have all : sending settings state frame candidates = candidates := by
              rw [sending]
              exact if_neg (by simpa using notHeartbeat)
            rw [all] at regions
            exact ⟨candidates, areFound, regions⟩

section Numbers

theorem next_frameId (settings : Settings) (state : State) {frame : FrameTurn}
    {candidates : List RoiCandidate}
    (isStep : step settings state (.frame frame) =
      process settings state frame candidates) :
    ((machine settings).next state (.frame frame)).frameId = state.frameId + 1 := by
  rw [EventMachine.next, show (machine settings).step = step settings from rfl, isStep]
  rfl

/-- The frames to come are numbered from the state's number on. -/
theorem frameId_of_mem_sent (settings : Settings) (state : State) {turns : List Turn}
    (cameras : ∀ frame, Turn.frame frame ∈ turns → CameraFrame frame.frame) :
    ∀ sent ∈ (machine settings).collectFrom (sentOf settings) state turns,
      sent.Sound settings ∧
        ∃ place < turns.length, sent.frameId = state.frameId + BitVec.ofNat 32 place := by
  induction turns generalizing state with
  | nil => simp
  | cons turn turns ih =>
      have later := ih ((machine settings).next state turn)
        fun frame isFrame => cameras frame (List.mem_cons_of_mem _ isFrame)
      intro sent isSent
      rw [EventMachine.collectFrom_cons, List.mem_append, Option.mem_toList] at isSent
      rcases step_cases settings state turn with
        ⟨notSent, -, -, sameId⟩ | ⟨frame, candidates, rfl, running, areFound, isStep⟩
      · rw [notSent] at isSent
        obtain ⟨sound, place, isPlace, number⟩ := later sent (isSent.resolve_left nofun)
        refine ⟨sound, place, isPlace.trans (Nat.lt_succ_self _), ?_⟩
        rw [number]
        exact congrArg (· + BitVec.ofNat 32 place) sameId
      · rcases isSent with here | isLater
        · obtain ⟨number, sound⟩ :=
            sound_of_sentOf (cameras frame List.mem_cons_self) here
          refine ⟨sound, 0, Nat.succ_pos _, ?_⟩
          rw [number]
          exact (BitVec.add_zero _).symm
        · obtain ⟨sound, place, isPlace, number⟩ := later sent isLater
          refine ⟨sound, place + 1, Nat.succ_lt_succ isPlace, ?_⟩
          rw [number, next_frameId settings state isStep, Nat.add_comm place 1, BitVec.ofNat_add,
            ← BitVec.add_assoc]
          rfl

/-- As long as the numbers have not wrapped, frames that send one after the other have
different ones. -/
theorem sent_differ (settings : Settings) (state : State) {turns : List Turn}
    (cameras : ∀ frame, Turn.frame frame ∈ turns → CameraFrame frame.frame)
    (unwrapped : turns.length ≤ 2 ^ 32) :
    ((machine settings).collectFrom (sentOf settings) state turns).IsChain
      fun first second => first.frameId ≠ second.frameId := by
  induction turns generalizing state with
  | nil => exact List.IsChain.nil
  | cons turn turns ih =>
      have camerasLater := fun frame isFrame =>
        cameras frame (List.mem_cons_of_mem turn isFrame)
      have later := ih ((machine settings).next state turn) camerasLater
        ((Nat.le_succ _).trans unwrapped)
      rw [EventMachine.collectFrom_cons]
      rcases step_cases settings state turn with
        ⟨notSent, -⟩ | ⟨frame, candidates, rfl, running, areFound, isStep⟩
      · rw [notSent]
        exact later
      · cases isSent : sentOf settings state (.frame frame) with
        | none => exact later
        | some sent =>
            have number := (sound_of_sentOf (cameras frame List.mem_cons_self) isSent).1
            rw [Option.toList_some, List.singleton_append, List.isChain_cons]
            refine ⟨fun next isNext => ?_, later⟩
            obtain ⟨-, place, isPlace, nextNumber⟩ :=
              frameId_of_mem_sent settings _ camerasLater next (List.mem_of_mem_head? isNext)
            rw [number, nextNumber, next_frameId settings state isStep]
            have small : place + 1 < 2 ^ 32 :=
              (Nat.succ_lt_succ isPlace).trans_le unwrapped
            intro same
            have values := congrArg BitVec.toNat same
            simp only [BitVec.toNat_add, BitVec.toNat_ofNat] at values
            have one : (1 : BitVec 32).toNat = 1 := rfl
            have bound := state.frameId.isLt
            omega

variable (settings : Settings) {turns : List Turn}

theorem sentFrames_sound
    (cameras : ∀ frame, Turn.frame frame ∈ turns → CameraFrame frame.frame) :
    ∀ sent ∈ sentFrames settings turns, sent.Sound settings := by
  intro sent isSent
  exact (frameId_of_mem_sent settings (machine settings).init cameras sent isSent).1

theorem sentFrames_differ
    (cameras : ∀ frame, Turn.frame frame ∈ turns → CameraFrame frame.frame)
    (unwrapped : turns.length ≤ 2 ^ 32) :
    (sentFrames settings turns).IsChain fun first second =>
      first.frameId ≠ second.frameId :=
  sent_differ settings (machine settings).init cameras unwrapped

end Numbers

end Frames

end Adas.JetsonRoiClient
