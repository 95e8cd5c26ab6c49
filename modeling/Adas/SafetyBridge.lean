import Adas.EventMachine
import Adas.HazardLatch

/-!
# The safety bridge of the classifier server

The bridge collects the observations of one frame in a buffer, judges them
together when the frame is over, and publishes the state.  Besides the hazard
latch it keeps a deadline up to which a sign keeps the state at `slow`, and a
flag for dangerous candidates that the classifier called background.
-/

namespace Adas.Control

open FloatOps
open Safety

/-- `adas_roi_bbox_t`: a box in pixels of the original frame. -/
structure RoiBbox (F : Type) where
  x : F
  y : F
  width : F
  height : F
  objectness : F
  frameWidth : BitVec 32
  frameHeight : BitVec 32

/-- `adas_roi_result_t`. -/
structure RoiResult where
  status : BitVec 32
  classId : BitVec 32
  confidencePpm : BitVec 32
  deriving DecidableEq, Repr

def roiStatusOk : BitVec 32 := 0

namespace SafetyBridge

variable {F : Type} [FloatOps F]

def projectClassMap : ClassMap where
  background := 0
  car := 1
  person := 2
  signWarning := 3
  signProhibition := 4
  signMandatory := 5

/-- What `ps_safety_start` reads from the environment. -/
structure Settings (F : Type) [FloatOps F] where
  thresholds : JudgeConfig F := {}
  signHoldMs : Nat := 5000

def Settings.judgeConfig (settings : Settings F) : JudgeConfig F :=
  { settings.thresholds with classes := projectClassMap }

def latchConfig : HazardLatch.Config where
  releaseMs := 200
  releaseFrames := 3

def minObjectness : F := lit (25 / 100)

def frameWidth : F := lit 640

def frameHeight : F := lit 360

/-- The buffer of a frame.  It never holds more than `kMaxDetections`. -/
structure Pending (F : Type) where
  items : List (DetectionRecord F) := []
  bounded : items.length ≤ kMaxDetections := by exact Nat.zero_le _

def Pending.push (pending : Pending F) (record : DetectionRecord F)
    (room : pending.items.length < kMaxDetections) : Pending F where
  items := pending.items ++ [record]
  bounded := by
    rw [List.length_append]
    exact room

/-- The part of `ps_safety_handle` that changes. -/
structure Handle (F : Type) where
  latch : HazardLatch := {}
  pending : Pending F := {}
  pendingBackgroundSlow : Bool := false
  signSlowUntilMs : Nat := 0
  state : State := .stop

/-- What one observation contributes to its frame. -/
inductive Observed (F : Type) where
  | dropped
  | background (dangerous : Bool)
  | detection (record : DetectionRecord F)

/-- The box in coordinates of the frame. -/
def normalised (bbox : RoiBbox F) (classId : Int) : DetectionRecord F where
  x1 := bbox.x / frameWidth
  y1 := bbox.y / frameHeight
  x2 := (bbox.x + bbox.width) / frameWidth
  y2 := (bbox.y + bbox.height) / frameHeight
  score := bbox.objectness
  classId := classId

/-- The box has too little objectness or no area. -/
def unusable (bbox : RoiBbox F) : Bool :=
  lt bbox.objectness minObjectness || !lt (lit 0) bbox.width ||
    !lt (lit 0) bbox.height || !lt (lit 0) (frameWidth : F) ||
    !lt (lit 0) (frameHeight : F)

/-- A background candidate that is large and close on the path. -/
def dangerousBackground (config : JudgeConfig F) (record : DetectionRecord F) :
    Bool :=
  let centerX := (record.x1 + record.x2) * lit (1 / 2)
  let height := record.y2 - record.y1
  le minObjectness record.score && le config.zoneXMin centerX &&
    le centerX config.zoneXMax && le config.zoneYMin record.y2 &&
    le config.slowHeight height

/-- The checks of `ps_safety_add_observation` on one observation. -/
def observe (settings : Settings F) (bbox : RoiBbox F) (result : RoiResult) :
    Observed F :=
  let classes := settings.judgeConfig.classes
  if unusable bbox then
    .dropped
  else if result.status ≠ roiStatusOk then
    -- No class at all: judged by the rules for a person.
    .detection (normalised bbox classes.person)
  else
    -- The class id is cast from `uint32_t` to `int32_t`.
    let classId := result.classId.toInt
    if 0 ≤ classes.background ∧ classId = classes.background then
      .background (dangerousBackground settings.judgeConfig (normalised bbox 0))
    else
      .detection (normalised bbox classId)

/-- `ps_safety_add_observation`. -/
def addObservation (settings : Settings F) (handle : Handle F)
    (bbox : RoiBbox F) (result : RoiResult) : Handle F :=
  if room : handle.pending.items.length < kMaxDetections then
    match observe settings bbox result with
    | .dropped => handle
    | .background dangerous =>
        if dangerous then { handle with pendingBackgroundSlow := true } else handle
    | .detection record =>
        { handle with pending := handle.pending.push record room }
  else
    handle

/-- A sign of the frame passes the judgement's gate. -/
def signSeen (config : JudgeConfig F) (items : List (DetectionRecord F)) : Bool :=
  items.any fun det =>
    isSignClass det.classId config.classes && judgeOne det config == .slow

/-- `ps_safety_flush_frame`, with the state it publishes. -/
def flushFrame (settings : Settings F) (handle : Handle F) (nowMs : Nat) :
    Handle F × State :=
  let signSlowUntilMs :=
    if signSeen settings.judgeConfig handle.pending.items then
      (nowMs + settings.signHoldMs) % 2 ^ 64
    else
      handle.signSlowUntilMs
  let judged := handle.latch.update latchConfig settings.judgeConfig
    ⟨handle.pending.items, nowMs⟩
  let withBackground :=
    if handle.pendingBackgroundSlow ∧ judged.2 = .clear then .slow else judged.2
  let withSign :=
    if nowMs < signSlowUntilMs ∧ withBackground.code < State.slow.code then .slow
    else withBackground
  ({ latch := judged.1, signSlowUntilMs := signSlowUntilMs, state := withSign },
    withSign)

/-- `ps_safety_force_stop`.  The latch is left as it is. -/
def forceStop (handle : Handle F) : Handle F × State :=
  ({ latch := handle.latch, state := .stop }, .stop)

/-- A call of the bridge, with the clock at the call. -/
inductive Call (F : Type) where
  | addObservation (nowMs : Nat) (bbox : RoiBbox F) (result : RoiResult)
  | flushFrame (nowMs : Nat)
  | forceStop (nowMs : Nat)

def Call.nowMs : Call F → Nat
  | .addObservation nowMs _ _ => nowMs
  | .flushFrame nowMs => nowMs
  | .forceStop nowMs => nowMs

/-- One call, with the state it publishes, if any. -/
def step (settings : Settings F) (handle : Handle F) :
    Call F → Handle F × Option State
  | .addObservation _ bbox result =>
      (addObservation settings handle bbox result, none)
  | .flushFrame nowMs =>
      let flushed := flushFrame settings handle nowMs
      (flushed.1, some flushed.2)
  | .forceStop _ =>
      let stopped := forceStop handle
      (stopped.1, some stopped.2)

/-- The bridge as a machine that reads the calls of the server. -/
def machine (settings : Settings F) :
    EventMachine (Handle F) (Call F) (Option State) where
  init := {}
  step := step settings

@[simp]
theorem machine_next (settings : Settings F) (handle : Handle F)
    (call : Call F) :
    (machine settings).next handle call = (step settings handle call).1 :=
  rfl

@[simp]
theorem machine_emits (settings : Settings F) (handle : Handle F)
    (call : Call F) :
    (machine settings).emits handle call = (step settings handle call).2 :=
  rfl

@[simp]
theorem judgeConfig_classes (settings : Settings F) :
    settings.judgeConfig.classes = projectClassMap :=
  rfl

/-- What one observation does to the bridge. -/
theorem addObservation_cases (settings : Settings F) (handle : Handle F)
    (bbox : RoiBbox F) (result : RoiResult) :
    addObservation settings handle bbox result = handle ∨
    addObservation settings handle bbox result =
        { handle with pendingBackgroundSlow := true } ∨
    ∃ record room, observe settings bbox result = .detection record ∧
      addObservation settings handle bbox result =
        { handle with pending := handle.pending.push record room } := by
  unfold addObservation
  split_ifs with room
  · cases seen : observe settings bbox result with
    | dropped => exact Or.inl rfl
    | background dangerous =>
        cases dangerous with
        | true => exact Or.inr (Or.inl rfl)
        | false => exact Or.inl rfl
    | detection record => exact Or.inr (Or.inr ⟨record, room, rfl, rfl⟩)
  · exact Or.inl rfl

/-- The latch changes only when a frame is flushed. -/
@[simp]
theorem addObservation_latch (settings : Settings F) (handle : Handle F)
    (bbox : RoiBbox F) (result : RoiResult) :
    (addObservation settings handle bbox result).latch = handle.latch := by
  rcases addObservation_cases settings handle bbox result with
    same | same | ⟨record, room, -, same⟩ <;> rw [same]

/-- A detection of the bridge that is judged `stop` is a car or a person. -/
theorem classId_of_judgeOne_stop {settings : Settings F}
    {det : DetectionRecord F}
    (stops : judgeOne det settings.judgeConfig = .stop) :
    det.classId = 1 ∨ det.classId = 2 := by
  have hazard := (isHazardClass_of_judgeOne_stop stops).1
  simpa [isHazardClass, projectClassMap] using hazard

end SafetyBridge

end Adas.Control
