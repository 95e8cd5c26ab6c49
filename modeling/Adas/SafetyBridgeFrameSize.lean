import Adas.SafetyBridgeHistory
import Mathlib.Algebra.Order.Field.Basic
import Mathlib.Tactic.Linarith

/-!
# The frame size of a request

A request carries the size of the frame its box was found in, so that the box
can be normalised where the judgement is made.  The bridge divides by a fixed
640 by 360 instead.  Beside the bridge stands one that divides by the size the
request carries: its records do not depend on the resolution of the camera, and
the bridge agrees with it exactly on requests from a 640 by 360 frame.
-/

namespace Adas.Control.SafetyBridge

open FloatOps
open Safety

section SeenCalls

variable {F : Type} [FloatOps F]

/-- A call once the checks have been made on its observation. -/
inductive SeenCall (F : Type) where
  | observed (observed : Observed F)
  | flushFrame (nowMs : Nat)
  | forceStop (nowMs : Nat)

/-- The call with its observation looked at. -/
def Call.seen (look : RoiBbox F → RoiResult → Observed F) : Call F → SeenCall F
  | .addObservation _ bbox result => .observed (look bbox result)
  | .flushFrame nowMs => .flushFrame nowMs
  | .forceStop nowMs => .forceStop nowMs

/-- The part of `ps_safety_add_observation` after the checks. -/
def addObserved (handle : Handle F) (observed : Observed F) : Handle F :=
  if room : handle.pending.items.length < kMaxDetections then
    match observed with
    | .dropped => handle
    | .background dangerous =>
        if dangerous then { handle with pendingBackgroundSlow := true } else handle
    | .detection record =>
        { handle with pending := handle.pending.push record room }
  else
    handle

/-- The bridge as a machine that reads calls with their observations looked
at. -/
def seenMachine (settings : Settings F) :
    EventMachine (Handle F) (SeenCall F) (Option State) where
  init := {}
  step handle call :=
    match call with
    | .observed observed => (addObserved handle observed, none)
    | .flushFrame nowMs => step settings handle (.flushFrame nowMs)
    | .forceStop nowMs => step settings handle (.forceStop nowMs)

/-- What is published depends on the observations only through the checks. -/
theorem published_eq_seen (settings : Settings F) (handle : Handle F)
    (calls : List (Call F)) :
    published settings handle calls =
      (seenMachine settings).outputsFrom handle
        (calls.map (Call.seen (observe settings))) := by
  unfold published
  induction calls generalizing handle with
  | nil => rfl
  | cons call calls ih =>
      rw [List.map_cons, EventMachine.outputsFrom_cons,
        EventMachine.outputsFrom_cons, ih]
      cases call <;> rfl

end SeenCalls

section ByFrame

/-- The box in coordinates of the frame the request names. -/
def normalisedByFrame (bbox : RoiBbox ℚ) (classId : Int) : DetectionRecord ℚ where
  x1 := bbox.x / bbox.frameWidth.toNat
  y1 := bbox.y / bbox.frameHeight.toNat
  x2 := (bbox.x + bbox.width) / bbox.frameWidth.toNat
  y2 := (bbox.y + bbox.height) / bbox.frameHeight.toNat
  score := bbox.objectness
  classId := classId

/-- The checks on the box, with the frame size of the request. -/
def unusableByFrame (bbox : RoiBbox ℚ) : Bool :=
  lt bbox.objectness minObjectness || !lt (lit 0) bbox.width ||
    !lt (lit 0) bbox.height || !lt (lit 0) (bbox.frameWidth.toNat : ℚ) ||
    !lt (lit 0) (bbox.frameHeight.toNat : ℚ)

/-- The checks of `ps_safety_add_observation`, with the frame size of the
request. -/
def observeByFrame (settings : Settings ℚ) (bbox : RoiBbox ℚ)
    (result : RoiResult) : Observed ℚ :=
  let classes := settings.judgeConfig.classes
  if unusableByFrame bbox then
    .dropped
  else if result.status ≠ roiStatusOk then
    .detection (normalisedByFrame bbox classes.person)
  else
    let classId := result.classId.toInt
    if 0 ≤ classes.background ∧ classId = classes.background then
      .background
        (dangerousBackground settings.judgeConfig (normalisedByFrame bbox 0))
    else
      .detection (normalisedByFrame bbox classId)

/-- What a bridge publishes that uses the frame size of the request. -/
def publishedByFrame (settings : Settings ℚ) (handle : Handle ℚ)
    (calls : List (Call ℚ)) : List (Option State) :=
  (seenMachine settings).outputsFrom handle
    (calls.map (Call.seen (observeByFrame settings)))

/-- The request comes from a frame of the size the bridge assumes. -/
structure FixedFrame (bbox : RoiBbox ℚ) : Prop where
  width : bbox.frameWidth = 640
  height : bbox.frameHeight = 360

/-- All requests of a run that pass the checks on objectness and size come from a
frame of the size the bridge assumes. -/
def OnFixedFrame (calls : List (Call ℚ)) : Prop :=
  ∀ nowMs bbox result, .addObservation nowMs bbox result ∈ calls →
    unusable bbox = false → FixedFrame bbox

/-- The box lies inside the frame of its request. -/
structure InsideFrame (bbox : RoiBbox ℚ) : Prop where
  left : 0 ≤ bbox.x
  top : 0 ≤ bbox.y
  right : bbox.x + bbox.width ≤ bbox.frameWidth.toNat
  bottom : bbox.y + bbox.height ≤ bbox.frameHeight.toNat

def InUnitInterval (value : ℚ) : Prop :=
  0 ≤ value ∧ value ≤ 1

/-- All coordinates of a record lie between zero and one. -/
structure InUnitSquare (record : DetectionRecord ℚ) : Prop where
  x1 : InUnitInterval record.x1
  y1 : InUnitInterval record.y1
  x2 : InUnitInterval record.x2
  y2 : InUnitInterval record.y2

/-- The same object in a frame of another size. -/
structure ScaledBbox (bbox scaled : RoiBbox ℚ) (scaleX scaleY : ℚ) : Prop where
  positiveX : 0 < scaleX
  positiveY : 0 < scaleY
  x : scaled.x = scaleX * bbox.x
  y : scaled.y = scaleY * bbox.y
  width : scaled.width = scaleX * bbox.width
  height : scaled.height = scaleY * bbox.height
  objectness : scaled.objectness = bbox.objectness
  frameWidth : (scaled.frameWidth.toNat : ℚ) = scaleX * bbox.frameWidth.toNat
  frameHeight : (scaled.frameHeight.toNat : ℚ) = scaleY * bbox.frameHeight.toNat

/-- The same call, with the box of an observation in a frame of another size. -/
inductive ScaledCall : Call ℚ → Call ℚ → Prop where
  | addObservation (nowMs : Nat) (bbox scaled : RoiBbox ℚ) (result : RoiResult)
      (scaleX scaleY : ℚ) (isScaled : ScaledBbox bbox scaled scaleX scaleY) :
      ScaledCall (.addObservation nowMs bbox result)
        (.addObservation nowMs scaled result)
  | flushFrame (nowMs : Nat) : ScaledCall (.flushFrame nowMs) (.flushFrame nowMs)
  | forceStop (nowMs : Nat) : ScaledCall (.forceStop nowMs) (.forceStop nowMs)

variable {settings : Settings ℚ} {bbox scaled : RoiBbox ℚ} {scaleX scaleY : ℚ}

theorem width_pos_of_usable (usable : unusable bbox = false) : 0 < bbox.width := by
  simp only [unusable, Bool.or_eq_false_iff, Bool.not_eq_false', lt_rat,
    decide_eq_true_eq] at usable
  exact usable.1.1.1.2

theorem height_pos_of_usable (usable : unusable bbox = false) :
    0 < bbox.height := by
  simp only [unusable, Bool.or_eq_false_iff, Bool.not_eq_false', lt_rat,
    decide_eq_true_eq] at usable
  exact usable.1.1.2

/-- Two ends of an interval with a length have the same quotients only for the
same divisor. -/
theorem eq_of_div_eq_div {start length first second : ℚ} (hasLength : 0 < length)
    (sameStart : start / first = start / second)
    (sameEnd : (start + length) / first = (start + length) / second) :
    first = second := by
  rw [add_div, add_div, sameStart] at sameEnd
  have sameLength : length / first = length / second := by linarith
  rw [div_eq_mul_inv, div_eq_mul_inv] at sameLength
  exact inv_injective (mul_left_cancel₀ hasLength.ne' sameLength)

theorem normalised_eq_byFrame (fixed : FixedFrame bbox) (classId : Int) :
    normalised bbox classId = normalisedByFrame bbox classId := by
  rw [normalised, normalisedByFrame, fixed.width, fixed.height]
  rfl

/-- The record of an accepted box is the box divided by the frame size of its
request exactly when that is 640 by 360. -/
theorem normalised_eq_byFrame_iff (usable : unusable bbox = false)
    (classId : Int) :
    normalised bbox classId = normalisedByFrame bbox classId ↔
      FixedFrame bbox := by
  constructor
  · intro same
    simp only [normalised, normalisedByFrame, DetectionRecord.mk.injEq] at same
    obtain ⟨left, top, right, bottom, -⟩ := same
    have sameWidth : (640 : ℚ) = bbox.frameWidth.toNat :=
      eq_of_div_eq_div (width_pos_of_usable usable) left right
    have sameHeight : (360 : ℚ) = bbox.frameHeight.toNat :=
      eq_of_div_eq_div (height_pos_of_usable usable) top bottom
    constructor
    · apply BitVec.eq_of_toNat_eq
      exact_mod_cast sameWidth.symm
    · apply BitVec.eq_of_toNat_eq
      exact_mod_cast sameHeight.symm
  · intro fixed
    exact normalised_eq_byFrame fixed classId

theorem unusable_eq_byFrame (fixed : FixedFrame bbox) :
    unusable bbox = unusableByFrame bbox := by
  rw [unusable, unusableByFrame, fixed.width, fixed.height]
  rfl

/-- A request that fails a check on objectness or size fails it whatever its frame. -/
theorem unusableByFrame_of_unusable (dropped : unusable bbox = true) :
    unusableByFrame bbox = true := by
  have wide : lt (lit 0 : ℚ) frameWidth = true := by decide
  have high : lt (lit 0 : ℚ) frameHeight = true := by decide
  simp only [unusable, wide, high, Bool.not_true, Bool.or_false] at dropped
  simp only [unusableByFrame, dropped, Bool.true_or]

theorem observe_eq_byFrame (fixed : unusable bbox = false → FixedFrame bbox)
    (result : RoiResult) :
    observe settings bbox result = observeByFrame settings bbox result := by
  cases dropped : unusable bbox with
  | true =>
      simp only [observe, observeByFrame, dropped, unusableByFrame_of_unusable dropped,
        if_true]
  | false =>
      simp only [observe, observeByFrame, unusable_eq_byFrame (fixed dropped),
        normalised_eq_byFrame (fixed dropped)]

/-- A part of a frame lies between zero and one in coordinates of the frame. -/
theorem inUnitInterval_div {value size : ℚ} (nonneg : 0 ≤ value)
    (inside : value ≤ size) (positive : 0 < size) :
    InUnitInterval (value / size) :=
  ⟨div_nonneg nonneg positive.le, (div_le_one positive).mpr inside⟩

theorem inUnitSquare_normalised (usable : unusable bbox = false)
    (fixed : FixedFrame bbox) (inside : InsideFrame bbox) (classId : Int) :
    InUnitSquare (normalised bbox classId) := by
  have width := width_pos_of_usable usable
  have height := height_pos_of_usable usable
  have frameWide : (0 : ℚ) < bbox.frameWidth.toNat := by
    rw [fixed.width]
    exact Nat.cast_pos.mpr (by decide)
  have frameHigh : (0 : ℚ) < bbox.frameHeight.toNat := by
    rw [fixed.height]
    exact Nat.cast_pos.mpr (by decide)
  obtain ⟨left, top, right, bottom⟩ := inside
  rw [normalised_eq_byFrame fixed]
  constructor
  · exact inUnitInterval_div left (by linarith) frameWide
  · exact inUnitInterval_div top (by linarith) frameHigh
  · exact inUnitInterval_div (by linarith) right frameWide
  · exact inUnitInterval_div (by linarith) bottom frameHigh

theorem normalisedByFrame_scaled
    (isScaled : ScaledBbox bbox scaled scaleX scaleY) (classId : Int) :
    normalisedByFrame scaled classId = normalisedByFrame bbox classId := by
  have nonzeroX := isScaled.positiveX.ne'
  have nonzeroY := isScaled.positiveY.ne'
  simp only [normalisedByFrame, isScaled.x, isScaled.y,
    isScaled.width, isScaled.height, isScaled.objectness, isScaled.frameWidth,
    isScaled.frameHeight, ← mul_add, mul_div_mul_left _ _ nonzeroX,
    mul_div_mul_left _ _ nonzeroY]

theorem unusableByFrame_scaled
    (isScaled : ScaledBbox bbox scaled scaleX scaleY) :
    unusableByFrame scaled = unusableByFrame bbox := by
  simp only [unusableByFrame, lt_rat, isScaled.width,
    isScaled.height, isScaled.objectness, isScaled.frameWidth,
    isScaled.frameHeight]
  have zero : (lit 0 : ℚ) = 0 := rfl
  simp only [zero, mul_pos_iff_of_pos_left isScaled.positiveX,
    mul_pos_iff_of_pos_left isScaled.positiveY]

/-- Dividing by the frame size of the request, an observation does not depend on
the resolution. -/
theorem observeByFrame_scaled
    (isScaled : ScaledBbox bbox scaled scaleX scaleY) (result : RoiResult) :
    observeByFrame settings scaled result =
      observeByFrame settings bbox result := by
  simp only [observeByFrame, unusableByFrame_scaled isScaled,
    normalisedByFrame_scaled isScaled]

theorem seen_byFrame_of_scaled {calls scaledCalls : List (Call ℚ)}
    (areScaled : List.Forall₂ ScaledCall calls scaledCalls) :
    scaledCalls.map (Call.seen (observeByFrame settings)) =
      calls.map (Call.seen (observeByFrame settings)) := by
  induction areScaled with
  | nil => rfl
  | @cons call scaledCall calls scaledCalls isScaled _ ih =>
      rw [List.map_cons, List.map_cons, ih]
      cases isScaled with
      | addObservation nowMs bbox scaled result scaleX scaleY isScaled =>
          rw [Call.seen, observeByFrame_scaled isScaled]
          rfl
      | flushFrame nowMs => rfl
      | forceStop nowMs => rfl

theorem seen_of_onFixedFrame {calls : List (Call ℚ)} (fixed : OnFixedFrame calls) :
    calls.map (Call.seen (observe settings)) =
      calls.map (Call.seen (observeByFrame settings)) := by
  apply List.map_congr_left
  intro call mem
  cases call with
  | addObservation nowMs bbox result =>
      exact congrArg SeenCall.observed
        (observe_eq_byFrame (fixed nowMs bbox result mem) result)
  | flushFrame nowMs => rfl
  | forceStop nowMs => rfl

/-- Divided by a fixed size, an accepted box has another record in every frame
of another size. -/
theorem normalised_scaled_eq_iff
    (isScaled : ScaledBbox bbox scaled scaleX scaleY)
    (usable : unusable bbox = false) (classId : Int) :
    normalised scaled classId = normalised bbox classId ↔
      scaleX = 1 ∧ scaleY = 1 := by
  have width := width_pos_of_usable usable
  have height := height_pos_of_usable usable
  have wide : (frameWidth : ℚ) ≠ 0 := by decide
  have high : (frameHeight : ℚ) ≠ 0 := by decide
  simp only [normalised, DetectionRecord.mk.injEq, isScaled.x, isScaled.y,
    isScaled.width, isScaled.height, isScaled.objectness, div_left_inj' wide,
    div_left_inj' high, and_true]
  constructor
  · rintro ⟨left, top, right, bottom⟩
    constructor
    · exact (mul_eq_right₀ width.ne').mp (by linarith)
    · exact (mul_eq_right₀ height.ne').mp (by linarith)
  · rintro ⟨rfl, rfl⟩
    simp

/-- The record of every accepted box is the box divided by the frame size of
its request. -/
def RecordsDividedByFrame : Prop :=
  ∀ (bbox : RoiBbox ℚ) (classId : Int), unusable bbox = false →
    0 < bbox.frameWidth.toNat → 0 < bbox.frameHeight.toNat →
      normalised bbox classId = normalisedByFrame bbox classId

/-- The same scene in another resolution gives the same observations and the
same published states. -/
def ResolutionIndependent (settings : Settings ℚ)
    (calls scaledCalls : List (Call ℚ)) : Prop :=
  List.Forall₂ ScaledCall calls scaledCalls →
    scaledCalls.map (Call.seen (observe settings)) =
        calls.map (Call.seen (observe settings)) ∧
      ∀ handle, published settings handle scaledCalls =
        published settings handle calls

/-- The frame size of a request is respected exactly when it is 640 by 360, and a scaled
box never has the record of the original.  On runs whose usable requests come from such
frames the bridge publishes what one that uses the frame size publishes for the same
scene in any resolution. -/
theorem frame_size_respected_iff (settings : Settings ℚ) :
    (∀ (bbox : RoiBbox ℚ) (classId : Int), unusable bbox = false →
      0 < bbox.frameWidth.toNat → 0 < bbox.frameHeight.toNat →
        (normalised bbox classId = normalisedByFrame bbox classId ↔
          FixedFrame bbox)) ∧
    (∀ (bbox : RoiBbox ℚ) (classId : Int), unusable bbox = false →
      FixedFrame bbox → InsideFrame bbox →
        InUnitSquare (normalised bbox classId)) ∧
    (∀ (bbox scaled : RoiBbox ℚ) (scaleX scaleY : ℚ) (classId : Int),
      unusable bbox = false → ScaledBbox bbox scaled scaleX scaleY →
        (normalised scaled classId = normalised bbox classId ↔
          scaleX = 1 ∧ scaleY = 1)) ∧
    (∀ calls scaledCalls : List (Call ℚ), OnFixedFrame calls →
      List.Forall₂ ScaledCall calls scaledCalls →
        calls.map (Call.seen (observe settings)) =
          scaledCalls.map (Call.seen (observeByFrame settings)) ∧
        ∀ handle, published settings handle calls =
          publishedByFrame settings handle scaledCalls) := by
  refine ⟨fun bbox classId usable _ _ => normalised_eq_byFrame_iff usable classId,
    fun bbox classId usable fixed inside =>
      inUnitSquare_normalised usable fixed inside classId,
    fun bbox scaled scaleX scaleY classId usable isScaled =>
      normalised_scaled_eq_iff isScaled usable classId, ?_⟩
  intro calls scaledCalls fixed areScaled
  have sameSeen : calls.map (Call.seen (observe settings)) =
      scaledCalls.map (Call.seen (observeByFrame settings)) :=
    (seen_of_onFixedFrame fixed).trans (seen_byFrame_of_scaled areScaled).symm
  refine ⟨sameSeen, fun handle => ?_⟩
  rw [published_eq_seen, sameSeen, publishedByFrame]

/-- The car close ahead as a camera with twice the resolution sees it. -/
def carBboxTwice : RoiBbox ℚ :=
  ⟨320, 216, 640, 432, 9 / 10, 1280, 720⟩

theorem carBbox_scaledTwice : ScaledBbox carBbox carBboxTwice 2 2 where
  positiveX := by decide
  positiveY := by decide
  x := by decide +kernel
  y := by decide +kernel
  width := by decide +kernel
  height := by decide +kernel
  objectness := rfl
  frameWidth := by decide +kernel
  frameHeight := by decide +kernel

/-- A box without objectness, of which the frame does not matter. -/
def faintBbox : RoiBbox ℚ :=
  ⟨10, 10, 20, 20, 1 / 10, 1280, 720⟩

/-- The bridge publishes for the car in a 640 by 360 frame what one that uses
the frame size publishes for the same car in a frame of twice the size. -/
theorem frame_size_respected_iff_carBbox :
    published {} {} [.addObservation 1000 faintBbox carResult,
        .addObservation 1000 carBbox carResult, .flushFrame 1000] =
      publishedByFrame {} {} [.addObservation 1000 faintBbox carResult,
        .addObservation 1000 carBboxTwice carResult, .flushFrame 1000] := by
  refine ((frame_size_respected_iff {}).2.2.2 _ _ ?_ ?_).2 {}
  · intro nowMs bbox result mem usable
    simp only [List.mem_cons, Call.addObservation.injEq, List.not_mem_nil,
      reduceCtorEq, or_false] at mem
    rcases mem with ⟨-, rfl, -⟩ | ⟨-, rfl, -⟩
    · exact absurd usable (by decide +kernel)
    · exact ⟨rfl, rfl⟩
  · exact .cons (.addObservation _ _ _ _ 1 1 ⟨by decide, by decide, (one_mul _).symm,
        (one_mul _).symm, (one_mul _).symm, (one_mul _).symm, rfl, (one_mul _).symm,
        (one_mul _).symm⟩)
      (.cons (.addObservation _ _ _ _ 2 2 carBbox_scaledTwice)
        (.cons (.flushFrame _) .nil))

/-- The record of the car in the larger frame is not its box divided by that
frame, and the bridge publishes `clear` for it and `stop` for the car in the
smaller frame. -/
theorem not_resolutionIndependent :
    ¬ RecordsDividedByFrame ∧
      ¬ ∀ (settings : Settings ℚ) (calls scaledCalls : List (Call ℚ)),
        ResolutionIndependent settings calls scaledCalls := by
  constructor
  · intro divided
    have same := divided carBboxTwice 1 (by decide +kernel) (by decide) (by decide)
    exact absurd (congrArg DetectionRecord.x2 same) (by decide +kernel)
  · intro independent
    have same := (independent {}
      [.addObservation 1000 carBbox carResult, .flushFrame 1000]
      [.addObservation 1000 carBboxTwice carResult, .flushFrame 1000]
      (.cons (.addObservation _ _ _ _ 2 2 carBbox_scaledTwice)
        (.cons (.flushFrame _) .nil))).2 {}
    exact absurd same (by decide +kernel)

end ByFrame

end Adas.Control.SafetyBridge
