import Adas.SafetyBridgeRuns
import Adas.SafetyJudgeOrder

/-!
# Where a stop comes from

Every `stop` that a flush publishes goes back to an observation that was stored
for its frame, or for an earlier frame whose hold still runs: a car, a person or
a failed classification that the judgement let through to `stop`.  The checks
of the judgement turn an observation away when a value is too small or outside
the zone, so a value that is not comparable is let through.  Without such
values the observation lies where a stop is called for.
-/

namespace Adas.Control.SafetyBridge

open FloatOps
open Safety

variable {F : Type} [FloatOps F]

section Statement

/-- The handle before the call at `index` of a run. -/
def handleAt (settings : Settings F) (calls : List (Call F)) (index : Nat) :
    Handle F :=
  (machine settings).stateAt calls index

/-- The call at `index` is a flush at `nowMs` that publishes the state. -/
def FlushesAt (settings : Settings F) (calls : List (Call F)) (index nowMs : Nat)
    (state : State) : Prop :=
  calls[index]? = some (.flushFrame nowMs) ∧
    (flushFrame settings (handleAt settings calls index) nowMs).2 = state

/-- The call at `obsIndex` stores its observation in the frame that is still
being collected at `index`. -/
structure StoredFor (settings : Settings F) (calls : List (Call F))
    (index obsIndex : Nat) (bbox : RoiBbox F) (result : RoiResult)
    (record : DetectionRecord F) : Prop where
  before : obsIndex < index
  call : ∃ nowMs, calls[obsIndex]? = some (.addObservation nowMs bbox result)
  room : (handleAt settings calls obsIndex).pending.items.length < kMaxDetections
  observed : observe settings bbox result = .detection record
  sameFrame : ∀ between, obsIndex < between → between < index →
    ∃ nowMs other answer,
      calls[between]? = some (.addObservation nowMs other answer)

/-- A failed classification, or a successful one as a car or a person. -/
def IsHazard (result : RoiResult) : Prop :=
  result.status ≠ roiStatusOk ∨ result.classId = 1 ∨ result.classId = 2

def centerX (bbox : RoiBbox F) : F :=
  ((normalised bbox 0).x1 + (normalised bbox 0).x2) * lit (1 / 2)

/-- The box has the objectness, the place and the height of a stop. -/
structure CallsForStop (settings : Settings F) (bbox : RoiBbox F) : Prop where
  objectness : le minObjectness bbox.objectness = true
  score : le settings.judgeConfig.minScore bbox.objectness = true
  left : le settings.judgeConfig.zoneXMin (centerX bbox) = true
  right : le (centerX bbox) settings.judgeConfig.zoneXMax = true
  bottom : le settings.judgeConfig.zoneYMin (normalised bbox 0).y2 = true
  height : le settings.judgeConfig.stopHeight
    ((normalised bbox 0).y2 - (normalised bbox 0).y1) = true

/-- A value that is not less than another is at least as large: neither of them
is a NaN. -/
def Comparable (first second : F) : Prop :=
  lt first second = false → le second first = true

/-- The values that the judgement compares with a threshold are comparable with
it. -/
structure BoxComparable (settings : Settings F) (bbox : RoiBbox F) : Prop where
  objectness : Comparable bbox.objectness minObjectness
  score : Comparable bbox.objectness settings.judgeConfig.minScore
  left : Comparable (centerX bbox) settings.judgeConfig.zoneXMin
  right : Comparable settings.judgeConfig.zoneXMax (centerX bbox)
  bottom : Comparable (normalised bbox 0).y2 settings.judgeConfig.zoneYMin

/-- No car, person or failed classification of the run that passes the checks on
objectness and size brings a NaN. -/
def HazardsComparable (settings : Settings F) (calls : List (Call F)) : Prop :=
  ∀ nowMs bbox result, .addObservation nowMs bbox result ∈ calls →
    unusable bbox = false → IsHazard result → BoxComparable settings bbox

/-- The frame flushed at `index` holds an observation that calls for a stop. -/
def HasStopWitness (settings : Settings F) (calls : List (Call F))
    (index : Nat) : Prop :=
  ∃ obsIndex bbox result record,
    StoredFor settings calls index obsIndex bbox result record ∧
      IsHazard result ∧ CallsForStop settings bbox

/-- The frame flushed at `index` holds an observation that is judged `stop`. -/
def HasStopRecord (settings : Settings F) (calls : List (Call F))
    (index : Nat) : Prop :=
  ∃ obsIndex bbox result record,
    StoredFor settings calls index obsIndex bbox result record ∧
      judgeOne record settings.judgeConfig = .stop

end Statement

section Judgement

variable {settings : Settings F} {bbox : RoiBbox F} {result : RoiResult}
variable {record : DetectionRecord F}

theorem objectness_of_usable (usable : unusable bbox = false) :
    lt bbox.objectness minObjectness = false := by
  simp only [unusable, Bool.or_eq_false_iff] at usable
  exact usable.1.1.1.1

/-- A stored observation has passed the checks, and its record is the box with
the class that was found, or with some class when none was. -/
theorem observe_detection
    (observed : observe settings bbox result = .detection record) :
    unusable bbox = false ∧
      ∃ classId, record = normalised bbox classId ∧
        (result.status = roiStatusOk → classId = result.classId.toInt) := by
  simp only [observe] at observed
  split_ifs at observed with useless failed
  · exact ⟨Bool.not_eq_true _ ▸ useless, _, (Observed.detection.inj observed).symm,
      fun ok => absurd ok failed⟩
  · exact ⟨Bool.not_eq_true _ ▸ useless, _, (Observed.detection.inj observed).symm,
      fun _ => rfl⟩

/-- The comparisons that a detection judged `stop` has passed. -/
theorem judgeOne_stop {config : JudgeConfig F}
    (stops : judgeOne record config = .stop) :
    lt record.score config.minScore = false ∧
      lt ((record.x1 + record.x2) * lit (1 / 2)) config.zoneXMin = false ∧
      lt config.zoneXMax ((record.x1 + record.x2) * lit (1 / 2)) = false ∧
      lt record.y2 config.zoneYMin = false ∧
      le config.stopHeight (record.y2 - record.y1) = true := by
  rw [judgeOne_eq_sizeLevel] at stops
  split_ifs at stops with passes
  rw [sizeLevel] at stops
  split_ifs at stops with _ _ offPath tall
  rw [Bool.not_eq_true', Bool.not_eq_false, onPath] at offPath
  simp only [eligible, Bool.and_eq_true, Bool.not_eq_true'] at passes offPath
  exact ⟨passes.1.1.2, offPath.1.1, offPath.1.2, offPath.2, tall⟩

/-- An observation that is judged `stop` is a hazard. -/
theorem isHazard_of_stop (observed : observe settings bbox result = .detection record)
    (stops : judgeOne record settings.judgeConfig = .stop) : IsHazard result := by
  by_cases ok : result.status = roiStatusOk
  · obtain ⟨-, classId, rfl, classIdEq⟩ := observe_detection observed
    right
    rw [classIdEq ok] at stops
    rcases classId_of_judgeOne_stop stops with car | person
    · exact Or.inl (BitVec.eq_of_toInt_eq car)
    · exact Or.inr (BitVec.eq_of_toInt_eq person)
  · exact Or.inl ok

/-- Without incomparable values it lies where a stop is called for. -/
theorem callsForStop_of_stop
    (observed : observe settings bbox result = .detection record)
    (stops : judgeOne record settings.judgeConfig = .stop)
    (comparable : BoxComparable settings bbox) : CallsForStop settings bbox := by
  obtain ⟨usable, classId, rfl, -⟩ := observe_detection observed
  obtain ⟨score, left, right, bottom, tall⟩ := judgeOne_stop stops
  exact {
    objectness := comparable.objectness (objectness_of_usable usable)
    score := comparable.score score
    left := comparable.left left
    right := comparable.right right
    bottom := comparable.bottom bottom
    height := tall }

end Judgement

section Runs

variable {settings : Settings F} {calls : List (Call F)} {index : Nat}

/-- What the bridge holds before the call at `index` goes back to the calls: the
buffer to the observations stored for this frame, a hold to a flush whose frame
held a record judged `stop`. -/
structure Provenance (settings : Settings F) (calls : List (Call F))
    (index : Nat) (handle : Handle F) : Prop where
  stored : ∀ record ∈ handle.pending.items, ∃ obsIndex bbox result,
    StoredFor settings calls index obsIndex bbox result record
  held : handle.latch.phase = .holding → ∃ flushIndex < index, ∃ flushedMs,
    calls[flushIndex]? = some (.flushFrame flushedMs) ∧
      handle.latch.holdUntilMs ≤ flushedMs + latchConfig.holdMs ∧
      HasStopRecord settings calls flushIndex

/-- Another observation leaves the frame open. -/
theorem StoredFor.later {obsIndex nowMs : Nat} {bbox other : RoiBbox F}
    {result answer : RoiResult} {record : DetectionRecord F}
    (stored : StoredFor settings calls index obsIndex bbox result record)
    (atIndex : calls[index]? = some (.addObservation nowMs other answer)) :
    StoredFor settings calls (index + 1) obsIndex bbox result record := by
  obtain ⟨before, call, room, observed, sameFrame⟩ := stored
  refine ⟨by omega, call, room, observed, fun between after inTime => ?_⟩
  rcases Nat.lt_succ_iff_lt_or_eq.mp inTime with earlier | rfl
  · exact sameFrame between after earlier
  · exact ⟨nowMs, other, answer, atIndex⟩

theorem Provenance.addObservation {nowMs : Nat} {bbox : RoiBbox F}
    {result : RoiResult}
    (provenance : Provenance settings calls index (handleAt settings calls index))
    (atIndex : calls[index]? = some (.addObservation nowMs bbox result)) :
    Provenance settings calls (index + 1)
      (addObservation settings (handleAt settings calls index) bbox result) := by
  have later : ∀ record ∈ (handleAt settings calls index).pending.items,
      ∃ obsIndex bbox result,
        StoredFor settings calls (index + 1) obsIndex bbox result record := by
    intro record mem
    obtain ⟨obsIndex, other, answer, stored⟩ := provenance.stored record mem
    exact ⟨obsIndex, other, answer, stored.later atIndex⟩
  refine ⟨?_, ?_⟩
  · rcases addObservation_cases settings (handleAt settings calls index) bbox
        result with same | flagged | ⟨record, room, observed, pushed⟩
    · rw [same]
      exact later
    · rw [flagged]
      exact later
    · rw [pushed]
      intro stored mem
      rcases List.mem_append.mp mem with old | new
      · exact later stored old
      · rw [List.mem_singleton.mp new]
        exact ⟨index, bbox, result, by omega, ⟨nowMs, atIndex⟩, room, observed,
          fun between after before => by omega⟩
  · rw [addObservation_latch]
    intro holding
    obtain ⟨flushIndex, before, flush⟩ := provenance.held holding
    exact ⟨flushIndex, by omega, flush⟩

/-- A flush that answers `stop` while no hold runs, or that opens an event, has
a frame with a record judged `stop`. -/
theorem Provenance.hasStopRecord {nowMs : Nat}
    (provenance : Provenance settings calls index (handleAt settings calls index))
    (starts : HazardLatch.StartsEvent latchConfig settings.judgeConfig
      (handleAt settings calls index).latch
      ⟨(handleAt settings calls index).pending.items, nowMs⟩) :
    HasStopRecord settings calls index := by
  obtain ⟨record, mem, stops, -⟩ := HazardLatch.update_of_startsEvent starts
  obtain ⟨obsIndex, bbox, result, stored⟩ := provenance.stored record mem
  exact ⟨obsIndex, bbox, result, record, stored, stops⟩

theorem Provenance.flushFrame {nowMs : Nat}
    (provenance : Provenance settings calls index (handleAt settings calls index))
    (atIndex : calls[index]? = some (.flushFrame nowMs)) :
    Provenance settings calls (index + 1)
      (flushFrame settings (handleAt settings calls index) nowMs).1 := by
  refine ⟨fun record mem => by simp [SafetyBridge.flushFrame] at mem, ?_⟩
  simp only [SafetyBridge.flushFrame]
  intro holding
  cases runs : (handleAt settings calls index).latch.holdRuns nowMs with
  | true =>
      rw [HazardLatch.update_of_holdRuns runs] at holding ⊢
      obtain ⟨flushIndex, before, flush⟩ := provenance.held holding
      exact ⟨flushIndex, by omega, flush⟩
  | false =>
      have starts : HazardLatch.StartsEvent latchConfig settings.judgeConfig
          (handleAt settings calls index).latch
          ⟨(handleAt settings calls index).pending.items, nowMs⟩ :=
        ⟨runs, holding⟩
      have record := provenance.hasStopRecord starts
      obtain ⟨_, -, -, -, result⟩ := HazardLatch.update_of_startsEvent starts
      rw [result]
      exact ⟨index, by omega, nowMs, atIndex, Nat.mod_le _ _, record⟩

theorem provenance_handleAt (settings : Settings F) (calls : List (Call F))
    {index : Nat} (inRun : index ≤ calls.length) :
    Provenance settings calls index (handleAt settings calls index) := by
  refine EventMachine.stateAt_induction
    (fun index handle => Provenance settings calls index handle)
    ⟨by simp [machine], by simp [machine]⟩ ?_ (Nat.zero_le index) inRun
  intro index inRun _ provenance
  have atIndex : calls[index]? = some calls[index] :=
    List.getElem?_eq_getElem inRun
  generalize calls[index] = call at atIndex
  cases call with
  | addObservation nowMs bbox result => exact provenance.addObservation atIndex
  | flushFrame nowMs => exact provenance.flushFrame atIndex
  | forceStop nowMs =>
      refine ⟨by simp [step, forceStop], fun holding => ?_⟩
      obtain ⟨flushIndex, before, flush⟩ := provenance.held holding
      exact ⟨flushIndex, by omega, flush⟩

/-- The background and the sign raise no state to `stop`. -/
theorem update_of_flushFrame_stop {handle : Handle F} {nowMs : Nat}
    (stops : (flushFrame settings handle nowMs).2 = .stop) :
    (handle.latch.update latchConfig settings.judgeConfig
      ⟨handle.pending.items, nowMs⟩).2 = .stop := by
  simp only [SafetyBridge.flushFrame] at stops
  split_ifs at stops <;> exact stops

/-- A published `stop` comes from a hold that runs or from the frame itself. -/
theorem holdRuns_or_startsEvent {handle : Handle F} {nowMs : Nat}
    (stops : (flushFrame settings handle nowMs).2 = .stop) :
    handle.latch.holdRuns nowMs = true ∨
      HazardLatch.StartsEvent latchConfig settings.judgeConfig handle.latch
        ⟨handle.pending.items, nowMs⟩ := by
  have answers := update_of_flushFrame_stop stops
  cases runs : handle.latch.holdRuns nowMs with
  | true => exact Or.inl rfl
  | false =>
      right
      by_contra quiet
      rw [HazardLatch.update_of_quiet runs quiet] at answers
      exact quiet (HazardLatch.startsEvent_iff.mpr ⟨runs, answers⟩)

end Runs

/-- Every `stop` published at `nowMs` has a witness: this flush, or an earlier
one whose hold still runs, has a frame with a car, a person or a failed
classification that calls for a stop. -/
def StopsHaveWitness (settings : Settings F) (calls : List (Call F)) : Prop :=
  ∀ index nowMs, FlushesAt settings calls index nowMs .stop →
    ∃ flushIndex flushedMs, flushIndex ≤ index ∧
      calls[flushIndex]? = some (.flushFrame flushedMs) ∧
      (flushIndex = index ∨ nowMs < flushedMs + latchConfig.holdMs) ∧
      ((calls.Pairwise fun a b => a.nowMs ≤ b.nowMs) → flushedMs ≤ nowMs) ∧
      HasStopWitness settings calls flushIndex

/-- A flush whose frame holds neither a car nor a person nor a failed
classification opens no event, and publishes `stop` only while a hold runs. -/
def HarmlessFramesPass (settings : Settings F) (calls : List (Call F)) : Prop :=
  ∀ index nowMs, calls[index]? = some (.flushFrame nowMs) →
    (∀ obsIndex bbox result record,
      StoredFor settings calls index obsIndex bbox result record →
        ¬ IsHazard result) →
    ¬ HazardLatch.StartsEvent latchConfig settings.judgeConfig
        (handleAt settings calls index).latch
        ⟨(handleAt settings calls index).pending.items, nowMs⟩ ∧
      (FlushesAt settings calls index nowMs .stop →
        (handleAt settings calls index).latch.holdRuns nowMs = true)

variable {settings : Settings F} {calls : List (Call F)}

theorem HasStopRecord.witness {index : Nat}
    (record : HasStopRecord settings calls index)
    (comparable : HazardsComparable settings calls) :
    HasStopWitness settings calls index := by
  obtain ⟨obsIndex, bbox, result, record, stored, stops⟩ := record
  obtain ⟨nowMs, atIndex⟩ := stored.call
  have hazard := isHazard_of_stop stored.observed stops
  have usable := (observe_detection stored.observed).1
  exact ⟨obsIndex, bbox, result, record, stored, hazard,
    callsForStop_of_stop stored.observed stops
      (comparable nowMs bbox result (List.mem_of_getElem? atIndex) usable hazard)⟩

omit [FloatOps F] in
theorem nowMs_le_of_pairwise {first second : Nat} {earlier later : Call F}
    (ordered : calls.Pairwise fun a b => a.nowMs ≤ b.nowMs)
    (before : first < second) (atFirst : calls[first]? = some earlier)
    (atSecond : calls[second]? = some later) : earlier.nowMs ≤ later.nowMs := by
  obtain ⟨firstInRun, rfl⟩ := List.getElem?_eq_some_iff.mp atFirst
  obtain ⟨secondInRun, rfl⟩ := List.getElem?_eq_some_iff.mp atSecond
  exact List.pairwise_iff_getElem.mp ordered first second firstInRun secondInRun
    before

/-- Harmless frames pass in every run, and in every run whose hazards are
comparable with the thresholds every `stop` has a witness. -/
theorem stops_have_witness (settings : Settings F) (calls : List (Call F)) :
    (HazardsComparable settings calls → StopsHaveWitness settings calls) ∧
      HarmlessFramesPass settings calls := by
  constructor
  · rintro comparable index nowMs ⟨atIndex, stops⟩
    have inRun := (List.getElem?_eq_some_iff.mp atIndex).1
    have provenance := provenance_handleAt settings calls inRun.le
    rcases holdRuns_or_startsEvent stops with runs | starts
    · obtain ⟨holding, notOver⟩ := HazardLatch.holdRuns_iff.mp runs
      obtain ⟨flushIndex, before, flushedMs, atFlush, deadline, record⟩ :=
        provenance.held holding
      exact ⟨flushIndex, flushedMs, before.le, atFlush,
        Or.inr (notOver.trans_le deadline),
        fun ordered => nowMs_le_of_pairwise ordered before atFlush atIndex,
        record.witness comparable⟩
    · exact ⟨index, nowMs, le_rfl, atIndex, Or.inl rfl, fun _ => le_rfl,
        (provenance.hasStopRecord starts).witness comparable⟩
  · intro index nowMs atIndex harmless
    have inRun := (List.getElem?_eq_some_iff.mp atIndex).1
    have provenance := provenance_handleAt settings calls inRun.le
    have noEvent : ¬ HazardLatch.StartsEvent latchConfig settings.judgeConfig
        (handleAt settings calls index).latch
        ⟨(handleAt settings calls index).pending.items, nowMs⟩ := by
      intro starts
      obtain ⟨obsIndex, bbox, result, record, stored, stops⟩ :=
        provenance.hasStopRecord starts
      exact harmless obsIndex bbox result record stored
        (isHazard_of_stop stored.observed stops)
    exact ⟨noEvent, fun flushes =>
      (holdRuns_or_startsEvent flushes.2).resolve_right noEvent⟩

/-- A car in the middle of the path whose place along the frame is a NaN. -/
def nanCar : List (Call RatNaN) :=
  [.addObservation 1000
      ⟨.nan, .val 108, .val 320, .val 216, .val (9 / 10), 640, 360⟩
      ⟨roiStatusOk, 1, 900000⟩,
    .flushFrame 1001]

/-- The checks let a centre that is not comparable pass: the car stops the
robot although its centre is not inside the zone. -/
theorem not_stopsHaveWitness :
    FlushesAt {} nanCar 1 1001 .stop ∧ ¬ StopsHaveWitness {} nanCar := by
  have flushes : FlushesAt {} nanCar 1 1001 .stop := ⟨rfl, by decide +kernel⟩
  refine ⟨flushes, fun witnessed => ?_⟩
  obtain ⟨flushIndex, flushedMs, -, -, -, -, obsIndex, bbox, result, record,
    stored, -, callsForStop⟩ := witnessed 1 1001 flushes
  obtain ⟨nowMs, atIndex⟩ := stored.call
  have member := List.mem_of_getElem? atIndex
  have isNaN : centerX bbox = .nan := by
    simp only [nanCar, List.mem_cons, Call.addObservation.injEq, reduceCtorEq,
      List.not_mem_nil, or_false] at member
    obtain ⟨-, rfl, -⟩ := member
    rfl
  have inZone := callsForStop.left
  rw [isNaN] at inZone
  exact absurd inZone (by decide)

/-- The same car in exact arithmetic. -/
def plainCar : List (Call ℚ) :=
  [.addObservation 1000 ⟨160, 108, 320, 216, 9 / 10, 640, 360⟩
      ⟨roiStatusOk, 1, 900000⟩,
    .flushFrame 1001, .flushFrame 2000]

/-- Rationals are always comparable. -/
theorem comparable_rat (first second : ℚ) : Comparable first second := by
  simp [Comparable]

theorem stops_have_witness_plainCar :
    ∃ flushIndex flushedMs, flushIndex ≤ 2 ∧
      plainCar[flushIndex]? = some (.flushFrame flushedMs) ∧
      (flushIndex = 2 ∨ 2000 < flushedMs + 3000) ∧
      HasStopWitness {} plainCar flushIndex := by
  obtain ⟨flushIndex, flushedMs, before, atFlush, held, -, witness⟩ :=
    (stops_have_witness {} plainCar).1 (fun _ _ _ _ _ _ =>
      ⟨comparable_rat _ _, comparable_rat _ _, comparable_rat _ _,
        comparable_rat _ _, comparable_rat _ _⟩) 2 2000 ⟨rfl, by decide +kernel⟩
  exact ⟨flushIndex, flushedMs, before, atFlush, held, witness⟩

end Adas.Control.SafetyBridge
