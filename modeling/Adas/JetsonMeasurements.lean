import Adas.InsertionDict
import Adas.FrameServing
import Mathlib.Algebra.BigOperators.Group.List.Basic

/-!
# Two reports on one run

The client keeps latency samples for its own summary and writes a line for every
region to a CSV file, which a script reads later.  A value that belongs to a frame
stands in every line of the frame, and a frame without regions has a line with empty
cells, so the script counts such values once for each frame number.  Whatever a run
looks like, both have the same samples for every stage, and count the same frames.
-/

namespace Adas

namespace SummarizeMeasurement

open JetsonRoiClient (CsvRow)

/-- The columns of the Jetson's file that hold times. -/
inductive Column where
  | captureUs
  | proposeUs
  | cropUs
  | rttUs
  | publishUs
  | frameUs
  deriving DecidableEq, Repr

/-- `FRAME_LEVEL_COLUMNS`. -/
def Column.isFrameLevel : Column → Bool
  | .captureUs | .proposeUs | .publishUs | .frameUs => true
  | .cropUs | .rttUs => false

/-- The number in a cell; an empty cell has none. -/
def cell (row : CsvRow) : Column → Option Int
  | .captureUs => some row.captureUs
  | .proposeUs => some row.proposeUs
  | .cropUs => row.roi.map JetsonRoiClient.RoiRecord.cropUs
  | .rttUs => row.roi.map JetsonRoiClient.RoiRecord.rttUs
  | .publishUs => some row.publishUs
  | .frameUs => some row.frameUs

/-- `seen` after some rows.  Rows with an empty cell are passed by. -/
def seen (column : Column) (rows : List CsvRow) : List (BitVec 32 × Int) :=
  InsertionDict.ofRows Prod.fst Prod.snd []
    (rows.filterMap fun row => (cell row column).map fun value => (row.frameId, value))

/-- The values that `series` sorts, in microseconds. -/
def values (column : Column) (rows : List CsvRow) : List Int :=
  if column.isFrameLevel then (seen column rows).map Prod.snd
  else rows.filterMap fun row => cell row column

section Values

variable {column : Column} {rows : List CsvRow}

theorem values_frameLevel (isFrameLevel : column.isFrameLevel = true) :
    values column rows = (seen column rows).map Prod.snd :=
  if_pos isFrameLevel

theorem values_region (isRegion : column.isFrameLevel = false) :
    values column rows = rows.filterMap fun row => cell row column :=
  if_neg (Bool.eq_false_iff.mp isRegion)

end Values

/-- `frame_stats`: the number of frames and their time in milliseconds. -/
def frameStats (rows : List CsvRow) : Option (Nat × ℚ) :=
  let frames := seen .frameUs rows
  if frames.isEmpty then none
  else some (frames.length, (frames.map fun frame => Metrics.toMs frame.2).sum)

end SummarizeMeasurement

namespace JetsonRoiClient

open SummarizeMeasurement (Column cell seen values values_frameLevel values_region
  frameStats)

/-- The samples that the client keeps for a column. -/
def Metrics.samples (metrics : Metrics) : Column → List Int
  | .captureUs => metrics.capture.samples
  | .proposeUs => metrics.propose.samples
  | .cropUs => metrics.crop.samples
  | .rttUs => metrics.rtt.samples
  | .publishUs => metrics.publish.samples
  | .frameUs => metrics.frame.samples

/-- What the loop over the candidates does to the measurements: each record adds its
times, and nothing else changes. -/
structure Measures (start : Metrics) (loop : RoiLoop) : Prop where
  frameLevel : ∀ column : Column, column.isFrameLevel = true →
    loop.metrics.samples column = start.samples column
  crop : loop.metrics.samples .cropUs =
    start.samples .cropUs ++ loop.records.map RoiRecord.cropUs
  rtt : loop.metrics.samples .rttUs =
    start.samples .rttUs ++ loop.records.map RoiRecord.rttUs
  frames : loop.metrics.frames = start.frames
  rois : loop.metrics.rois = start.rois + loop.records.length

variable {start : Metrics} {loop : RoiLoop}

theorem Measures.measure (measures : Measures start loop) (roi : RoiTurn) :
    Measures start (loop.measure roi) where
  frameLevel := by
    intro column isFrameLevel
    rw [← measures.frameLevel column isFrameLevel]
    cases column with
    | cropUs => cases isFrameLevel
    | rttUs => cases isFrameLevel
    | _ => rfl
  crop := by
    have before := measures.crop
    simp only [Metrics.samples] at before
    simp [Metrics.samples, RoiLoop.measure, Adas.Metrics.LatencyStats.add, before]
  rtt := by
    have before := measures.rtt
    simp only [Metrics.samples] at before
    simp [Metrics.samples, RoiLoop.measure, Adas.Metrics.LatencyStats.add, before]
  frames := measures.frames
  rois := by
    rw [RoiLoop.measure, measures.rois, List.length_append, Nat.add_assoc]
    rfl

theorem Measures.roiStep (measures : Measures start loop) (frame : Roi.Mat)
    (counted heartbeat : Bool) (candidate : Roi.RoiCandidate) (roi : RoiTurn) :
    Measures start (roiStep frame counted heartbeat loop candidate roi) := by
  rw [JetsonRoiClient.roiStep]
  cases request frame candidate with
  | none => exact measures
  | some prepared =>
      have asked : Measures start { loop with requests := loop.requests ++ [prepared] } :=
        { measures with }
      cases counted <;> cases heartbeat
      · exact { asked with }
      · exact asked
      · exact { asked.measure roi with }
      · exact asked

theorem Measures.roiLoop (measures : Measures start loop) (frame : Roi.Mat)
    (counted heartbeat : Bool) (rois : Nat → RoiTurn) (place : Nat)
    (candidates : List Roi.RoiCandidate) :
    Measures start (roiLoop frame counted heartbeat rois place loop candidates) := by
  induction candidates generalizing place loop with
  | nil => exact measures
  | cons candidate candidates ih =>
      exact ih (measures.roiStep frame counted heartbeat candidate (rois place)) (place + 1)

/-- Before the measurements begin nothing is recorded. -/
theorem roiLoop_records (frame : Roi.Mat) (heartbeat : Bool) (rois : Nat → RoiTurn)
    (place : Nat) (loop : RoiLoop) (candidates : List Roi.RoiCandidate) :
    (roiLoop frame false heartbeat rois place loop candidates).records = loop.records := by
  induction candidates generalizing place loop with
  | nil => rfl
  | cons candidate candidates ih =>
      rw [JetsonRoiClient.roiLoop, ih, JetsonRoiClient.roiStep]
      cases request frame candidate with
      | none => rfl
      | some prepared => cases heartbeat <;> rfl

section Frames

variable {settings : Settings} {state : State} {turn : FrameTurn}

/-- The value of a frame in a column. -/
def frameValue (turn : FrameTurn) : Column → Int
  | .captureUs => elapsedUs turn.begun turn.captured
  | .proposeUs => elapsedUs turn.captured turn.proposed
  | .publishUs => elapsedUs turn.publishing turn.ended
  | .frameUs => elapsedUs turn.begun turn.ended
  | .cropUs | .rttUs => 0

theorem csvRows_ne_nil (frameId : BitVec 32) (turn : FrameTurn)
    (records : List RoiRecord) : csvRows frameId turn records ≠ [] := by
  cases records with
  | nil => exact List.cons_ne_nil _ _
  | cons record records => exact List.cons_ne_nil _ _

/-- Every line of a frame has the frame's number and the frame's values. -/
theorem mem_csvRows {frameId : BitVec 32} {records : List RoiRecord} {row : CsvRow}
    (isRow : row ∈ csvRows frameId turn records) :
    row.frameId = frameId ∧ ∀ column : Column, column.isFrameLevel = true →
      cell row column = some (frameValue turn column) := by
  obtain ⟨index, roi, rfl⟩ : ∃ index roi, row =
      { frameId := frameId
        roiIndex := index
        roiCount := records.length
        captureUs := elapsedUs turn.begun turn.captured
        proposeUs := elapsedUs turn.captured turn.proposed
        roi := roi
        publishUs := elapsedUs turn.publishing turn.ended
        frameUs := elapsedUs turn.begun turn.ended } := by
    rw [csvRows] at isRow
    split_ifs at isRow
    · exact ⟨_, _, List.mem_singleton.mp isRow⟩
    · obtain ⟨record, -, rfl⟩ := List.mem_map.mp isRow
      exact ⟨_, _, rfl⟩
  refine ⟨rfl, fun column isFrameLevel => ?_⟩
  cases column with
  | cropUs => cases isFrameLevel
  | rttUs => cases isFrameLevel
  | _ => rfl

/-- The lines of a frame have the times of its records. -/
theorem filterMap_csvRows (frameId : BitVec 32) (turn : FrameTurn)
    (records : List RoiRecord) (time : RoiRecord → Int) :
    (csvRows frameId turn records).filterMap (fun row => row.roi.map time) =
      records.map time := by
  cases records with
  | nil => rfl
  | cons record records =>
      rw [csvRows, if_neg (by simp), List.filterMap_map]
      exact congrFun List.filterMap_eq_map' _

/-- A frame with a new number becomes one entry. -/
theorem seen_csvRows {column : Column} (isFrameLevel : column.isFrameLevel = true)
    {rows : List CsvRow} {frameId : BitVec 32} (records : List RoiRecord)
    (new : frameId ∉ (seen column rows).map Prod.fst) :
    seen column (rows ++ csvRows frameId turn records) =
      seen column rows ++ [(frameId, frameValue turn column)] := by
  rw [seen, List.filterMap_append, InsertionDict.ofRows_append]
  apply InsertionDict.ofRows_group new
  · intro nothing
    obtain ⟨row, isRow⟩ := List.exists_mem_of_ne_nil _ (csvRows_ne_nil frameId turn records)
    have here := List.filterMap_eq_nil_iff.mp nothing row isRow
    rw [(mem_csvRows isRow).2 column isFrameLevel] at here
    cases here
  · intro entry isEntry
    obtain ⟨row, isRow, isCell⟩ := List.mem_filterMap.mp isEntry
    obtain ⟨number, value⟩ := mem_csvRows isRow
    rw [value column isFrameLevel, number] at isCell
    obtain rfl := Option.some.inj isCell
    exact ⟨rfl, rfl⟩

/-- The file and the measurements tell the same after `count` frames. -/
structure Recorded (count : Nat) (state : State) : Prop where
  number : state.frameId = BitVec.ofNat 32 count
  sameValues : ∀ column, values column state.csv = state.metrics.samples column
  earlier : ∀ column : Column, column.isFrameLevel = true →
    ∀ number ∈ (seen column state.csv).map Prod.fst,
      ∃ place < count, number = BitVec.ofNat 32 place
  frames : state.metrics.frames = (state.metrics.samples .frameUs).length
  rois : state.metrics.rois = (state.metrics.samples .rttUs).length

theorem samples_frameLevel (turn : FrameTurn) (loop : RoiLoop) {column : Column}
    (isFrameLevel : column.isFrameLevel = true) :
    (measureFrame turn loop).samples column =
      loop.metrics.samples column ++ [frameValue turn column] := by
  cases column with
  | cropUs => cases isFrameLevel
  | rttUs => cases isFrameLevel
  | _ => rfl

theorem samples_region (turn : FrameTurn) (loop : RoiLoop) {column : Column}
    (isRegion : column.isFrameLevel = false) :
    (measureFrame turn loop).samples column = loop.metrics.samples column := by
  cases column with
  | cropUs => rfl
  | rttUs => rfl
  | _ => cases isRegion

theorem Recorded.init : Recorded 0 ({} : State) where
  number := rfl
  sameValues := by
    intro column
    cases column <;> rfl
  earlier := by
    intro column _ number isNumber
    cases isNumber
  frames := rfl
  rois := rfl

theorem ofNat_ne {place count : Nat} (before : place < count) (small : count < 2 ^ 32) :
    BitVec.ofNat 32 count ≠ BitVec.ofNat 32 place := by
  intro same
  have values := congrArg BitVec.toNat same
  simp only [BitVec.toNat_ofNat] at values
  omega

theorem Recorded.next_number {count : Nat} (recorded : Recorded count state) :
    state.frameId + 1 = BitVec.ofNat 32 (count + 1) := by
  rw [recorded.number, BitVec.ofNat_add]
  rfl

theorem measures_sendAll (settings : Settings) (state : State) (turn : FrameTurn)
    (candidates : List Roi.RoiCandidate) :
    Measures state.metrics (sendAll settings state turn candidates) := by
  have start : Measures state.metrics { metrics := state.metrics } :=
    ⟨fun _ _ => rfl, (List.append_nil _).symm, (List.append_nil _).symm, rfl, rfl⟩
  exact start.roiLoop _ _ _ _ _ _

/-- A frame of the warm-up leaves no trace. -/
theorem Recorded.process_uncounted {count : Nat} (recorded : Recorded count state)
    (candidates : List Roi.RoiCandidate) (warmUp : isCounted settings state.frameId = false) :
    Recorded (count + 1) (process settings state turn candidates).1 := by
  have measures := measures_sendAll settings state turn candidates
  have nothing : (sendAll settings state turn candidates).records = [] := by
    rw [sendAll, warmUp]
    exact roiLoop_records _ _ _ _ _ _
  have same : ∀ column, (sendAll settings state turn candidates).metrics.samples column =
      state.metrics.samples column := by
    intro column
    cases column with
    | cropUs => rw [measures.crop, nothing, List.map_nil, List.append_nil]
    | rttUs => rw [measures.rtt, nothing, List.map_nil, List.append_nil]
    | _ => exact measures.frameLevel _ rfl
  have frames := measures.frames
  have rois := measures.rois
  rw [nothing, List.length_nil, Nat.add_zero] at rois
  rw [process, warmUp]
  constructor
  · exact recorded.next_number
  · intro column
    exact (recorded.sameValues column).trans (same column).symm
  · intro column isFrameLevel number isNumber
    obtain ⟨place, before, isPlace⟩ :=
      recorded.earlier column isFrameLevel number isNumber
    exact ⟨place, before.trans (Nat.lt_succ_self count), isPlace⟩
  · exact (frames.trans recorded.frames).trans (congrArg List.length (same .frameUs)).symm
  · exact (rois.trans recorded.rois).trans (congrArg List.length (same .rttUs)).symm

/-- A frame that counts adds to both what it has measured. -/
theorem Recorded.process_counted {count : Nat} (recorded : Recorded count state)
    (candidates : List Roi.RoiCandidate) (csvOpen : settings.csvOpen = true)
    (small : count < 2 ^ 32) (counts : isCounted settings state.frameId = true) :
    Recorded (count + 1) (process settings state turn candidates).1 := by
  have measures := measures_sendAll settings state turn candidates
  have new : ∀ column : Column, column.isFrameLevel = true →
      state.frameId ∉ (seen column state.csv).map Prod.fst := by
    intro column isFrameLevel isNumber
    obtain ⟨place, before, isPlace⟩ :=
      recorded.earlier column isFrameLevel state.frameId isNumber
    rw [recorded.number] at isPlace
    exact ofNat_ne before small isPlace
  have isCsv : (process settings state turn candidates).1.csv = state.csv ++
      csvRows state.frameId turn (sendAll settings state turn candidates).records := by
    rw [process, counts, csvOpen]
    rfl
  have isMetrics : (process settings state turn candidates).1.metrics =
      measureFrame turn (sendAll settings state turn candidates) := by
    rw [process, counts]
    rfl
  constructor
  · exact recorded.next_number
  · intro column
    have before := recorded.sameValues column
    rw [isCsv, isMetrics]
    cases isFrameLevel : column.isFrameLevel with
    | true =>
        rw [values_frameLevel isFrameLevel] at before ⊢
        rw [samples_frameLevel _ _ isFrameLevel, seen_csvRows isFrameLevel _
          (new column isFrameLevel), List.map_append, before,
          measures.frameLevel column isFrameLevel]
        rfl
    | false =>
        rw [values_region isFrameLevel] at before ⊢
        rw [samples_region _ _ isFrameLevel, List.filterMap_append, before]
        cases column with
        | cropUs =>
            rw [measures.crop]
            exact congrArg _ (filterMap_csvRows _ _ _ RoiRecord.cropUs)
        | rttUs =>
            rw [measures.rtt]
            exact congrArg _ (filterMap_csvRows _ _ _ RoiRecord.rttUs)
        | _ => cases isFrameLevel
  · intro column isFrameLevel number isNumber
    rw [isCsv, seen_csvRows isFrameLevel _ (new column isFrameLevel), List.map_append,
      List.mem_append] at isNumber
    rcases isNumber with isEarlier | isNew
    · obtain ⟨place, before, isPlace⟩ :=
        recorded.earlier column isFrameLevel number isEarlier
      exact ⟨place, before.trans (Nat.lt_succ_self count), isPlace⟩
    · exact ⟨count, Nat.lt_succ_self count,
        (List.mem_singleton.mp isNew).trans recorded.number⟩
  · rw [isMetrics, samples_frameLevel _ _ rfl, List.length_append,
      measures.frameLevel .frameUs rfl, ← recorded.frames, ← measures.frames]
    rfl
  · rw [isMetrics, samples_region _ _ rfl, measures.rtt,
      List.length_append, List.length_map, ← recorded.rois, ← measures.rois]
    rfl

/-- A turn that is not processed changes nothing that is recorded. -/
theorem step_unrecorded (settings : Settings) (state : State) (turn : Turn) :
    ((step settings state turn).1.frameId = state.frameId ∧
      (step settings state turn).1.csv = state.csv ∧
      (step settings state turn).1.metrics = state.metrics) ∨
    ∃ frame candidates,
      step settings state turn = process settings state frame candidates := by
  cases running : state.running with
  | false =>
      left
      simp [step, running]
  | true =>
      cases turn with
      | frame frame =>
          cases areFound : found settings state.frameId frame with
          | none =>
              left
              simp [step, turnStep, running, areFound]
          | some candidates =>
              right
              exact ⟨frame, candidates, by simp [step, turnStep, running, areFound]⟩
      | _ =>
          left
          simp [step, turnStep, running]

theorem Recorded.step {count : Nat} (recorded : Recorded count state) (turn : Turn)
    (csvOpen : settings.csvOpen = true) (small : count < 2 ^ 32) :
    ∃ next ≤ count + 1, Recorded next (step settings state turn).1 := by
  rcases step_unrecorded settings state turn with
    ⟨sameNumber, sameCsv, sameMetrics⟩ | ⟨frame, candidates, isStep⟩
  · refine ⟨count, Nat.le_succ count, ?_⟩
    constructor
    · rw [sameNumber]
      exact recorded.number
    · rw [sameCsv, sameMetrics]
      exact recorded.sameValues
    · rw [sameCsv]
      exact recorded.earlier
    · rw [sameMetrics]
      exact recorded.frames
    · rw [sameMetrics]
      exact recorded.rois
  · rw [isStep]
    cases counts : isCounted settings state.frameId with
    | true =>
        exact ⟨count + 1, le_rfl, recorded.process_counted candidates csvOpen small counts⟩
    | false => exact ⟨count + 1, le_rfl, recorded.process_uncounted candidates counts⟩

/-- The state after some turns. -/
def stateAfter (settings : Settings) (turns : List Turn) : State :=
  (machine settings).runFrom (machine settings).init turns

theorem recorded_run (csvOpen : settings.csvOpen = true) (turns : List Turn)
    (unwrapped : turns.length ≤ 2 ^ 32) :
    ∃ count ≤ turns.length, Recorded count (stateAfter settings turns) := by
  induction turns using List.reverseRecOn with
  | nil => exact ⟨0, le_rfl, Recorded.init⟩
  | append_singleton turns turn ih =>
      rw [List.length_append, List.length_singleton] at unwrapped
      obtain ⟨count, bounded, recorded⟩ := ih ((Nat.le_succ _).trans unwrapped)
      obtain ⟨next, nextBounded, stillRecorded⟩ :=
        recorded.step turn csvOpen (bounded.trans_lt unwrapped)
      rw [stateAfter, EventMachine.runFrom_append, List.length_append]
      exact ⟨next, nextBounded.trans (Nat.succ_le_succ bounded), stillRecorded⟩

end Frames

section Reports

variable {settings : Settings}

/-- Whatever the samples are, both programs compute the same percentile. -/
theorem percentile_eq (samples : List Int) (ratio : ℚ) :
    SummarizeMeasurement.percentile (SummarizeMeasurement.series samples) ratio =
      ((⟨samples⟩ : Adas.Metrics.LatencyStats).percentileMs ratio).2 := by
  rcases eq_or_ne samples [] with rfl | nonempty
  · simp [SummarizeMeasurement.percentile, SummarizeMeasurement.series,
      Adas.Metrics.LatencyStats.sort, Adas.Metrics.LatencyStats.percentileMs]
  · rw [Adas.Metrics.LatencyStats.percentile_series nonempty,
      Adas.Metrics.LatencyStats.percentileMs_eq _ nonempty]

/-- The summary of the client and that of the script agree.  After every run the file
has, for every stage, the samples that the client has kept, in the same order, so that
all percentiles are equal; and the script counts the client's frames and adds up their
times, although the file has a line for every region. -/
theorem reports_agree (csvOpen : settings.csvOpen = true) (turns : List Turn)
    (unwrapped : turns.length ≤ 2 ^ 32) :
    (∀ column, values column (stateAfter settings turns).csv =
      (stateAfter settings turns).metrics.samples column) ∧
    (∀ column ratio,
      SummarizeMeasurement.percentile
          (SummarizeMeasurement.series (values column (stateAfter settings turns).csv)) ratio =
        ((⟨(stateAfter settings turns).metrics.samples column⟩ :
          Adas.Metrics.LatencyStats).percentileMs ratio).2) ∧
    (stateAfter settings turns).metrics.rois =
      (values .rttUs (stateAfter settings turns).csv).length ∧
    frameStats (stateAfter settings turns).csv =
      if (stateAfter settings turns).metrics.frames = 0 then none
      else some ((stateAfter settings turns).metrics.frames,
        ((stateAfter settings turns).metrics.frame.samples.map Adas.Metrics.toMs).sum) := by
  obtain ⟨count, -, recorded⟩ := recorded_run csvOpen turns unwrapped
  have sameFrames : (seen .frameUs (stateAfter settings turns).csv).map Prod.snd =
      (stateAfter settings turns).metrics.frame.samples := recorded.sameValues .frameUs
  have frames : (stateAfter settings turns).metrics.frames =
      (seen .frameUs (stateAfter settings turns).csv).length := by
    rw [recorded.frames, ← List.length_map Prod.snd, sameFrames]
    rfl
  refine ⟨recorded.sameValues, ?_, ?_, ?_⟩
  · intro column ratio
    rw [recorded.sameValues column, percentile_eq]
  · rw [recorded.rois, recorded.sameValues]
  · rw [frameStats, frames, ← sameFrames, List.map_map]
    simp only [List.isEmpty_iff_length_eq_zero]
    rfl

/-- Whole frames are sent, and the first one is the warm-up. -/
def wholeFrames : Settings where
  fullFrameMode := true
  warmupFrames := 1
  proposer := ⟨{}, Roi.ProposerConfig.default_valid⟩

theorem reports_agree_wholeFrames :
    values .rttUs (stateAfter wholeFrames FrameServing.road).csv =
        [15000, 15000, 15000] ∧
      frameStats (stateAfter wholeFrames FrameServing.road).csv = some (3, 168) := by
  have csvOpen : wholeFrames.csvOpen = true := rfl
  have agree := reports_agree csvOpen FrameServing.road
    (by simp [FrameServing.road])
  exact ⟨(agree.1 .rttUs).trans (by decide +kernel), agree.2.2.2.trans (by decide +kernel)⟩

end Reports

end JetsonRoiClient

end Adas
