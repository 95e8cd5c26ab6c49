import Adas.GreedySelection
import Adas.RoiTypes
import Adas.Rounding
import Mathlib.Data.Rat.Floor
import Mathlib.Tactic.NormNum

/-!
# Proposals from the detector's output

The proposer decodes the boxes of the detector into the frame, sorts them by
score and keeps the best of them that do not overlap too much.  All arithmetic
is exact.  What the detector answers for a frame is an arbitrary array.
-/

namespace Adas.Roi

open GreedySelection
open Rounding (roundHalfEven)

def kModelSize : Nat := 320
def kPredictionCount : Nat := 2100

structure ProposerConfig where
  maxCandidates : Nat := 10
  confidenceThreshold : ℚ := 1 / 10
  nmsIouThreshold : ℚ := 45 / 100
  deriving DecidableEq, Repr

/-- The checks of the constructor, which throws when one of them holds. -/
def ProposerConfig.isInvalid (config : ProposerConfig) : Bool :=
  config.maxCandidates == 0 ||
    (decide (config.confidenceThreshold < 0) ||
      decide (1 < config.confidenceThreshold) ||
      decide (config.nmsIouThreshold < 0) || decide (1 < config.nmsIouThreshold))

/-- The defaults pass. -/
theorem ProposerConfig.default_valid : ({} : ProposerConfig).isInvalid = false := by
  norm_num [ProposerConfig.isInvalid]

structure DecodedBox where
  x1 : ℚ
  y1 : ℚ
  x2 : ℚ
  y2 : ℚ
  score : ℚ
  deriving DecidableEq, Repr

def intersectionOverUnion (a b : DecodedBox) : ℚ :=
  let x1 := max a.x1 b.x1
  let y1 := max a.y1 b.y1
  let x2 := min a.x2 b.x2
  let y2 := min a.y2 b.y2
  let intersection := max 0 (x2 - x1) * max 0 (y2 - y1)
  let areaA := (a.x2 - a.x1) * (a.y2 - a.y1)
  let areaB := (b.x2 - b.x1) * (b.y2 - b.y1)
  let denominator := areaA + areaB - intersection
  if 0 < denominator then intersection / denominator else 0

/-- `std::clamp`. -/
def clamp (value low high : ℚ) : ℚ :=
  if value < low then low else if high < value then high else value

/-- A proposer whose configuration the constructor has let pass. -/
structure RoiProposer where
  config : ProposerConfig
  checked : config.isInvalid = false

namespace RoiProposer

section Decode

/-- The factor from the frame to the square that the detector sees. -/
def scale (frame : Mat) : ℚ :=
  min (kModelSize / frame.cols) (kModelSize / frame.rows)

/-- The size of the frame in one direction after resizing. -/
def resized (frame : Mat) (size : Nat) : Int :=
  roundHalfEven (size * scale frame)

/-- The border left or above of the image in the square, for the size of the
frame in this direction. -/
def padding (frame : Mat) (size : Nat) : Int :=
  roundHalfEven ((kModelSize - resized frame size : ℚ) / 2 - 1 / 10)

/-- `cv::resize` throws for a target without pixels. -/
def resizes (frame : Mat) : Bool :=
  decide (0 < resized frame frame.cols) && decide (0 < resized frame frame.rows)

variable (config : ProposerConfig) (frame : Mat) (output : Nat → ℚ)

/-- The score of a prediction. -/
def scoreOf (index : Nat) : ℚ :=
  output (4 * kPredictionCount + index)

/-- The box of a prediction, clipped to the frame. -/
def decodeBox (index : Nat) : DecodedBox :=
  let cx := output (0 * kPredictionCount + index)
  let cy := output (1 * kPredictionCount + index)
  let width := output (2 * kPredictionCount + index)
  let height := output (3 * kPredictionCount + index)
  let padX : ℚ := padding frame frame.cols
  let padY : ℚ := padding frame frame.rows
  { x1 := clamp ((cx - width / 2 - padX) / scale frame) 0 frame.cols
    y1 := clamp ((cy - height / 2 - padY) / scale frame) 0 frame.rows
    x2 := clamp ((cx + width / 2 - padX) / scale frame) 0 frame.cols
    y2 := clamp ((cy + height / 2 - padY) / scale frame) 0 frame.rows
    score := scoreOf output index }

def nonEmpty (box : DecodedBox) : Bool :=
  decide (box.x1 < box.x2) && decide (box.y1 < box.y2)

/-- The boxes that the loop over the predictions collects. -/
def decodedBoxes : List DecodedBox :=
  (List.range kPredictionCount).filterMap fun index =>
    if scoreOf output index < config.confidenceThreshold then
      none
    else if nonEmpty (decodeBox frame output index) then
      some (decodeBox frame output index)
    else
      none

/-- A box may stand before another one. -/
def byScore (a b : DecodedBox) : Bool :=
  decide (b.score ≤ a.score)

/-- `std::sort` by descending score. -/
def sortedBoxes : List DecodedBox :=
  (decodedBoxes config frame output).mergeSort byScore

end Decode

section Propose

variable (config : ProposerConfig) (frameId : BitVec 32)

def keptBox (kept : RoiCandidate) : DecodedBox where
  x1 := kept.objectBbox.x
  y1 := kept.objectBbox.y
  x2 := kept.objectBbox.x + kept.objectBbox.width
  y2 := kept.objectBbox.y + kept.objectBbox.height
  score := kept.objectness

/-- The candidate that is pushed back for a box. -/
def candidate (index : Nat) (box : DecodedBox) : RoiCandidate where
  frameId := frameId
  roiId := BitVec.ofNat 32 index
  objectBbox := ⟨box.x1, box.y1, box.x2 - box.x1, box.y2 - box.y1⟩
  objectness := box.score

/-- The loop over the sorted boxes. -/
def suppress : List RoiCandidate → List DecodedBox → List RoiCandidate
  | proposals, [] => proposals
  | proposals, box :: rest =>
      if proposals.any fun kept => decide
          (config.nmsIouThreshold < intersectionOverUnion box (keptBox kept)) then
        suppress proposals rest
      else
        let pushed := proposals ++ [candidate frameId proposals.length box]
        if pushed.length = config.maxCandidates then
          pushed
        else
          suppress pushed rest

/-- What `propose` makes of the answer of the engine. -/
def proposals (frame : Mat) (output : Nat → ℚ) : List RoiCandidate :=
  suppress config frameId [] (sortedBoxes config frame output)

/-- `propose`, given what the engine answers for the frame when there is one.
Nothing is returned when resizing throws. -/
def propose (proposer : RoiProposer) (frame : Mat) (frameId : BitVec 32)
    (engine : Option (Nat → ℚ)) : Option (List RoiCandidate) :=
  match engine with
  | none => some []
  | some output =>
      if frame.isFrame then
        if resizes frame then
          some (proposals proposer.config frameId frame output)
        else
          none
      else
        some []

end Propose

section Overlap

variable (config : ProposerConfig) (frameId : BitVec 32)

theorem intersectionOverUnion_comm (a b : DecodedBox) :
    intersectionOverUnion a b = intersectionOverUnion b a := by
  simp only [intersectionOverUnion, max_comm a.x1, max_comm a.y1, min_comm a.x2,
    min_comm a.y2, add_comm ((a.x2 - a.x1) * (a.y2 - a.y1))]

/-- A candidate gives its box back. -/
@[simp]
theorem keptBox_candidate (index : Nat) (box : DecodedBox) :
    keptBox (candidate frameId index box) = box := by
  simp [keptBox, candidate]

/-- The box has to go because of one that is kept. -/
def overlaps (box kept : DecodedBox) : Bool :=
  decide (config.nmsIouThreshold < intersectionOverUnion box kept)

/-- The candidates for some boxes. -/
def numbered (boxes : List DecodedBox) : List RoiCandidate :=
  boxes.mapIdx (candidate frameId)

@[simp]
theorem map_keptBox_numbered (boxes : List DecodedBox) :
    (numbered frameId boxes).map keptBox = boxes := by
  apply List.ext_getElem
  · simp [numbered]
  · intro index _ _
    simp [numbered]

/-- The loop is a greedy selection. -/
theorem suppress_numbered (kept boxes : List DecodedBox) :
    suppress config frameId (numbered frameId kept) boxes =
      numbered frameId
        (selectUpTo (overlaps config) config.maxCandidates kept boxes) := by
  induction boxes generalizing kept with
  | nil => rfl
  | cons box rest ih =>
      have sameVerdict : (numbered frameId kept).any (fun candidate => decide
          (config.nmsIouThreshold <
            intersectionOverUnion box (keptBox candidate))) =
          kept.any (overlaps config box) := by
        conv_rhs => rw [← map_keptBox_numbered frameId kept, List.any_map]
        rfl
      have pushed : numbered frameId kept ++
          [candidate frameId (numbered frameId kept).length box] =
          numbered frameId (kept ++ [box]) := by
        simp [numbered]
      have sameLength : (numbered frameId (kept ++ [box])).length =
          (kept ++ [box]).length := List.length_mapIdx
      rw [suppress, selectUpTo, sameVerdict]
      simp only [pushed, sameLength]
      split_ifs
      · exact ih kept
      · rfl
      · exact ih (kept ++ [box])

theorem proposals_eq_numbered (valid : config.isInvalid = false) (frame : Mat)
    (output : Nat → ℚ) :
    proposals config frameId frame output =
      numbered frameId ((select (overlaps config) []
        (sortedBoxes config frame output)).take config.maxCandidates) := by
  simp only [ProposerConfig.isInvalid, Bool.or_eq_false_iff, beq_eq_false_iff_ne]
    at valid
  have scan := suppress_numbered config frameId [] (sortedBoxes config frame output)
  rw [selectUpTo_eq_take _ (Nat.pos_of_ne_zero valid.1), List.nil_append] at scan
  exact scan

end Overlap

section Sorted

/-- Sorting puts boxes with different scores in strictly descending order. -/
theorem descending_mergeSort {boxes : List DecodedBox}
    (differ : boxes.Pairwise fun a b => a.score ≠ b.score) :
    (boxes.mergeSort byScore).Pairwise fun a b => b.score < a.score := by
  have sorted : (boxes.mergeSort byScore).Pairwise fun a b => b.score ≤ a.score :=
    List.pairwise_mergeSort' (fun a b : DecodedBox => b.score ≤ a.score) boxes
  have differSorted : (boxes.mergeSort byScore).Pairwise
      fun a b => a.score ≠ b.score :=
    ((List.mergeSort_perm _ _).pairwise_iff Ne.symm).mpr differ
  exact (sorted.and differSorted).imp fun both => lt_of_le_of_ne both.1 both.2.symm

variable {config : ProposerConfig} {frame : Mat} {output : Nat → ℚ}

/-- No two predictions have the same score. -/
def DistinctScores (output : Nat → ℚ) : Prop :=
  ∀ index < kPredictionCount, ∀ other < kPredictionCount,
    scoreOf output index = scoreOf output other → index = other

/-- Boxes of different predictions, each of which may be left out, have
different scores. -/
theorem differ_filterMap (distinct : DistinctScores output)
    {choose : Nat → Option DecodedBox}
    (chosen : ∀ index box, choose index = some box →
      box.score = scoreOf output index) :
    ((List.range kPredictionCount).filterMap choose).Pairwise
      fun a b => a.score ≠ b.score := by
  rw [List.pairwise_filterMap]
  refine List.pairwise_lt_range.imp_of_mem ?_
  intro first later firstMem laterMem less a isFirst b isLater same
  rw [chosen first a isFirst, chosen later b isLater] at same
  exact less.ne (distinct first (List.mem_range.mp firstMem) later
    (List.mem_range.mp laterMem) same)

theorem mem_decodedBoxes {box : DecodedBox} :
    box ∈ decodedBoxes config frame output ↔
      ∃ index < kPredictionCount,
        config.confidenceThreshold ≤ scoreOf output index ∧
          nonEmpty (decodeBox frame output index) = true ∧
            decodeBox frame output index = box := by
  simp only [decodedBoxes, List.mem_filterMap, List.mem_range]
  refine exists_congr fun index => and_congr_right fun _ => ?_
  split_ifs with low hasArea
  · simp [low]
  · simp [hasArea, not_lt.mp low]
  · simp [hasArea]

theorem mem_sortedBoxes {box : DecodedBox} :
    box ∈ sortedBoxes config frame output ↔
      box ∈ decodedBoxes config frame output :=
  List.mem_mergeSort

theorem sortedBoxes_descending (distinct : DistinctScores output) :
    (sortedBoxes config frame output).Pairwise fun a b => b.score < a.score := by
  unfold sortedBoxes decodedBoxes
  refine descending_mergeSort (differ_filterMap distinct ?_)
  intro index box isBox
  split_ifs at isBox
  rw [← Option.some.inj isBox, decodeBox]

theorem length_decodedBoxes_le :
    (decodedBoxes config frame output).length ≤ kPredictionCount :=
  (List.length_filterMap_le _ _).trans_eq List.length_range

end Sorted

section Clipped

variable {frame : Mat} {output : Nat → ℚ}

theorem clamp_mem {low high : ℚ} (ordered : low ≤ high) (value : ℚ) :
    low ≤ clamp value low high ∧ clamp value low high ≤ high := by
  unfold clamp
  split_ifs with below above
  · exact ⟨le_refl low, ordered⟩
  · exact ⟨ordered, le_refl high⟩
  · exact ⟨not_lt.mp below, not_lt.mp above⟩

theorem inFrame_decodeBox {index : Nat}
    (hasArea : nonEmpty (decodeBox frame output index) = true) :
    let box := decodeBox frame output index
    BoundingBox.InFrame ⟨box.x1, box.y1, box.x2 - box.x1, box.y2 - box.y1⟩ frame := by
  simp only [nonEmpty, Bool.and_eq_true, decide_eq_true_eq] at hasArea
  refine ⟨?_, ?_, sub_pos.mpr hasArea.1, sub_pos.mpr hasArea.2, ?_, ?_⟩
  · exact (clamp_mem (Nat.cast_nonneg frame.cols) _).1
  · exact (clamp_mem (Nat.cast_nonneg frame.rows) _).1
  · rw [add_sub_cancel]
    exact (clamp_mem (Nat.cast_nonneg frame.cols) _).2
  · rw [add_sub_cancel]
    exact (clamp_mem (Nat.cast_nonneg frame.rows) _).2

end Clipped

section Greedy

variable (config : ProposerConfig) (frame : Mat) (output : Nat → ℚ)

/-- The detector's prediction may be proposed: its score is high enough, and
something of its box is left in the frame. -/
def Admissible (index : Nat) : Prop :=
  index < kPredictionCount ∧
    config.confidenceThreshold ≤ scoreOf output index ∧
      nonEmpty (decodeBox frame output index) = true

/-- The candidate stands for the prediction. -/
structure StandsFor (candidate : RoiCandidate) (index : Nat) : Prop where
  bbox : candidate.objectBbox =
    let box := decodeBox frame output index
    ⟨box.x1, box.y1, box.x2 - box.x1, box.y2 - box.y1⟩
  objectness : candidate.objectness = scoreOf output index

/-- The candidates are a greedy choice among the predictions. -/
structure ProposesGreedily (frameId : BitVec 32) (proposals : List RoiCandidate) :
    Prop where
  decoded : ∀ candidate ∈ proposals, ∃ index,
    Admissible config frame output index ∧ StandsFor frame output candidate index
  inFrame : ∀ candidate ∈ proposals,
    candidate.objectBbox.InFrame frame
  descending : proposals.Pairwise fun first later =>
    later.objectness < first.objectness
  limited : proposals.length ≤ config.maxCandidates
  roiIds : proposals.map (fun candidate => candidate.roiId.toNat) =
    List.range proposals.length
  frameIds : ∀ candidate ∈ proposals, candidate.frameId = frameId
  separated : proposals.Pairwise fun first later =>
    intersectionOverUnion (keptBox later) (keptBox first) ≤ config.nmsIouThreshold
  complete : ∀ index, Admissible config frame output index →
    (∃ candidate ∈ proposals, StandsFor frame output candidate index) ∨
    (∃ candidate ∈ proposals, scoreOf output index < candidate.objectness ∧
      config.nmsIouThreshold < intersectionOverUnion (decodeBox frame output index)
        (keptBox candidate)) ∨
    (proposals.length = config.maxCandidates ∧
      ∀ candidate ∈ proposals, scoreOf output index < candidate.objectness)

variable {config frame output}

theorem mem_numbered {frameId : BitVec 32} {boxes : List DecodedBox}
    {kept : RoiCandidate} (mem : kept ∈ numbered frameId boxes) :
    ∃ box ∈ boxes, ∃ index, kept = candidate frameId index box := by
  rw [numbered, List.mem_mapIdx] at mem
  obtain ⟨index, bound, rfl⟩ := mem
  exact ⟨boxes[index], List.getElem_mem bound, index, rfl⟩

/-- What holds of the boxes in order holds of their candidates. -/
theorem pairwise_numbered {frameId : BitVec 32} {boxes : List DecodedBox}
    {related : DecodedBox → DecodedBox → Prop} (inOrder : boxes.Pairwise related) :
    (numbered frameId boxes).Pairwise fun first later =>
      related (keptBox first) (keptBox later) := by
  rw [← map_keptBox_numbered frameId boxes, List.pairwise_map] at inOrder
  exact inOrder

/-- The identifiers count up from zero as long as they fit in 32 bits. -/
theorem roiIds_numbered (frameId : BitVec 32) {boxes : List DecodedBox}
    (fits : boxes.length ≤ kPredictionCount) :
    (numbered frameId boxes).map (fun candidate => candidate.roiId.toNat) =
      List.range boxes.length := by
  have fitsWord : boxes.length < 2 ^ 32 :=
    lt_of_le_of_lt fits (by decide)
  apply List.ext_getElem
  · simp [numbered]
  · intro index bound _
    rw [List.length_map, numbered, List.length_mapIdx] at bound
    simp only [numbered, List.getElem_map, List.getElem_mapIdx, candidate,
      BitVec.toNat_ofNat, List.getElem_range]
    exact Nat.mod_eq_of_lt (bound.trans fitsWord)

/-- The candidate of a kept box is returned. -/
theorem candidate_of_mem (frameId : BitVec 32) {boxes : List DecodedBox}
    {box : DecodedBox} (mem : box ∈ boxes) :
    ∃ kept ∈ numbered frameId boxes, keptBox kept = box := by
  rwa [← map_keptBox_numbered frameId boxes, List.mem_map] at mem

section Kept

variable (config frame output)

/-- The boxes whose candidates are returned. -/
def keptBoxes : List DecodedBox :=
  (select (overlaps config) [] (sortedBoxes config frame output)).take
    config.maxCandidates

theorem keptBoxes_sublist :
    (keptBoxes config frame output).Sublist (sortedBoxes config frame output) :=
  (List.take_sublist _ _).trans (select_sublist [] _)

theorem length_keptBoxes_le :
    (keptBoxes config frame output).length ≤ kPredictionCount :=
  calc (keptBoxes config frame output).length
    _ ≤ (sortedBoxes config frame output).length :=
        (keptBoxes_sublist config frame output).length_le
    _ = (decodedBoxes config frame output).length := List.length_mergeSort _
    _ ≤ kPredictionCount := length_decodedBoxes_le

variable {config frame output}

theorem prediction_of_mem_keptBoxes {box : DecodedBox}
    (mem : box ∈ keptBoxes config frame output) :
    ∃ index, Admissible config frame output index ∧
      decodeBox frame output index = box := by
  obtain ⟨index, bound, high, hasArea, isBox⟩ := mem_decodedBoxes.mp
    (mem_sortedBoxes.mp ((keptBoxes_sublist config frame output).subset mem))
  exact ⟨index, ⟨bound, high, hasArea⟩, isBox⟩

theorem separated_keptBoxes :
    (keptBoxes config frame output).Pairwise fun first later =>
      intersectionOverUnion later first ≤ config.nmsIouThreshold := by
  have separated : (select (overlaps config) []
      (sortedBoxes config frame output)).Pairwise
      fun first later => overlaps config later first = false := by
    simpa using pairwise_select List.Pairwise.nil (sortedBoxes config frame output)
  refine (separated.sublist (List.take_sublist _ _)).imp ?_
  intro first later apart
  simpa [overlaps] using apart

end Kept

theorem standsFor_candidate (frameId : BitVec 32) (place index : Nat) :
    StandsFor frame output (candidate frameId place (decodeBox frame output index))
      index :=
  ⟨rfl, rfl⟩

/-- An admissible prediction that is not proposed has lost to a better one, or
there are already as many better ones as there may be. -/
theorem complete_numbered (distinct : DistinctScores output) (frameId : BitVec 32)
    {index : Nat} (admissible : Admissible config frame output index) :
    (∃ candidate ∈ numbered frameId (keptBoxes config frame output),
      StandsFor frame output candidate index) ∨
    (∃ candidate ∈ numbered frameId (keptBoxes config frame output),
      scoreOf output index < candidate.objectness ∧
        config.nmsIouThreshold < intersectionOverUnion
          (decodeBox frame output index) (keptBox candidate)) ∨
    ((numbered frameId (keptBoxes config frame output)).length =
        config.maxCandidates ∧
      ∀ candidate ∈ numbered frameId (keptBoxes config frame output),
        scoreOf output index < candidate.objectness) := by
  set box := decodeBox frame output index
  have mem : box ∈ sortedBoxes config frame output :=
    mem_sortedBoxes.mpr (mem_decodedBoxes.mpr
      ⟨index, admissible.1, admissible.2.1, admissible.2.2, rfl⟩)
  have fate : box ∈ keptBoxes config frame output ∨
      (∃ first ∈ keptBoxes config frame output,
        box.score < first.score ∧ overlaps config box first = true) ∨
      ((keptBoxes config frame output).length = config.maxCandidates ∧
        ∀ first ∈ keptBoxes config frame output, box.score < first.score) :=
    stays_or_conflicts_or_full (sortedBoxes_descending distinct)
      config.maxCandidates mem
  rcases fate with stays | ⟨first, stays, better, goes⟩ | ⟨full, allBetter⟩
  · obtain ⟨place, bound, isBox⟩ := List.getElem_of_mem stays
    refine Or.inl ⟨candidate frameId place box, ?_,
      standsFor_candidate frameId place index⟩
    rw [numbered, List.mem_mapIdx]
    exact ⟨place, bound, congrArg (candidate frameId place) isBox⟩
  · obtain ⟨kept, keptMem, rfl⟩ := candidate_of_mem frameId stays
    exact Or.inr (Or.inl ⟨kept, keptMem, better, of_decide_eq_true goes⟩)
  · refine Or.inr (Or.inr ⟨List.length_mapIdx.trans full, ?_⟩)
    intro kept keptMem
    obtain ⟨box, boxMem, place, rfl⟩ := mem_numbered keptMem
    exact allBetter box boxMem

theorem proposals_greedy (valid : config.isInvalid = false)
    (distinct : DistinctScores output) (frameId : BitVec 32) :
    ProposesGreedily config frame output frameId
      (proposals config frameId frame output) := by
  rw [proposals_eq_numbered config frameId valid, ← keptBoxes]
  exact {
    decoded := by
      intro candidate mem
      obtain ⟨box, boxMem, place, rfl⟩ := mem_numbered mem
      obtain ⟨index, admissible, rfl⟩ := prediction_of_mem_keptBoxes boxMem
      exact ⟨index, admissible, standsFor_candidate frameId place index⟩
    inFrame := by
      intro candidate mem
      obtain ⟨box, boxMem, place, rfl⟩ := mem_numbered mem
      obtain ⟨index, admissible, rfl⟩ := prediction_of_mem_keptBoxes boxMem
      exact inFrame_decodeBox admissible.2.2
    descending := pairwise_numbered
      ((sortedBoxes_descending distinct).sublist (keptBoxes_sublist _ _ _))
    limited := by
      rw [numbered, List.length_mapIdx]
      exact List.length_take_le _ _
    roiIds := by
      rw [roiIds_numbered frameId (length_keptBoxes_le config frame output),
        numbered, List.length_mapIdx]
    frameIds := by
      intro candidate mem
      obtain ⟨box, boxMem, place, rfl⟩ := mem_numbered mem
      rfl
    separated := pairwise_numbered separated_keptBoxes
    complete := fun index => complete_numbered distinct frameId }

/-- `propose` returns unless resizing throws, and it proposes greedily. -/
theorem propose_greedy (proposer : RoiProposer) {frame : Mat}
    (isFrame : frame.isFrame = true) (frameId : BitVec 32) {output : Nat → ℚ}
    (distinct : DistinctScores output) :
    (proposer.propose frame frameId (some output)).isSome = resizes frame ∧
      ∀ proposals ∈ proposer.propose frame frameId (some output),
        ProposesGreedily proposer.config frame output frameId proposals := by
  simp only [propose, if_pos isFrame]
  split_ifs with canResize
  · refine ⟨canResize.symm, ?_⟩
    intro returned isReturned
    rw [← Option.some.inj isReturned]
    exact proposals_greedy proposer.checked distinct frameId
  · exact ⟨(Bool.eq_false_iff.mpr canResize).symm, fun _ isReturned => nomatch isReturned⟩

/-- An answer of the detector in which the predictions lie on two objects, with ten of
them above the threshold. -/
def twoObjects (place : Nat) : ℚ :=
  if place < kPredictionCount then
    100 + 120 * (place % 2 : Nat) + (place % 10 : Nat)
  else if place < 2 * kPredictionCount then
    160
  else if place < 4 * kPredictionCount then
    40
  else
    1 / (place - 4 * kPredictionCount + 1 : Nat)

theorem scoreOf_twoObjects (index : Nat) :
    scoreOf twoObjects index = 1 / (index + 1 : Nat) := by
  rw [scoreOf, twoObjects, if_neg (by simp only [kPredictionCount]; omega),
    if_neg (by omega), if_neg (by omega), Nat.add_sub_cancel_left]

theorem distinctScores_twoObjects : DistinctScores twoObjects := by
  intro index _ other _ same
  rw [scoreOf_twoObjects, scoreOf_twoObjects, one_div, one_div] at same
  exact Nat.succ.inj (Nat.cast_injective (inv_injective same))

/-- The third prediction overlaps the first one, which suppresses it. -/
theorem propose_greedy_twoObjects :
    (1 / 10 ≤ scoreOf twoObjects 2 ∧ 45 / 100 < intersectionOverUnion
        (decodeBox ⟨640, 480, true⟩ twoObjects 0)
        (decodeBox ⟨640, 480, true⟩ twoObjects 2)) ∧
      ((⟨{}, ProposerConfig.default_valid⟩ : RoiProposer).propose
        ⟨640, 480, true⟩ 7 (some twoObjects)).isSome = resizes ⟨640, 480, true⟩ ∧
      ∀ proposals ∈ (⟨{}, ProposerConfig.default_valid⟩ : RoiProposer).propose
          ⟨640, 480, true⟩ 7 (some twoObjects),
        ProposesGreedily {} ⟨640, 480, true⟩ twoObjects 7 proposals :=
  ⟨by decide +kernel,
    propose_greedy ⟨{}, ProposerConfig.default_valid⟩ rfl 7 distinctScores_twoObjects⟩

end Greedy

end RoiProposer

end Adas.Roi
