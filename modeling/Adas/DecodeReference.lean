import Adas.RoiProposer

/-!
# The reference for the proposer

The reference decodes the same output in a script.  It keeps the boxes that
clipping to the frame makes empty, and it cuts the list after the whole
suppression.  The proposer drops empty boxes first and stops as soon as it has
enough.
-/

namespace Adas.Roi.DecodeReference

open GreedySelection
open Rounding (roundHalfEven)
open RoiProposer

structure LetterboxParams where
  scale : ℚ
  padX : ℚ
  padY : ℚ
  origW : Nat
  origH : Nat
  deriving DecidableEq, Repr

/-- The parameters that `letterbox_preprocess` returns beside the image. -/
def letterboxPreprocess (frame : Mat) (imgsz : Nat) : LetterboxParams :=
  let scale : ℚ := min (imgsz / frame.cols) (imgsz / frame.rows)
  let newW := roundHalfEven (frame.cols * scale)
  let newH := roundHalfEven (frame.rows * scale)
  let padX : ℚ := (imgsz - newW) / 2
  let padY : ℚ := (imgsz - newH) / 2
  let top := roundHalfEven (padY - 1 / 10)
  let left := roundHalfEven (padX - 1 / 10)
  ⟨scale, left, top, frame.cols, frame.rows⟩

/-- A row of the transposed output. -/
structure Prediction where
  cx : ℚ
  cy : ℚ
  w : ℚ
  h : ℚ
  score : ℚ
  deriving DecidableEq, Repr

def prediction (rawOutput : Nat → Nat → ℚ) (index : Nat) : Prediction :=
  ⟨rawOutput 0 index, rawOutput 1 index, rawOutput 2 index, rawOutput 3 index,
    rawOutput 4 index⟩

/-- `np.clip`. -/
def clip (value low high : ℚ) : ℚ :=
  min (max value low) high

/-- The corners in the frame. -/
def corners (params : LetterboxParams) (pred : Prediction) : DecodedBox where
  x1 := clip ((pred.cx - pred.w / 2 - params.padX) / params.scale) 0 params.origW
  y1 := clip ((pred.cy - pred.h / 2 - params.padY) / params.scale) 0 params.origH
  x2 := clip ((pred.cx + pred.w / 2 - params.padX) / params.scale) 0 params.origW
  y2 := clip ((pred.cy + pred.h / 2 - params.padY) / params.scale) 0 params.origH
  score := pred.score

def area (box : DecodedBox) : ℚ :=
  (box.x2 - box.x1) * (box.y2 - box.y1)

def iou (i j : DecodedBox) : ℚ :=
  let xx1 := max i.x1 j.x1
  let yy1 := max i.y1 j.y1
  let xx2 := min i.x2 j.x2
  let yy2 := min i.y2 j.y2
  let inter := max 0 (xx2 - xx1) * max 0 (yy2 - yy1)
  if area i + area j - inter > 0 then inter / (area i + area j - inter) else 0

/-- `_nms`, with the boxes in place of their indices. -/
def nms (iouThreshold : ℚ) : List DecodedBox → List DecodedBox
  | [] => []
  | i :: order =>
      i :: nms iouThreshold (order.filter fun j => decide (iou i j ≤ iouThreshold))
termination_by order => order.length
decreasing_by
  rw [List.length_unattach]
  exact Nat.lt_succ_of_le
    ((List.length_filter_le _ _).trans_eq List.length_attach)

/-- A tuple of the returned list. -/
structure Entry where
  x : ℚ
  y : ℚ
  width : ℚ
  height : ℚ
  score : ℚ
  deriving DecidableEq, Repr

def entry (box : DecodedBox) : Entry :=
  ⟨box.x1, box.y1, box.x2 - box.x1, box.y2 - box.y1, box.score⟩

section Output

variable (rawOutput : Nat → Nat → ℚ) (count : Nat) (params : LetterboxParams)
variable (confThreshold nmsIou : ℚ)

/-- The predictions with a high enough score. -/
def keptPreds : List Prediction :=
  ((List.range count).map (prediction rawOutput)).filter
    fun pred => decide (pred.score ≥ confThreshold)

/-- The boxes in the order of `np.argsort`, which differs from that of the
predictions by descending score. -/
def orderedBoxes : List DecodedBox :=
  ((keptPreds rawOutput count confThreshold).map (corners params)).mergeSort byScore

/-- What the suppression leaves, before it is cut. -/
def survivors : List DecodedBox :=
  nms nmsIou (orderedBoxes rawOutput count params confThreshold)

def decodeOutput (maxProposals : Nat) : List Entry :=
  if (keptPreds rawOutput count confThreshold).length = 0 then
    []
  else
    ((survivors rawOutput count params confThreshold nmsIou).take
      maxProposals).map entry

end Output

section Geometry

theorem clip_eq_clamp {low high : ℚ} (ordered : low ≤ high) (value : ℚ) :
    clip value low high = clamp value low high := by
  unfold clip clamp
  split_ifs with below above
  · rw [max_eq_right below.le, min_eq_left ordered]
  · rw [max_eq_left (not_lt.mp below), min_eq_right above.le]
  · rw [max_eq_left (not_lt.mp below), min_eq_left (not_lt.mp above)]

/-- The channels of the flat output. -/
def channels (output : Nat → ℚ) (channel index : Nat) : ℚ :=
  output (channel * kPredictionCount + index)

/-- Both sides find the same box for a prediction. -/
theorem corners_prediction (frame : Mat) (output : Nat → ℚ) (index : Nat) :
    corners (letterboxPreprocess frame kModelSize)
      (prediction (channels output) index) = decodeBox frame output index := by
  have cols : (0 : ℚ) ≤ frame.cols := Nat.cast_nonneg frame.cols
  have rows : (0 : ℚ) ≤ frame.rows := Nat.cast_nonneg frame.rows
  simp only [corners, decodeBox, letterboxPreprocess, prediction, channels, scoreOf,
    scale, padding, resized, clip_eq_clamp cols, clip_eq_clamp rows]

theorem iou_eq (i j : DecodedBox) : iou i j = intersectionOverUnion i j :=
  rfl

/-- A box without an area has nothing in common with any other. -/
theorem intersectionOverUnion_of_empty {a b : DecodedBox}
    (hasNoArea : nonEmpty a = false) : intersectionOverUnion a b = 0 := by
  simp only [nonEmpty, Bool.and_eq_false_iff, decide_eq_false_iff_not, not_lt]
    at hasNoArea
  have disjoint : max 0 (min a.x2 b.x2 - max a.x1 b.x1) *
      max 0 (min a.y2 b.y2 - max a.y1 b.y1) = 0 := by
    rcases hasNoArea with thin | flat
    · have below : min a.x2 b.x2 ≤ max a.x1 b.x1 :=
        (min_le_left _ _).trans (thin.trans (le_max_left _ _))
      rw [max_eq_left (sub_nonpos.mpr below), zero_mul]
    · have below : min a.y2 b.y2 ≤ max a.y1 b.y1 :=
        (min_le_left _ _).trans (flat.trans (le_max_left _ _))
      rw [max_eq_left (sub_nonpos.mpr below), mul_zero]
  simp only [intersectionOverUnion, disjoint, zero_div, ite_self]

variable {config : ProposerConfig}

theorem overlaps_of_empty (threshold : 0 ≤ config.nmsIouThreshold)
    {box kept : DecodedBox} (hasNoArea : nonEmpty box = false ∨ nonEmpty kept = false) :
    overlaps config box kept = false := by
  rw [overlaps, decide_eq_false_iff_not, not_lt]
  rcases hasNoArea with boxEmpty | keptEmpty
  · rwa [intersectionOverUnion_of_empty boxEmpty]
  · rwa [intersectionOverUnion_comm, intersectionOverUnion_of_empty keptEmpty]

theorem not_overlaps (i : DecodedBox) :
    (fun j => !overlaps config j i) =
      fun j => decide (iou i j ≤ config.nmsIouThreshold) := by
  ext j
  rw [overlaps, intersectionOverUnion_comm, ← iou_eq, ← decide_not]
  simp only [not_lt]

/-- The suppression of the reference is the choice by removal. -/
theorem nms_eq_removeFrom : ∀ boxes : List DecodedBox,
    nms config.nmsIouThreshold boxes = removeFrom (overlaps config) boxes
  | [] => by rw [nms, removeFrom]
  | i :: order => by
      rw [nms, removeFrom, not_overlaps, nms_eq_removeFrom]
termination_by boxes => boxes.length
decreasing_by exact Nat.lt_succ_of_le (List.length_filter_le _ _)

end Geometry

section Order

/-- Sorting commutes with leaving out boxes when the scores differ. -/
theorem filter_mergeSort (keep : DecodedBox → Bool) {boxes : List DecodedBox}
    (differ : boxes.Pairwise fun a b => a.score ≠ b.score) :
    (boxes.mergeSort byScore).filter keep =
      (boxes.filter keep).mergeSort byScore := by
  have differKept : (boxes.filter keep).Pairwise fun a b => a.score ≠ b.score :=
    differ.sublist List.filter_sublist
  have samePerm : ((boxes.mergeSort byScore).filter keep).Perm
      ((boxes.filter keep).mergeSort byScore) :=
    ((List.mergeSort_perm _ _).filter keep).trans (List.mergeSort_perm _ _).symm
  have noTie : ∀ a b : DecodedBox, b.score < a.score → a.score < b.score → a = b :=
    fun a b above below => (lt_asymm above below).elim
  exact samePerm.eq_of_pairwise (fun a b _ _ => noTie a b)
    ((descending_mergeSort differ).sublist List.filter_sublist)
    (descending_mergeSort differKept)

variable (config : ProposerConfig) (frame : Mat) (output : Nat → ℚ)

/-- The boxes of the reference for an output of the detector, sorted. -/
def referenceBoxes : List DecodedBox :=
  orderedBoxes (channels output) kPredictionCount
    (letterboxPreprocess frame kModelSize) config.confidenceThreshold

/-- The boxes of the reference, not yet sorted. -/
theorem map_corners_keptPreds :
    (keptPreds (channels output) kPredictionCount config.confidenceThreshold).map
        (corners (letterboxPreprocess frame kModelSize)) =
      (List.range kPredictionCount).filterMap fun index =>
        if scoreOf output index < config.confidenceThreshold then
          none
        else
          some (decodeBox frame output index) := by
  unfold keptPreds
  induction List.range kPredictionCount with
  | nil => rfl
  | cons index rest ih =>
      have sameScore : (prediction (channels output) index).score =
          scoreOf output index := rfl
      rw [List.map_cons, List.filter_cons, List.filterMap_cons, sameScore]
      by_cases low : scoreOf output index < config.confidenceThreshold
      · rw [if_pos low, if_neg (by simpa using low)]
        exact ih
      · rw [if_neg low, if_pos (by simpa using low), List.map_cons, ih,
          corners_prediction]

/-- What the proposer collects are the boxes of the reference that have an
area. -/
theorem filter_map_corners :
    ((keptPreds (channels output) kPredictionCount config.confidenceThreshold).map
        (corners (letterboxPreprocess frame kModelSize))).filter nonEmpty =
      decodedBoxes config frame output := by
  rw [map_corners_keptPreds, List.filter_filterMap, decodedBoxes]
  congr 1
  funext index
  split_ifs with low hasArea
  · rfl
  · rw [Option.filter_some, if_pos hasArea]
  · rw [Option.filter_some, if_neg hasArea]

variable {config frame output}

theorem filter_referenceBoxes (distinct : DistinctScores output) :
    (referenceBoxes config frame output).filter nonEmpty =
      sortedBoxes config frame output := by
  rw [referenceBoxes, orderedBoxes, filter_mergeSort nonEmpty, filter_map_corners,
    sortedBoxes]
  rw [map_corners_keptPreds]
  refine differ_filterMap distinct ?_
  intro index box isBox
  split_ifs at isBox
  rw [← Option.some.inj isBox, decodeBox]

end Order

section Lists

variable (config : ProposerConfig) (frame : Mat) (output : Nat → ℚ)

/-- What the reference leaves for an output of the detector. -/
def referenceSurvivors : List DecodedBox :=
  survivors (channels output) kPredictionCount (letterboxPreprocess frame kModelSize)
    config.confidenceThreshold config.nmsIouThreshold

/-- The list of the reference for an output of the detector. -/
def referenceList : List Entry :=
  decodeOutput (channels output) kPredictionCount
    (letterboxPreprocess frame kModelSize) config.confidenceThreshold
    config.nmsIouThreshold config.maxCandidates

/-- The tuple of a candidate. -/
def entryOf (candidate : RoiCandidate) : Entry :=
  ⟨candidate.objectBbox.x, candidate.objectBbox.y, candidate.objectBbox.width,
    candidate.objectBbox.height, candidate.objectness⟩

theorem referenceList_eq :
    referenceList config frame output =
      ((referenceSurvivors config frame output).take config.maxCandidates).map
        entry := by
  rw [referenceList, decodeOutput]
  split_ifs with none
  · rw [referenceSurvivors, survivors, orderedBoxes,
      List.length_eq_zero_iff.mp none, List.map_nil, List.mergeSort_nil, nms,
      List.take_nil, List.map_nil]
  · rfl

theorem map_entryOf_numbered (frameId : BitVec 32) (boxes : List DecodedBox) :
    (numbered frameId boxes).map entryOf = boxes.map entry := by
  apply List.ext_getElem
  · simp [numbered]
  · intro index _ _
    simp [numbered, entryOf, candidate, entry]

variable {config frame output}

/-- The proposer cuts what the suppression of the reference leaves without the
empty boxes. -/
theorem map_entryOf_proposals (valid : config.isInvalid = false)
    (distinct : DistinctScores output) (frameId : BitVec 32) :
    (proposals config frameId frame output).map entryOf =
      (((referenceSurvivors config frame output).filter nonEmpty).take
        config.maxCandidates).map entry := by
  have threshold : 0 ≤ config.nmsIouThreshold := by
    simp only [ProposerConfig.isInvalid, Bool.or_eq_false_iff,
      decide_eq_false_iff_not, not_lt] at valid
    exact valid.2.1.2
  have harmless : ∀ box kept, nonEmpty box = false ∨ nonEmpty kept = false →
      overlaps config box kept = false :=
    fun _ _ => overlaps_of_empty threshold
  rw [proposals_eq_numbered config frameId valid, map_entryOf_numbered,
    ← filter_referenceBoxes distinct, referenceSurvivors, survivors,
    nms_eq_removeFrom, removeFrom_eq_select, filter_select harmless, List.filter_nil,
    referenceBoxes]

theorem nonEmpty_iff (box : DecodedBox) :
    nonEmpty box = true ↔ 0 < (entry box).width ∧ 0 < (entry box).height := by
  simp [nonEmpty, entry]

/-- Leaving out items does not change the first ones when these stay. -/
theorem take_filter_of_forall {Item : Type*} {keep : Item → Bool} {items : List Item}
    {limit : Nat} (stay : ∀ item ∈ items.take limit, keep item = true) :
    (items.filter keep).take limit = items.take limit := by
  have firstStay : (items.take limit).filter keep = items.take limit :=
    List.filter_eq_self.mpr stay
  conv_lhs => rw [← List.take_append_drop limit items]
  rw [List.filter_append, firstStay]
  rcases le_or_gt limit items.length with enough | few
  · exact List.take_left' (List.length_take_of_le enough)
  · rw [List.drop_of_length_le few.le, List.filter_nil, List.append_nil,
      List.take_take, min_self]

/-- The lists are the same when the reference lists no empty box. -/
theorem map_entryOf_eq_iff (valid : config.isInvalid = false)
    (distinct : DistinctScores output) (frameId : BitVec 32) :
    (proposals config frameId frame output).map entryOf =
        referenceList config frame output ↔
      ∀ listed ∈ referenceList config frame output,
        0 < listed.width ∧ 0 < listed.height := by
  rw [map_entryOf_proposals valid distinct, referenceList_eq]
  constructor
  · intro same listed mem
    rw [← same] at mem
    obtain ⟨box, boxMem, rfl⟩ := List.mem_map.mp mem
    exact (nonEmpty_iff box).mp (List.of_mem_filter (List.mem_of_mem_take boxMem))
  · intro allPositive
    congr 1
    apply take_filter_of_forall
    intro box mem
    exact (nonEmpty_iff box).mpr (allPositive (entry box) (List.mem_map_of_mem mem))

/-- An answer of the detector in which every box lies above the image, in the
border of the square. -/
def aboveImage (place : Nat) : ℚ :=
  if place < kPredictionCount then
    160
  else if place < 2 * kPredictionCount then
    20
  else
    twoObjects place / 2

theorem scoreOf_aboveImage (index : Nat) :
    scoreOf aboveImage index = scoreOf twoObjects index / 2 := by
  unfold scoreOf aboveImage
  rw [if_neg (by simp only [kPredictionCount]; omega),
    if_neg (by simp only [kPredictionCount]; omega)]

theorem distinctScores_aboveImage : DistinctScores aboveImage := by
  intro index bound other otherBound same
  rw [scoreOf_aboveImage, scoreOf_aboveImage] at same
  exact distinctScores_twoObjects index bound other otherBound (by linarith)

theorem decodeBox_aboveImage {index : Nat} (bound : index < kPredictionCount) :
    nonEmpty (decodeBox ⟨640, 480, true⟩ aboveImage index) = false := by
  have cy : aboveImage (1 * kPredictionCount + index) = 20 := by
    unfold aboveImage
    rw [if_neg (by omega), if_pos (by omega)]
  have height : aboveImage (3 * kPredictionCount + index) = 20 := by
    unfold aboveImage twoObjects
    rw [if_neg (by omega), if_neg (by omega), if_neg (by omega), if_neg (by omega),
      if_pos (by omega)]
    norm_num
  have scaleIs : scale ⟨640, 480, true⟩ = 1 / 2 := by decide +kernel
  have paddingIs : padding ⟨640, 480, true⟩ 480 = 40 := by decide +kernel
  simp only [nonEmpty, decodeBox, cy, height, scaleIs, paddingIs, clamp]
  norm_num

/-- The reference lists a box of which nothing is left in the frame. -/
theorem reference_lists_empty_box :
    DistinctScores aboveImage ∧ ({} : ProposerConfig).isInvalid = false ∧
      (proposals {} 7 ⟨640, 480, true⟩ aboveImage).map entryOf = [] ∧
      referenceList {} ⟨640, 480, true⟩ aboveImage ≠ [] := by
  refine ⟨distinctScores_aboveImage, ProposerConfig.default_valid, ?_, ?_⟩
  · have noBox : decodedBoxes {} ⟨640, 480, true⟩ aboveImage = [] := by
      rw [List.eq_nil_iff_forall_not_mem]
      intro box mem
      obtain ⟨index, bound, _, hasArea, _⟩ := mem_decodedBoxes.mp mem
      rw [decodeBox_aboveImage bound] at hasArea
      exact Bool.false_ne_true hasArea
    rw [proposals, sortedBoxes, noBox, List.mergeSort_nil, suppress, List.map_nil]
  · have score : scoreOf aboveImage 0 = 1 / 2 := by decide +kernel
    have kept : prediction (channels aboveImage) 0 ∈
        keptPreds (channels aboveImage) kPredictionCount
          ({} : ProposerConfig).confidenceThreshold := by
      refine List.mem_filter.mpr ⟨List.mem_map_of_mem
        (List.mem_range.mpr (by decide)), decide_eq_true ?_⟩
      change scoreOf aboveImage 0 ≥ 1 / 10
      norm_num [score]
    have listed : corners (letterboxPreprocess ⟨640, 480, true⟩ kModelSize)
        (prediction (channels aboveImage) 0) ∈
        referenceBoxes {} ⟨640, 480, true⟩ aboveImage :=
      List.mem_mergeSort.mpr (List.mem_map_of_mem kept)
    rw [referenceList_eq, referenceSurvivors, survivors, ← referenceBoxes]
    obtain ⟨first, rest, split⟩ := List.exists_cons_of_ne_nil
      (List.ne_nil_of_mem listed)
    rw [split, nms]
    exact List.cons_ne_nil _ _

/-- The proposer lists what the reference lists when the boxes that clipping has
emptied are struck out before the cut, and so the two lists are the same when
the reference lists no such box. -/
theorem proposals_eq_reference (proposer : RoiProposer) (frame : Mat)
    (frameId : BitVec 32) {output : Nat → ℚ} (distinct : DistinctScores output) :
    (proposals proposer.config frameId frame output).map entryOf =
        (((referenceSurvivors proposer.config frame output).filter nonEmpty).take
          proposer.config.maxCandidates).map entry ∧
      ((proposals proposer.config frameId frame output).map entryOf =
          referenceList proposer.config frame output ↔
        ∀ listed ∈ referenceList proposer.config frame output,
          0 < listed.width ∧ 0 < listed.height) :=
  ⟨map_entryOf_proposals proposer.checked distinct frameId,
    map_entryOf_eq_iff proposer.checked distinct frameId⟩

/-- Two objects, of which the reference and the proposer both suppress predictions. -/
theorem proposals_eq_reference_twoObjects :
    (proposals {} 7 ⟨640, 480, true⟩ twoObjects).map entryOf =
        (((referenceSurvivors {} ⟨640, 480, true⟩ twoObjects).filter nonEmpty).take
          10).map entry ∧
      ((proposals {} 7 ⟨640, 480, true⟩ twoObjects).map entryOf =
          referenceList {} ⟨640, 480, true⟩ twoObjects ↔
        ∀ listed ∈ referenceList {} ⟨640, 480, true⟩ twoObjects,
          0 < listed.width ∧ 0 < listed.height) :=
  proposals_eq_reference ⟨{}, ProposerConfig.default_valid⟩ ⟨640, 480, true⟩ 7
    distinctScores_twoObjects

end Lists

end Adas.Roi.DecodeReference
