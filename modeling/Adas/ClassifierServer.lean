import Adas.SafetyBridge
import Mathlib.Data.List.SplitBy

/-!
# How the classifier server groups observations into frames

The server has no end-of-frame message.  It flushes the bridge when a request
of another frame arrives on the same connection, and drops what it has
collected when the connection breaks.  This file models the main loop of the
server as the calls it makes to the bridge, and shows that the frames that are
judged are exactly the completed runs of requests with one frame id.
-/

namespace Adas.Control.ClassifierServer

open Safety
open SafetyBridge

variable {F : Type} [FloatOps F]

/-- A request that has been received, with what the server finds out about it:
the classification, whether the answer could be sent, and the clock at the
calls it leads to. -/
structure Request (F : Type) where
  frameId : BitVec 32
  bbox : RoiBbox F
  result : RoiResult
  sent : Bool
  flushMs : Nat
  addMs : Nat
  stopMs : Nat

/-- The requests that arrive on a connection until receiving fails. -/
structure Connection (F : Type) where
  requests : List (Request F)
  failedMs : Nat

/-- The flush that a request of another frame leads to.  `currentFrameId` is
`current_frame_id`, and `none` while `have_current_frame` is zero. -/
def flushBefore (currentFrameId : Option (BitVec 32)) (request : Request F) :
    List (Call F) :=
  match currentFrameId with
  | none => []
  | some frameId =>
      if request.frameId ≠ frameId then [.flushFrame request.flushMs] else []

/-- The inner loop of `main`. -/
def receiveLoop (failedMs : Nat) (currentFrameId : Option (BitVec 32)) :
    List (Request F) → List (Call F)
  | [] => [.forceStop failedMs]
  | request :: rest =>
      flushBefore currentFrameId request ++
        .addObservation request.addMs request.bbox request.result ::
          if request.sent then
            receiveLoop failedMs (some request.frameId) rest
          else
            [.forceStop request.stopMs]

def connectionCalls (connection : Connection F) : List (Call F) :=
  receiveLoop connection.failedMs none connection.requests

/-- The calls of `main`: all connections, then `ps_safety_stop` when accepting
fails, which forces a stop as well. -/
def mainCalls (connections : List (Connection F)) (shutdownMs : Nat) :
    List (Call F) :=
  connections.flatMap connectionCalls ++ [.forceStop shutdownMs]

/-- What one flush judges. -/
structure FrameBatch (F : Type) where
  items : List (DetectionRecord F)
  backgroundSlow : Bool

/-- What a call judges: the buffer and the flag at a flush. -/
def judgedBatch (handle : Handle F) : Call F → Option (FrameBatch F)
  | .flushFrame _ => some ⟨handle.pending.items, handle.pendingBackgroundSlow⟩
  | _ => none

/-- Everything that is judged during some calls, in order. -/
def judgedBatches (settings : Settings F) (handle : Handle F)
    (calls : List (Call F)) : List (FrameBatch F) :=
  (machine settings).collectFrom judgedBatch handle calls

/-- The requests of a connection that are served: up to the first answer that
could not be sent. -/
def served : List (Request F) → List (Request F)
  | [] => []
  | request :: rest =>
      if request.sent then request :: served rest else [request]

def sameFrame (first second : Request F) : Bool :=
  first.frameId == second.frameId

/-- The maximal runs of served requests with one frame id. -/
def frameRuns (connection : Connection F) : List (List (Request F)) :=
  (served connection.requests).splitBy sameFrame

/-- The detection that `ps_safety_add_observation` makes of a request. -/
def accepted (settings : Settings F) (request : Request F) :
    Option (DetectionRecord F) :=
  match observe settings request.bbox request.result with
  | .detection record => some record
  | _ => none

/-- The request is a background candidate that raises the flag. -/
def raisesFlag (settings : Settings F) (request : Request F) : Bool :=
  match observe settings request.bbox request.result with
  | .background dangerous => dangerous
  | _ => false

/-- Some request raises the flag before the buffer, which holds `collected`
detections at the start, is full. -/
def backgroundSlow (settings : Settings F) : Nat → List (Request F) → Bool
  | _, [] => false
  | collected, request :: rest =>
      (collected < kMaxDetections && raisesFlag settings request) ||
        backgroundSlow settings
          (collected + (accepted settings request).toList.length) rest

/-- The batch of a run of requests. -/
def batchOf (settings : Settings F) (run : List (Request F)) : FrameBatch F where
  items := (run.filterMap (accepted settings)).take kMaxDetections
  backgroundSlow := backgroundSlow settings 0 run

variable {settings : Settings F}

section Collecting

/-- The buffer and the flag hold what a run of requests has left there. -/
def Collected (settings : Settings F) (run : List (Request F))
    (handle : Handle F) : Prop :=
  handle.pending.items = (batchOf settings run).items ∧
    handle.pendingBackgroundSlow = (batchOf settings run).backgroundSlow

theorem backgroundSlow_append (collected : Nat) (run : List (Request F))
    (request : Request F) :
    backgroundSlow settings collected (run ++ [request]) =
      (backgroundSlow settings collected run ||
        (collected + (run.filterMap (accepted settings)).length <
            kMaxDetections && raisesFlag settings request)) := by
  induction run generalizing collected with
  | nil => simp [backgroundSlow]
  | cons first run ih =>
      have count : ((first :: run).filterMap (accepted settings)).length =
          (accepted settings first).toList.length +
            (run.filterMap (accepted settings)).length := by
        cases made : accepted settings first <;> simp [made]
        omega
      rw [List.cons_append, backgroundSlow, ih, count, backgroundSlow,
        Bool.or_assoc, Nat.add_assoc]

/-- A full buffer takes nothing more, and the batch has no more to take. -/
theorem batchOf_append (run : List (Request F)) (request : Request F) :
    batchOf settings (run ++ [request]) =
      if (batchOf settings run).items.length < kMaxDetections then
        ⟨(batchOf settings run).items ++ (accepted settings request).toList,
          (batchOf settings run).backgroundSlow || raisesFlag settings request⟩
      else
        batchOf settings run := by
  have split : (run ++ [request]).filterMap (accepted settings) =
      run.filterMap (accepted settings) ++
        (accepted settings request).toList := by
    cases made : accepted settings request <;> simp [made]
  have short : (accepted settings request).toList.length ≤ 1 := by
    cases accepted settings request <;> simp
  simp only [batchOf, split, backgroundSlow_append, List.length_take,
    Nat.zero_add]
  split_ifs with room
  · have room' : (run.filterMap (accepted settings)).length <
        kMaxDetections := by omega
    rw [List.take_of_length_le (by simp; omega),
      List.take_of_length_le room'.le]
    simp [room']
  · have full : kMaxDetections ≤
        (run.filterMap (accepted settings)).length := by omega
    rw [List.take_append_of_le_length full]
    simp [Nat.not_lt.mpr full]

theorem Collected.add {run : List (Request F)} {handle : Handle F}
    (collected : Collected settings run handle) (request : Request F) :
    Collected settings (run ++ [request])
      (addObservation settings handle request.bbox request.result) := by
  obtain ⟨items, flag⟩ := collected
  rw [Collected, batchOf_append, ← items, ← flag, addObservation]
  by_cases room : handle.pending.items.length < kMaxDetections
  · rw [dif_pos room, if_pos room, accepted, raisesFlag]
    cases observe settings request.bbox request.result with
    | dropped => simp
    | background dangerous => cases dangerous <;> simp
    | detection record => simp [Pending.push]
  · rw [dif_neg room, if_neg room]
    exact ⟨items, flag⟩

end Collecting

section Loop

theorem judgedBatches_cons (handle : Handle F) (call : Call F)
    (calls : List (Call F)) :
    judgedBatches settings handle (call :: calls) =
      (judgedBatch handle call).toList ++
        judgedBatches settings (step settings handle call).1 calls :=
  rfl

omit [FloatOps F] in
/-- One run is not split. -/
theorem splitBy_dropLast_of_isChain {run : List (Request F)}
    (oneFrame : run.IsChain fun first second => sameFrame first second) :
    (run.splitBy sameFrame).dropLast = [] := by
  rcases run.eq_nil_or_concat with rfl | ⟨_, _, rfl⟩
  · rfl
  · rw [List.splitBy_of_isChain (by simp) oneFrame]
    rfl

/-- From a handle that has collected the run so far, the loop judges the runs
that the requests to come complete. -/
theorem judgedBatches_receiveLoop (failedMs : Nat)
    (requests run : List (Request F)) (handle : Handle F)
    (collected : Collected settings run handle)
    (oneFrame : run.IsChain fun first second => sameFrame first second) :
    judgedBatches settings handle
        (receiveLoop failedMs (run.getLast?.map Request.frameId) requests) =
      ((run ++ served requests).splitBy sameFrame).dropLast.map
        (batchOf settings) := by
  induction requests generalizing run handle with
  | nil =>
      simp [receiveLoop, judgedBatches, judgedBatch, served,
        splitBy_dropLast_of_isChain oneFrame]
  | cons request rest ih =>
      -- After the flush, if any, the request joins the run it belongs to.
      have joins : ∀ (run : List (Request F)) (handle : Handle F),
          Collected settings run handle →
          ((run ++ [request]).IsChain fun first second =>
            sameFrame first second) →
          judgedBatches settings handle
              (.addObservation request.addMs request.bbox request.result ::
                if request.sent then
                  receiveLoop failedMs (some request.frameId) rest
                else
                  [.forceStop request.stopMs]) =
            ((run ++ served (request :: rest)).splitBy sameFrame).dropLast.map
              (batchOf settings) := by
        intro run handle collected oneFrame
        rw [judgedBatches_cons, served]
        cases request.sent with
        | true =>
            have continues := ih (run ++ [request]) _ (collected.add request)
              oneFrame
            simpa [judgedBatch, step] using continues
        | false =>
            simp [judgedBatch, judgedBatches,
              splitBy_dropLast_of_isChain oneFrame]
      rw [receiveLoop]
      rcases run.eq_nil_or_concat with rfl | ⟨earlier, last, rfl⟩
      · simpa [flushBefore] using joins [] handle collected (by simp)
      · rw [List.concat_eq_append] at collected oneFrame ⊢
        by_cases same : request.frameId = last.frameId
        · have stillOne : (earlier ++ [last] ++ [request]).IsChain
              fun first second => sameFrame first second := by
            rw [List.isChain_append]
            exact ⟨oneFrame, by simp, by simp [sameFrame, same]⟩
          simpa [flushBefore, same] using joins _ handle collected stillOne
        · have flushed : Collected settings ([] : List (Request F))
              (step settings handle (.flushFrame request.flushMs)).1 :=
            ⟨rfl, rfl⟩
          have next := joins [] _ flushed (by simp)
          have head : (served (request :: rest)).head? = some request := by
            rw [served]
            split_ifs <;> rfl
          have nonempty : (served (request :: rest)).splitBy sameFrame ≠ [] := by
            rw [List.splitBy_ne_nil]
            intro empty
            simp [empty] at head
          rw [List.splitBy_append (by simp [head, sameFrame, Ne.symm same]),
            List.splitBy_of_isChain (by simp) oneFrame,
            List.dropLast_append_of_ne_nil nonempty, List.map_append]
          obtain ⟨items, flag⟩ := collected
          simpa [flushBefore, same, judgedBatches_cons, judgedBatch, items, flag]
            using next

/-- The loop leaves the buffer and the flag empty. -/
theorem collected_receiveLoop (failedMs : Nat)
    (currentFrameId : Option (BitVec 32)) (requests : List (Request F))
    (handle : Handle F) :
    Collected settings []
      ((machine settings).runFrom handle
        (receiveLoop failedMs currentFrameId requests)) := by
  induction requests generalizing currentFrameId handle with
  | nil => exact ⟨rfl, rfl⟩
  | cons request rest ih =>
      rw [receiveLoop, EventMachine.runFrom_append, EventMachine.runFrom_cons]
      split_ifs
      · exact ih _ _
      · exact ⟨rfl, rfl⟩

theorem judgedBatches_append (handle : Handle F)
    (calls more : List (Call F)) :
    judgedBatches settings handle (calls ++ more) =
      judgedBatches settings handle calls ++
        judgedBatches settings ((machine settings).runFrom handle calls) more :=
  EventMachine.collectFrom_append (machine settings) handle calls more
    judgedBatch

/-- Between connections the handle has collected nothing. -/
theorem collected_connections (connections : List (Connection F))
    (handle : Handle F) (empty : Collected settings [] handle) :
    Collected settings []
      ((machine settings).runFrom handle
        (connections.flatMap connectionCalls)) := by
  induction connections generalizing handle with
  | nil => exact empty
  | cons connection connections ih =>
      rw [List.flatMap_cons, EventMachine.runFrom_append]
      exact ih _ (collected_receiveLoop _ _ _ _)

theorem judgedBatches_connections (connections : List (Connection F))
    (handle : Handle F) (empty : Collected settings [] handle) :
    judgedBatches settings handle (connections.flatMap connectionCalls) =
      connections.flatMap fun connection =>
        (frameRuns connection).dropLast.map (batchOf settings) := by
  induction connections generalizing handle with
  | nil => rfl
  | cons connection connections ih =>
      have judged := judgedBatches_receiveLoop connection.failedMs
        connection.requests [] handle empty (by simp)
      have rest := ih _ (collected_receiveLoop connection.failedMs none
        connection.requests handle)
      rw [List.flatMap_cons, List.flatMap_cons, judgedBatches_append]
      exact congrArg₂ (· ++ ·) judged rest

end Loop

omit [FloatOps F] in
theorem frameId_of_isChain {request : Request F} {run : List (Request F)}
    (oneFrame : (request :: run).IsChain fun first second =>
      sameFrame first second) :
    ∀ later ∈ run, later.frameId = request.frameId := by
  induction run generalizing request with
  | nil => simp
  | cons next run ih =>
      obtain ⟨same, rest⟩ := List.isChain_cons_cons.mp oneFrame
      have nextSame : next.frameId = request.frameId :=
        (eq_of_beq same).symm
      intro later mem
      rcases List.mem_cons.mp mem with rfl | mem
      · exact nextSame
      · exact (ih rest later mem).trans nextSame

omit [FloatOps F] in
/-- The runs of a connection are its maximal runs of requests with one frame
id. -/
theorem frameRuns_maximal (connection : Connection F) :
    (frameRuns connection).flatten = served connection.requests ∧
    (∀ run ∈ frameRuns connection, run ≠ [] ∧
      ∀ first ∈ run, ∀ second ∈ run, first.frameId = second.frameId) ∧
    (frameRuns connection).IsChain fun run next =>
      ∀ first ∈ run, ∀ second ∈ next, first.frameId ≠ second.frameId := by
  have oneFrame : ∀ run ∈ frameRuns connection, ∀ first ∈ run, ∀ second ∈ run,
      first.frameId = second.frameId := by
    intro run mem
    have chain := List.isChain_of_mem_splitBy mem
    cases run with
    | nil => simp
    | cons request run =>
        have same : ∀ later ∈ request :: run,
            later.frameId = request.frameId := by
          simpa using frameId_of_isChain chain
        intro first firstMem second secondMem
        rw [same first firstMem, same second secondMem]
  refine ⟨List.flatten_splitBy _ _, fun run mem =>
    ⟨List.ne_nil_of_mem_splitBy mem, oneFrame run mem⟩, ?_⟩
  refine (List.isChain_getLast_head_splitBy sameFrame
    (served connection.requests)).imp_of_mem_imp ?_
  rintro run next runMem nextMem ⟨runNonempty, nextNonempty, border⟩ first
    firstMem second secondMem
  rw [oneFrame run runMem first firstMem _ (List.getLast_mem runNonempty),
    oneFrame next nextMem second secondMem _ (List.head_mem nextNonempty)]
  simpa [sameFrame] using border

/-- The frame partition of the server: what is judged is, for each connection
in turn, the batches of its runs but the last; the runs are the maximal runs of
served requests with one frame id; and nothing is left over between
connections. -/
theorem frames_partition (settings : Settings F)
    (connections : List (Connection F)) (shutdownMs : Nat) :
    judgedBatches settings {} (mainCalls connections shutdownMs) =
      connections.flatMap (fun connection =>
        (frameRuns connection).dropLast.map (batchOf settings)) ∧
    (∀ connection : Connection F,
      (frameRuns connection).flatten = served connection.requests ∧
      (∀ run ∈ frameRuns connection, run ≠ [] ∧
        ∀ first ∈ run, ∀ second ∈ run, first.frameId = second.frameId) ∧
      (frameRuns connection).IsChain fun run next =>
        ∀ first ∈ run, ∀ second ∈ next, first.frameId ≠ second.frameId) ∧
    ∀ count, Collected settings []
      ((machine settings).runFrom {}
        ((connections.take count).flatMap connectionCalls)) := by
  have empty : Collected settings [] ({} : Handle F) := ⟨rfl, rfl⟩
  refine ⟨?_, frameRuns_maximal, fun count =>
    collected_connections _ _ empty⟩
  rw [mainCalls, judgedBatches_append, judgedBatches_connections _ _ empty]
  exact List.append_nil _

end Adas.Control.ClassifierServer
