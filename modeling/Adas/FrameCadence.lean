import Adas.FrameServing
import Adas.SafetyTransmitterRuns

/-!
# Decisions that do not grow old

The board judges a frame when the next one begins, and the transmitter replaces a
decision that is too old by `stop`.  The Jetson's sign of life is there so that an
empty road does not stop the robot.  This file puts the clocks together: how far apart
the frames of the Jetson, the first requests at the board, the decisions of the bridge
and their publications can be.
-/

namespace Adas.FrameCadence

open Control (SafetyBridge.Settings)
open Control.ClassifierServer (Request Connection served frameRuns receiveLoop
  connectionCalls flushBefore sameFrame)
open Control.SafetyBridge (Call Handle)
open Control.SafetyTransmitter (Config Event lastDecision sendingAt)
open FrameServing (Arrives)
open JetsonRoiClient (SentFrame CameraFrame Turn sentFrames arrivals)
open Safety (State)

section Decisions

/-- What a call of the bridge decides, and when. -/
def decisionOf (bridge : SafetyBridge.Settings ℚ) (handle : Handle ℚ) (call : Call ℚ) :
    Option (State × Nat) :=
  (Control.SafetyBridge.step bridge handle call).2.map fun state => (state, call.nowMs)

/-- The decisions during some calls, as the transmitter is given them. -/
def decisions (bridge : SafetyBridge.Settings ℚ) (handle : Handle ℚ)
    (calls : List (Call ℚ)) : List (State × Nat) :=
  (Control.SafetyBridge.machine bridge).collectFrom (decisionOf bridge) handle calls

/-- When the first request of a run leads to a flush. -/
def flushMs (run : List (Request ℚ)) : Option Nat :=
  run.head?.map Request.flushMs

variable {bridge : SafetyBridge.Settings ℚ}

theorem decisions_cons (handle : Handle ℚ) (call : Call ℚ) (calls : List (Call ℚ)) :
    decisions bridge handle (call :: calls) =
      (decisionOf bridge handle call).toList ++
        decisions bridge (Control.SafetyBridge.step bridge handle call).1 calls :=
  rfl

theorem served_cons (request : Request ℚ) (requests : List (Request ℚ)) :
    ∃ later, served (request :: requests) = request :: later := by
  rw [served]
  split_ifs
  · exact ⟨_, rfl⟩
  · exact ⟨[], rfl⟩

variable (bridge) in
/-- From a run that has begun, the loop decides at the first request of every further
run, and once more when the connection ends. -/
theorem decisions_receiveLoop (failedMs : Nat) (requests run : List (Request ℚ))
    (handle : Handle ℚ)
    (oneFrame : run.IsChain fun first second => sameFrame first second = true) :
    ∃ stopMs, (decisions bridge handle
        (receiveLoop failedMs (run.getLast?.map Request.frameId) requests)).map Prod.snd =
      ((run ++ served requests).splitBy sameFrame).tail.filterMap flushMs ++ [stopMs] := by
  induction requests generalizing run handle with
  | nil =>
      refine ⟨failedMs, ?_⟩
      rcases eq_or_ne run [] with rfl | nonempty
      · rfl
      · rw [served, List.append_nil, List.splitBy_of_isChain nonempty oneFrame]
        rfl
  | cons request requests ih =>
      -- The request joins a run, and the loop goes on or ends.
      have joins : ∀ (run : List (Request ℚ)) (handle : Handle ℚ),
          ((run ++ [request]).IsChain fun first second =>
            sameFrame first second = true) →
          ∃ stopMs, (decisions bridge handle
              (.addObservation request.addMs request.bbox request.result ::
                if request.sent then
                  receiveLoop failedMs (some request.frameId) requests
                else
                  [.forceStop request.stopMs])).map Prod.snd =
            ((run ++ served (request :: requests)).splitBy sameFrame).tail.filterMap
              flushMs ++ [stopMs] := by
        intro run handle oneFrame
        rw [served]
        cases request.sent with
        | true =>
            obtain ⟨stopMs, times⟩ := ih (run ++ [request])
              (Control.SafetyBridge.step bridge handle
                (.addObservation request.addMs request.bbox request.result)).1 oneFrame
            refine ⟨stopMs, ?_⟩
            rw [List.getLast?_concat, List.append_assoc] at times
            exact times
        | false =>
            refine ⟨request.stopMs, ?_⟩
            rw [if_neg Bool.false_ne_true, if_neg Bool.false_ne_true,
              List.splitBy_of_isChain (by simp) oneFrame]
            rfl
      rw [receiveLoop]
      rcases run.eq_nil_or_concat with rfl | ⟨earlier, last, rfl⟩
      · exact joins [] handle (List.isChain_singleton request)
      · rw [List.concat_eq_append] at oneFrame ⊢
        by_cases same : request.frameId = last.frameId
        · have stillOne : (earlier ++ [last] ++ [request]).IsChain
              fun first second => sameFrame first second = true := by
            rw [List.isChain_append]
            exact ⟨oneFrame, by simp, by simp [sameFrame, same]⟩
          simpa [flushBefore, same] using joins _ handle stillOne
        · obtain ⟨stopMs, next⟩ := joins [] (Control.SafetyBridge.step bridge handle
            (.flushFrame request.flushMs)).1 (List.isChain_singleton request)
          obtain ⟨later, isServed⟩ := served_cons request requests
          obtain ⟨begun, runs, isSplit⟩ :=
            KeyedRuns.exists_splitBy_cons sameFrame request later
          rw [List.nil_append, isServed, isSplit, List.tail_cons] at next
          have flushes : flushBefore (some last.frameId) request =
              [.flushFrame request.flushMs] := if_pos same
          have border : ∀ x ∈ (earlier ++ [last]).getLast?, sameFrame x request = false := by
            intro x isLast
            obtain rfl : last = x := by simpa using isLast
            exact beq_eq_false_iff_ne.mpr (Ne.symm same)
          refine ⟨stopMs, ?_⟩
          rw [List.getLast?_concat, Option.map_some, flushes, List.singleton_append,
            decisions_cons, List.map_append, next, isServed,
            List.splitBy_append_cons later border,
            List.splitBy_of_isChain (by simp) oneFrame, isSplit]
          rfl

end Decisions

section Clocks

/-- The board's clock is `offset` ahead, and the first request for a frame comes within
`delay` after the frame has been looked at. -/
def InTime (offset : Int) (delay : Nat) (frame : SentFrame) (run : List (Request ℚ)) : Prop :=
  ∀ request ∈ run.head?, (frame.arrival.time : Int) + offset ≤ request.flushMs ∧
    (request.flushMs : Int) ≤ frame.arrival.time + offset + delay

instance (offset : Int) (delay : Nat) (frame : SentFrame) (run : List (Request ℚ)) :
    Decidable (InTime offset delay frame run) :=
  inferInstanceAs (Decidable (∀ request ∈ run.head?,
    (frame.arrival.time : Int) + offset ≤ request.flushMs ∧
      (request.flushMs : Int) ≤ frame.arrival.time + offset + delay))

variable {offset : Int} {delay period : Nat}

theorem flushes_cons (request : Request ℚ) (run : List (Request ℚ))
    (runs : List (List (Request ℚ))) :
    ((request :: run) :: runs).filterMap flushMs =
      request.flushMs :: runs.filterMap flushMs :=
  rfl

/-- Frames that are close to each other are flushed close to each other. -/
theorem flushes_isChain {frames : List SentFrame} {runs : List (List (Request ℚ))}
    (near : frames.IsChain fun first second =>
      second.arrival.time ≤ first.arrival.time + period)
    (inTime : ∀ pair ∈ frames.zip runs, InTime offset delay pair.1 pair.2)
    (count : runs.length ≤ frames.length) (nonempty : [] ∉ runs) :
    (runs.filterMap flushMs).IsChain fun first second =>
      second ≤ first + (period + delay) := by
  induction runs generalizing frames with
  | nil => exact List.IsChain.nil
  | cons run runs ih =>
      cases frames with
      | nil => exact absurd count (Nat.not_succ_le_zero _)
      | cons frame frames =>
          have later := ih near.tail
            (fun pair isPair => inTime pair (List.mem_cons_of_mem _ isPair))
            (Nat.le_of_succ_le_succ count)
            (fun isRun => nonempty (List.mem_cons_of_mem run isRun))
          cases run with
          | nil => exact absurd List.mem_cons_self nonempty
          | cons request run =>
              have here := inTime (frame, request :: run) List.mem_cons_self request rfl
              rw [flushes_cons]
              cases runs with
              | nil => exact List.isChain_singleton _
              | cons next runs =>
                  cases next with
                  | nil => exact absurd (by simp) nonempty
                  | cons nextRequest next =>
                      cases frames with
                      | nil => simp at count
                      | cons nextFrame frames =>
                          have there := inTime (nextFrame, nextRequest :: next)
                            (by simp) nextRequest rfl
                          have close := (List.isChain_cons_cons.mp near).1
                          rw [flushes_cons] at later ⊢
                          rw [List.isChain_cons_cons]
                          refine ⟨?_, later⟩
                          simp only at here there
                          omega

end Clocks

section Ticks

variable {config : Config} {events : List Event}

/-- A tick sends the last decision if the next one is not long after it. -/
theorem sendingAt_of_next {period slack index nowMs count : Nat} {ending : Control.WriteEnd}
    {state next : State} {decidedAtMs nextMs : Nat}
    (ordered : events.Pairwise fun first second => first.nowMs ≤ second.nowMs)
    (prompt : ∀ state decidedAtMs nowMs ending,
      Event.publish state decidedAtMs nowMs ending ∈ events →
        decidedAtMs ≤ nowMs ∧ nowMs ≤ decidedAtMs + slack)
    (atIndex : events[index]? = some (.tick nowMs ending))
    (soFar : ((events.take index).filterMap Event.decision).length = count + 1)
    (here : (events.filterMap Event.decision)[count]? = some (state, decidedAtMs))
    (there : (events.filterMap Event.decision)[count + 1]? = some (next, nextMs))
    (close : nextMs ≤ decidedAtMs + period)
    (budget : period + slack < config.decisionTimeoutMs) :
    sendingAt config events index = some ⟨state, ending⟩ := by
  have split : events.filterMap Event.decision =
      (events.take index).filterMap Event.decision ++
        (events.drop index).filterMap Event.decision := by
    rw [← List.filterMap_append, List.take_append_drop]
  rw [split] at here there
  rw [List.getElem?_append_left (by omega)] at here
  rw [List.getElem?_append_right soFar.le, soFar, Nat.sub_self] at there
  have last : lastDecision (events.take index) = some (state, decidedAtMs) := by
    rw [lastDecision, EventMachine.lastSeen, List.getLast?_eq_getElem?, soFar]
    exact here
  -- The next decision is published after the tick.
  obtain ⟨inRange, isTick⟩ := List.getElem?_eq_some_iff.mp atIndex
  have afterwards := List.drop_eq_getElem_cons inRange
  rw [isTick] at afterwards
  have sorted := ordered.sublist (List.drop_sublist index events)
  rw [afterwards, List.pairwise_cons] at sorted
  rw [afterwards, List.filterMap_cons_none rfl] at there
  obtain ⟨event, isEvent, decided⟩ := List.mem_filterMap.mp (List.mem_of_getElem? there)
  have soon : nowMs ≤ nextMs + slack := by
    have inOrder := sorted.1 event isEvent
    cases event with
    | tick => simp [Event.decision] at decided
    | publish other otherMs publishedMs taken =>
        obtain ⟨rfl, rfl⟩ : other = next ∧ otherMs = nextMs := by
          simpa [Event.decision] using decided
        have isPublished := List.mem_of_mem_drop isEvent
        exact inOrder.trans (prompt _ _ _ _ isPublished).2
  rw [Control.SafetyTransmitter.sendingAt_tick atIndex, last]
  · have fresh : nowMs - decidedAtMs < config.decisionTimeoutMs := by omega
    simp only [if_pos fresh]
  · intro state decidedAtMs isLast
    exact Control.SafetyTransmitter.lastDecision_le ordered
      (fun state decidedAtMs nowMs ending isPublished =>
        (prompt state decidedAtMs nowMs ending isPublished).1) atIndex isLast

end Ticks

section Chain

variable {settings : JetsonRoiClient.Settings} {turns : List Turn}

/-- With the sign of life on, the frames that send are close to each other. -/
theorem sentFrames_near (heartbeats : settings.emptyFrameHeartbeat = true) {gap work : Nat}
    (punctual : KeepAlive.Punctual gap work (arrivals settings turns))
    (fits : ∀ arrival ∈ arrivals settings turns, arrival.time < 2 ^ 64) :
    (sentFrames settings turns).IsChain fun first second =>
      second.arrival.time ≤
        first.arrival.time + (work + settings.heartbeatIntervalMs + gap) := by
  have near : (KeepAlive.sent settings.heartbeatIntervalMs 0
      (arrivals settings turns)).IsChain _ := KeepAlive.sent_isChain punctual 0
  have same := JetsonRoiClient.sent_eq_keepAlive heartbeats punctual
    fun arrival isArrival => ⟨Nat.zero_le _, fits arrival isArrival⟩
  rw [← List.isChain_map SentFrame.arrival
    (R := fun first second => second.time ≤
      first.time + (work + settings.heartbeatIntervalMs + gap))]
  exact same ▸ near

theorem length_flushes {runs : List (List (Request ℚ))} (nonempty : [] ∉ runs) :
    (runs.filterMap flushMs).length = runs.length := by
  induction runs with
  | nil => rfl
  | cons run runs ih =>
      cases run with
      | nil => exact absurd List.mem_cons_self nonempty
      | cons request run =>
          rw [flushes_cons, List.length_cons, List.length_cons,
            ih fun isRun => nonempty (List.mem_cons_of_mem _ isRun)]

/-- Two decisions of a connection that follow each other at the starts of frames are as
close as the frames. -/
theorem decisions_near {bridge : SafetyBridge.Settings ℚ} {handle : Handle ℚ}
    {connection : Connection ℚ} {period count : Nat}
    (near : ((frameRuns connection).filterMap flushMs).IsChain fun first second =>
      second ≤ first + period)
    (between : count + 2 < (frameRuns connection).length) :
    ∃ state next decidedAtMs nextMs,
      (decisions bridge handle (connectionCalls connection))[count]? =
        some (state, decidedAtMs) ∧
      (decisions bridge handle (connectionCalls connection))[count + 1]? =
        some (next, nextMs) ∧
      nextMs ≤ decidedAtMs + period := by
  have nonempty : [] ∉ frameRuns connection := List.nil_notMem_splitBy _ _
  obtain ⟨stopMs, times⟩ := decisions_receiveLoop bridge connection.failedMs
    connection.requests [] handle List.IsChain.nil
  rw [List.nil_append, show (served connection.requests).splitBy sameFrame =
    frameRuns connection from rfl] at times
  cases isRuns : frameRuns connection with
  | nil => simp [isRuns] at between
  | cons run runs =>
      rw [isRuns] at near between nonempty times
      cases run with
      | nil => exact absurd List.mem_cons_self nonempty
      | cons request run =>
          have count_lt : count + 1 < (runs.filterMap flushMs).length := by
            rw [length_flushes fun isRun => nonempty (List.mem_cons_of_mem _ isRun)]
            exact Nat.lt_of_succ_lt_succ between
          -- The decision at a place is taken at the flush of that place.
          have decided : ∀ place (inRange : place < (runs.filterMap flushMs).length),
              ∃ state, (decisions bridge handle (connectionCalls connection))[place]? =
                some (state, (runs.filterMap flushMs)[place]) := by
            intro place inRange
            have here := congrArg (fun all => all[place]?) times
            simp only [List.tail_cons, List.getElem?_map] at here
            rw [List.getElem?_append_left inRange, List.getElem?_eq_getElem inRange] at here
            obtain ⟨⟨state, decidedAtMs⟩, isDecision, rfl⟩ := Option.map_eq_some_iff.mp here
            exact ⟨state, isDecision⟩
          obtain ⟨state, here⟩ := decided count (Nat.lt_of_succ_lt count_lt)
          obtain ⟨next, there⟩ := decided (count + 1) count_lt
          rw [flushes_cons] at near
          exact ⟨state, next, _, _, here, there,
            List.isChain_iff_getElem.mp near.tail count count_lt⟩

end Chain

/-- The sign of life does its work.  Let the Jetson look at a frame at least every
`gap`, take at most `work` to send what it finds, and let requests, decisions and
publications be late by no more than `delay` and `slack`.  If all this fits in the
transmitter's time limit, then from the first decision of a connection to its last one
every tick sends what the bridge has decided, however long the road is empty. -/
theorem heartbeats_keep_decisions_fresh {settings : JetsonRoiClient.Settings}
    (heartbeats : settings.emptyFrameHeartbeat = true) {turns : List Turn}
    (cameras : ∀ frame, Turn.frame frame ∈ turns → CameraFrame frame.frame)
    (unwrapped : turns.length ≤ 2 ^ 32) {gap work : Nat}
    (punctual : KeepAlive.Punctual gap work (arrivals settings turns))
    (fits : ∀ arrival ∈ arrivals settings turns, arrival.time < 2 ^ 64)
    {start : Nat} {connection : Connection ℚ}
    (arrives : Arrives ((sentFrames settings turns).drop start) connection)
    {offset : Int} {delay : Nat}
    (inTime : ∀ pair ∈ ((sentFrames settings turns).drop start).zip (frameRuns connection),
      InTime offset delay pair.1 pair.2)
    (bridge : SafetyBridge.Settings ℚ) (handle : Handle ℚ) {config : Config}
    {events : List Event} {earlier later : List (State × Nat)}
    (publishes : events.filterMap Event.decision =
      earlier ++ decisions bridge handle (connectionCalls connection) ++ later)
    (ordered : events.Pairwise fun first second => first.nowMs ≤ second.nowMs)
    {slack : Nat}
    (prompt : ∀ state decidedAtMs nowMs ending,
      Event.publish state decidedAtMs nowMs ending ∈ events →
        decidedAtMs ≤ nowMs ∧ nowMs ≤ decidedAtMs + slack)
    (budget : work + settings.heartbeatIntervalMs + gap + delay + slack <
      config.decisionTimeoutMs)
    {index nowMs count : Nat} {ending : Control.WriteEnd}
    (atIndex : events[index]? = some (.tick nowMs ending))
    (soFar : ((events.take index).filterMap Event.decision).length =
      earlier.length + count + 1)
    (between : count + 2 < (frameRuns connection).length) :
    ∃ state decidedAtMs,
      (decisions bridge handle (connectionCalls connection))[count]? =
        some (state, decidedAtMs) ∧
      sendingAt config events index = some ⟨state, ending⟩ := by
  have sound := JetsonRoiClient.sentFrames_sound settings cameras
  have differ := JetsonRoiClient.sentFrames_differ settings cameras unwrapped
  have enough := (FrameServing.frameRuns_of_arrives
    (fun frame isFrame => sound frame (List.mem_of_mem_drop isFrame))
    (differ.drop start) arrives).1
  have near := flushes_isChain ((sentFrames_near heartbeats punctual fits).drop start)
    inTime enough (List.nil_notMem_splitBy _ _)
  obtain ⟨state, next, decidedAtMs, nextMs, here, there, close⟩ :=
    decisions_near near between
  have published : ∀ place decision,
      (decisions bridge handle (connectionCalls connection))[place]? = some decision →
        (events.filterMap Event.decision)[earlier.length + place]? = some decision := by
    intro place decision isDecision
    have inRange := (List.getElem?_eq_some_iff.mp isDecision).1
    rw [publishes, List.append_assoc, List.getElem?_append_right (Nat.le_add_right _ _),
      Nat.add_sub_cancel_left, List.getElem?_append_left inRange]
    exact isDecision
  refine ⟨state, decidedAtMs, here, ?_⟩
  exact sendingAt_of_next ordered prompt atIndex soFar (published count _ here)
    (published (count + 1) _ there) close budget

section EmptyRoad

open FrameServing (roadFrame roadSettings roadConnection arrives_roadConnection
  cameraFrame_roadFrame)

/-- Nothing is found in four frames. -/
def emptyRoad : List JetsonRoiClient.Turn :=
  [.frame (roadFrame 1000 none), .timeout, .frame (roadFrame 1100 none),
    .frame (roadFrame 1200 none), .frame (roadFrame 1400 none)]

theorem cameras_emptyRoad : ∀ frame, JetsonRoiClient.Turn.frame frame ∈ emptyRoad →
    CameraFrame frame.frame := by
  intro frame isFrame
  simp only [emptyRoad, List.mem_cons, JetsonRoiClient.Turn.frame.injEq, reduceCtorEq,
    false_or, List.not_mem_nil, or_false] at isFrame
  rcases isFrame with rfl | rfl | rfl | rfl <;> exact cameraFrame_roadFrame _ _

def emptyRoadConnection : Connection ℚ :=
  roadConnection roadSettings emptyRoad

/-- The publications of the empty road, with a tick between the first two. -/
def emptyRoadEvents : List Event :=
  [.publish .clear 1203 1204 .complete, .tick 1390 .complete,
    .publish .clear 1403 1404 .complete, .publish .stop 2000 2000 .complete]

theorem arrivals_emptyRoad : arrivals roadSettings emptyRoad =
    [⟨1000, false, 1015⟩, ⟨1100, false, 1115⟩, ⟨1200, false, 1215⟩,
      ⟨1400, false, 1415⟩] := by
  decide +kernel

/-- The tick is 187 ms after the decision, and the robot is still told that the road is
clear. -/
theorem heartbeats_keep_decisions_fresh_emptyRoad :
    ∃ state decidedAtMs,
      (decisions {} {} (connectionCalls emptyRoadConnection))[0]? =
        some (state, decidedAtMs) ∧
      sendingAt {} emptyRoadEvents 1 = some ⟨state, .complete⟩ := by
  have punctual : KeepAlive.Punctual 200 15 (arrivals roadSettings emptyRoad) := by
    rw [arrivals_emptyRoad]
    exact ⟨by decide, by decide⟩
  have fits : ∀ arrival ∈ arrivals roadSettings emptyRoad, arrival.time < 2 ^ 64 := by
    rw [arrivals_emptyRoad]
    decide
  have arrives : Arrives ((sentFrames roadSettings emptyRoad).drop 0)
      emptyRoadConnection := arrives_roadConnection _ _
  have inTime : ∀ pair ∈ ((sentFrames roadSettings emptyRoad).drop 0).zip
      (frameRuns emptyRoadConnection), InTime 0 3 pair.1 pair.2 := by decide +kernel
  have publishes : emptyRoadEvents.filterMap Event.decision =
      [] ++ decisions {} {} (connectionCalls emptyRoadConnection) ++ [] := by
    decide +kernel
  have prompt : ∀ state decidedAtMs nowMs ending,
      Event.publish state decidedAtMs nowMs ending ∈ emptyRoadEvents →
        decidedAtMs ≤ nowMs ∧ nowMs ≤ decidedAtMs + 1 := by
    intro state decidedAtMs nowMs ending isPublished
    simp only [emptyRoadEvents, List.mem_cons, Event.publish.injEq, reduceCtorEq,
      List.not_mem_nil, or_false, false_or] at isPublished
    omega
  have atIndex : emptyRoadEvents[1]? = some (.tick 1390 .complete) := rfl
  have soFar : ((emptyRoadEvents.take 1).filterMap Event.decision).length =
      ([] : List (State × Nat)).length + 0 + 1 := rfl
  exact heartbeats_keep_decisions_fresh rfl cameras_emptyRoad (by simp [emptyRoad])
    punctual fits arrives inTime {} {} publishes (by decide) prompt (by decide)
    atIndex soFar (by decide +kernel)

end EmptyRoad

end Adas.FrameCadence
