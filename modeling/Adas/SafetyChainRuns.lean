import Adas.CmdVelArbiterRuns
import Adas.SafetyChain
import Adas.SafetyTransmitterRuns
import Adas.UartLink

/-!
# The wheels follow the board

Every message that the arbiter takes is the state of a frame that the board has
written, in the order of writing and none twice.  The wheels move only while the
message taken last is recent and permissive, and then the board had, when it wrote
that very frame, a decision for that state that was recent too.
-/

namespace Adas.SafetyChain

open Control (SafetyTransmitter)
open Control.SafetyTransmitter (Sending lastDecision)
open Safety (State)
open Turtlebot (CmdVelArbiter SafetyState Twist UartSafetyReceiver)
open UartFrame (Byte)
open Turtlebot.UartSafetyReceiver (Written frames)
open FloatOps (lit lt)

variable {F : Type} [FloatOps F]

section Books

/-- The calls on the board, with what they sent. -/
def calls (happenings : List (Happening F)) :
    List (SafetyTransmitter.Event × Option Sending) :=
  happenings.filterMap fun
    | .called call sending => some (call, sending)
    | _ => none

/-- The state of the frame that a call wrote, if the port took it. -/
def accepted : Option Sending → Option State
  | some ⟨state, .complete⟩ => some state
  | _ => none

/-- The frames that the port took: the number of the call and the state. -/
def written (happenings : List (Happening F)) : List (Nat × State) :=
  (calls happenings).zipIdx.filterMap fun call =>
    (accepted call.1.2).map fun state => (call.2, state)

/-- The messages that the arbiter took, with the times. -/
def deliveries (happenings : List (Happening F)) : List (Int × F) :=
  happenings.filterMap fun
    | .delivered data now _ => some (data, now)
    | _ => none

/-- The message for a frame. -/
def message (frame : Nat × State) : Int :=
  frame.2.code

/-- The frame was written by a tick that found a recent decision for its state. -/
def Fresh (config : SafetyTransmitter.Config)
    (calls : List (SafetyTransmitter.Event × Option Sending)) (frame : Nat × State) :
    Prop :=
  ∃ sentMs decidedAtMs,
    calls[frame.1]? = some (.tick sentMs .complete, some ⟨frame.2, .complete⟩) ∧
    lastDecision ((calls.take frame.1).map Prod.fst) = some (frame.2, decidedAtMs) ∧
    sentMs < decidedAtMs + config.decisionTimeoutMs

/-- The topic has lost no message. -/
def Lossless (happenings : List (Happening F)) : Prop :=
  ∀ data, .lost data ∉ happenings

variable (happenings : List (Happening F)) (happening : Happening F)

theorem calls_append :
    calls (happenings ++ [happening]) = calls happenings ++ calls [happening] :=
  List.filterMap_append

theorem deliveries_append :
    deliveries (happenings ++ [happening]) =
      deliveries happenings ++ deliveries [happening] :=
  List.filterMap_append

theorem written_called (call : SafetyTransmitter.Event) (sending : Option Sending) :
    written (happenings ++ [.called call sending]) =
      written happenings ++
        ((accepted sending).map fun state => ((calls happenings).length, state)).toList := by
  rw [written, calls_append, List.zipIdx_append, List.filterMap_append]
  cases isAccepted : accepted sending <;> simp [written, calls, isAccepted]

variable {happenings} {happening} in
/-- Only a call can write a frame. -/
theorem written_append (noCall : calls [happening] = []) :
    written (happenings ++ [happening]) = written happenings := by
  rw [written, calls_append, noCall, List.append_nil, written]

variable {happenings} {happening} in
theorem Lossless.before (lossless : Lossless (happenings ++ [happening])) :
    Lossless happenings :=
  fun data isLost => lossless data (List.mem_append_left _ isLost)

theorem Fresh.later {config : SafetyTransmitter.Config}
    {calls : List (SafetyTransmitter.Event × Option Sending)} {frame : Nat × State}
    (fresh : Fresh config calls frame)
    (more : List (SafetyTransmitter.Event × Option Sending)) :
    Fresh config (calls ++ more) frame := by
  obtain ⟨sentMs, decidedAtMs, isCall, last, recent⟩ := fresh
  obtain ⟨inCalls, -⟩ := List.getElem?_eq_some_iff.mp isCall
  refine ⟨sentMs, decidedAtMs, ?_, ?_, recent⟩
  · rwa [List.getElem?_append_left inCalls]
  · rwa [List.take_append_of_le_length (Nat.le_of_lt inCalls)]

end Books

section Line

/-- How the messages got to where they are: the line has carried some elements, the
receiver has consumed their first bytes and read some of the frames, and the messages
of these are taken, in the topic, still to be published, or lost. -/
structure Flow (happenings : List (Happening F)) (chain : Chain F)
    (elements : List Written) (consumed : List Byte)
    (read taken queued coming : List (Nat × State)) : Prop where
  sent : elements.filterMap Written.state? = (written happenings).map message
  line : consumed ++ chain.wire = elements.flatMap Written.bytes
  buffer : (frames.scan 0 consumed).2 = chain.receiver.buffer
  isRead : frames.values consumed = read.map message
  inOrder : read <+: written happenings
  isTaken : (deliveries happenings).map Prod.fst = taken.map message
  topic : chain.topic = queued.map message
  publishing : chain.publishing = coming.map message
  kept : (taken ++ queued ++ coming).Sublist read
  complete : Lossless happenings → taken ++ queued ++ coming = read

variable {happenings : List (Happening F)} {chain : Chain F} {elements : List Written}
  {consumed : List Byte} {read taken queued coming : List (Nat × State)}

/-- A step that writes, publishes and delivers nothing. -/
theorem Flow.other
    (flow : Flow happenings chain elements consumed read taken queued coming)
    {happening : Happening F} (noCall : calls [happening] = [])
    (noDelivery : deliveries [happening] = []) :
    Flow (happenings ++ [happening]) chain elements consumed read taken queued
      coming := by
  obtain ⟨sent, line, buffer, isRead, inOrder, isTaken, topic, publishing, kept,
    complete⟩ := flow
  refine ⟨?_, line, buffer, isRead, ?_, ?_, topic, publishing, kept, ?_⟩
  · rwa [written_append noCall]
  · rwa [written_append noCall]
  · rwa [deliveries_append, noDelivery, List.append_nil]
  · exact fun lossless => complete lossless.before

/-- A call that sends a frame puts it at the end of the line. -/
theorem Flow.call
    (flow : Flow happenings chain elements consumed read taken queued coming)
    (transmitter : SafetyTransmitter) (call : SafetyTransmitter.Event)
    (sending : Option Sending) :
    Flow (happenings ++ [.called call sending])
      { chain with
        transmitter := transmitter
        wire := chain.wire ++ (onLine sending).toList.flatMap Written.bytes }
      (elements ++ (onLine sending).toList) consumed read taken queued
      coming := by
  obtain ⟨sent, line, buffer, isRead, inOrder, isTaken, topic, publishing, kept,
    complete⟩ := flow
  have sends : (onLine sending).toList.filterMap Written.state? =
      ((accepted sending).map fun state =>
        ((calls happenings).length, state)).toList.map message := by
    match sending with
    | none => rfl
    | some ⟨state, .complete⟩ => rfl
    | some ⟨state, .failed count⟩ => rfl
  refine ⟨?_, ?_, buffer, isRead, ?_, ?_, topic, publishing, kept, ?_⟩
  · rw [written_called, List.filterMap_append, List.map_append, sent, sends]
  · rw [List.flatMap_append, ← line, List.append_assoc]
  · exact written_called happenings call sending ▸
      inOrder.trans (List.prefix_append _ _)
  · rw [deliveries_append]
    exact (List.append_nil _).symm ▸ isTaken
  · exact fun lossless => complete lossless.before

/-- A poll reads the messages of the next frames, whatever it finds. -/
theorem Flow.poll
    (flow : Flow happenings chain elements consumed read taken queued [])
    (waiting : Nat) :
    ∃ found, Flow (happenings ++ [.quiet])
      { chain with
        wire := chain.wire.drop waiting
        receiver := (chain.receiver.poll (chain.wire.take waiting)).1
        publishing := (chain.receiver.poll (chain.wire.take waiting)).2 }
      elements (consumed ++ chain.wire.take waiting) (read ++ found) taken queued
      found := by
  obtain ⟨sent, line, buffer, isRead, ⟨left, isLeft⟩, isTaken, topic, publishing,
    kept, complete⟩ := flow
  have reads := @WindowScanner.values_append _ _ frames consumed
    (chain.wire.take waiting)
  have toRead := @WindowScanner.values_append _ _ frames
    (consumed ++ chain.wire.take waiting) (chain.wire.drop waiting)
  rw [List.append_assoc, List.take_append_drop, line,
    UartSafetyReceiver.values_written, sent, ← isLeft, List.map_append, reads.1,
    isRead, buffer, List.append_assoc, List.append_cancel_left_eq] at toRead
  obtain ⟨found, behind, rfl, isFound, -⟩ := List.map_eq_append_iff.mp toRead.1
  refine ⟨found, ?_, ?_, ?_, ?_, ?_, ?_, topic, ?_, ?_, ?_⟩
  · rwa [written_append rfl]
  · rw [List.append_assoc, List.take_append_drop, line]
  · rw [reads.2, buffer]
    rfl
  · rw [reads.1, isRead, buffer, List.map_append, isFound]
  · rw [written_append rfl, ← isLeft, ← List.append_assoc]
    exact List.prefix_append _ _
  · rw [deliveries_append]
    exact (List.append_nil _).symm ▸ isTaken
  · exact isFound.symm
  · rw [List.append_nil] at kept
    exact kept.append_right found
  · intro lossless
    rw [← complete lossless.before, List.append_nil]

/-- The topic gets a message. -/
theorem Flow.publish {frame : Nat × State}
    (flow : Flow happenings chain elements consumed read taken queued
      (frame :: coming)) :
    Flow (happenings ++ [.quiet])
      { chain with
        publishing := coming.map message
        topic := chain.topic ++ [message frame] }
      elements consumed read taken (queued ++ [frame]) coming := by
  obtain ⟨sent, line, buffer, isRead, inOrder, isTaken, topic, publishing, kept,
    complete⟩ := flow
  have moved : taken ++ (queued ++ [frame]) ++ coming =
      taken ++ queued ++ frame :: coming := by
    simp only [List.append_assoc, List.singleton_append]
  refine ⟨?_, line, buffer, isRead, ?_, ?_, ?_, rfl, ?_, ?_⟩
  · rwa [written_append rfl]
  · rwa [written_append rfl]
  · rw [deliveries_append]
    exact (List.append_nil _).symm ▸ isTaken
  · rw [topic, List.map_append, List.map_singleton]
  · rwa [moved]
  · rw [moved]
    exact fun lossless => complete lossless.before

/-- The topic loses a message. -/
theorem Flow.lose
    (flow : Flow happenings chain elements consumed read taken queued coming)
    (index : Nat) (data : Int) :
    Flow (happenings ++ [.lost data])
      { chain with topic := chain.topic.eraseIdx index }
      elements consumed read taken (queued.eraseIdx index) coming := by
  obtain ⟨sent, line, buffer, isRead, inOrder, isTaken, topic, publishing, kept,
    complete⟩ := flow
  refine ⟨?_, line, buffer, isRead, ?_, ?_, ?_, publishing, ?_, ?_⟩
  · rwa [written_append rfl]
  · rwa [written_append rfl]
  · rw [deliveries_append]
    exact (List.append_nil _).symm ▸ isTaken
  · rw [topic, List.eraseIdx_map]
  · exact (((List.eraseIdx_sublist queued index).append_left taken).append_right
      coming).trans kept
  · intro lossless
    exact absurd (List.mem_append_right _ (List.mem_singleton_self _)) (lossless data)

/-- The arbiter takes the oldest message of the topic. -/
theorem Flow.deliver {frame : Nat × State}
    (flow : Flow happenings chain elements consumed read taken (frame :: queued)
      coming)
    (arbiter : CmdVelArbiter F) (now : F) (twist : Option (Twist F)) :
    Flow (happenings ++ [.delivered (message frame) now twist])
      { chain with arbiter := arbiter, topic := queued.map message }
      elements consumed read (taken ++ [frame]) queued coming := by
  obtain ⟨sent, line, buffer, isRead, inOrder, isTaken, topic, publishing, kept,
    complete⟩ := flow
  have moved : taken ++ [frame] ++ queued = taken ++ frame :: queued :=
    (List.append_cons taken frame queued).symm
  refine ⟨?_, line, buffer, isRead, ?_, ?_, rfl, publishing, ?_, ?_⟩
  · rwa [written_append rfl]
  · rwa [written_append rfl]
  · rw [deliveries_append, List.map_append, isTaken, List.map_append]
    rfl
  · rwa [moved]
  · rw [moved]
    exact fun lossless => complete lossless.before

end Line

section Board

variable {config : SafetyTransmitter.Config} {transmitter : SafetyTransmitter}

/-- Only a tick sends anything but `stop`, and only by a recent decision. -/
theorem fresh_of_sent {past : List (SafetyTransmitter.Event × Option Sending)}
    (remembers : SafetyTransmitter.Remembers (past.map Prod.fst) transmitter)
    {call : SafetyTransmitter.Event} {state : State}
    (sent : accepted (SafetyTransmitter.step config transmitter call).2 = some state)
    (moving : state ≠ .stop) :
    Fresh config
      (past ++ [(call, (SafetyTransmitter.step config transmitter call).2)])
      (past.length, state) := by
  have sending : (SafetyTransmitter.step config transmitter call).2 =
      some ⟨state, .complete⟩ := by
    unfold accepted at sent
    split at sent
    · next isSending => rw [isSending, Option.some.inj sent]
    · contradiction
  rw [sending]
  cases call with
  | publish other decidedAtMs nowMs ending =>
      simp only [SafetyTransmitter.step, SafetyTransmitter.publish] at sending
      split_ifs at sending with entering
      rw [Option.some.injEq, Sending.mk.injEq] at sending
      exact absurd (sending.1.symm.trans entering.1) moving
  | tick nowMs ending =>
      simp only [SafetyTransmitter.step, SafetyTransmitter.tick, Option.some.injEq,
        Sending.mk.injEq] at sending
      obtain ⟨isState, rfl⟩ := sending
      have notStale : ¬ SafetyTransmitter.stale config transmitter nowMs = true := by
        intro stale
        rw [if_pos stale] at isState
        exact moving isState.symm
      rw [if_neg notStale, remembers.published] at isState
      simp only [SafetyTransmitter.stale, decide_eq_true_eq, not_or, remembers.seen,
        Bool.not_eq_false, Option.isSome_iff_exists] at notStale
      obtain ⟨⟨⟨decided, decidedAtMs⟩, last⟩, recent⟩ := notStale
      rw [last] at isState
      rw [remembers.decidedAt decided decidedAtMs last] at recent
      obtain rfl : decided = state := isState
      refine ⟨nowMs, decidedAtMs, ?_, ?_, by omega⟩
      · exact List.getElem?_concat_length
      · rw [List.take_left, last]

end Board

section Robot

variable {params : CmdVelArbiter.Params F}

/-- The arbiter goes by the last message that it took. -/
structure Obeys (taken : List (Int × F)) (arbiter : CmdVelArbiter F) : Prop where
  safety : arbiter.safety =
    (taken.getLast?.bind fun msg => SafetyState.ofInt? msg.1).getD .stop
  safetyStamp : arbiter.safetyStamp = (taken.getLast?.map Prod.snd).getD (lit 0)

variable (params) in
/-- The other callbacks leave the safety state alone. -/
theorem step_safety (arbiter : CmdVelArbiter F) {event : CmdVelArbiter.Event F}
    (other : event.safetyMsg = none) :
    (CmdVelArbiter.step params arbiter event).1.safety = arbiter.safety ∧
      (CmdVelArbiter.step params arbiter event).1.safetyStamp =
        arbiter.safetyStamp := by
  cases event with
  | onSafety data now => contradiction
  | onJoy msg now => exact ⟨rfl, rfl⟩
  | onManual msg now =>
      rw [CmdVelArbiter.step]
      split_ifs
      · exact ⟨rfl, rfl⟩
      · exact ⟨rfl, rfl⟩
  | timer now =>
      obtain ⟨_, _, _, _, _, ticked⟩ :=
        CmdVelArbiter.sameMessages_timerCb params arbiter now
      rw [CmdVelArbiter.step, ticked]
      exact ⟨rfl, rfl⟩

theorem Obeys.other {taken : List (Int × F)} {arbiter : CmdVelArbiter F}
    (obeys : Obeys taken arbiter) {event : CmdVelArbiter.Event F}
    (other : event.safetyMsg = none) :
    Obeys taken (CmdVelArbiter.step params arbiter event).1 := by
  obtain ⟨safety, safetyStamp⟩ := step_safety params arbiter other
  exact ⟨safety.trans obeys.safety, safetyStamp.trans obeys.safetyStamp⟩

theorem Obeys.onSafety {taken : List (Int × F)} {arbiter : CmdVelArbiter F}
    (data : Int) (now : F) :
    Obeys (taken ++ [(data, now)]) (arbiter.onSafety data now).1 := by
  simp only [CmdVelArbiter.onSafety]
  split_ifs
  all_goals
    constructor <;> rw [List.getLast?_concat]
    · rfl
    · rfl

end Robot

section Runs

variable {config : SafetyTransmitter.Config} {params : CmdVelArbiter.Params F}

/-- What holds of the whole chain and of what it has shown. -/
structure Follows (config : SafetyTransmitter.Config)
    (happenings : List (Happening F)) (chain : Chain F) : Prop where
  remembers : SafetyTransmitter.Remembers ((calls happenings).map Prod.fst)
    chain.transmitter
  fresh : ∀ frame ∈ written happenings, frame.2 ≠ .stop →
    Fresh config (calls happenings) frame
  obeys : Obeys (deliveries happenings) chain.arbiter
  flows : ∃ elements consumed read taken queued coming,
    Flow happenings chain elements consumed read taken queued coming

variable {happenings : List (Happening F)} {chain : Chain F}

theorem Follows.init : Follows config [] ({} : Chain F) where
  remembers := ⟨rfl, rfl, by simp [calls, lastDecision]⟩
  fresh := by simp [written, calls]
  obeys := ⟨rfl, rfl⟩
  flows := ⟨[], [], [], [], [], [], rfl, rfl, rfl, rfl, List.nil_prefix, rfl, rfl, rfl,
    List.nil_sublist _, fun _ => rfl⟩

/-- A call on the board keeps the board's books. -/
theorem Follows.call (follows : Follows config happenings chain)
    (call : SafetyTransmitter.Event) :
    let called := SafetyTransmitter.step config chain.transmitter call
    SafetyTransmitter.Remembers
        ((calls (happenings ++ [.called call called.2])).map Prod.fst) called.1 ∧
      ∀ frame ∈ written (happenings ++ [.called call called.2]), frame.2 ≠ .stop →
        Fresh config (calls (happenings ++ [.called call called.2])) frame := by
  intro called
  have nextCalls : calls (happenings ++ [.called call called.2]) =
      calls happenings ++ [(call, called.2)] := calls_append _ _
  rw [nextCalls, written_called, List.map_append]
  refine ⟨follows.remembers.step call, fun frame isFrame moving => ?_⟩
  rcases List.mem_append.mp isFrame with before | now
  · exact (follows.fresh frame before moving).later _
  · obtain ⟨state, isState, rfl⟩ := Option.map_eq_some_iff.mp (Option.mem_toList.mp now)
    exact fresh_of_sent follows.remembers isState moving

/-- A step of the robot keeps the board's books. -/
theorem Follows.remembers_other (follows : Follows config happenings chain)
    {happening : Happening F} (noCall : calls [happening] = []) :
    SafetyTransmitter.Remembers
      ((calls (happenings ++ [happening])).map Prod.fst) chain.transmitter := by
  rw [calls_append, noCall, List.append_nil]
  exact follows.remembers

theorem Follows.fresh_other (follows : Follows config happenings chain)
    {happening : Happening F} (noCall : calls [happening] = []) :
    ∀ frame ∈ written (happenings ++ [happening]), frame.2 ≠ .stop →
      Fresh config (calls (happenings ++ [happening])) frame := by
  rw [written_append noCall, calls_append, noCall, List.append_nil]
  exact follows.fresh

/-- Without a message the arbiter goes on obeying. -/
theorem Follows.obeys_other (follows : Follows config happenings chain)
    {happening : Happening F} (noDelivery : deliveries [happening] = []) :
    Obeys (deliveries (happenings ++ [happening])) chain.arbiter := by
  rw [deliveries_append, noDelivery, List.append_nil]
  exact follows.obeys

/-- A callback that is not for the safety state. -/
theorem Follows.callback (follows : Follows config happenings chain)
    {event : CmdVelArbiter.Event F} (other : event.safetyMsg = none)
    {happening : Happening F} (noCall : calls [happening] = [])
    (noDelivery : deliveries [happening] = []) :
    Follows config (happenings ++ [happening])
      (callback params chain event) := by
  obtain ⟨elements, consumed, read, taken, queued, coming, flow⟩ := follows.flows
  refine ⟨follows.remembers_other noCall, follows.fresh_other noCall,
    (follows.obeys_other noDelivery).other other,
    elements, consumed, read, taken, queued, coming, ?_⟩
  obtain ⟨sent, line, buffer, isRead, inOrder, isTaken, topic, publishing, kept,
      complete⟩ := flow.other noCall noDelivery
  exact ⟨sent, line, buffer, isRead, inOrder, isTaken, topic, publishing, kept,
    complete⟩

theorem Follows.quiet (follows : Follows config happenings chain) :
    Follows config (happenings ++ [.quiet]) chain := by
  obtain ⟨elements, consumed, read, taken, queued, coming, flow⟩ := follows.flows
  exact ⟨follows.remembers_other rfl, follows.fresh_other rfl,
    follows.obeys_other rfl, elements, consumed, read, taken, queued, coming,
    flow.other rfl rfl⟩

theorem Follows.step (follows : Follows config happenings chain) (event : Event F) :
    Follows config (happenings ++ [(step config params chain event).2])
      (step config params chain event).1 := by
  obtain ⟨elements, consumed, read, taken, queued, coming, flow⟩ := follows.flows
  cases event with
  | transmit call =>
      obtain ⟨remembers, fresh⟩ := follows.call call
      exact ⟨remembers, fresh, follows.obeys_other rfl, _, consumed, read, taken,
        queued, coming, flow.call _ call _⟩
  | poll waiting =>
      cases coming with
      | nil =>
          obtain ⟨found, polled⟩ := flow.poll waiting
          simp only [SafetyChain.step, flow.publishing, List.map_nil]
          exact ⟨follows.remembers_other rfl, follows.fresh_other rfl,
            follows.obeys_other rfl, elements, _, _, taken, queued, found, polled⟩
      | cons frame coming =>
          simp only [SafetyChain.step, flow.publishing, List.map_cons]
          exact follows.quiet
  | publish =>
      cases coming with
      | nil =>
          simp only [SafetyChain.step, flow.publishing, List.map_nil]
          exact follows.quiet
      | cons frame coming =>
          simp only [SafetyChain.step, flow.publishing, List.map_cons]
          exact ⟨follows.remembers_other rfl, follows.fresh_other rfl,
            follows.obeys_other rfl, elements, consumed, read, taken, _, coming,
            flow.publish⟩
  | lose index =>
      cases isLost : chain.topic[index]? with
      | none =>
          simp only [SafetyChain.step, isLost]
          exact follows.quiet
      | some data =>
          simp only [SafetyChain.step, isLost]
          exact ⟨follows.remembers_other rfl, follows.fresh_other rfl,
            follows.obeys_other rfl, elements, consumed, read, taken, _, coming,
            flow.lose index data⟩
  | deliver now =>
      cases queued with
      | nil =>
          simp only [SafetyChain.step, flow.topic, List.map_nil]
          exact follows.quiet
      | cons frame queued =>
          simp only [SafetyChain.step, flow.topic, List.map_cons]
          refine ⟨follows.remembers_other rfl, follows.fresh_other rfl, ?_, elements,
            consumed, read, _, queued, coming, flow.deliver _ now _⟩
          rw [deliveries_append]
          exact .onSafety _ now
  | joy msg now => exact follows.callback rfl rfl rfl
  | manual msg now => exact follows.callback rfl rfl rfl
  | timer now => exact follows.callback rfl rfl rfl

/-- The frames behind the messages that the arbiter has taken. -/
structure Taken (config : SafetyTransmitter.Config) (happenings : List (Happening F))
    (frames : List (Nat × State)) : Prop where
  inOrder : frames.Sublist (written happenings)
  messages : (deliveries happenings).map Prod.fst = frames.map message
  fresh : ∀ frame ∈ frames, frame.2 ≠ .stop → Fresh config (calls happenings) frame
  complete : Lossless happenings → frames <+: written happenings

/-- The last message that the arbiter has taken is recent, and that of a frame which
does not stop the robot. -/
def LastPermits (params : CmdVelArbiter.Params F) (happenings : List (Happening F))
    (frames : List (Nat × State)) (now : F) : Prop :=
  ∃ frame takenAt, frames.getLast? = some frame ∧ frame.2 ≠ .stop ∧
    (deliveries happenings).getLast? = some (message frame, takenAt) ∧
    lt params.safetyTimeoutSec (now - takenAt) = false

theorem Follows.exists_taken (follows : Follows config happenings chain) :
    ∃ frames, Taken config happenings frames := by
  obtain ⟨elements, consumed, read, taken, queued, coming, flow⟩ := follows.flows
  have isRead : (taken ++ (queued ++ coming)).Sublist read :=
    List.append_assoc taken queued coming ▸ flow.kept
  have inOrder : taken.Sublist (written happenings) :=
    ((List.sublist_append_left taken _).trans isRead).trans flow.inOrder.sublist
  refine ⟨taken, inOrder, flow.isTaken,
    fun frame isFrame => follows.fresh frame (inOrder.subset isFrame), ?_⟩
  intro lossless
  have all := flow.complete lossless
  rw [List.append_assoc] at all
  exact (all ▸ List.prefix_append taken _).trans flow.inOrder

theorem message_moves {frame : Nat × State}
    (moves : (SafetyState.ofInt? (message frame)).getD .stop ≠ .stop) :
    frame.2 ≠ .stop := by
  intro stops
  rw [message, stops] at moves
  exact moves rfl

/-- A tick that drives goes by a frame that permits it. -/
theorem Follows.lastPermits (follows : Follows config happenings chain)
    {frames : List (Nat × State)} (taken : Taken config happenings frames) {now : F}
    (driving : CmdVelArbiter.Driving params chain.arbiter now) :
    LastPermits params happenings frames now := by
  have notStopped := driving.notStopped
  have recent := driving.fresh
  have same := congrArg List.getLast? taken.messages
  rw [List.getLast?_map, List.getLast?_map] at same
  rw [follows.obeys.safety] at notStopped
  rw [CmdVelArbiter.safetyStale, follows.obeys.safetyStamp] at recent
  cases last : (deliveries happenings).getLast? with
  | none => simp [last] at notStopped
  | some delivery =>
      rw [last] at notStopped recent same
      obtain ⟨frame, isLast, isMessage⟩ := Option.map_eq_some_iff.mp same.symm
      refine ⟨frame, delivery.2, isLast, ?_, ?_, recent⟩
      · apply message_moves
        rwa [isMessage]
      · rw [isMessage]
        exact last

/-- Only a tick that drives commands anything but zero. -/
theorem driving_of_command {event : Event F} {now : F} {twist : Twist F}
    (commanded : (step config params chain event).2.command = some (now, twist))
    (moving : twist ≠ {}) : CmdVelArbiter.Driving params chain.arbiter now := by
  cases event with
  | transmit call => contradiction
  | poll waiting =>
      simp only [step] at commanded
      split at commanded <;> contradiction
  | publish =>
      simp only [step] at commanded
      split at commanded <;> contradiction
  | lose index =>
      simp only [step] at commanded
      split at commanded <;> contradiction
  | deliver takenAt =>
      simp only [step] at commanded
      split at commanded
      · contradiction
      · simp only [Happening.command, CmdVelArbiter.onSafety] at commanded
        split_ifs at commanded
        · simp only [Option.map_some, Option.some.injEq, Prod.mk.injEq] at commanded
          exact absurd commanded.2.symm moving
        · contradiction
  | joy msg now => contradiction
  | manual msg now => contradiction
  | timer tickedAt =>
      have effect := CmdVelArbiter.timerCb_effect params chain.arbiter tickedAt
      simp only [step, Happening.command, Option.some.injEq, Prod.mk.injEq] at commanded
      obtain ⟨rfl, isTwist⟩ := commanded
      generalize CmdVelArbiter.timerCb params chain.arbiter tickedAt = ticked
        at effect isTwist
      cases effect with
      | halts => exact absurd isTwist.symm moving
      | waits => exact absurd isTwist.symm moving
      | moves driving => exact driving

end Runs

/-- In every run, for every answer: the messages that the arbiter has taken are those
of frames that the board has written, in that order, all of them from the first on if
the topic has lost none; and with any command but zero the message taken last is
recent, and its frame, written for a decision that was recent then, permits it. -/
theorem wheels_follow_board (config : SafetyTransmitter.Config)
    (params : CmdVelArbiter.Params F) (events : List (Event F)) {index : Nat}
    {happening : Happening F}
    (shown : ((machine config params).outputsFrom (machine config params).init
      events)[index]? = some happening) :
    ∃ frames,
      Taken config (((machine config params).outputsFrom (machine config params).init
        events).take index) frames ∧
      ∀ now twist, happening.command = some (now, twist) → twist ≠ {} →
        LastPermits params (((machine config params).outputsFrom
          (machine config params).init events).take index) frames now := by
  refine (machine config params).outputs_promised (Follows config)
    (fun happenings happening => ∃ frames, Taken config happenings frames ∧
      ∀ now twist, happening.command = some (now, twist) → twist ≠ {} →
        LastPermits params happenings frames now)
    Follows.init ?_ events shown
  intro happenings chain event follows
  refine ⟨?_, follows.step event⟩
  obtain ⟨frames, taken⟩ := follows.exists_taken
  refine ⟨frames, taken, fun now twist commanded moving => ?_⟩
  exact follows.lastPermits taken (driving_of_command commanded moving)

/-- A decision to drive that reaches the robot after half a frame, and a controller
that is first neutral and then pushed. -/
def halfAFrame : List (Event ℚ) :=
  [.transmit (.publish .clear 100 100 .complete),
    .transmit (.tick 110 (.failed ⟨2, Nat.lt_succ_self 2⟩)),
    .transmit (.tick 130 .complete), .poll 3, .poll 3, .publish, .deliver 10,
    .joy (CmdVelArbiter.heldJoy 0) 10, .timer (101 / 10),
    .joy (CmdVelArbiter.heldJoy 1) (102 / 10), .timer (103 / 10)]

theorem happenings_halfAFrame :
    ((machine {} {}).outputsFrom (machine {} {}).init halfAFrame)[10]? =
      some (.commanded (103 / 10) { linear := { x := 0.22 } }) := by
  decide +kernel

theorem wheels_follow_board_halfAFrame :
    ∃ frames,
      Taken {} (((machine {} {}).outputsFrom (machine {} {}).init halfAFrame).take 10)
        frames ∧
      LastPermits {} (((machine {} {}).outputsFrom (machine {} {}).init
        halfAFrame).take 10) frames (103 / 10) := by
  obtain ⟨frames, taken, permits⟩ :=
    wheels_follow_board {} {} halfAFrame happenings_halfAFrame
  exact ⟨frames, taken, permits _ _ rfl (by decide +kernel)⟩

end Adas.SafetyChain
