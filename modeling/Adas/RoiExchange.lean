import Mathlib.Data.List.Forall2
import Adas.EventMachine
import Adas.TcpRoiServer
import Adas.TcpRoiClient
import Adas.ClassifyOne

/-!
# The client and the server on one connection

The client makes its calls of `classify` one after the other, and the main loop
of the server answers one request at a time.  Each side moves some bytes
whenever it is scheduled, so that requests and responses are cut in every way.
The file shows that the two stay in lockstep: every request is answered once
and in order, every answer is accepted, and the calls return what the server
has computed for them.
-/

namespace Adas.RoiExchange

open Control (RoiResult)
open RoiProtocol
open ClassifyOne (Model Stages classifyOne)
open Network (PreparedRoi ClassificationResult TcpRoiClient)
open Network.TcpRoiClient (ClassifyReturn classify receiveResponse resultOf)
open TcpRoiServer (Server RequestBuffers Status receiveRequest sendResult
  buffersOf)
open StreamProgram (Party Reads Writes settle)

/-- A call of `classify`, with the caller's result before it. -/
structure Call where
  roi : PreparedRoi
  result : ClassificationResult

/-- The server with a connected client.  `buffers` and `stages` are what its
`index`-th iteration finds: the memory that it receives into, and what the
classification of the image comes to. -/
structure Session where
  server : Server
  connected : 0 ≤ server.clientFd
  model : Model
  buffers : Nat → RequestBuffers
  buffersSize : ∀ index, (buffers index).image.length = kImagePayloadSize
  stages : Nat → List Byte → Stages model

/-- A request that has been answered, and the answer. -/
structure Served where
  request : RequestBuffers
  result : RoiResult

/-- What a call returns that accepts an answer. -/
def acceptedReturn (call : Call) (answer : Served) : ClassifyReturn where
  status := .ok
  result := resultOf call.roi answer.result
  connected := true

variable (session : Session)

/-- An iteration of the main loop from its request on; `none` if it breaks
off. -/
def serveRequest (index : Nat) (received : Status × RequestBuffers) :
    StreamProgram Byte (Option Served) :=
  if received.1 ≠ .ok then
    pure none
  else do
    let request := received.2
    let result := classifyOne (session.stages index request.image)
    let sent ← sendResult session.server request.header result
    if sent ≠ .ok then
      pure none
    else
      pure (some { request := request, result := result })

/-- One iteration of the main loop. -/
def serveOne (index : Nat) : StreamProgram Byte (Option Served) := do
  let received ← receiveRequest session.server (session.buffers index)
  serveRequest session index received

/-- The calls that are still to be made, the call in progress, what the calls
have returned, the iteration in progress, what it has answered before, and the
bytes on the way. -/
structure State where
  waiting : List Call
  inCall : Option (Call × StreamProgram Byte ClassifyReturn)
  returned : List (Call × ClassifyReturn)
  serving : Option (StreamProgram Byte (Option Served))
  served : List Served
  toServer : List Byte
  toClient : List Byte

/-- The call in progress has got this far.  At its end it returns. -/
def State.callAt (state : State) (call : Call) :
    StreamProgram Byte ClassifyReturn → State
  | .done returned =>
      { state with
        inCall := none, returned := state.returned ++ [(call, returned)] }
  | program => { state with inCall := some (call, program) }

/-- The iteration in progress has got this far.  At its end the next one starts,
unless the loop breaks off. -/
def State.servingAt (state : State) :
    StreamProgram Byte (Option Served) → State
  | .done none => { state with serving := none }
  | .done (some served) =>
      { state with
        serving := some (settle (serveOne session (state.served.length + 1)))
        served := state.served ++ [served] }
  | program => { state with serving := some program }

/-- The client makes its next call, or moves some bytes in the one it is in. -/
def moveClient (more : Nat) (state : State) : State :=
  match state.inCall, state.waiting with
  | none, [] => state
  | none, call :: waiting =>
      { state with waiting := waiting }.callAt call
        (settle (classify true call.roi call.result))
  | some (call, program), _ =>
      let party := Party.move more ⟨program, state.toClient, state.toServer⟩
      { state with
        toClient := party.inbound, toServer := party.outbound }.callAt call
          party.program

/-- The server moves some bytes in its iteration. -/
def moveServer (more : Nat) (state : State) : State :=
  match state.serving with
  | none => state
  | some program =>
      let party := Party.move more ⟨program, state.toServer, state.toClient⟩
      { state with
        toServer := party.inbound, toClient := party.outbound }.servingAt
          session party.program

inductive Actor where
  | client
  | server
  deriving DecidableEq, Repr

/-- One of the two is scheduled and moves up to `more` bytes after the first. -/
structure Action where
  actor : Actor
  more : Nat

def step (state : State) (action : Action) : State :=
  match action.actor with
  | .client => moveClient action.more state
  | .server => moveServer session action.more state

def start (calls : List Call) : State where
  waiting := calls
  inCall := none
  returned := []
  serving := some (settle (serveOne session 0))
  served := []
  toServer := []
  toClient := []

def machine (calls : List Call) : EventMachine State Action Unit where
  init := start session calls
  step state action := (step session state action, ())

section Iteration

variable (index : Nat) (request : RoiRequest)

/-- What the server computes for a request, and so the answer to it. -/
def answerTo : Served where
  request := buffersOf request
  result := classifyOne (session.stages index request.image)

/-- An iteration that has received the request. -/
def respond : StreamProgram Byte (Option Served) :=
  serveRequest session index (.ok, buffersOf request)

/-- An iteration reads one request. -/
theorem reads_serveOne :
    Reads (settle (serveOne session index)) request.bytes
      (settle (respond session index request)) := by
  have reads := TcpRoiServer.reads_receiveRequest session.connected request
    (session.buffers index) (session.buffersSize index)
  have readsOn := reads.bind (serveRequest session index)
  rwa [← StreamProgram.settle_bind] at readsOn

/-- It then writes one response and starts anew. -/
theorem writes_respond :
    Writes (settle (respond session index request))
      (responseBytes request.frameId request.roiId
        (answerTo session index request).result)
      (.done (some (answerTo session index request))) := by
  have contract : ObeysContract (answerTo session index request).result :=
    ClassifyOne.classifyOne_obeysContract _
  have writes := TcpRoiServer.writes_sendResult session.connected request.header
    contract.confidence
  have writesOn := writes.bind fun sent => do
    if sent ≠ .ok then
      pure none
    else
      pure (some (answerTo session index request))
  rw [← StreamProgram.settle_bind] at writesOn
  exact writesOn

/-- The client accepts the response. -/
theorem reads_response (call : Call) :
    Reads (settle (receiveResponse true call.roi call.result))
      (responseBytes call.roi.frameId call.roi.roiId
        (answerTo session index request).result)
      (.done (acceptedReturn call (answerTo session index request))) :=
  TcpRoiClient.reads_receiveResponse (ClassifyOne.classifyOne_obeysContract _)

/-- Between requests the server waits for a header. -/
theorem serveOne_waits :
    ∃ next, settle (serveOne session index) = .receive kHeaderSize next := by
  unfold serveOne receiveRequest
  rw [if_neg (not_lt.mpr session.connected)]
  exact ⟨_, rfl⟩

end Iteration

section Agreement

/-- A call has returned what the server has answered to its request. -/
structure Agrees (entry : Call × ClassifyReturn) (served : Served) : Prop where
  request : ∃ expected : entry.1.roi.isExpected = true,
    served.request = buffersOf (entry.1.roi.request expected)
  returned : entry.2 = acceptedReturn entry.1 served

/-- A call for a region that is not expected returns at once.  The others agree
with what the server has answered, which is what it has computed. -/
structure Agreement (returned : List (Call × ClassifyReturn))
    (served : List Served) : Prop where
  unexpected : ∀ entry ∈ returned, entry.1.roi.isExpected = false →
    entry.2 = ⟨.invalidArgument, entry.1.result, true⟩
  answered : List.Forall₂ Agrees
    (returned.filter fun entry => entry.1.roi.isExpected) served
  computed : ∀ index (inRange : index < served.length),
    served[index].result =
      classifyOne (session.stages index served[index].request.image)

variable {session} {returned : List (Call × ClassifyReturn)}
variable {served : List Served} {call : Call}

theorem Agreement.reject (agreement : Agreement session returned served)
    (unexpected : call.roi.isExpected = false) :
    Agreement session
      (returned ++ [(call, ⟨.invalidArgument, call.result, true⟩)]) served where
  unexpected := by
    intro entry mem isUnexpected
    rcases List.mem_append.mp mem with before | last
    · exact agreement.unexpected entry before isUnexpected
    · obtain rfl := List.mem_singleton.mp last
      rfl
  answered := by
    rw [List.filter_append, List.filter_cons_of_neg (by simp [unexpected]),
      List.filter_nil, List.append_nil]
    exact agreement.answered
  computed := agreement.computed

theorem Agreement.answer (agreement : Agreement session returned served)
    (expected : call.roi.isExpected = true) :
    Agreement session
      (returned ++ [(call, acceptedReturn call
        (answerTo session served.length (call.roi.request expected)))])
      (served ++ [answerTo session served.length (call.roi.request expected)])
      where
  unexpected := by
    intro entry mem isUnexpected
    rcases List.mem_append.mp mem with before | last
    · exact agreement.unexpected entry before isUnexpected
    · obtain rfl := List.mem_singleton.mp last
      exact absurd (expected.symm.trans isUnexpected) (by decide)
  answered := by
    simp only [List.filter_append, List.filter_cons, expected, if_true,
      List.filter_nil]
    exact List.rel_append agreement.answered
      (.cons ⟨⟨expected, rfl⟩, rfl⟩ .nil)
  computed := by
    intro index inRange
    rw [List.length_append, List.length_singleton] at inRange
    by_cases before : index < served.length
    · simp only [List.getElem_append_left before]
      exact agreement.computed index before
    · obtain rfl : index = served.length := by omega
      simp only [List.getElem_append_right (Nat.le_refl _), Nat.sub_self,
        List.getElem_singleton]
      rfl

variable (session)

/-- The work that is left: bytes to write and bytes to read. -/
def callsWork (waiting : List Call) : Nat :=
  waiting.length *
    (2 * (kHeaderSize + kRequestPayloadSize) +
      2 * (kHeaderSize + kResultPayloadSize) + 1)

variable (served : List Served) (call : Call)
variable (program : StreamProgram Byte ClassifyReturn)
variable (serving : StreamProgram Byte (Option Served))

/-- The client has some of its request to write, or the server to read. -/
structure Requesting (toServer unwritten : List Byte) : Prop where
  expected : call.roi.isExpected = true
  writes : Writes program unwritten
    (settle (receiveResponse true call.roi call.result))
  reads : Reads serving (toServer ++ unwritten)
    (settle (respond session served.length (call.roi.request expected)))
  left : toServer ++ unwritten ≠ []
  within : (toServer ++ unwritten).length ≤ kHeaderSize + kRequestPayloadSize

/-- The server has some of its response to write. -/
structure Responding (toClient unwritten : List Byte) : Prop where
  expected : call.roi.isExpected = true
  reads : Reads program (toClient ++ unwritten)
    (.done (acceptedReturn call
      (answerTo session served.length (call.roi.request expected))))
  writes : Writes serving unwritten
    (.done (some (answerTo session served.length (call.roi.request expected))))
  left : unwritten ≠ []
  within : (toClient ++ unwritten).length ≤ kHeaderSize + kResultPayloadSize

/-- The client has some of the response to read. -/
structure Responded (toClient : List Byte) (outcome : ClassifyReturn) :
    Prop where
  reads : Reads program toClient (.done outcome)
  left : toClient ≠ []
  within : toClient.length ≤ kHeaderSize + kResultPayloadSize

/-- Where the two sides are, with the work that is left. -/
inductive Phase : State → Nat → Prop where
  | idle {waiting : List Call} {returned : List (Call × ClassifyReturn)}
      {served : List Served} (agreement : Agreement session returned served) :
      Phase
        { waiting := waiting, inCall := none, returned := returned
          serving := some (settle (serveOne session served.length))
          served := served, toServer := [], toClient := [] }
        (callsWork waiting)
  | requesting {waiting : List Call} {returned : List (Call × ClassifyReturn)}
      {served : List Served} {call : Call}
      {program : StreamProgram Byte ClassifyReturn}
      {serving : StreamProgram Byte (Option Served)}
      {toServer unwritten : List Byte}
      (agreement : Agreement session returned served)
      (requesting : Requesting session served call program serving toServer
        unwritten) :
      Phase
        { waiting := waiting, inCall := some (call, program)
          returned := returned, serving := some serving, served := served
          toServer := toServer, toClient := [] }
        (callsWork waiting + 2 * unwritten.length + toServer.length +
          2 * (kHeaderSize + kResultPayloadSize))
  | responding {waiting : List Call} {returned : List (Call × ClassifyReturn)}
      {served : List Served} {call : Call}
      {program : StreamProgram Byte ClassifyReturn}
      {serving : StreamProgram Byte (Option Served)}
      {toClient unwritten : List Byte}
      (agreement : Agreement session returned served)
      (responding : Responding session served call program serving toClient
        unwritten) :
      Phase
        { waiting := waiting, inCall := some (call, program)
          returned := returned, serving := some serving, served := served
          toServer := [], toClient := toClient }
        (callsWork waiting + 2 * unwritten.length + toClient.length)
  | responded {waiting : List Call} {returned : List (Call × ClassifyReturn)}
      {served : List Served} {call : Call}
      {program : StreamProgram Byte ClassifyReturn} {toClient : List Byte}
      {outcome : ClassifyReturn}
      (agreement : Agreement session (returned ++ [(call, outcome)]) served)
      (responded : Responded program toClient outcome) :
      Phase
        { waiting := waiting, inCall := some (call, program)
          returned := returned
          serving := some (settle (serveOne session served.length))
          served := served, toServer := [], toClient := toClient }
        (callsWork waiting + toClient.length)

end Agreement

section Moves

variable {session}
variable {waiting : List Call} {returned : List (Call × ClassifyReturn)}
variable {served : List Served} {call : Call}
variable {program : StreamProgram Byte ClassifyReturn}
variable {serving : StreamProgram Byte (Option Served)}
variable {toServer toClient unwritten : List Byte}

/-- A phase with less work than before. -/
def Lowered (session : Session) (work : Nat) (state : State) : Prop :=
  ∃ lower < work, Phase session state lower

section Scheduling

variable {state : State} {more : Nat} {after : StreamProgram Byte ClassifyReturn}
variable {servingAfter : StreamProgram Byte (Option Served)}

theorem callAt_of_ne_done (notDone : ∀ outcome, after ≠ .done outcome) :
    state.callAt call after = { state with inCall := some (call, after) } := by
  cases after with
  | done outcome => exact absurd rfl (notDone outcome)
  | send bytes next => rfl
  | receive size next => rfl

theorem moveClient_calls (idle : state.inCall = none)
    (waits : state.waiting = call :: waiting) :
    moveClient more state =
      { state with waiting := waiting }.callAt call
        (settle (classify true call.roi call.result)) := by
  unfold moveClient
  simp only [idle, waits]

theorem moveClient_goesOn (inCall : state.inCall = some (call, program))
    (moves : Party.move more ⟨program, state.toClient, state.toServer⟩ =
      ⟨after, toClient, toServer⟩)
    (notDone : ∀ outcome, after ≠ .done outcome) :
    moveClient more state =
      { state with
        inCall := some (call, after)
        toServer := toServer, toClient := toClient } := by
  unfold moveClient
  simp only [inCall, moves]
  exact callAt_of_ne_done notDone

theorem moveClient_returns (inCall : state.inCall = some (call, program))
    {outcome : ClassifyReturn}
    (moves : Party.move more ⟨program, state.toClient, state.toServer⟩ =
      ⟨.done outcome, toClient, toServer⟩) :
    moveClient more state =
      { state with
        inCall := none, returned := state.returned ++ [(call, outcome)]
        toServer := toServer, toClient := toClient } := by
  unfold moveClient
  simp only [inCall, moves]
  rfl

theorem moveServer_goesOn (inProgress : state.serving = some serving)
    (moves : Party.move more ⟨serving, state.toServer, state.toClient⟩ =
      ⟨servingAfter, toServer, toClient⟩)
    (notDone : ∀ outcome, servingAfter ≠ .done outcome) :
    moveServer session more state =
      { state with
        serving := some servingAfter
        toServer := toServer, toClient := toClient } := by
  unfold moveServer
  simp only [inProgress, moves]
  cases servingAfter with
  | done outcome => exact absurd rfl (notDone outcome)
  | send bytes next => rfl
  | receive size next => rfl

theorem moveServer_answers (inProgress : state.serving = some serving)
    {answer : Served}
    (moves : Party.move more ⟨serving, state.toServer, state.toClient⟩ =
      ⟨.done (some answer), toServer, toClient⟩) :
    moveServer session more state =
      { state with
        serving := some (settle (serveOne session (state.served.length + 1)))
        served := state.served ++ [answer]
        toServer := toServer, toClient := toClient } := by
  unfold moveServer
  simp only [inProgress, moves]
  rfl

end Scheduling

/-- A server between requests does nothing until bytes arrive. -/
theorem moveServer_waits {state : State} {index : Nat}
    (waits : state.serving = some (settle (serveOne session index)))
    (waiting : state.toServer = []) (more : Nat) :
    moveServer session more state = state := by
  obtain ⟨next, receives⟩ := serveOne_waits session index
  have moves : Party.move more
      ⟨settle (serveOne session index), state.toServer, state.toClient⟩ =
        ⟨settle (serveOne session index), state.toServer, state.toClient⟩ := by
    simp [receives, waiting, Party.move]
  rw [moveServer_goesOn waits moves (by simp [receives]), ← waits]

/-- The client writes some of its request. -/
theorem Requesting.client
    (requesting : Requesting session served call program serving toServer unwritten)
    (agreement : Agreement session returned served) (left : unwritten ≠ [])
    (more : Nat) :
    Lowered session
      (callsWork waiting + 2 * unwritten.length + toServer.length +
        2 * (kHeaderSize + kResultPayloadSize))
      (moveClient more
        { waiting := waiting, inCall := some (call, program)
          returned := returned, serving := some serving, served := served
          toServer := toServer, toClient := [] }) := by
  obtain ⟨expected, writes, reads, leftToRead, within⟩ := requesting
  obtain ⟨count, rest, someMoved, most, moves, writesRest⟩ :=
    writes.move left [] toServer more
  have awaits : ∀ outcome,
      settle (receiveResponse true call.roi call.result) ≠ .done outcome :=
    (reads_response session served.length (call.roi.request expected) call).ne_done
      (responseBytes_ne_nil _ _ _)
  have same : toServer ++ unwritten.take count ++ unwritten.drop count =
      toServer ++ unwritten := by
    rw [List.append_assoc, List.take_append_drop]
  rw [moveClient_goesOn rfl moves (writesRest.ne_done_of_after awaits)]
  refine ⟨_, ?_, .requesting agreement ⟨expected, writesRest,
    same.symm ▸ reads, same.symm ▸ leftToRead, same.symm ▸ within⟩⟩
  simp only [List.length_append, List.length_take, List.length_drop]
  omega

/-- The server reads some of the request, and turns to its response at the end
of it. -/
theorem Requesting.server
    (requesting : Requesting session served call program serving toServer unwritten)
    (agreement : Agreement session returned served) (arrived : toServer ≠ [])
    (more : Nat) :
    Lowered session
      (callsWork waiting + 2 * unwritten.length + toServer.length +
        2 * (kHeaderSize + kResultPayloadSize))
      (moveServer session more
        { waiting := waiting, inCall := some (call, program)
          returned := returned, serving := some serving, served := served
          toServer := toServer, toClient := [] }) := by
  obtain ⟨expected, writes, reads, -, within⟩ := requesting
  obtain ⟨count, rest, someMoved, most, moves, readsRest⟩ :=
    reads.move (List.prefix_append toServer unwritten) arrived [] more
  rw [List.drop_append_of_le_length most] at readsRest
  by_cases left : toServer.drop count ++ unwritten = []
  · obtain ⟨readAll, written⟩ := List.append_eq_nil_iff.mp left
    obtain rfl := readsRest.eq_of_nil left
    obtain rfl := writes.eq_of_nil written
    have responds : Writes _ (responseBytes call.roi.frameId call.roi.roiId
        (answerTo session served.length (call.roi.request expected)).result) _ :=
      writes_respond session served.length (call.roi.request expected)
    have awaits : Reads (settle (receiveResponse true call.roi call.result))
        ([] ++ responseBytes call.roi.frameId call.roi.roiId
          (answerTo session served.length (call.roi.request expected)).result) _ :=
      reads_response session served.length (call.roi.request expected) call
    have responseSize := length_responseBytes call.roi.frameId call.roi.roiId
      (answerTo session served.length (call.roi.request expected)).result
    rw [moveServer_goesOn rfl moves
      (responds.ne_done (responseBytes_ne_nil _ _ _)), readAll]
    refine ⟨_, ?_, .responding agreement ⟨expected, awaits, responds,
      responseBytes_ne_nil _ _ _, responseSize.le⟩⟩
    have arrivedSome : 0 < toServer.length := List.length_pos_iff.mpr arrived
    rw [responseSize, written]
    simp only [List.length_nil]
    omega
  · rw [moveServer_goesOn rfl moves (readsRest.ne_done left)]
    refine ⟨_, ?_, .requesting agreement ⟨expected, writes, readsRest, left, ?_⟩⟩
    · simp only [List.length_drop]
      omega
    · rw [List.length_append, List.length_drop]
      rw [List.length_append] at within
      omega

/-- The server writes some of its response, and starts anew at the end of it. -/
theorem Responding.server
    (responding : Responding session served call program serving toClient unwritten)
    (agreement : Agreement session returned served) (more : Nat) :
    Lowered session
      (callsWork waiting + 2 * unwritten.length + toClient.length)
      (moveServer session more
        { waiting := waiting, inCall := some (call, program)
          returned := returned, serving := some serving, served := served
          toServer := [], toClient := toClient }) := by
  obtain ⟨expected, reads, writes, left, within⟩ := responding
  obtain ⟨count, rest, someMoved, most, moves, writesRest⟩ :=
    writes.move left [] toClient more
  have same : toClient ++ unwritten.take count ++ unwritten.drop count =
      toClient ++ unwritten := by
    rw [List.append_assoc, List.take_append_drop]
  by_cases written : unwritten.drop count = []
  · obtain rfl := writesRest.eq_of_nil written
    rw [written, List.append_nil] at same
    rw [moveServer_answers rfl moves]
    have someWritten : toClient ++ unwritten.take count ≠ [] := by
      rw [same]
      exact List.append_ne_nil_of_right_ne_nil toClient left
    have servedLength : (served ++ [answerTo session served.length
        (call.roi.request expected)]).length = served.length + 1 :=
      List.length_append
    have responded := @Phase.responded session waiting _ _ _ _ _ _
      (agreement.answer expected)
      ⟨same.symm ▸ reads, someWritten, same.symm ▸ within⟩
    rw [servedLength] at responded
    refine ⟨_, ?_, responded⟩
    rw [List.drop_eq_nil_iff] at written
    simp only [List.length_append, List.length_take]
    omega
  · rw [moveServer_goesOn rfl moves (writesRest.ne_done written)]
    refine ⟨_, ?_, .responding agreement ⟨expected, same.symm ▸ reads, writesRest,
      written, same.symm ▸ within⟩⟩
    simp only [List.length_append, List.length_take, List.length_drop]
    omega

/-- The client reads some of the response. -/
theorem Responding.client
    (responding : Responding session served call program serving toClient unwritten)
    (agreement : Agreement session returned served) (arrived : toClient ≠ [])
    (more : Nat) :
    Lowered session
      (callsWork waiting + 2 * unwritten.length + toClient.length)
      (moveClient more
        { waiting := waiting, inCall := some (call, program)
          returned := returned, serving := some serving, served := served
          toServer := [], toClient := toClient }) := by
  obtain ⟨expected, reads, writes, left, within⟩ := responding
  obtain ⟨count, rest, someMoved, most, moves, readsRest⟩ :=
    reads.move (List.prefix_append toClient unwritten) arrived [] more
  rw [List.drop_append_of_le_length most] at readsRest
  have stillLeft : toClient.drop count ++ unwritten ≠ [] :=
    List.append_ne_nil_of_right_ne_nil _ left
  rw [moveClient_goesOn rfl moves (readsRest.ne_done stillLeft)]
  refine ⟨_, ?_, .responding agreement ⟨expected, readsRest, writes, left, ?_⟩⟩
  · simp only [List.length_drop]
    omega
  · rw [List.length_append, List.length_drop]
    rw [List.length_append] at within
    omega

/-- The client reads some of what is left of the response, and returns at the
end of it. -/
theorem Responded.client {outcome : ClassifyReturn}
    (responded : Responded program toClient outcome)
    (agreement : Agreement session (returned ++ [(call, outcome)]) served)
    (more : Nat) :
    Lowered session (callsWork waiting + toClient.length)
      (moveClient more
        { waiting := waiting, inCall := some (call, program)
          returned := returned
          serving := some (settle (serveOne session served.length))
          served := served, toServer := [], toClient := toClient }) := by
  obtain ⟨reads, left, within⟩ := responded
  obtain ⟨count, rest, someMoved, most, moves, readsRest⟩ :=
    reads.move List.prefix_rfl left [] more
  by_cases readAll : toClient.drop count = []
  · obtain rfl := readsRest.eq_of_nil readAll
    rw [moveClient_returns rfl moves, readAll]
    refine ⟨_, ?_, .idle agreement⟩
    simp only
    omega
  · rw [moveClient_goesOn rfl moves (readsRest.ne_done readAll)]
    refine ⟨_, ?_, .responded agreement ⟨readsRest, readAll, ?_⟩⟩
    · simp only [List.length_drop]
      omega
    · rw [List.length_drop]
      omega

/-- The client makes its next call. -/
theorem idle_client (agreement : Agreement session returned served)
    (more : Nat) :
    Lowered session (callsWork (call :: waiting))
      (moveClient more
        { waiting := call :: waiting, inCall := none, returned := returned
          serving := some (settle (serveOne session served.length))
          served := served, toServer := [], toClient := [] }) := by
  have lessWork : callsWork waiting +
      (2 * (kHeaderSize + kRequestPayloadSize) +
        2 * (kHeaderSize + kResultPayloadSize)) < callsWork (call :: waiting) := by
    rw [callsWork, callsWork, List.length_cons, Nat.add_one_mul waiting.length]
    omega
  cases expected : call.roi.isExpected with
  | false =>
      refine ⟨callsWork waiting, by omega, ?_⟩
      rw [moveClient_calls rfl rfl, TcpRoiClient.classify_unexpected expected]
      exact .idle (agreement.reject expected)
  | true =>
      have writes : Writes (settle (classify true call.roi call.result))
          call.roi.requestBytes _ := TcpRoiClient.writes_classify expected
      have reads : Reads (settle (serveOne session served.length))
          ([] ++ call.roi.requestBytes) _ :=
        reads_serveOne session served.length (call.roi.request expected)
      have requestSize : call.roi.requestBytes.length =
          kHeaderSize + kRequestPayloadSize :=
        (call.roi.request expected).length_bytes
      have notEmpty : call.roi.requestBytes ≠ [] := List.cons_ne_nil _ _
      rw [moveClient_calls rfl rfl, callAt_of_ne_done (writes.ne_done notEmpty)]
      refine ⟨_, ?_, .requesting agreement ⟨expected, writes, reads, notEmpty,
        requestSize.le⟩⟩
      simp only [List.length_nil]
      omega

variable {state : State} {work : Nat}

/-- The client leaves the state as it is or does some of the work. -/
theorem Phase.client (phase : Phase session state work) (more : Nat) :
    moveClient more state = state ∨
      Lowered session work (moveClient more state) := by
  cases phase with
  | @idle waiting returned served agreement =>
      cases waiting with
      | nil => exact .inl rfl
      | cons call waiting => exact .inr (idle_client agreement more)
  | @requesting _ _ served call _ _ toServer unwritten agreement requesting =>
      by_cases written : unwritten = []
      · have awaits := reads_response session served.length
          (call.roi.request requesting.expected) call
        have notEmpty := responseBytes_ne_nil call.roi.frameId call.roi.roiId
          (answerTo session served.length
            (call.roi.request requesting.expected)).result
        obtain rfl := requesting.writes.eq_of_nil written
        rw [moveClient_goesOn rfl (awaits.waits notEmpty toServer more)
          (awaits.ne_done notEmpty)]
        exact .inl rfl
      · exact .inr (requesting.client agreement written more)
  | @responding _ _ _ _ _ _ toClient unwritten agreement responding =>
      by_cases arrived : toClient = []
      · have notEmpty : toClient ++ unwritten ≠ [] :=
          List.append_ne_nil_of_right_ne_nil toClient responding.left
        subst arrived
        rw [moveClient_goesOn rfl (responding.reads.waits notEmpty [] more)
          (responding.reads.ne_done notEmpty)]
        exact .inl rfl
      · exact .inr (responding.client agreement arrived more)
  | responded agreement responded =>
      exact .inr (responded.client agreement more)

/-- So does the server. -/
theorem Phase.server (phase : Phase session state work) (more : Nat) :
    moveServer session more state = state ∨
      Lowered session work (moveServer session more state) := by
  cases phase with
  | idle agreement => exact .inl (moveServer_waits rfl rfl more)
  | @requesting _ _ _ _ _ _ toServer unwritten agreement requesting =>
      by_cases arrived : toServer = []
      · have left := requesting.left
        subst arrived
        rw [moveServer_goesOn rfl (requesting.reads.waits left [] more)
          (requesting.reads.ne_done left)]
        exact .inl rfl
      · exact .inr (requesting.server agreement arrived more)
  | responding agreement responding =>
      exact .inr (responding.server agreement more)
  | responded agreement responded => exact .inl (moveServer_waits rfl rfl more)

theorem Phase.next (phase : Phase session state work) (action : Action) :
    step session state action = state ∨
      Lowered session work (step session state action) := by
  obtain ⟨actor, more⟩ := action
  cases actor with
  | client => exact phase.client more
  | server => exact phase.server more

/-- Until every call has returned, one of the two has work that it can do. -/
theorem Phase.progress (phase : Phase session state work) :
    state.waiting = [] ∧ state.inCall = none ∨
      ∃ actor, ∀ action : Action, action.actor = actor →
        Lowered session work (step session state action) := by
  cases phase with
  | @idle waiting returned served agreement =>
      cases waiting with
      | nil => exact .inl ⟨rfl, rfl⟩
      | cons call waiting =>
          refine .inr ⟨.client, ?_⟩
          rintro ⟨_, more⟩ rfl
          exact idle_client agreement more
  | @requesting _ _ _ _ _ _ toServer unwritten agreement requesting =>
      right
      by_cases arrived : toServer = []
      · refine ⟨.client, ?_⟩
        rintro ⟨_, more⟩ rfl
        have left := requesting.left
        subst arrived
        exact requesting.client agreement left more
      · refine ⟨.server, ?_⟩
        rintro ⟨_, more⟩ rfl
        exact requesting.server agreement arrived more
  | responding agreement responding =>
      refine .inr ⟨.server, ?_⟩
      rintro ⟨_, more⟩ rfl
      exact responding.server agreement more
  | responded agreement responded =>
      refine .inr ⟨.client, ?_⟩
      rintro ⟨_, more⟩ rfl
      exact responded.client agreement more

end Moves

section Calls

variable (state : State)

/-- The calls that have returned, the one in progress, and those that are still
to be made. -/
def State.calls : List Call :=
  state.returned.map Prod.fst ++
    ((state.inCall.map Prod.fst).toList ++ state.waiting)

theorem calls_callAt (call : Call) (program : StreamProgram Byte ClassifyReturn) :
    (state.callAt call program).calls =
      state.returned.map Prod.fst ++ ([call] ++ state.waiting) := by
  cases program <;> simp [State.callAt, State.calls]

theorem calls_moveClient (more : Nat) :
    (moveClient more state).calls = state.calls := by
  unfold moveClient
  split
  · rfl
  · next idle waits =>
      rw [calls_callAt, State.calls, idle, waits]
      rfl
  · next inCall =>
      apply (calls_callAt _ _ _).trans
      rw [State.calls, inCall]
      rfl

theorem calls_moveServer (more : Nat) :
    (moveServer session more state).calls = state.calls := by
  unfold moveServer
  split
  · rfl
  · next program _ =>
      dsimp only
      cases (Party.move more ⟨program, state.toServer, state.toClient⟩).program with
      | done outcome => cases outcome <;> rfl
      | send bytes next => rfl
      | receive size next => rfl

theorem calls_step (action : Action) :
    (step session state action).calls = state.calls := by
  obtain ⟨actor, more⟩ := action
  cases actor with
  | client => exact calls_moveClient state more
  | server => exact calls_moveServer session state more

end Calls

section Lockstep

/-- The calls for expected regions that have returned. -/
def State.answered (state : State) : List (Call × ClassifyReturn) :=
  state.returned.filter fun entry => entry.1.roi.isExpected

/-- The calls for expected regions that have been made. -/
def State.requested (state : State) : List Call :=
  (state.returned.map Prod.fst ++ (state.inCall.map Prod.fst).toList).filter
    fun call => call.roi.isExpected

/-- The two sides in lockstep.  `exchanges` are the calls whose requests the
server has answered: all that have returned, and the one in progress if it has
only to read its response. -/
structure Lockstep (calls : List Call) (state : State) : Prop where
  inOrder : state.calls = calls
  unexpected : ∀ entry ∈ state.returned, entry.1.roi.isExpected = false →
    entry.2 = ⟨.invalidArgument, entry.1.result, true⟩
  answered : ∃ exchanges : List (Call × ClassifyReturn),
    List.Forall₂ Agrees exchanges state.served ∧
      state.answered <+: exchanges ∧
      exchanges.map Prod.fst <+: state.requested
  computed : ∀ index (inRange : index < state.served.length),
    state.served[index].result =
      classifyOne (session.stages index state.served[index].request.image)
  oneOutstanding : state.requested.length ≤ state.answered.length + 1
  onTheWay : state.toServer.length ≤ kHeaderSize + kRequestPayloadSize ∧
    state.toClient.length ≤ kHeaderSize + kResultPayloadSize ∧
    (state.toServer = [] ∨ state.toClient = [])
  serving : state.serving ≠ none

variable {session}

theorem requested_map (returned : List (Call × ClassifyReturn)) :
    (returned.map Prod.fst).filter (fun call => call.roi.isExpected) =
      (returned.filter fun entry => entry.1.roi.isExpected).map Prod.fst :=
  List.filter_map

/-- If the exchanges are the calls that have returned, perhaps with the one in
progress, the two sides are in lockstep. -/
theorem Agreement.lockstep {state : State}
    {exchanges : List (Call × ClassifyReturn)}
    (agreement : Agreement session exchanges state.served)
    (allReturned : state.returned <+: exchanges)
    (allMade : exchanges.map Prod.fst <+:
      state.returned.map Prod.fst ++ (state.inCall.map Prod.fst).toList)
    (onTheWay : state.toServer.length ≤ kHeaderSize + kRequestPayloadSize ∧
      state.toClient.length ≤ kHeaderSize + kResultPayloadSize ∧
      (state.toServer = [] ∨ state.toClient = []))
    (serving : state.serving ≠ none) : Lockstep session state.calls state where
  inOrder := rfl
  unexpected entry mem := agreement.unexpected entry (allReturned.subset mem)
  answered := by
    refine ⟨_, agreement.answered, allReturned.filter _, ?_⟩
    rw [← requested_map]
    exact allMade.filter _
  computed := agreement.computed
  oneOutstanding := by
    have atMostOne : ((state.inCall.map Prod.fst).toList.filter
        fun call => call.roi.isExpected).length ≤ 1 := by
      apply (List.length_filter_le _ _).trans
      cases state.inCall <;> simp
    rw [State.requested, State.answered, List.filter_append, requested_map,
      List.length_append, List.length_map]
    exact Nat.add_le_add_left atMostOne _
  onTheWay := onTheWay
  serving := serving

theorem Phase.lockstep {state : State} {work : Nat}
    (phase : Phase session state work) : Lockstep session state.calls state := by
  cases phase with
  | idle agreement =>
      apply agreement.lockstep List.prefix_rfl (List.prefix_append _ _)
      · simp
      · simp
  | requesting agreement requesting =>
      apply agreement.lockstep List.prefix_rfl (List.prefix_append _ _)
      · have within := requesting.within
        rw [List.length_append] at within
        exact ⟨(Nat.le_add_right _ _).trans within, Nat.zero_le _, .inr rfl⟩
      · simp
  | responding agreement responding =>
      apply agreement.lockstep List.prefix_rfl (List.prefix_append _ _)
      · have within := responding.within
        rw [List.length_append] at within
        exact ⟨Nat.zero_le _, (Nat.le_add_right _ _).trans within, .inl rfl⟩
      · simp
  | responded agreement responded =>
      apply agreement.lockstep (List.prefix_append _ _)
      · simp
      · exact ⟨Nat.zero_le _, responded.within, .inl rfl⟩
      · simp

end Lockstep

section Runs

theorem phase_start (calls : List Call) :
    Phase session (start session calls) (callsWork calls) :=
  @Phase.idle session calls [] [] ⟨by simp, .nil, by simp⟩

/-- A run goes from phase to phase, and its calls stay the same. -/
theorem phase_run (calls : List Call) (actions : List Action) {state : State}
    {work : Nat} (phase : Phase session state work) :
    (∃ left, Phase session ((machine session calls).runFrom state actions) left) ∧
      ((machine session calls).runFrom state actions).calls = state.calls := by
  induction actions generalizing state work with
  | nil => exact ⟨⟨work, phase⟩, rfl⟩
  | cons action actions ih =>
      rw [EventMachine.runFrom_cons, ← calls_step session state action]
      rcases phase.next action with same | ⟨lower, -, lowered⟩
      · exact ih (same.symm ▸ phase)
      · exact ih lowered

/-- Every run stays in lockstep. -/
theorem lockstep_run (calls : List Call) (actions : List Action) :
    Lockstep session calls
      ((machine session calls).runFrom (start session calls) actions) := by
  obtain ⟨⟨left, phase⟩, sameCalls⟩ :=
    phase_run session calls actions (phase_start session calls)
  have lockstep := phase.lockstep
  rwa [sameCalls] at lockstep

/-- Every call has returned, and those for expected regions agree one by one
with what the server has answered. -/
structure Completed (calls : List Call) (state : State) : Prop where
  allReturned : state.returned.map Prod.fst = calls
  answered : List.Forall₂ Agrees state.answered state.served

variable {session} in
theorem Lockstep.completed {calls : List Call} {state : State}
    (lockstep : Lockstep session calls state) (noneWaiting : state.waiting = [])
    (noneInCall : state.inCall = none) : Completed calls state where
  allReturned := by
    rw [← lockstep.inOrder, State.calls, noneWaiting, noneInCall]
    simp
  answered := by
    obtain ⟨exchanges, agrees, allReturned, allMade⟩ := lockstep.answered
    have noMore : exchanges.length ≤ state.answered.length := by
      have made := allMade.length_le
      rw [State.requested, noneInCall] at made
      simpa [requested_map, State.answered] using made
    rwa [allReturned.eq_of_length_le noMore]

/-- Both sides are scheduled again and again. -/
def Fair (schedule : Nat → Action) : Prop :=
  ∀ actor count, ∃ later, count ≤ later ∧ (schedule later).actor = actor

/-- However the bytes are cut, the client and the server stay in lockstep: at
most one request is outstanding, requests are answered once and in order, and
the answers are accepted with what the server has computed.  If both sides are
scheduled again and again, every call returns. -/
theorem client_and_server_agree (calls : List Call) :
    (∀ actions : List Action, Lockstep session calls
      ((machine session calls).runFrom (start session calls) actions)) ∧
    ∀ schedule : Nat → Action, Fair schedule → ∃ count,
      Completed calls ((machine session calls).stateAlong schedule count) := by
  refine ⟨lockstep_run session calls, fun schedule fair => ?_⟩
  obtain ⟨count, noneWaiting, noneInCall⟩ :=
    (machine session calls).eventually_of_fair Action.actor (Phase session)
      (fun state => state.waiting = [] ∧ state.inCall = none)
      (phase_start session calls) (fun state work action phase => phase.next action)
      (fun state work phase => phase.progress) fair
  have lockstep : Lockstep session calls
      ((machine session calls).stateAlong schedule count) := by
    rw [EventMachine.stateAlong_eq_runFrom]
    exact lockstep_run session calls _
  exact ⟨count, lockstep.completed noneWaiting noneInCall⟩

/-- Turn and turn about, a byte at a time. -/
def turnAbout (count : Nat) : Action :=
  ⟨if count % 2 = 0 then .client else .server, 0⟩

theorem fair_turnAbout : Fair turnAbout := by
  intro actor count
  cases actor with
  | client => exact ⟨2 * count, by omega, by simp [turnAbout]⟩
  | server => exact ⟨2 * count + 1, by omega, by simp [turnAbout]⟩

/-- A classifier of two classes that only looks at the first pixel. -/
def brightOrDark : Session where
  server := ⟨3⟩
  connected := by decide
  model := ⟨2, by decide⟩
  buffers _ := TcpRoiServer.emptyBuffers
  buffersSize _ := by rw [TcpRoiServer.emptyBuffers, List.length_replicate]
  stages _ image :=
    { ifmap := true
      plOutput := true
      preprocess := .ok
      run := .ok
      gapSum := .ok
      allocated := true
      fc := .ok
      logits := [127, (image.headD 0).toNat]
      logitsSize := rfl
      confidencePpm := some 600000
      confidenceInRange := by rintro ppm ⟨⟩; decide }

/-- A dark region, one that has not been scaled, and a bright one. -/
def threeCalls : List Call :=
  [⟨TcpRoiClient.greyRoi 7 0 90, {}⟩,
    ⟨{ TcpRoiClient.greyRoi 7 1 90 with
      rgbPixels := ⟨Network.kCv8uc3, 0, 0, true, [], fun _ _ => rfl⟩ }, {}⟩,
    ⟨TcpRoiClient.greyRoi 7 2 200, {}⟩]

theorem client_and_server_agree_threeCalls :
    (∀ actions : List Action, Lockstep brightOrDark threeCalls
      ((machine brightOrDark threeCalls).runFrom (start brightOrDark threeCalls) actions)) ∧
    ∃ count, Completed threeCalls
      ((machine brightOrDark threeCalls).stateAlong turnAbout count) := by
  obtain ⟨lockstep, completes⟩ := client_and_server_agree brightOrDark threeCalls
  exact ⟨lockstep, completes turnAbout fair_turnAbout⟩

end Runs

end Adas.RoiExchange
