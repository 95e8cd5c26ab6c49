import Mathlib.Data.List.Basic

/-!
# Programs over a byte stream

A program sends and receives blocks of bytes over a stream socket.  The socket
moves any positive number of bytes at a time, so a block is moved by a loop
that goes on until the block is complete, the peer has closed the stream, or a
call has failed; an interrupted call is repeated.

The file gives programs two meanings.  `run` executes a program against the
results of the socket's calls, loop by loop.  `Party.move` lets one call move
some bytes between a program and the two pipes of a connection, so that two
programs can be run against each other.  What a program reads and writes is
said once, by `Reads` and `Writes`, and used for both; `Ensures` is the rule
for postconditions when calls can fail.
-/

/-- How the transfer of a block ends. -/
inductive Transfer where
  | complete
  | closed
  | failed
  deriving DecidableEq, Repr

/-- A program whose next step depends on how a block was transferred.  A block
that could not be received is handed over as far as it came. -/
inductive StreamProgram (Byte Result : Type) where
  | done (result : Result)
  | send (bytes : List Byte) (next : Transfer → StreamProgram Byte Result)
  | receive (size : Nat)
      (next : Transfer → List Byte → StreamProgram Byte Result)

namespace StreamProgram

variable {Byte Result Next : Type}

/-- Continue with what the program results in. -/
def bind : StreamProgram Byte Result → (Result → StreamProgram Byte Next) →
    StreamProgram Byte Next
  | .done result, andThen => andThen result
  | .send bytes next, andThen =>
      .send bytes fun transfer => (next transfer).bind andThen
  | .receive size next, andThen =>
      .receive size fun transfer got => (next transfer got).bind andThen

instance : Monad (StreamProgram Byte) where
  pure := .done
  bind := bind

/-- Pass over the blocks that are empty: no call is made for them. -/
def settle : StreamProgram Byte Result → StreamProgram Byte Result
  | .done result => .done result
  | .send [] next => settle (next .complete)
  | .send (byte :: bytes) next => .send (byte :: bytes) next
  | .receive 0 next => settle (next .complete [])
  | .receive (size + 1) next => .receive (size + 1) next

section Sockets

/-- What one call of `send` does: it takes one byte and up to `more` others. -/
inductive SendResult where
  | sent (more : Nat)
  | closed
  | interrupted
  | failed
  deriving DecidableEq, Repr

/-- What one call of `recv` finds: some bytes have arrived, of which it takes as
many as were asked for. -/
inductive RecvResult (Byte : Type) where
  | arrived (first : Byte) (more : List Byte)
  | closed
  | interrupted
  | failed
  deriving DecidableEq, Repr

/-- The results of the calls still to come, and what has passed. -/
structure Socket (Byte : Type) where
  sends : List SendResult := []
  recvs : List (RecvResult Byte) := []
  sent : List Byte := []
  received : List Byte := []
  deriving DecidableEq, Repr

/-- A loop that has ended: the bytes it has moved and the results it has left. -/
structure LoopEnd (Byte Results : Type) where
  transfer : Transfer
  moved : List Byte
  left : Results

def LoopEnd.after {Results : Type} (bytes : List Byte)
    (ended : LoopEnd Byte Results) : LoopEnd Byte Results :=
  { ended with moved := bytes ++ ended.moved }

/-- The loop that sends a block; `none` while it has not ended. -/
def sendLoop : List Byte → List SendResult →
    Option (LoopEnd Byte (List SendResult))
  | [], results => some ⟨.complete, [], results⟩
  | _ :: _, [] => none
  | byte :: bytes, .sent more :: results =>
      (sendLoop (bytes.drop more) results).map
        (LoopEnd.after (byte :: bytes.take more))
  | byte :: bytes, .interrupted :: results => sendLoop (byte :: bytes) results
  | _ :: _, .closed :: results => some ⟨.closed, [], results⟩
  | _ :: _, .failed :: results => some ⟨.failed, [], results⟩

/-- The bytes of an arrival that were not asked for stay in the socket. -/
def keep : List Byte → List (RecvResult Byte) → List (RecvResult Byte)
  | [], results => results
  | first :: more, results => .arrived first more :: results

/-- The loop that receives a block; `none` while it has not ended. -/
def receiveLoop : Nat → List (RecvResult Byte) →
    Option (LoopEnd Byte (List (RecvResult Byte)))
  | 0, results => some ⟨.complete, [], results⟩
  | _ + 1, [] => none
  | size + 1, .arrived first more :: results =>
      if more.length < size then
        (receiveLoop (size - more.length) results).map
          (LoopEnd.after (first :: more))
      else
        some ⟨.complete, first :: more.take size, keep (more.drop size) results⟩
  | size + 1, .interrupted :: results => receiveLoop (size + 1) results
  | _ + 1, .closed :: results => some ⟨.closed, [], results⟩
  | _ + 1, .failed :: results => some ⟨.failed, [], results⟩

/-- Execute a program; `none` while it waits for a call to return. -/
def run : StreamProgram Byte Result → Socket Byte →
    Option (Result × Socket Byte)
  | .done result, socket => some (result, socket)
  | .send bytes next, socket =>
      (sendLoop bytes socket.sends).bind fun ended =>
        run (next ended.transfer)
          { socket with
            sends := ended.left, sent := socket.sent ++ ended.moved }
  | .receive size next, socket =>
      (receiveLoop size socket.recvs).bind fun ended =>
        run (next ended.transfer ended.moved)
          { socket with
            recvs := ended.left, received := socket.received ++ ended.moved }

end Sockets

section Bind

variable (program : StreamProgram Byte Result)
variable (andThen : Result → StreamProgram Byte Next)

@[simp]
theorem send_bind (bytes : List Byte)
    (next : Transfer → StreamProgram Byte Result) :
    send bytes next >>= andThen =
      send bytes fun transfer => next transfer >>= andThen :=
  rfl

@[simp]
theorem receive_bind (size : Nat)
    (next : Transfer → List Byte → StreamProgram Byte Result) :
    receive size next >>= andThen =
      receive size fun transfer got => next transfer got >>= andThen :=
  rfl

theorem settle_bind :
    settle (program >>= andThen) = settle (settle program >>= andThen) := by
  induction program with
  | done result => rfl
  | send bytes next ih =>
      cases bytes with
      | nil => exact ih .complete
      | cons byte bytes => rfl
  | receive size next ih =>
      cases size with
      | zero => exact ih .complete []
      | succ size => rfl

/-- Empty blocks make no difference to an execution. -/
theorem run_settle (socket : Socket Byte) :
    run (settle program) socket = run program socket := by
  induction program with
  | done result => rfl
  | send bytes next ih =>
      cases bytes with
      | nil =>
          rw [settle, ih, run, sendLoop]
          simp
      | cons byte bytes => rfl
  | receive size next ih =>
      cases size with
      | zero =>
          rw [settle, ih, run, receiveLoop]
          simp
      | succ size => rfl

end Bind

section Transfers

/-- The bytes that arrive. -/
def RecvResult.bytes : RecvResult Byte → List Byte
  | .arrived first more => first :: more
  | _ => []

def arriving (results : List (RecvResult Byte)) : List Byte :=
  results.flatMap RecvResult.bytes

/-- No call fails and the peer does not close the stream. -/
def Delivers (results : List (RecvResult Byte)) : Prop :=
  .closed ∉ results ∧ .failed ∉ results

/-- A loop sends a part of its block, and all of it unless it fails. -/
theorem sendLoop_moved {bytes : List Byte} {results : List SendResult}
    {ended : LoopEnd Byte (List SendResult)}
    (ends : sendLoop bytes results = some ended) :
    ended.moved <+: bytes ∧
      (ended.transfer = .complete → ended.moved = bytes) := by
  induction results generalizing bytes ended with
  | nil =>
      cases bytes with
      | nil =>
          obtain rfl := Option.some.inj ends
          exact ⟨List.prefix_rfl, fun _ => rfl⟩
      | cons byte bytes => simp [sendLoop] at ends
  | cons result results ih =>
      cases bytes with
      | nil =>
          obtain rfl := Option.some.inj ends
          exact ⟨List.prefix_rfl, fun _ => rfl⟩
      | cons byte bytes =>
          cases result with
          | sent more =>
              obtain ⟨rest, restEnds, rfl⟩ := Option.map_eq_some_iff.mp ends
              obtain ⟨isPrefix, all⟩ := ih restEnds
              have whole : byte :: bytes.take more ++ bytes.drop more =
                  byte :: bytes := by
                rw [List.cons_append, List.take_append_drop]
              constructor
              · rw [← whole]
                exact (List.prefix_append_right_inj _).mpr isPrefix
              · intro complete
                rw [← whole]
                exact congrArg (byte :: bytes.take more ++ ·) (all complete)
          | interrupted => exact ih ends
          | closed =>
              obtain rfl := Option.some.inj ends
              exact ⟨List.nil_prefix, fun complete => by simp at complete⟩
          | failed =>
              obtain rfl := Option.some.inj ends
              exact ⟨List.nil_prefix, fun complete => by simp at complete⟩

theorem arriving_keep (bytes : List Byte) (results : List (RecvResult Byte)) :
    arriving (keep bytes results) = bytes ++ arriving results := by
  cases bytes <;> rfl

/-- A loop receives no more than its block, all of it unless it fails, and the
bytes in the order in which they arrive. -/
theorem receiveLoop_moved {size : Nat} {results : List (RecvResult Byte)}
    {ended : LoopEnd Byte (List (RecvResult Byte))}
    (ends : receiveLoop size results = some ended) :
    ended.moved.length ≤ size ∧
      (ended.transfer = .complete → ended.moved.length = size) ∧
      ended.moved ++ arriving ended.left = arriving results := by
  induction results generalizing size ended with
  | nil =>
      cases size with
      | zero =>
          obtain rfl := Option.some.inj ends
          exact ⟨Nat.le_refl 0, fun _ => rfl, rfl⟩
      | succ size => simp [receiveLoop] at ends
  | cons result results ih =>
      cases size with
      | zero =>
          obtain rfl := Option.some.inj ends
          exact ⟨Nat.le_refl 0, fun _ => rfl, rfl⟩
      | succ size =>
          cases result with
          | arrived first more =>
              rw [receiveLoop] at ends
              split_ifs at ends with fits
              · obtain ⟨rest, restEnds, rfl⟩ := Option.map_eq_some_iff.mp ends
                obtain ⟨atMost, all, inOrder⟩ := ih restEnds
                simp only [LoopEnd.after, List.length_append, List.length_cons]
                refine ⟨by omega, fun complete => ?_, ?_⟩
                · have := all complete
                  omega
                · rw [List.append_assoc, inOrder]
                  rfl
              · obtain rfl := Option.some.inj ends
                have taken : (first :: more.take size).length = size + 1 := by
                  rw [List.length_cons, List.length_take]
                  omega
                refine ⟨Nat.le_of_eq taken, fun _ => taken, ?_⟩
                rw [arriving_keep, ← List.append_assoc, List.cons_append,
                  List.take_append_drop]
                rfl
          | interrupted => exact ih ends
          | closed =>
              obtain rfl := Option.some.inj ends
              exact ⟨Nat.zero_le _, fun complete => by simp at complete, rfl⟩
          | failed =>
              obtain rfl := Option.some.inj ends
              exact ⟨Nat.zero_le _, fun complete => by simp at complete, rfl⟩

/-- What has been received and what is still to arrive stay the same bytes. -/
theorem run_received {program : StreamProgram Byte Result}
    {socket after : Socket Byte} {result : Result}
    (runs : run program socket = some (result, after)) :
    after.received ++ arriving after.recvs =
      socket.received ++ arriving socket.recvs := by
  induction program generalizing socket with
  | done =>
      obtain ⟨-, rfl⟩ := Prod.mk.inj (Option.some.inj runs)
      rfl
  | send bytes next ih =>
      obtain ⟨ended, -, restRuns⟩ := Option.bind_eq_some_iff.mp runs
      have rest := ih ended.transfer restRuns
      exact rest
  | receive size next ih =>
      obtain ⟨ended, ends, restRuns⟩ := Option.bind_eq_some_iff.mp runs
      rw [ih ended.transfer ended.moved restRuns, List.append_assoc,
        (receiveLoop_moved ends).2.2]

end Transfers

section Postconditions

/-- However the calls turn out, the program ends with a result of which `post`
holds, together with the bytes sent and received so far and from here on. -/
def Ensures (post : Result → List Byte → List Byte → Prop) :
    StreamProgram Byte Result → (sent received : List Byte) → Prop
  | .done result, sent, received => post result sent received
  | .send bytes next, sent, received =>
      Ensures post (next .complete) (sent ++ bytes) received ∧
        ∀ part, part <+: bytes →
          Ensures post (next .closed) (sent ++ part) received ∧
            Ensures post (next .failed) (sent ++ part) received
  | .receive size next, sent, received =>
      (∀ got, got.length = size →
        Ensures post (next .complete got) sent (received ++ got)) ∧
      ∀ part, part.length ≤ size →
        Ensures post (next .closed part) sent (received ++ part) ∧
          Ensures post (next .failed part) sent (received ++ part)

variable {post : Result → List Byte → List Byte → Prop}

/-- The postcondition holds of every execution that ends. -/
theorem Ensures.of_run {program : StreamProgram Byte Result}
    {socket after : Socket Byte} {result : Result}
    (ensures : Ensures post program socket.sent socket.received)
    (runs : run program socket = some (result, after)) :
    post result after.sent after.received := by
  induction program generalizing socket with
  | done =>
      obtain ⟨rfl, rfl⟩ := Prod.mk.inj (Option.some.inj runs)
      exact ensures
  | send bytes next ih =>
      obtain ⟨ended, ends, restRuns⟩ := Option.bind_eq_some_iff.mp runs
      obtain ⟨isPrefix, all⟩ := sendLoop_moved ends
      obtain ⟨completes, fails⟩ := ensures
      refine ih ended.transfer ?_ restRuns
      cases transfer : ended.transfer with
      | complete =>
          rw [all transfer]
          exact completes
      | closed => exact (fails ended.moved isPrefix).1
      | failed => exact (fails ended.moved isPrefix).2
  | receive size next ih =>
      obtain ⟨ended, ends, restRuns⟩ := Option.bind_eq_some_iff.mp runs
      obtain ⟨atMost, all, -⟩ := receiveLoop_moved ends
      obtain ⟨completes, fails⟩ := ensures
      refine ih ended.transfer ended.moved ?_ restRuns
      cases transfer : ended.transfer with
      | complete => exact completes ended.moved (all transfer)
      | closed => exact (fails ended.moved atMost).1
      | failed => exact (fails ended.moved atMost).2

end Postconditions

section Reading

/-- The program reads the bytes and becomes `after`. -/
inductive Reads : StreamProgram Byte Result → List Byte →
    StreamProgram Byte Result → Prop where
  | refl (program : StreamProgram Byte Result) : Reads program [] program
  | receive {size : Nat} {got more : List Byte}
      {next : Transfer → List Byte → StreamProgram Byte Result}
      {after : StreamProgram Byte Result} (whole : got.length = size)
      (notEmpty : got ≠ []) (rest : Reads (settle (next .complete got)) more after) :
      Reads (.receive size next) (got ++ more) after

/-- The program writes the bytes and becomes `after`. -/
inductive Writes : StreamProgram Byte Result → List Byte →
    StreamProgram Byte Result → Prop where
  | refl (program : StreamProgram Byte Result) : Writes program [] program
  | send {bytes more : List Byte}
      {next : Transfer → StreamProgram Byte Result}
      {after : StreamProgram Byte Result} (notEmpty : bytes ≠ [])
      (rest : Writes (settle (next .complete)) more after) :
      Writes (.send bytes next) (bytes ++ more) after

variable {first second : StreamProgram Byte Result}
variable {bytes more : List Byte}

/-- A program that has nothing to read has become `after`. -/
theorem Reads.eq_of_nil (reads : Reads first bytes second) (nothing : bytes = []) :
    first = second := by
  cases reads with
  | refl => rfl
  | receive whole notEmpty rest =>
      exact absurd (List.append_eq_nil_iff.mp nothing).1 notEmpty

theorem Writes.eq_of_nil (writes : Writes first bytes second)
    (nothing : bytes = []) : first = second := by
  cases writes with
  | refl => rfl
  | send notEmpty rest =>
      exact absurd (List.append_eq_nil_iff.mp nothing).1 notEmpty

/-- A program that has something to read is not at its end. -/
theorem Reads.ne_done (reads : Reads first bytes second) (left : bytes ≠ [])
    (result : Result) : first ≠ .done result := by
  cases reads with
  | refl => exact absurd rfl left
  | receive whole notEmpty rest => simp

theorem Writes.ne_done (writes : Writes first bytes second) (left : bytes ≠ [])
    (result : Result) : first ≠ .done result := by
  cases writes with
  | refl => exact absurd rfl left
  | send notEmpty rest => simp

/-- A program that writes before it goes on is not at its end either. -/
theorem Writes.ne_done_of_after (writes : Writes first bytes second)
    (goesOn : ∀ result, second ≠ .done result) (result : Result) :
    first ≠ .done result := by
  cases writes with
  | refl => exact goesOn result
  | send notEmpty rest => simp

/-- A block that is received whole is read. -/
theorem Reads.settle_receive {size : Nat} {got : List Byte}
    {next : Transfer → List Byte → StreamProgram Byte Result}
    (whole : got.length = size) (notEmpty : got ≠ [])
    (rest : Reads (settle (next .complete got)) more second) :
    Reads (settle (.receive size next)) (got ++ more) second := by
  cases size with
  | zero => exact absurd (List.length_eq_zero_iff.mp whole) notEmpty
  | succ size => exact .receive whole notEmpty rest

/-- A block that is sent whole is written. -/
theorem Writes.settle_send {next : Transfer → StreamProgram Byte Result}
    (notEmpty : bytes ≠ []) (rest : Writes (settle (next .complete)) more second) :
    Writes (settle (.send bytes next)) (bytes ++ more) second := by
  cases bytes with
  | nil => exact absurd rfl notEmpty
  | cons byte bytes => exact .send notEmpty rest

theorem Reads.bind (reads : Reads first bytes second)
    (andThen : Result → StreamProgram Byte Next) :
    Reads (settle (first >>= andThen)) bytes (settle (second >>= andThen)) := by
  induction reads with
  | refl program => exact .refl _
  | receive whole notEmpty rest ih =>
      rw [← settle_bind] at ih
      rw [receive_bind]
      exact .settle_receive whole notEmpty ih

theorem Writes.bind (writes : Writes first bytes second)
    (andThen : Result → StreamProgram Byte Next) :
    Writes (settle (first >>= andThen)) bytes (settle (second >>= andThen)) := by
  induction writes with
  | refl program => exact .refl _
  | send notEmpty rest ih =>
      rw [← settle_bind] at ih
      rw [send_bind]
      exact .settle_send notEmpty ih

end Reading

section Delivery

theorem Delivers.tail {result : RecvResult Byte}
    {results : List (RecvResult Byte)} (delivers : Delivers (result :: results)) :
    Delivers results :=
  ⟨fun mem => delivers.1 (List.mem_cons_of_mem result mem),
    fun mem => delivers.2 (List.mem_cons_of_mem result mem)⟩

theorem Delivers.keep {results : List (RecvResult Byte)}
    (delivers : Delivers results) (bytes : List Byte) :
    Delivers (keep bytes results) := by
  cases bytes with
  | nil => exact delivers
  | cons first more =>
      constructor
      · rintro (_ | ⟨_, mem⟩)
        exact delivers.1 mem
      · rintro (_ | ⟨_, mem⟩)
        exact delivers.2 mem

/-- However the bytes arrive, a loop receives the next ones as soon as there
are enough of them. -/
theorem receiveLoop_delivers {size : Nat} {results : List (RecvResult Byte)}
    (delivers : Delivers results) (enough : size ≤ (arriving results).length) :
    ∃ left, receiveLoop size results =
        some ⟨.complete, (arriving results).take size, left⟩ ∧
      Delivers left ∧ arriving left = (arriving results).drop size := by
  induction results generalizing size with
  | nil =>
      obtain rfl : size = 0 := Nat.le_zero.mp enough
      exact ⟨[], rfl, delivers, rfl⟩
  | cons result results ih =>
      cases size with
      | zero => exact ⟨result :: results, rfl, delivers, rfl⟩
      | succ size =>
          cases result with
          | arrived first more =>
              have arrivingEq : arriving (.arrived first more :: results) =
                  first :: (more ++ arriving results) := rfl
              rw [arrivingEq] at enough ⊢
              rw [receiveLoop]
              rw [List.length_cons, List.length_append] at enough
              by_cases fits : more.length < size
              · have within : more.length ≤ size := Nat.le_of_lt fits
                obtain ⟨left, loop, leftDelivers, leftEq⟩ :=
                  @ih (size - more.length) delivers.tail (by omega)
                rw [if_pos fits, loop]
                refine ⟨left, ?_, leftDelivers, ?_⟩
                · simp only [Option.map_some, LoopEnd.after, List.take_succ_cons,
                    List.cons_append, List.take_append,
                    List.take_of_length_le within]
                · rw [leftEq, List.drop_succ_cons, List.drop_append,
                    List.drop_of_length_le within, List.nil_append]
              · rw [if_neg fits]
                have within : size ≤ more.length := by omega
                refine ⟨_, ?_, delivers.tail.keep (more.drop size), ?_⟩
                · rw [List.take_succ_cons, List.take_append_of_le_length within]
                · rw [arriving_keep, List.drop_succ_cons,
                    List.drop_append_of_le_length within]
          | interrupted => exact ih delivers.tail enough
          | closed => exact absurd List.mem_cons_self delivers.1
          | failed => exact absurd List.mem_cons_self delivers.2

/-- A block in two pieces with an interrupted call between them; what is not
asked for stays in the socket. -/
example :
    (receiveLoop 3 [.arrived 1 [2], .interrupted, .arrived 3 [4, 5]]).map
        (fun ended => (ended.transfer, ended.moved, ended.left)) =
      some (.complete, [1, 2, 3], [.arrived 4 [5]]) := by
  decide

/-- A program that reads the bytes that arrive next goes on after them, however
they arrive. -/
theorem Reads.run {program after : StreamProgram Byte Result}
    {bytes later : List Byte} (reads : Reads program bytes after)
    {socket : Socket Byte} (delivers : Delivers socket.recvs)
    (arrives : arriving socket.recvs = bytes ++ later) :
    ∃ recvs, Delivers recvs ∧ arriving recvs = later ∧
      run program socket = run after { socket with
        recvs := recvs, received := socket.received ++ bytes } := by
  induction reads generalizing socket with
  | refl program =>
      exact ⟨socket.recvs, delivers, arrives, by rw [List.append_nil]⟩
  | @receive size got more next after whole notEmpty rest ih =>
      rw [List.append_assoc] at arrives
      have enough : size ≤ (arriving socket.recvs).length := by
        rw [arrives, List.length_append]
        omega
      obtain ⟨left, loop, leftDelivers, leftEq⟩ :=
        receiveLoop_delivers delivers enough
      rw [arrives, ← whole, List.drop_left] at leftEq
      rw [arrives, ← whole, List.take_left] at loop
      obtain ⟨recvs, recvsDelivers, recvsEq, runs⟩ := @ih
        { socket with recvs := left, received := socket.received ++ got }
        leftDelivers leftEq
      refine ⟨recvs, recvsDelivers, recvsEq, ?_⟩
      rw [StreamProgram.run, ← whole, loop, Option.bind_some]
      rw [run_settle] at runs
      rw [runs, List.append_assoc]

/-- A stream that comes byte for byte, every byte after an interrupted call. -/
def bytewise (stream : List Byte) : List (RecvResult Byte) :=
  stream.flatMap fun byte => [.interrupted, .arrived byte []]

theorem arriving_bytewise (stream : List Byte) : arriving (bytewise stream) = stream := by
  induction stream with
  | nil => rfl
  | cons byte stream ih => exact congrArg (byte :: ·) ih

theorem delivers_bytewise (stream : List Byte) : Delivers (bytewise stream) := by
  constructor <;> simp [bytewise]

end Delivery

section Acceptance

/-- The calls take so many bytes before one fails or the peer closes the stream. -/
inductive Takes : List SendResult → Nat → Prop where
  | enough (results : List SendResult) : Takes results 0
  | sent {results : List SendResult} {count : Nat} (more : Nat)
      (takes : Takes results count) : Takes (.sent more :: results) (count + 1)
  | interrupted {results : List SendResult} {count : Nat}
      (takes : Takes results count) : Takes (.interrupted :: results) count

theorem Takes.fewer {results : List SendResult} {count fewer : Nat}
    (takes : Takes results count) (less : fewer ≤ count) : Takes results fewer := by
  induction takes generalizing fewer with
  | enough results =>
      obtain rfl := Nat.le_zero.mp less
      exact .enough results
  | sent more takes ih =>
      cases fewer with
      | zero => exact .enough _
      | succ fewer => exact .sent more (ih (Nat.le_of_succ_le_succ less))
  | interrupted takes ih => exact .interrupted (ih less)

/-- However few bytes a call takes, a loop sends its block. -/
theorem sendLoop_takes {bytes : List Byte} {results : List SendResult} {total count : Nat}
    (takes : Takes results total) (whole : bytes.length + count ≤ total) :
    ∃ left, sendLoop bytes results = some ⟨.complete, bytes, left⟩ ∧ Takes left count := by
  induction takes generalizing bytes with
  | enough results =>
      obtain ⟨nothing, rfl⟩ := Nat.add_eq_zero_iff.mp (Nat.le_zero.mp whole)
      rw [List.eq_nil_of_length_eq_zero nothing]
      exact ⟨results, by cases results <;> rfl, .enough results⟩
  | @sent results total more takes ih =>
      cases bytes with
      | nil => exact ⟨_, rfl, (Takes.sent more takes).fewer (by simpa using whole)⟩
      | cons byte bytes =>
          rw [List.length_cons] at whole
          obtain ⟨left, loop, rest⟩ :=
            @ih (bytes.drop more) (by rw [List.length_drop]; omega)
          refine ⟨left, ?_, rest⟩
          rw [sendLoop, loop, Option.map_some, LoopEnd.after, List.cons_append,
            List.take_append_drop]
  | interrupted takes ih =>
      cases bytes with
      | nil => exact ⟨_, rfl, (Takes.interrupted takes).fewer (by simpa using whole)⟩
      | cons byte bytes => exact ih whole

/-- A program goes on after the bytes that it writes, however few of them a call
takes. -/
theorem Writes.run {program after : StreamProgram Byte Result} {bytes : List Byte}
    (writes : Writes program bytes after) {socket : Socket Byte} {count : Nat}
    (takes : Takes socket.sends (bytes.length + count)) :
    ∃ sends, Takes sends count ∧
      run program socket = run after { socket with
        sends := sends, sent := socket.sent ++ bytes } := by
  induction writes generalizing socket with
  | refl program =>
      exact ⟨socket.sends, by simpa using takes, by rw [List.append_nil]⟩
  | @send bytes more next after notEmpty rest ih =>
      rw [List.length_append, Nat.add_assoc] at takes
      obtain ⟨left, loop, leftTakes⟩ := sendLoop_takes takes (Nat.le_refl _)
      obtain ⟨sends, sendsTake, runs⟩ := @ih
        { socket with sends := left, sent := socket.sent ++ bytes } leftTakes
      refine ⟨sends, sendsTake, ?_⟩
      rw [StreamProgram.run, loop, Option.bind_some]
      rw [run_settle] at runs
      rw [runs, List.append_assoc]

theorem takes_replicate (more count : Nat) :
    Takes (List.replicate count (.sent more)) count := by
  induction count with
  | zero => exact .enough _
  | succ count ih => exact .sent more ih

end Acceptance

section Pipes

/-- A program at one end of a connection, with the bytes on the way to it and
those on the way to its peer. -/
structure Party (Byte Result : Type) where
  program : StreamProgram Byte Result
  inbound : List Byte
  outbound : List Byte

/-- One call moves one byte and up to `more` others, as far as the program and
the pipe have them; a program that finds nothing to receive waits. -/
def Party.move (more : Nat) (party : Party Byte Result) : Party Byte Result :=
  match party.program with
  | .done _ => party
  | .send bytes next =>
      { party with
        program := settle (.send (bytes.drop (more + 1)) next)
        outbound := party.outbound ++ bytes.take (more + 1) }
  | .receive size next =>
      let got := party.inbound.take (min (more + 1) size)
      if got.isEmpty then
        party
      else
        { party with
          program := settle (.receive (size - got.length) fun transfer rest =>
            next transfer (got ++ rest))
          inbound := party.inbound.drop got.length }

variable {program after : StreamProgram Byte Result} {bytes : List Byte}

/-- A program with something to write writes some of it at every call. -/
theorem Writes.move (writes : Writes program bytes after) (left : bytes ≠ [])
    (inbound outbound : List Byte) (more : Nat) :
    ∃ count rest, 0 < count ∧ count ≤ bytes.length ∧
      Party.move more ⟨program, inbound, outbound⟩ =
        ⟨rest, inbound, outbound ++ bytes.take count⟩ ∧
      Writes rest (bytes.drop count) after := by
  cases writes with
  | refl => exact absurd rfl left
  | @send bytes rest next after notEmpty writesRest =>
      have sentSome : 0 < bytes.length := List.length_pos_iff.mpr notEmpty
      rw [List.length_append]
      by_cases all : bytes.length ≤ more + 1
      · refine ⟨bytes.length, settle (next .complete), sentSome, by omega, ?_, ?_⟩
        · simp only [Party.move, List.take_left, List.take_of_length_le all,
            List.drop_of_length_le all, settle]
        · rw [List.drop_left]
          exact writesRest
      · have part : more + 1 ≤ bytes.length := by omega
        have someLeft : bytes.drop (more + 1) ≠ [] := by
          rw [ne_eq, List.drop_eq_nil_iff]
          exact all
        refine ⟨more + 1, settle (.send (bytes.drop (more + 1)) next), by omega,
          by omega, ?_, ?_⟩
        · simp only [Party.move, List.take_append_of_le_length part]
        · rw [List.drop_append_of_le_length part]
          exact .settle_send someLeft writesRest

/-- A program that reads what is on the way to it takes some of it at every
call. -/
theorem Reads.move (reads : Reads program bytes after) {inbound : List Byte}
    (arrives : inbound <+: bytes) (arrived : inbound ≠ [])
    (outbound : List Byte) (more : Nat) :
    ∃ count rest, 0 < count ∧ count ≤ inbound.length ∧
      Party.move more ⟨program, inbound, outbound⟩ =
        ⟨rest, inbound.drop count, outbound⟩ ∧
      Reads rest (bytes.drop count) after := by
  cases reads with
  | refl => exact absurd (List.prefix_nil.mp arrives) arrived
  | @receive size whole rest next after wholeLength notEmpty readsRest =>
      have arrivedSome : 0 < inbound.length := List.length_pos_iff.mpr arrived
      have sizePos : 0 < size := wholeLength ▸ List.length_pos_iff.mpr notEmpty
      simp only [Party.move]
      generalize limitEq : min (more + 1) size = limit
      have gotLength : (inbound.take limit).length = min limit inbound.length :=
        List.length_take
      generalize gotEq : inbound.take limit = got at gotLength
      have gotSome : got.isEmpty = false := by
        rw [List.isEmpty_eq_false_iff, ← List.length_pos_iff]
        omega
      have gotPrefix : got = whole.take got.length := by
        have ofStream : got <+: whole ++ rest :=
          gotEq ▸ (List.take_prefix limit inbound).trans arrives
        have ofWhole : got <+: whole := by
          apply List.prefix_of_prefix_length_le ofStream
            (List.prefix_append whole rest)
          omega
        exact List.prefix_iff_eq_take.mp ofWhole
      have goesOn : got ++ whole.drop got.length = whole := by
        conv_lhs => rw [gotPrefix]
        rw [List.length_take, Nat.min_eq_left (by omega), List.take_append_drop]
      refine ⟨got.length, _, by omega, by omega, if_neg (by rw [gotSome]; decide), ?_⟩
      rw [List.drop_append_of_le_length (by omega)]
      cases left : size - got.length with
      | zero =>
          have nothing : whole.drop got.length = [] := by
            rw [List.drop_eq_nil_iff]
            omega
          rw [nothing, List.append_nil] at goesOn
          rw [nothing, List.nil_append, goesOn]
          simpa only [settle, List.append_nil] using readsRest
      | succ left =>
          have someLeft : whole.drop got.length ≠ [] := by
            rw [ne_eq, List.drop_eq_nil_iff]
            omega
          apply Reads.settle_receive (by rw [List.length_drop]; omega) someLeft
          rw [goesOn]
          exact readsRest

/-- A program that reads waits while nothing is on the way to it. -/
theorem Reads.waits (reads : Reads program bytes after) (left : bytes ≠ [])
    (outbound : List Byte) (more : Nat) :
    Party.move more ⟨program, [], outbound⟩ = ⟨program, [], outbound⟩ := by
  cases reads with
  | refl => exact absurd rfl left
  | receive whole notEmpty rest => simp [Party.move]

end Pipes

end StreamProgram
