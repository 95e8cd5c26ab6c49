import Adas.SafetyTransmitter
import Mathlib.Data.List.ReduceOption

/-!
# What reaches the robot

For every interleaving of the two threads a tick sends the last decision while
it is fresh and `stop` otherwise, and the line holds the frames that the port has
taken and what it had written of those that failed.  A decision to stop is written
before anything else, so it is seen even when the next decision arrives before the
next tick.
-/

namespace Adas.Control.SafetyTransmitter

open Safety (State)
open UartFrame (Byte frameOf)

/-- The decision an event publishes, with its time. -/
def Event.decision : Event → Option (State × Nat)
  | .publish state decidedAtMs _ _ => some (state, decidedAtMs)
  | .tick .. => none

/-- The last decision published by some events. -/
def lastDecision (past : List Event) : Option (State × Nat) :=
  EventMachine.lastSeen Event.decision past

/-- The transmitter before the event at `index` of a run. -/
def transmitterAt (config : Config) (events : List Event) (index : Nat) :
    SafetyTransmitter :=
  (machine config).stateAt events index

/-- What the event at `index` of a run sends. -/
def sendingAt (config : Config) (events : List Event) (index : Nat) :
    Option Sending :=
  match events[index]? with
  | some event => (step config (transmitterAt config events index) event).2
  | none => none

/-- Everything a run sends, in order. -/
def sendings (config : Config) (events : List Event) : List Sending :=
  ((machine config).outputsFrom (machine config).init events).reduceOption

/-- The states whose frames the port took. -/
def taken (sent : List Sending) : List State :=
  (sent.filter Sending.accepted).map Sending.state

/-- The transmitter at the end of a run. -/
def finish (config : Config) (events : List Event) : SafetyTransmitter :=
  (machine config).runFrom (machine config).init events

variable {config : Config} {events : List Event}

theorem lastDecision_append (past : List Event) (event : Event) :
    lastDecision (past ++ [event]) = event.decision.or (lastDecision past) :=
  EventMachine.lastSeen_append Event.decision past event

section Decisions

/-- The transmitter remembers the last decision. -/
structure Remembers (past : List Event) (transmitter : SafetyTransmitter) :
    Prop where
  published : transmitter.published =
    ((lastDecision past).map Prod.fst).getD .stop
  seen : transmitter.decisionSeen = (lastDecision past).isSome
  decidedAt : ∀ state decidedAtMs,
    lastDecision past = some (state, decidedAtMs) →
      transmitter.decidedAtMs = decidedAtMs

theorem publish_fields (transmitter : SafetyTransmitter) (state : State)
    (decidedAtMs : Nat) (ending : WriteEnd) :
    (transmitter.publish state decidedAtMs ending).1.published = state ∧
      (transmitter.publish state decidedAtMs ending).1.decisionSeen = true ∧
      (transmitter.publish state decidedAtMs ending).1.decidedAtMs =
        decidedAtMs := by
  simp only [publish]
  split_ifs <;> simp

theorem tick_fields (config : Config) (transmitter : SafetyTransmitter) (nowMs : Nat)
    (ending : WriteEnd) :
    (transmitter.tick config nowMs ending).1.published =
        transmitter.published ∧
      (transmitter.tick config nowMs ending).1.decisionSeen =
        transmitter.decisionSeen ∧
      (transmitter.tick config nowMs ending).1.decidedAtMs =
        transmitter.decidedAtMs := by
  simp only [tick]
  split_ifs <;> simp

theorem Remembers.step {past : List Event} {transmitter : SafetyTransmitter}
    (remembers : Remembers past transmitter) (event : Event) :
    Remembers (past ++ [event]) (step config transmitter event).1 := by
  cases event with
  | publish state decidedAtMs nowMs ending =>
      obtain ⟨published, seen, decidedAt⟩ :=
        publish_fields transmitter state decidedAtMs ending
      constructor <;>
        simp [SafetyTransmitter.step, lastDecision_append, Event.decision,
          published, seen, decidedAt]
  | tick nowMs ending =>
      obtain ⟨published, seen, decidedAt⟩ :=
        tick_fields config transmitter nowMs ending
      constructor
      · simpa [SafetyTransmitter.step, lastDecision_append, Event.decision,
          published] using remembers.published
      · simpa [SafetyTransmitter.step, lastDecision_append, Event.decision,
          seen] using remembers.seen
      · simpa [SafetyTransmitter.step, lastDecision_append, Event.decision,
          decidedAt] using remembers.decidedAt

/-- Before every event of every run the transmitter remembers the last
decision. -/
theorem remembers_transmitterAt (config : Config) (events : List Event)
    (index : Nat) :
    Remembers (events.take index) (transmitterAt config events index) :=
  (machine config).run_induction
    (fun past transmitter _ => Remembers past transmitter)
    ⟨rfl, rfl, by simp [lastDecision]⟩
    (fun _ _ _ event remembers => remembers.step event) (events.take index)

end Decisions

section Watchdog

theorem mem_of_lastDecision {past : List Event} {state : State}
    {decidedAtMs : Nat} (last : lastDecision past = some (state, decidedAtMs)) :
    ∃ nowMs ending, Event.publish state decidedAtMs nowMs ending ∈ past := by
  obtain ⟨event, eventMem, decided⟩ := EventMachine.exists_of_lastSeen _ last
  cases event with
  | publish other otherAt nowMs ending =>
      simp only [Event.decision, Option.some_inj, Prod.mk.injEq] at decided
      obtain ⟨rfl, rfl⟩ := decided
      exact ⟨nowMs, ending, eventMem⟩
  | tick => simp [Event.decision] at decided

/-- The last decision before an event was not taken after the event. -/
theorem lastDecision_le {index : Nat} {event : Event} {state : State}
    {decidedAtMs : Nat}
    (ordered : events.Pairwise fun a b => a.nowMs ≤ b.nowMs)
    (notLater : ∀ state decidedAtMs nowMs ending,
      Event.publish state decidedAtMs nowMs ending ∈ events →
        decidedAtMs ≤ nowMs)
    (atIndex : events[index]? = some event)
    (last : lastDecision (events.take index) = some (state, decidedAtMs)) :
    decidedAtMs ≤ event.nowMs := by
  obtain ⟨nowMs, ending, mem⟩ := mem_of_lastDecision last
  have decided := notLater _ _ _ _ (List.mem_of_mem_take mem)
  have split : events = events.take index ++ events.drop index :=
    (List.take_append_drop index events).symm
  rw [split, List.pairwise_append] at ordered
  have eventMem : event ∈ events.drop index := by
    apply List.mem_of_getElem? (i := 0)
    simpa using atIndex
  exact decided.trans (ordered.2.2 _ mem _ eventMem)

/-- What a tick sends, in terms of the events before it. -/
theorem sendingAt_tick {index nowMs : Nat} {ending : WriteEnd}
    (atIndex : events[index]? = some (.tick nowMs ending))
    (onTime : ∀ state decidedAtMs,
      lastDecision (events.take index) = some (state, decidedAtMs) →
        decidedAtMs ≤ nowMs) :
    sendingAt config events index =
      some ⟨match lastDecision (events.take index) with
        | some (state, decidedAtMs) =>
            if nowMs - decidedAtMs < config.decisionTimeoutMs then state
            else .stop
        | none => .stop, ending⟩ := by
  have remembers := remembers_transmitterAt config events index
  simp only [sendingAt, atIndex, step, tick]
  cases last : lastDecision (events.take index) with
  | none =>
      have unseen := remembers.seen
      simp only [last, Option.isSome_none] at unseen
      simp [stale, unseen]
  | some decision =>
      obtain ⟨state, decidedAtMs⟩ := decision
      have seen := remembers.seen
      have published := remembers.published
      have decidedAt := remembers.decidedAt state decidedAtMs last
      have notLater := onTime state decidedAtMs last
      simp only [last, Option.isSome_some, Option.map_some,
        Option.getD_some] at seen published
      by_cases fresh : nowMs - decidedAtMs < config.decisionTimeoutMs
      · simp [stale, seen, published, decidedAt, fresh]
      · simp [stale, seen, decidedAt, notLater, fresh]

end Watchdog

section Wire

/-- The port, the last state on the wire and the counters of writes account for
what has been sent. -/
structure Accounts (transmitter : SafetyTransmitter) (sent : List Sending) :
    Prop where
  bytes : transmitter.port.bytes = sent.flatMap Sending.bytes
  lastSent : transmitter.lastSent = (taken sent).getLastD .stop
  framesSent : transmitter.stats.framesSent =
    BitVec.ofNat 64 (sent.countP Sending.accepted)
  sendFailures : transmitter.stats.sendFailures =
    BitVec.ofNat 64 (sent.countP fun sending => !sending.accepted)

/-- The counter of immediate stops accounts for what was sent besides the
ticks. -/
def CountsStops (past : List Event) (transmitter : SafetyTransmitter)
    (sent : List Sending) : Prop :=
  ∃ immediate,
    transmitter.stats.immediateStops = BitVec.ofNat 64 immediate ∧
      sent.length = past.countP Event.isTick + immediate ∧
      sent.length ≤ past.length

theorem Accounts.sendLocked {transmitter : SafetyTransmitter}
    {sent : List Sending} (accounts : Accounts transmitter sent)
    (state : State) (ending : WriteEnd) :
    Accounts (transmitter.sendLocked state ending).1
      (sent ++ [⟨state, ending⟩]) := by
  cases ending with
  | complete =>
      rw [sendLocked_complete]
      constructor
      · simp [accounts.bytes, Sending.bytes, WriteEnd.taken]
      · simp [taken, Sending.accepted, WriteEnd.accepted]
      · simp [accounts.framesSent, Sending.accepted, WriteEnd.accepted, BitVec.ofNat_add]
      · simp [accounts.sendFailures, Sending.accepted, WriteEnd.accepted]
  | failed count =>
      rw [sendLocked_failed]
      constructor
      · simp [accounts.bytes, Sending.bytes, WriteEnd.taken]
      · simp [accounts.lastSent, taken, Sending.accepted, WriteEnd.accepted]
      · simp [accounts.framesSent, Sending.accepted, WriteEnd.accepted]
      · simp [accounts.sendFailures, Sending.accepted, WriteEnd.accepted, BitVec.ofNat_add]

theorem Accounts.step {transmitter : SafetyTransmitter}
    {sent : List Sending} (accounts : Accounts transmitter sent)
    (event : Event) :
    Accounts (step config transmitter event).1
      (sent ++ (step config transmitter event).2.toList) := by
  cases event with
  | publish state decidedAtMs nowMs ending =>
      simp only [SafetyTransmitter.step, publish]
      split_ifs
      · simp only [Option.toList_some]
        apply Accounts.sendLocked
        exact { accounts with }
      · simpa using { accounts with }
  | tick nowMs ending =>
      simp only [SafetyTransmitter.step, tick, Option.toList_some]
      apply Accounts.sendLocked
      split_ifs
      · exact { accounts with }
      · exact accounts

theorem CountsStops.step {past : List Event} {transmitter : SafetyTransmitter}
    {sent : List Sending} (counts : CountsStops past transmitter sent)
    (event : Event) :
    CountsStops (past ++ [event]) (step config transmitter event).1
      (sent ++ (step config transmitter event).2.toList) := by
  obtain ⟨immediate, counted, total, bounded⟩ := counts
  cases event with
  | publish state decidedAtMs nowMs ending =>
      simp only [SafetyTransmitter.step, publish]
      split_ifs
      · refine ⟨immediate + 1, ?_, ?_, ?_⟩
        · simp [counted, BitVec.ofNat_add]
        · simp [Event.isTick]
          omega
        · simpa using bounded
      · refine ⟨immediate, counted, ?_, ?_⟩
        · simpa [Event.isTick] using total
        · simp
          omega
  | tick nowMs ending =>
      refine ⟨immediate, ?_, ?_, ?_⟩
      · simp only [SafetyTransmitter.step, tick, sendLocked_immediateStops]
        split_ifs <;> exact counted
      · simp [SafetyTransmitter.step, tick, Event.isTick]
        omega
      · simpa [SafetyTransmitter.step, tick] using bounded

/-- At the end of every run the port and the counters account for what was
sent. -/
theorem accounts_finish (config : Config) (events : List Event) :
    Accounts (finish config events) (sendings config events) ∧
      CountsStops events (finish config events) (sendings config events) := by
  refine (machine config).run_induction
    (fun past transmitter answers =>
      Accounts transmitter answers.reduceOption ∧
        CountsStops past transmitter answers.reduceOption) ?_ ?_ events
  · exact ⟨⟨rfl, rfl, rfl, rfl⟩, 0, rfl, rfl, le_rfl⟩
  · rintro past transmitter answers event ⟨accounts, counts⟩
    have answered : (answers ++
        [(machine config).emits transmitter event]).reduceOption =
          answers.reduceOption ++
            (SafetyTransmitter.step config transmitter event).2.toList := by
      rw [List.reduceOption_append, List.reduceOption_singleton]
      rfl
    rw [answered]
    exact ⟨accounts.step event, counts.step event⟩

/-- Every call is counted: what was sent is the ticks and the immediate stops.
The counters are `uint64_t`, so the sum is taken modulo `2 ^ 64`. -/
theorem framesSent_add_sendFailures (config : Config) (events : List Event) :
    (finish config events).stats.framesSent +
        (finish config events).stats.sendFailures =
      BitVec.ofNat 64 (events.countP Event.isTick) +
        (finish config events).stats.immediateStops := by
  obtain ⟨accounts, immediate, counted, total, -⟩ :=
    accounts_finish config events
  have split := List.length_eq_countP_add_countP Sending.accepted
    (l := sendings config events)
  rw [accounts.framesSent, accounts.sendFailures, counted, ← BitVec.ofNat_add,
    ← BitVec.ofNat_add, ← total]
  congr 1
  simpa using split.symm

/-- In a run of fewer than `2 ^ 64` calls no counter wraps, and the sum is
exact. -/
theorem framesSent_toNat_add_sendFailures_toNat (config : Config)
    (events : List Event) (short : events.length < 2 ^ 64) :
    (finish config events).stats.framesSent.toNat +
        (finish config events).stats.sendFailures.toNat =
      events.countP Event.isTick +
        (finish config events).stats.immediateStops.toNat := by
  obtain ⟨accounts, immediate, counted, total, bounded⟩ :=
    accounts_finish config events
  have split := List.length_eq_countP_add_countP Sending.accepted
    (l := sendings config events)
  simp only [Bool.not_eq_true, Bool.decide_eq_false] at split
  simp only [accounts.framesSent, accounts.sendFailures, counted,
    BitVec.toNat_ofNat]
  rw [Nat.mod_eq_of_lt (by omega), Nat.mod_eq_of_lt (by omega),
    Nat.mod_eq_of_lt (by omega)]
  omega

/-- The frames that the port took are on the line, whatever else is. -/
theorem taken_sublist (sent : List Sending) :
    ((taken sent).flatMap frameOf).Sublist (sent.flatMap Sending.bytes) := by
  induction sent with
  | nil => exact List.Sublist.slnil
  | cons sending sent ih =>
      obtain ⟨state, ending⟩ := sending
      cases ending with
      | complete => exact ih.append_left (frameOf state)
      | failed count => exact ih.trans (List.sublist_append_right _ _)

/-- Nothing else is on the line if and only if no write failed part way. -/
theorem flatMap_bytes_eq_iff (sent : List Sending) :
    sent.flatMap Sending.bytes = (taken sent).flatMap frameOf ↔
      ∀ sending ∈ sent, sending.accepted = false → sending.bytes = [] := by
  induction sent with
  | nil => simp [taken]
  | cons sending sent ih =>
      obtain ⟨state, ending⟩ := sending
      rw [List.forall_mem_cons, List.flatMap_cons]
      cases ending with
      | complete =>
          have isTaken : (taken (⟨state, .complete⟩ :: sent)).flatMap frameOf =
              frameOf state ++ (taken sent).flatMap frameOf := rfl
          have noFailure : ¬ (⟨state, .complete⟩ : Sending).accepted = false :=
            Bool.noConfusion
          rw [isTaken, ← ih]
          exact (List.append_right_inj (frameOf state)).trans
            ⟨fun rest => ⟨fun failed => absurd failed noFailure, rest⟩, And.right⟩
      | failed count =>
          have isTaken : (taken (⟨state, .failed count⟩ :: sent)).flatMap frameOf =
              (taken sent).flatMap frameOf := rfl
          rw [isTaken]
          constructor
          · intro whole
            have shorter := (taken_sublist sent).length_le
            rw [← whole, List.length_append] at shorter
            have nothing : (⟨state, .failed count⟩ : Sending).bytes = [] :=
              List.length_eq_zero_iff.mp (by omega)
            rw [nothing, List.nil_append] at whole
            exact ⟨fun _ => nothing, ih.mp whole⟩
          · rintro ⟨nothing, rest⟩
            rw [nothing rfl, List.nil_append]
            exact ih.mpr rest

end Wire

/-- On the line are the frames that the port took, and nothing else. -/
def LineHoldsWholeFrames (config : Config) (events : List Event) : Prop :=
  (finish config events).port.bytes =
    (taken (sendings config events)).flatMap frameOf

/-- A tick whose write fails after the first byte. -/
def tornTick : List Event :=
  [.tick 10 (.failed ⟨1, by decide⟩)]

/-- The system takes one byte of the frame and then fails: the byte stays on the
line, and no frame was taken. -/
theorem not_lineHoldsWholeFrames :
    PosixUartPort.write (frameOf .stop) [.wrote 1, .failed] =
        some ((finish {} tornTick).port.bytes, false) ∧
      ¬ LineHoldsWholeFrames {} tornTick := by
  unfold LineHoldsWholeFrames
  decide +kernel

/-- The watchdog and the books of the port, for every interleaving of the two
threads.  Of a frame whose write fails a proper prefix can be on the line. -/
theorem watchdog_along_runs (config : Config) (events : List Event)
    (ordered : events.Pairwise fun a b => a.nowMs ≤ b.nowMs)
    (notLater : ∀ state decidedAtMs nowMs ending,
      Event.publish state decidedAtMs nowMs ending ∈ events →
        decidedAtMs ≤ nowMs) :
    (∀ index nowMs ending, events[index]? = some (.tick nowMs ending) →
      (∀ state, state ≠ .stop →
        (sendingAt config events index = some ⟨state, ending⟩ ↔
          ∃ decidedAtMs,
            lastDecision (events.take index) = some (state, decidedAtMs) ∧
              decidedAtMs ≤ nowMs ∧
              nowMs - decidedAtMs < config.decisionTimeoutMs)) ∧
      ((∀ state decidedAtMs,
          lastDecision (events.take index) = some (state, decidedAtMs) →
            state = .stop ∨
              config.decisionTimeoutMs ≤ nowMs - decidedAtMs) →
        sendingAt config events index = some ⟨.stop, ending⟩)) ∧
    (finish config events).port.bytes =
      (sendings config events).flatMap Sending.bytes ∧
    (LineHoldsWholeFrames config events ↔
      ∀ sending ∈ sendings config events, sending.accepted = false →
        sending.bytes = []) ∧
    (finish config events).lastSent =
      (taken (sendings config events)).getLastD .stop ∧
    (finish config events).stats.framesSent +
        (finish config events).stats.sendFailures =
      BitVec.ofNat 64 (events.countP Event.isTick) +
        (finish config events).stats.immediateStops ∧
    (events.length < 2 ^ 64 →
      (finish config events).stats.framesSent.toNat +
          (finish config events).stats.sendFailures.toNat =
        events.countP Event.isTick +
          (finish config events).stats.immediateStops.toNat) := by
  obtain ⟨accounts, -⟩ := accounts_finish config events
  refine ⟨?_, accounts.bytes, ?_, accounts.lastSent,
    framesSent_add_sendFailures config events,
    framesSent_toNat_add_sendFailures_toNat config events⟩
  swap
  · rw [LineHoldsWholeFrames, accounts.bytes]
    exact flatMap_bytes_eq_iff (sendings config events)
  intro index nowMs ending atIndex
  have onTime : ∀ state decidedAtMs,
      lastDecision (events.take index) = some (state, decidedAtMs) →
        decidedAtMs ≤ nowMs :=
    fun _ _ last => lastDecision_le ordered notLater atIndex last
  rw [sendingAt_tick atIndex onTime]
  cases last : lastDecision (events.take index) with
  | none =>
      constructor
      · intro state moving
        simp [moving.symm]
      · intro _
        rfl
  | some decision =>
      obtain ⟨decided, decidedAtMs⟩ := decision
      have notAfter := onTime decided decidedAtMs last
      simp only [Option.some_inj, Prod.mk.injEq, Sending.mk.injEq, and_true]
      constructor
      · intro state moving
        split_ifs with fresh
        · constructor
          · rintro rfl
            exact ⟨decidedAtMs, ⟨rfl, rfl⟩, notAfter, fresh⟩
          · rintro ⟨_, ⟨rfl, rfl⟩, -⟩
            rfl
        · constructor
          · intro stopped
            exact absurd stopped.symm moving
          · rintro ⟨_, ⟨rfl, rfl⟩, -, fresh'⟩
            exact absurd fresh' fresh
      · intro stops
        split_ifs with fresh
        · rcases stops decided decidedAtMs ⟨rfl, rfl⟩ with stopped | old
          · exact stopped
          · omega
        · rfl

/-- A fresh `clear`, a frame that fails after two bytes, then a `clear` that has
become too old. -/
def clearGrowsOld : List Event :=
  [.publish .clear 1000 1000 .complete, .tick 1010 (.failed ⟨2, by decide⟩),
    .tick 1030 .complete, .tick 1500 .complete]

theorem watchdog_along_runs_clearGrowsOld :
    sendingAt {} clearGrowsOld 2 = some ⟨.clear, .complete⟩ ∧
      sendingAt {} clearGrowsOld 3 = some ⟨.stop, .complete⟩ ∧
      (finish {} clearGrowsOld).port.bytes =
        (frameOf .clear).take 2 ++ frameOf .clear ++ frameOf .stop ∧
      (finish {} clearGrowsOld).lastSent = .stop := by
  have onTime : ∀ state decidedAtMs nowMs ending,
      Event.publish state decidedAtMs nowMs ending ∈ clearGrowsOld →
        decidedAtMs ≤ nowMs := by
    intro state decidedAtMs nowMs ending mem
    have only : Event.publish state decidedAtMs nowMs ending =
        .publish .clear 1000 1000 .complete := by
      simpa [clearGrowsOld] using mem
    simp only [Event.publish.injEq] at only
    omega
  have watched := watchdog_along_runs {} clearGrowsOld (by decide) onTime
  refine ⟨?_, ?_, watched.2.1.trans (by decide +kernel),
    watched.2.2.2.1.trans (by decide +kernel)⟩
  · exact ((watched.1 2 1030 .complete rfl).1 .clear (by decide)).mpr
      ⟨1000, rfl, by decide, by decide⟩
  · apply (watched.1 3 1500 .complete rfl).2
    intro state decidedAtMs last
    have decided : some (State.clear, 1000) = some (state, decidedAtMs) := last
    simp only [Option.some_inj, Prod.mk.injEq] at decided
    rw [← decided.2]
    exact Or.inr (by decide)

section StopPulses

/-- What the port has taken before the event at `index` of a run. -/
def bytesAt (config : Config) (events : List Event) (index : Nat) : List Byte :=
  (transmitterAt config events index).port.bytes

/-- The event at `index` publishes `stop` and the last publish before it did
not. -/
def EntersStop (events : List Event) (index : Nat) : Prop :=
  (∃ decidedAtMs nowMs ending,
    events[index]? = some (.publish .stop decidedAtMs nowMs ending)) ∧
  ∃ state decidedAtMs,
    lastDecision (events.take index) = some (state, decidedAtMs) ∧
      state ≠ .stop

theorem transmitterAt_succ {index : Nat} {event : Event}
    (atIndex : events[index]? = some event) :
    transmitterAt config events (index + 1) =
      (step config (transmitterAt config events index) event).1 := by
  obtain ⟨inRun, rfl⟩ := List.getElem?_eq_some_iff.mp atIndex
  exact EventMachine.stateAt_succ inRun

/-- Nothing is ever taken back from the port. -/
theorem bytes_prefix_step (transmitter : SafetyTransmitter) (event : Event) :
    transmitter.port.bytes <+:
      (step config transmitter event).1.port.bytes := by
  cases event with
  | publish state decidedAtMs nowMs ending =>
      simp only [step, publish]
      split_ifs
      · simp only [sendLocked_bytes]
        exact List.prefix_append _ _
      · exact List.prefix_rfl
  | tick nowMs ending =>
      simp only [step, tick, sendLocked_bytes]
      split_ifs <;> exact List.prefix_append _ _

variable (config) in
theorem bytesAt_prefix {index later : Nat} (le : index ≤ later)
    (inRun : later ≤ events.length) :
    bytesAt config events index <+: bytesAt config events later := by
  induction later, le using Nat.le_induction with
  | base => exact List.prefix_rfl
  | succ later le ih =>
      have laterInRun : later < events.length := by omega
      apply (ih (by omega)).trans
      rw [bytesAt, bytesAt, transmitterAt_succ (List.getElem?_eq_getElem laterInRun)]
      exact bytes_prefix_step _ _

variable (config) in
/-- The transmitter's own test for entering `stop` is the transition of the
published decisions. -/
theorem entersStop_iff {index decidedAtMs nowMs : Nat} {state : State}
    {ending : WriteEnd}
    (atIndex : events[index]? =
      some (.publish state decidedAtMs nowMs ending)) :
    EntersStop events index ↔
      state = .stop ∧ (transmitterAt config events index).published ≠ .stop := by
  rw [(remembers_transmitterAt config events index).published]
  cases last : lastDecision (events.take index) with
  | none => simp [EntersStop, last]
  | some decision =>
      constructor
      · rintro ⟨⟨otherAt, otherNow, otherEnding, other⟩, previous, previousAt,
          found, moving⟩
        rw [atIndex] at other
        rw [last, Option.some_inj] at found
        simp only [Option.some_inj, Event.publish.injEq] at other
        exact ⟨other.1, by simpa [found] using moving⟩
      · rintro ⟨rfl, moving⟩
        exact ⟨⟨_, _, _, atIndex⟩, decision.1, decision.2, last,
          by simpa using moving⟩

variable (config) in
/-- A publish sends and writes exactly when it enters `stop`. -/
theorem publish_writes {index decidedAtMs nowMs : Nat} {state : State}
    {ending : WriteEnd}
    (atIndex : events[index]? =
      some (.publish state decidedAtMs nowMs ending)) :
    (EntersStop events index →
      sendingAt config events index = some ⟨.stop, ending⟩ ∧
        bytesAt config events (index + 1) = bytesAt config events index ++
          ending.taken (frameOf .stop)) ∧
    (¬ EntersStop events index →
      sendingAt config events index = none ∧
        bytesAt config events (index + 1) = bytesAt config events index) := by
  simp only [entersStop_iff config atIndex, bytesAt, sendingAt,
    transmitterAt_succ atIndex, atIndex, step, publish]
  constructor
  · rintro ⟨rfl, moving⟩
    rw [if_pos ⟨rfl, moving⟩]
    exact ⟨rfl, sendLocked_bytes _ _ ending⟩
  · intro noEntry
    rw [if_neg noEntry]
    exact ⟨rfl, rfl⟩

end StopPulses

/-- No `stop` is lost: when the port takes the frame, a publish that enters
`stop` puts a `stop` frame right behind what was written before it, and it
stays in front of everything written later.  No other publish writes. -/
theorem stop_pulse_is_written (config : Config) (events : List Event) :
    (∀ index decidedAtMs nowMs,
      events[index]? = some (.publish .stop decidedAtMs nowMs .complete) →
      EntersStop events index →
        ∀ later, index < later → later ≤ events.length →
          bytesAt config events index ++ frameOf .stop <+:
            bytesAt config events later) ∧
    (∀ index state decidedAtMs nowMs ending,
      events[index]? = some (.publish state decidedAtMs nowMs ending) →
      ¬ EntersStop events index →
        sendingAt config events index = none ∧
          bytesAt config events (index + 1) = bytesAt config events index) := by
  constructor
  · intro index decidedAtMs nowMs atIndex enters later follows inRun
    obtain ⟨-, written⟩ := (publish_writes config atIndex).1 enters
    have grows := bytesAt_prefix config follows inRun
    rwa [written] at grows
  · intro index state decidedAtMs nowMs ending atIndex noEntry
    exact (publish_writes config atIndex).2 noEntry

/-- A `stop` that is withdrawn before the next tick. -/
def shortStop : List Event :=
  [.publish .clear 1000 1000 .complete, .tick 1010 .complete,
    .publish .stop 1015 1015 .complete, .publish .clear 1018 1018 .complete,
    .tick 1030 .complete]

theorem stop_pulse_is_written_shortStop :
    frameOf .clear ++ frameOf .stop <+: bytesAt {} shortStop 5 :=
  (stop_pulse_is_written {} shortStop).1 2 1015 1015 rfl
    ⟨⟨_, _, _, rfl⟩, .clear, 1000, rfl, by decide⟩ 5 (by decide) (by decide)

end Adas.Control.SafetyTransmitter
