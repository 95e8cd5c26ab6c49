import Adas.V4L2Capture

/-!
# Stopping the camera

A request to stop is written to the event descriptor, which no call reads.  So once it
is made every wait ends with it, until the capture is set up anew, and no wait ends with
it before.  This is what the thread that captures relies on.
-/

namespace Adas.V4L2Capture

section Stops

variable {capture : Capture} {driver : Driver}

namespace Capture

/-- A stream has a device and an event descriptor. -/
def Ready (capture : Capture) : Prop :=
  capture.streaming = true → capture.fd.isSome ∧ capture.stopFd.isSome

theorem ready_init (request : Request) : (capture.init request driver).1.Ready := by
  rw [init]
  cases driver.openDevice with
  | none => exact fun streams => by cases streams
  | some fd =>
      dsimp only
      cases driver.eventfd with
      | none => exact fun streams => by cases streams
      | some stopFd =>
          dsimp only
          split_ifs
          · intro _
            obtain ⟨_, extended, _⟩ := setUp_spec
              { capture.close.1 with fd := some fd, stopFd := some stopFd } request driver rfl
            exact ⟨by rw [extended.fd]; rfl, by rw [extended.stopFd]; rfl⟩
          · exact fun streams => by cases streams

end Capture

open EventMachine (lastSeen lastSeen_append)

/-- What a call says of stopping: a request, or a new beginning. -/
def stopRequest : Call → Option Bool
  | .init _ _ => some false
  | .captureFrame _ => none
  | .requestStop written => if written then some true else none
  | .close => some false

/-- What the event descriptor tells after a run. -/
structure Stops (past : List Call) (state : State) : Prop where
  ready : state.capture.Ready
  requested : state.capture.stopFd.isSome →
    (state.stopRequested = true ↔
      lastSeen stopRequest past = some true)

theorem stops_run (calls : List Call) :
    Stops calls (machine.runFrom machine.init calls) := by
  refine machine.run_induction (fun past state _ => Stops past state) ?_ ?_ calls
  · exact ⟨fun streams => (by cases streams), fun isOpen => (by cases isOpen)⟩
  · intro past state _ call stops
    cases call with
    | init request driver =>
        refine ⟨Capture.ready_init request, fun _ => ?_⟩
        simp [lastSeen_append, stopRequest, EventMachine.next, machine, step]
    | captureFrame answers =>
        refine ⟨stops.ready, fun isOpen => ?_⟩
        rw [lastSeen_append]
        exact stops.requested isOpen
    | requestStop written =>
        refine ⟨stops.ready, fun isOpen => ?_⟩
        have canStop : state.capture.stopFd.isSome = true := isOpen
        have before := stops.requested canStop
        rw [lastSeen_append]
        cases written with
        | false => simpa [stopRequest, EventMachine.next, machine, step] using before
        | true => simp [stopRequest, EventMachine.next, machine, step, canStop]
    | close =>
        exact ⟨fun streams => (by cases streams), fun isOpen => (by cases isOpen)⟩

theorem waitForEvent_stopped {stopRequested : Bool} {poll : Poll} :
    waitForEvent stopRequested poll = .stopped ↔
      stopRequested = true ∧ poll ≠ .failed := by
  cases poll with
  | failed => simp [waitForEvent]
  | device error readable =>
      rw [waitForEvent]
      split_ifs with requested
      · simp [requested]
      · simp [requested]
      · simp [requested]
      · simp [requested]

theorem captureFrame_stopped {stopRequested : Bool} {answers : FrameAnswers} :
    (captureFrame capture stopRequested answers).1 = .stopped ↔
      capture.fd.isSome ∧ capture.streaming = true ∧
        waitForEvent stopRequested answers.poll = .stopped := by
  rw [captureFrame]
  by_cases closed : capture.fd = none ∨ capture.streaming = false
  · rw [if_pos closed]
    rcases closed with closed | closed
    · simp [closed]
    · simp [closed]
  rw [if_neg closed]
  obtain ⟨isOpen, streams⟩ := not_or.mp closed
  have isOpen : capture.fd.isSome = true := Option.isSome_iff_ne_none.mpr isOpen
  have streams : capture.streaming = true := by simpa using streams
  simp only [isOpen, streams, true_and]
  cases waited : waitForEvent stopRequested answers.poll with
  | ok =>
      cases answers.dequeue with
      | notReady => simp
      | failed => simp
      | buffer index =>
          cases found : capture.buffers[index.toNat]? with
          | none => simp [found]
          | some buffer => cases answers.requeued <;> simp [found]
  | timeout => simp
  | stopped => simp
  | error => simp

/-- A capture that streams answers `Stopped` if and only if a stop was requested since
it was set up, and then every time; only a poll that fails comes before. -/
theorem stopped_iff_requested (calls : List Call) (answers : FrameAnswers) :
    (machine.emits (machine.runFrom machine.init calls) (.captureFrame answers)).frame =
        some .stopped ↔
      (machine.runFrom machine.init calls).capture.streaming = true ∧
        answers.poll ≠ .failed ∧
        lastSeen stopRequest calls = some true := by
  have stops := stops_run calls
  generalize machine.runFrom machine.init calls = state at *
  change some (captureFrame state.capture state.stopRequested answers).1 = some .stopped ↔ _
  rw [Option.some_inj, captureFrame_stopped, waitForEvent_stopped]
  constructor
  · rintro ⟨_, streams, requested, polled⟩
    exact ⟨streams, polled, (stops.requested (stops.ready streams).2).mp requested⟩
  · rintro ⟨streams, polled, requested⟩
    obtain ⟨isOpen, canStop⟩ := stops.ready streams
    exact ⟨isOpen, streams, (stops.requested canStop).mpr requested, polled⟩

end Stops

end Adas.V4L2Capture
