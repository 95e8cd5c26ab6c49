import Adas.EventMachine
import Adas.LatestSlot

/-!
# The capture thread and its consumer

`FrameSource` lets one thread capture frames and another take the newest of
them.  The two share a slot behind a mutex, an atomic flag that `stop` clears
without the mutex, and a condition variable with a timeout.  The file takes
the three threads apart into the steps that the others can see: a critical
section of the capture thread is one step, which waits while the consumer holds
the mutex, and the consumer gives the mutex up only while it sleeps.

A run begins when `start`, which is called once, has returned.
-/

namespace Adas.FrameSource

/-- `V4L2Capture::Result`, with the frame that comes with `Ok`. -/
inductive CaptureResult (Frame : Type*) where
  | ok (frame : Frame)
  | timeout
  | stopped
  | error

/-- `FrameSource::Status`, with what `next` hands over with `Ok`. -/
inductive Status (Frame : Type*) where
  | ok (frame : Option Frame) (seq : BitVec 64)
  | timeout
  | stopped
  | error

/-- Where the capture thread is in `run`. -/
inductive CaptureThread (Frame : Type*) where
  | checking
  | capturing
  | publishing (frame : Frame)
  | notifyingOne
  | failing (captureError : Bool)
  | notifyingAll
  | exited

/-- Where the consumer is in `next`: it holds the mutex when it is about to sleep
and when `wait_for` has returned. -/
inductive Consumer where
  | outside
  | fallingAsleep
  | asleep (notified : Bool)
  | woken (wokeForNewFrame : Bool)

def Consumer.holdsLock : Consumer → Bool
  | .fallingAsleep => true
  | .woken _ => true
  | _ => false

/-- A notification reaches who sleeps. -/
def Consumer.notify : Consumer → Consumer
  | .asleep _ => .asleep true
  | consumer => consumer

/-- Where the thread is that runs `stop`. -/
inductive Stopper where
  | outside
  | requesting
  | notifying
  | joining

/-- The object, and the thread that consumes with the `last_seq` it keeps. -/
structure State (Frame : Type*) where
  running : Bool
  slot : LatestSlot Frame
  captureError : Bool
  stopRequested : Bool
  thread : CaptureThread Frame
  consumer : Consumer
  lastSeq : BitVec 64
  stopper : Stopper

/-- Which thread takes its next step. -/
inductive Event (Frame : Type*) where
  | stop
  | stopper
  | capture (result : CaptureResult Frame)
  | next
  | consumer (timedOut : Bool)

/-- What a step shows to the outside. -/
inductive Happening (Frame : Type*) where
  | quiet
  | published (frame : Frame)
  | failed
  | answered (status : Status Frame)
  | stopping
  | joined

section Steps

variable {Frame : Type*} (source : State Frame)

def started : State Frame where
  running := true
  slot := .empty
  captureError := false
  stopRequested := false
  thread := .checking
  consumer := .outside
  lastSeq := 0
  stopper := .outside

/-- What `wait_for` waits for. -/
def State.hasNews : Bool :=
  source.slot.isNew source.lastSeq || !source.running || source.captureError

/-- `stop`, step by step. -/
def stopperStep : State Frame × Happening Frame :=
  match source.stopper with
  | .outside => (source, .quiet)
  | .requesting => ({ source with stopRequested := true, stopper := .notifying }, .quiet)
  | .notifying =>
      ({ source with consumer := source.consumer.notify, stopper := .joining }, .quiet)
  | .joining =>
      match source.thread with
      | .exited => ({ source with stopper := .outside }, .joined)
      | _ => (source, .quiet)

/-- `run`, step by step.  `captureFrame` gives the result, and `Stopped` only once
`requestStop` was called. -/
def captureStep (result : CaptureResult Frame) : State Frame × Happening Frame :=
  match source.thread with
  | .checking =>
      if source.running then ({ source with thread := .capturing }, .quiet)
      else ({ source with thread := .exited }, .quiet)
  | .capturing =>
      match result with
      | .ok frame => ({ source with thread := .publishing frame }, .quiet)
      | .timeout => ({ source with thread := .checking }, .quiet)
      | .stopped =>
          if source.stopRequested then ({ source with thread := .failing false }, .quiet)
          else (source, .quiet)
      | .error => ({ source with thread := .failing true }, .quiet)
  | .publishing frame =>
      if source.consumer.holdsLock then (source, .quiet)
      else
        ({ source with slot := source.slot.publish frame, thread := .notifyingOne },
          .published frame)
  | .notifyingOne =>
      ({ source with consumer := source.consumer.notify, thread := .checking }, .quiet)
  | .failing captureError =>
      if source.consumer.holdsLock then (source, .quiet)
      else
        ({ source with captureError := captureError, thread := .notifyingAll },
          if captureError then .failed else .quiet)
  | .notifyingAll =>
      ({ source with consumer := source.consumer.notify, thread := .exited }, .quiet)
  | .exited => (source, .quiet)

/-- `next` once `wait_for` has returned. -/
def finish (wokeForNewFrame : Bool) : State Frame × Happening Frame :=
  let outside := { source with consumer := .outside }
  if source.captureError then (outside, .answered .error)
  else if !source.running && !source.slot.isNew source.lastSeq then
    (outside, .answered .stopped)
  else if !wokeForNewFrame then (outside, .answered .timeout)
  else
    ({ outside with lastSeq := source.slot.version },
      .answered (.ok source.slot.latest source.slot.version))

/-- `next`, step by step.  Who sleeps may wake up at any time, and goes back to
sleep when there is no news and time is left. -/
def consumerStep (timedOut : Bool) : State Frame × Happening Frame :=
  match source.consumer with
  | .outside => (source, .quiet)
  | .fallingAsleep => ({ source with consumer := .asleep false }, .quiet)
  | .asleep _ =>
      if source.hasNews then ({ source with consumer := .woken true }, .quiet)
      else if timedOut then ({ source with consumer := .woken false }, .quiet)
      else ({ source with consumer := .fallingAsleep }, .quiet)
  | .woken wokeForNewFrame => finish source wokeForNewFrame

def step : Event Frame → State Frame × Happening Frame
  | .stop =>
      if source.running then
        ({ source with running := false, stopper := .requesting }, .stopping)
      else (source, .quiet)
  | .stopper => stopperStep source
  | .capture result => captureStep source result
  | .next =>
      match source.consumer with
      | .outside =>
          if source.hasNews then ({ source with consumer := .woken true }, .quiet)
          else ({ source with consumer := .fallingAsleep }, .quiet)
      | _ => (source, .quiet)
  | .consumer timedOut => consumerStep source timedOut

variable (Frame) in
def machine : EventMachine (State Frame) (Event Frame) (Happening Frame) where
  init := started
  step := step

end Steps

section Promises

variable {Frame : Type*}

/-- The frames that were published. -/
def published (happenings : List (Happening Frame)) : List Frame :=
  happenings.filterMap fun
    | .published frame => some frame
    | _ => none

/-- The frames that the consumer was given. -/
def delivered (happenings : List (Happening Frame)) : List Frame :=
  happenings.filterMap fun
    | .answered (.ok frame _) => frame
    | _ => none

def deliveredSeq : Happening Frame → Option (BitVec 64)
  | .answered (.ok _ seq) => some seq
  | _ => none

/-- The number of the frame that the consumer was given last. -/
def seen (happenings : List (Happening Frame)) : Nat :=
  ((EventMachine.lastSeen deliveredSeq happenings).getD 0).toNat

/-- What may happen after all that has happened. -/
def Promised (past : List (Happening Frame)) : Happening Frame → Prop
  | .quiet => True
  | .published _ => .failed ∉ past ∧ .joined ∉ past
  | .failed => .failed ∉ past ∧ .joined ∉ past
  | .stopping => .stopping ∉ past
  | .joined => .stopping ∈ past ∧ .joined ∉ past
  | .answered (.ok frame seq) =>
      .failed ∉ past ∧ frame = (published past).getLast? ∧ frame.isSome ∧
        seq.toNat = (published past).length ∧ seen past < seq.toNat
  | .answered .timeout =>
      .failed ∉ past ∧ .stopping ∉ past ∧ seen past = (published past).length
  | .answered .stopped =>
      .failed ∉ past ∧ .stopping ∈ past ∧ seen past = (published past).length
  | .answered .error => .failed ∈ past

end Promises

end Adas.FrameSource
