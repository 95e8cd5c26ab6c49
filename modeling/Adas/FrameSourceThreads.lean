import Adas.FrameSource

/-!
# How the threads wait for each other

A consumer that sleeps is woken for every frame and every failure, although the
capture thread notifies it only after it has let go of the mutex.  And `stop`,
called by the consumer, always gets to join the capture thread.
-/

namespace Adas.FrameSource

variable {Frame : Type*}

section Waking

/-- The next step of the capture thread sends a notification. -/
def CaptureThread.isNotifying : CaptureThread Frame → Prop
  | .notifyingOne => True
  | .notifyingAll => True
  | _ => False

/-- A new frame or a failure, which is news behind the mutex. -/
def State.hasChanged (source : State Frame) : Prop :=
  source.slot.isNew source.lastSeq = true ∨ source.captureError = true

/-- Nobody falls asleep over news, and who sleeps is about to be notified of it. -/
structure Awake (source : State Frame) : Prop where
  fallingAsleep : source.consumer = .fallingAsleep → ¬ source.hasChanged
  asleep : source.consumer = .asleep false → source.hasChanged →
    source.thread.isNotifying

variable {source : State Frame}

theorem not_hasChanged_of_not_hasNews (nothing : source.hasNews = false) :
    ¬ source.hasChanged := by
  simp only [State.hasNews, Bool.or_eq_false_iff] at nothing
  rintro (new | error)
  · exact absurd new (by simp [nothing])
  · exact absurd error (by simp [nothing])

theorem Consumer.notify_ne_asleep (consumer : Consumer) :
    consumer.notify ≠ .asleep false := by
  cases consumer <;> simp [Consumer.notify]

theorem Consumer.notify_eq_fallingAsleep {consumer : Consumer}
    (falls : consumer.notify = .fallingAsleep) : consumer = .fallingAsleep := by
  cases consumer <;> simp_all [Consumer.notify]

/-- A step of the capture thread that finds the consumer as it was. -/
theorem Awake.moves (awake : Awake source) {thread : CaptureThread Frame}
    (notNotifying : ¬ source.thread.isNotifying) :
    Awake { source with thread := thread } :=
  ⟨awake.fallingAsleep, fun asleep changed =>
    absurd (awake.asleep asleep changed) notNotifying⟩

theorem Awake.notifies (awake : Awake source) (thread : CaptureThread Frame)
    (stopper : Stopper) :
    Awake { source with
      consumer := source.consumer.notify, thread := thread, stopper := stopper } :=
  ⟨fun falls => awake.fallingAsleep (Consumer.notify_eq_fallingAsleep falls),
    fun asleep => absurd asleep (Consumer.notify_ne_asleep _)⟩

theorem Awake.captureStep (awake : Awake source) (result : CaptureResult Frame) :
    Awake (captureStep source result).1 := by
  unfold FrameSource.captureStep
  cases place : source.thread with
  | checking =>
      have moves : ∀ thread, Awake { source with thread := thread } :=
        fun thread => awake.moves (by simp [place, CaptureThread.isNotifying])
      simp only
      split
      · exact moves _
      · exact moves _
  | capturing =>
      have moves : ∀ thread, Awake { source with thread := thread } :=
        fun thread => awake.moves (by simp [place, CaptureThread.isNotifying])
      cases result with
      | ok frame => exact moves _
      | timeout => exact moves _
      | stopped =>
          simp only
          split
          · exact moves _
          · exact awake
      | error => exact moves _
  | publishing frame =>
      cases free : source.consumer.holdsLock with
      | true => exact awake
      | false =>
          refine ⟨fun falls => ?_, fun _ _ => trivial⟩
          rw [show source.consumer = .fallingAsleep from falls] at free
          cases free
  | notifyingOne => exact awake.notifies _ _
  | failing captureError =>
      cases free : source.consumer.holdsLock with
      | true => exact awake
      | false =>
          refine ⟨fun falls => ?_, fun _ _ => trivial⟩
          rw [show source.consumer = .fallingAsleep from falls] at free
          cases free
  | notifyingAll => exact awake.notifies _ _
  | exited => exact awake

theorem Awake.step (awake : Awake source) (event : Event Frame) :
    Awake (step source event).1 := by
  cases event with
  | stop =>
      unfold FrameSource.step
      simp only
      split
      · exact ⟨awake.fallingAsleep, awake.asleep⟩
      · exact awake
  | stopper =>
      unfold FrameSource.step FrameSource.stopperStep
      cases source.stopper with
      | outside => exact awake
      | requesting => exact ⟨awake.fallingAsleep, awake.asleep⟩
      | notifying => exact awake.notifies _ _
      | joining =>
          have sleeps := awake.asleep
          cases place : source.thread with
          | exited =>
              rw [place] at sleeps
              exact ⟨awake.fallingAsleep, sleeps⟩
          | _ => exact awake
  | capture result => exact awake.captureStep result
  | next =>
      unfold FrameSource.step
      cases source.consumer with
      | outside =>
          cases news : source.hasNews with
          | true => exact ⟨nofun, nofun⟩
          | false => exact ⟨fun _ => not_hasChanged_of_not_hasNews news, nofun⟩
      | _ => exact awake
  | consumer timedOut =>
      unfold FrameSource.step FrameSource.consumerStep
      cases place : source.consumer with
      | outside => exact awake
      | fallingAsleep =>
          exact ⟨nofun, fun _ changed => absurd changed (awake.fallingAsleep place)⟩
      | asleep notified =>
          cases news : source.hasNews with
          | true => exact ⟨nofun, nofun⟩
          | false =>
              cases timedOut with
              | true => exact ⟨nofun, nofun⟩
              | false => exact ⟨fun _ => not_hasChanged_of_not_hasNews news, nofun⟩
      | woken woke =>
          dsimp only [finish]
          split_ifs <;> exact ⟨nofun, nofun⟩

/-- No frame and no failure goes by a sleeping consumer: as long as it was not
notified of one, the capture thread is about to do so.  This is not said of the end:
`stop` clears the flag and notifies without the mutex, and a consumer that is just
falling asleep misses it and sleeps until its timeout. -/
theorem news_wakes_consumer (events : List (Event Frame)) {index : Nat}
    (inRun : index ≤ events.length)
    (asleep : ((machine Frame).stateAt events index).consumer = .asleep false)
    (changed : ((machine Frame).stateAt events index).hasChanged) :
    ((machine Frame).stateAt events index).thread.isNotifying := by
  have atStart : Awake (machine Frame).init := ⟨nofun, nofun⟩
  have kept : ∀ source event, True → Awake source →
      Awake ((machine Frame).next source event) :=
    fun _ event _ awake => awake.step event
  have awake := EventMachine.stateAt_invariant Awake (fun _ => True) atStart kept
    (fun _ _ => trivial) inRun
  exact awake.asleep asleep changed

/-- The consumer falls asleep before the first frame is published. -/
theorem news_wakes_consumer_firstFrame :
    ((machine Nat).stateAt [.next, .consumer false, .capture .timeout, .capture (.ok 10),
      .capture .timeout] 5).thread.isNotifying :=
  news_wakes_consumer _ (by decide) rfl (.inl rfl)

end Waking

section Closing

/-- The steps of `stop` and of the thread it waits for. -/
inductive Closing (Frame : Type*) where
  | stopper
  | capture (result : CaptureResult Frame)

def Closing.event : Closing Frame → Event Frame
  | .stopper => .stopper
  | .capture result => .capture result

def Closing.isStopper : Closing Frame → Bool
  | .stopper => true
  | .capture _ => false

/-- The two threads that take part when the consumer itself has called `stop`. -/
def closing (source : State Frame) :
    EventMachine (State Frame) (Closing Frame) (Happening Frame) where
  init := source
  step source closing := step source closing.event

/-- The steps that the capture thread takes at most once the flag is cleared. -/
def CaptureThread.stepsLeft : CaptureThread Frame → Nat
  | .exited => 0
  | .checking => 1
  | .notifyingAll => 1
  | .notifyingOne => 2
  | .failing _ => 2
  | .publishing _ => 3
  | .capturing => 4

def Stopper.stepsLeft : Stopper → Nat
  | .outside => 0
  | .joining => 1
  | .notifying => 2
  | .requesting => 3

/-- `stop` goes on, and so many steps are left at most. -/
structure Ends (source : State Frame) (left : Nat) : Prop where
  stopped : source.running = false
  outside : source.consumer = .outside
  requested : source.stopper = .requesting ∨ source.stopRequested = true
  joined : source.stopper = .outside → source.thread = .exited
  left : source.thread.stepsLeft + source.stopper.stepsLeft ≤ left

variable {source : State Frame} {left : Nat}

theorem Ends.lowers (ends : Ends source left) {next : State Frame}
    (stopped : next.running = false) (outside : next.consumer = .outside)
    (requested : next.stopper = .requesting ∨ next.stopRequested = true)
    (joined : next.stopper = .outside → next.thread = .exited)
    (further : next.thread.stepsLeft + next.stopper.stepsLeft <
      source.thread.stepsLeft + source.stopper.stepsLeft) :
    ∃ lower < left, Ends next lower := by
  have bounded := ends.left
  exact ⟨left - 1, by omega, stopped, outside, requested, joined, by omega⟩

/-- A step of the capture thread on its way out. -/
theorem Ends.moves (ends : Ends source left) {thread : CaptureThread Frame}
    (further : thread.stepsLeft < source.thread.stepsLeft) (slot : LatestSlot Frame)
    (captureError : Bool) :
    ∃ lower < left, Ends { source with
      slot := slot, captureError := captureError, consumer := .outside,
      thread := thread } lower := by
  refine ends.lowers ends.stopped rfl ends.requested (fun outside => ?_)
    (Nat.add_lt_add_right further _)
  rw [ends.joined outside] at further
  exact absurd further (Nat.not_lt_zero _)

/-- Every step of the capture thread lowers what is left, unless it waits for a
frame or has exited. -/
theorem Ends.captureStep (ends : Ends source left) (result : CaptureResult Frame) :
    (captureStep source result).1 = source ∨
      ∃ lower < left, Ends (captureStep source result).1 lower := by
  have moves : ∀ thread : CaptureThread Frame,
      thread.stepsLeft < source.thread.stepsLeft → ∀ slot captureError,
        ∃ lower < left, Ends { source with
          slot := slot, captureError := captureError, consumer := .outside,
          thread := thread } lower :=
    fun thread further => ends.moves further
  rw [← ends.outside] at moves
  have free : source.consumer.holdsLock = false := by
    rw [ends.outside]
    rfl
  have unmoved : source.consumer.notify = source.consumer := by
    rw [ends.outside]
    rfl
  unfold FrameSource.captureStep
  cases place : source.thread with
  | checking =>
      rw [place] at moves
      simp only [ends.stopped, Bool.false_eq_true, if_false]
      rw [ends.stopped] at moves
      exact .inr (moves .exited Nat.one_pos _ _)
  | capturing =>
      rw [place] at moves
      cases result with
      | ok frame => exact .inr (moves (.publishing frame) (show 3 < 4 by decide) _ _)
      | timeout => exact .inr (moves .checking (show 1 < 4 by decide) _ _)
      | stopped =>
          cases requested : source.stopRequested with
          | true =>
              rw [requested] at moves
              exact .inr (moves (.failing false) (show 2 < 4 by decide) _ _)
          | false => exact .inl rfl
      | error => exact .inr (moves (.failing true) (show 2 < 4 by decide) _ _)
  | publishing frame =>
      rw [place] at moves
      simp only [free, Bool.false_eq_true, if_false]
      exact .inr (moves .notifyingOne (show 2 < 3 by decide) _ _)
  | notifyingOne =>
      rw [place] at moves
      simp only [unmoved]
      exact .inr (moves .checking (show 1 < 2 by decide) _ _)
  | failing captureError =>
      rw [place] at moves
      simp only [free, Bool.false_eq_true, if_false]
      exact .inr (moves .notifyingAll (show 1 < 2 by decide) _ _)
  | notifyingAll =>
      rw [place] at moves
      simp only [unmoved]
      exact .inr (moves .exited Nat.one_pos _ _)
  | exited => exact .inl rfl

theorem Ends.stopperStep (ends : Ends source left) :
    (stopperStep source).1 = source ∨
      ∃ lower < left, Ends (stopperStep source).1 lower := by
  unfold FrameSource.stopperStep
  cases place : source.stopper with
  | outside => exact .inl rfl
  | requesting =>
      refine .inr (ends.lowers ends.stopped ends.outside (.inr rfl) nofun ?_)
      simp [place, Stopper.stepsLeft]
  | notifying =>
      have requested := ends.requested.resolve_left (by simp [place])
      refine .inr (ends.lowers ends.stopped ?_ (.inr requested) nofun ?_)
      · simp [ends.outside, Consumer.notify]
      · simp [place, Stopper.stepsLeft]
  | joining =>
      have requested := ends.requested.resolve_left (by simp [place])
      cases exited : source.thread with
      | exited =>
          refine .inr (ends.lowers ends.stopped ends.outside (.inr requested)
            (fun _ => rfl) ?_)
          simp [place, exited, Stopper.stepsLeft]
      | _ => exact .inl rfl

theorem captureStep_moves (ends : Ends source left)
    (requested : source.stopRequested = true) (notExited : source.thread ≠ .exited)
    (result : CaptureResult Frame) : (captureStep source result).1.thread ≠ source.thread := by
  have free : source.consumer.holdsLock = false := by
    rw [ends.outside]
    rfl
  unfold FrameSource.captureStep
  cases place : source.thread with
  | checking => simp [ends.stopped]
  | capturing => cases result <;> simp [requested]
  | publishing frame => simp [free]
  | notifyingOne => simp
  | failing captureError => simp [free]
  | notifyingAll => simp
  | exited => exact absurd place notExited

/-- As long as `stop` has not returned, one of the two threads has a step to take
that brings it nearer. -/
theorem Ends.progress (ends : Ends source left) :
    source.stopper = .outside ∧ source.thread = .exited ∨
      ∃ isStopper, ∀ event : Closing Frame, event.isStopper = isStopper →
        ∃ lower < left, Ends ((closing source).next source event) lower := by
  -- While `stop` can go on, its step is the one; else it waits for the capture thread.
  have goesOn : (FrameSource.stopperStep source).1.stopper ≠ source.stopper →
      ∃ isStopper, ∀ event : Closing Frame, event.isStopper = isStopper →
        ∃ lower < left, Ends ((closing source).next source event) lower := by
    refine fun moves => ⟨true, fun event isStopper => ?_⟩
    cases event with
    | stopper => exact ends.stopperStep.resolve_left fun same => moves (by rw [same])
    | capture result => cases isStopper
  cases place : source.stopper with
  | outside => exact .inl ⟨rfl, ends.joined place⟩
  | requesting => exact .inr (goesOn (by simp [FrameSource.stopperStep, place]))
  | notifying => exact .inr (goesOn (by simp [FrameSource.stopperStep, place]))
  | joining =>
      by_cases exited : source.thread = .exited
      · exact .inr (goesOn (by simp [FrameSource.stopperStep, place, exited]))
      · have requested := ends.requested.resolve_left (by simp [place])
        refine .inr ⟨false, fun event isCapture => ?_⟩
        cases event with
        | stopper => cases isCapture
        | capture result =>
            refine (ends.captureStep result).resolve_left fun same => ?_
            exact captureStep_moves ends requested exited result (by rw [same])

/-- When the consumer calls `stop` after its last `next`, `stop` joins the capture
thread and returns, wherever that thread is and whatever the camera still gives. -/
theorem stop_returns (source : State Frame) (stopped : source.running = false)
    (outside : source.consumer = .outside) (called : source.stopper = .requesting)
    {events : Nat → Closing Frame}
    (fair : ∀ isStopper count, ∃ later, count ≤ later ∧
      (events later).isStopper = isStopper) :
    ∃ count, ((closing source).stateAlong events count).stopper = .outside ∧
      ((closing source).stateAlong events count).thread = .exited := by
  have atInit : Ends (closing source).init
      (source.thread.stepsLeft + source.stopper.stepsLeft) :=
    ⟨stopped, outside, .inl called, fun returned => (by cases called.symm.trans returned),
      le_refl _⟩
  refine EventMachine.eventually_of_fair Closing.isStopper Ends
    (fun source => source.stopper = .outside ∧ source.thread = .exited) atInit ?_ ?_ fair
  · intro source left event ends
    cases event with
    | stopper => exact ends.stopperStep
    | capture result => exact ends.captureStep result
  · intro source left ends
    exact ends.progress

/-- The camera is slow, and the two threads take turns. -/
def takeTurns (count : Nat) : Closing Nat :=
  if count % 2 = 0 then .stopper else .capture .stopped

theorem takeTurns_fair (isStopper : Bool) (count : Nat) :
    ∃ later, count ≤ later ∧ (takeTurns later).isStopper = isStopper := by
  cases isStopper with
  | true => exact ⟨2 * count, by omega, by simp [takeTurns, Closing.isStopper]⟩
  | false =>
      have odd : (2 * count + 1) % 2 ≠ 0 := by omega
      exact ⟨2 * count + 1, by omega, by simp [takeTurns, Closing.isStopper]⟩

/-- The consumer calls `stop` while the capture thread waits for a frame. -/
def stopCalled : State Nat :=
  { started with running := false, thread := .capturing, stopper := .requesting }

theorem stop_returns_takeTurns :
    ∃ count, ((closing stopCalled).stateAlong takeTurns count).stopper = .outside ∧
      ((closing stopCalled).stateAlong takeTurns count).thread = .exited :=
  stop_returns stopCalled rfl rfl rfl takeTurns_fair

end Closing

end Adas.FrameSource
