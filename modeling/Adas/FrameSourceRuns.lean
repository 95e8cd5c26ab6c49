import Adas.FrameSource

/-!
# What the consumer is given

The runs of the capture thread, the consumer and the thread that stops them, in
any order of their steps.  The consumer gets the newest frame whenever there is
one that it has not seen, the frames it gets are a part of those captured in
their order, and what `next` answers instead of a frame has its reason.
-/

namespace Adas.FrameSource

open LatestSlot (Follows)

variable {Frame : Type*}

section Bookkeeping

/-- Happenings that say nothing about frames and flags. -/
def Happening.isSilent : Happening Frame → Bool
  | .published _ => false
  | .failed => false
  | .stopping => false
  | .answered (.ok _ _) => false
  | _ => true

/-- What the object stores, in terms of what has happened. -/
structure Books (past : List (Happening Frame)) (source : State Frame) : Prop where
  slot : source.slot.Holds (published past)
  reader : Follows (published past) source.lastSeq (delivered past)
  number : seen past = source.lastSeq.toNat
  running : source.running = true ↔ .stopping ∉ past
  error : source.captureError = true ↔ .failed ∈ past

theorem published_append (past : List (Happening Frame)) (happening : Happening Frame) :
    published (past ++ [happening]) = published past ++ published [happening] :=
  List.filterMap_append

theorem delivered_append (past : List (Happening Frame)) (happening : Happening Frame) :
    delivered (past ++ [happening]) = delivered past ++ delivered [happening] :=
  List.filterMap_append

theorem seen_append (past : List (Happening Frame)) (happening : Happening Frame) :
    seen (past ++ [happening]) =
      ((deliveredSeq happening).map BitVec.toNat).getD (seen past) := by
  rw [seen, EventMachine.lastSeen_append]
  cases deliveredSeq happening <;> rfl

variable {past : List (Happening Frame)} {source next : State Frame}
  {happening : Happening Frame}

theorem published_silent (silent : happening.isSilent = true) :
    published (past ++ [happening]) = published past := by
  rw [published_append]
  cases happening <;> first | exact List.append_nil _ | cases silent

theorem delivered_silent (silent : happening.isSilent = true) :
    delivered (past ++ [happening]) = delivered past := by
  rw [delivered_append]
  rcases happening with _ | _ | _ | (_ | _ | _ | _) | _ | _ <;>
    first | exact List.append_nil _ | cases silent

theorem seen_silent (silent : happening.isSilent = true) :
    seen (past ++ [happening]) = seen past := by
  rw [seen_append]
  rcases happening with _ | _ | _ | (_ | _ | _ | _) | _ | _ <;>
    first | rfl | cases silent

theorem mem_append_of_ne (other : Happening Frame) (differs : other ≠ happening) :
    other ∈ past ++ [happening] ↔ other ∈ past := by
  rw [List.mem_append, List.mem_singleton, or_iff_left differs]

/-- Nothing changes that the books are about. -/
structure SameData (source next : State Frame) : Prop where
  slot : next.slot = source.slot
  lastSeq : next.lastSeq = source.lastSeq
  running : next.running = source.running
  captureError : next.captureError = source.captureError

theorem Books.silent (books : Books past source) (same : SameData source next)
    (silent : happening.isSilent = true) : Books (past ++ [happening]) next := by
  refine ⟨?_, ?_, ?_, ?_, ?_⟩
  · rw [published_silent silent, same.slot]
    exact books.slot
  · rw [published_silent silent, delivered_silent silent, same.lastSeq]
    exact books.reader
  · rw [seen_silent silent, same.lastSeq]
    exact books.number
  · have differs : Happening.stopping ≠ happening := by
      rintro rfl
      cases silent
    rw [mem_append_of_ne _ differs, same.running]
    exact books.running
  · have differs : Happening.failed ≠ happening := by
      rintro rfl
      cases silent
    rw [mem_append_of_ne _ differs, same.captureError]
    exact books.error

end Bookkeeping

section Places

/-- The thread will publish nothing more. -/
def CaptureThread.hasEnded : CaptureThread Frame → Prop
  | .notifyingAll => True
  | .exited => True
  | _ => False

/-- What the places of the threads say about the flags. -/
structure Places (past : List (Happening Frame)) (source : State Frame) : Prop where
  ended : source.captureError = true → source.thread.hasEnded
  stopping : source.stopper ≠ .outside → source.running = false
  joined : .joined ∈ past →
    source.thread = .exited ∧ source.stopper = .outside ∧ source.running = false
  woken : source.consumer = .woken true → source.hasNews = true
  late : source.consumer = .woken false →
    source.slot.isNew source.lastSeq = false

structure Sound (past : List (Happening Frame)) (source : State Frame) : Prop
    extends Books past source, Places past source

theorem sound_started : Sound [] (started : State Frame) where
  slot := LatestSlot.holds_empty
  reader := LatestSlot.follows_nil []
  number := rfl
  running := by simp [started]
  error := by simp [started]
  ended := by simp [started]
  stopping := by simp [started]
  joined := by simp
  woken := by simp [started]
  late := by simp [started]

end Places

section StepLemmas

variable {past : List (Happening Frame)} {source next : State Frame}

/-- The step is promised, and what is sound before it is sound after it. -/
def Kept (past : List (Happening Frame)) (result : State Frame × Happening Frame) :
    Prop :=
  (published (past ++ [result.2])).length < 2 ^ 64 →
    Promised past result.2 ∧ Sound (past ++ [result.2]) result.1

theorem Kept.intro {happening : Happening Frame}
    (kept : (published (past ++ [happening])).length < 2 ^ 64 →
      Promised past happening ∧ Sound (past ++ [happening]) next) :
    Kept past (next, happening) :=
  kept

theorem Sound.quiet (sound : Sound past source) (same : SameData source next)
    (places : Places past next) : Kept past (next, .quiet) := by
  refine Kept.intro fun _ => ⟨trivial, sound.toBooks.silent same rfl, places.ended,
    places.stopping, ?_, places.woken, places.late⟩
  simpa using places.joined

/-- A step that changes nothing. -/
theorem Sound.idle (sound : Sound past source) : Kept past (source, .quiet) :=
  sound.quiet ⟨rfl, rfl, rfl, rfl⟩ sound.toPlaces

theorem Consumer.notify_eq_woken {consumer : Consumer} {woke : Bool} :
    consumer.notify = .woken woke ↔ consumer = .woken woke := by
  cases consumer <;> simp [Consumer.notify]

theorem Sound.notJoined (sound : Sound past source)
    (notExited : source.thread ≠ .exited) : .joined ∉ past :=
  fun joined => notExited (sound.joined joined).1

theorem Sound.notFailed (sound : Sound past source)
    (notEnded : ¬ source.thread.hasEnded) : .failed ∉ past :=
  fun failed => notEnded (sound.ended (sound.error.mpr failed))

theorem Sound.isStopping (sound : Sound past source) (stopped : source.running = false) :
    .stopping ∈ past := by
  by_contra notStopping
  have running := sound.running.mpr notStopping
  rw [stopped] at running
  cases running

theorem Sound.stop (sound : Sound past source) (running : source.running = true) :
    Kept past ({ source with running := false, stopper := .requesting }, .stopping) := by
  have notJoined : .joined ∉ past := by
    intro joined
    have stopped := (sound.joined joined).2.2
    rw [running] at stopped
    cases stopped
  refine Kept.intro fun _ => ⟨sound.running.mp running, ⟨?_, ?_, ?_, ?_, ?_⟩, sound.ended,
    fun _ => rfl, ?_, ?_, sound.late⟩
  · rw [published_append]
    exact (List.append_nil (published past)).symm ▸ sound.slot
  · rw [published_append, delivered_append]
    exact (List.append_nil (published past)).symm ▸
      (List.append_nil (delivered past)).symm ▸ sound.reader
  · rw [seen_append]
    exact sound.number
  · simp
  · simpa using sound.error
  · rw [List.mem_append, List.mem_singleton, or_iff_left nofun]
    exact fun joined => absurd joined notJoined
  · intro woken
    simp [State.hasNews]

theorem Sound.stopperStep (sound : Sound past source) :
    Kept past (stopperStep source) := by
  rw [FrameSource.stopperStep]
  cases place : source.stopper with
  | outside => exact sound.idle
  | requesting =>
      have stopped := sound.stopping (by simp [place])
      refine sound.quiet ⟨rfl, rfl, rfl, rfl⟩
        ⟨sound.ended, fun _ => stopped, fun joined => ?_, sound.woken, sound.late⟩
      have returned := (sound.joined joined).2.1
      rw [place] at returned
      cases returned
  | notifying =>
      have stopped := sound.stopping (by simp [place])
      refine sound.quiet ⟨rfl, rfl, rfl, rfl⟩
        ⟨sound.ended, fun _ => stopped, fun joined => ?_, ?_, ?_⟩
      · have returned := (sound.joined joined).2.1
        rw [place] at returned
        cases returned
      · exact fun woken => sound.woken (Consumer.notify_eq_woken.mp woken)
      · exact fun woken => sound.late (Consumer.notify_eq_woken.mp woken)
  | joining =>
      have stopped := sound.stopping (by simp [place])
      have notJoined : .joined ∉ past := by
        intro joined
        have returned := (sound.joined joined).2.1
        rw [place] at returned
        cases returned
      cases exited : source.thread with
      | exited =>
          refine Kept.intro fun _ => ⟨⟨sound.isStopping stopped, notJoined⟩,
            sound.toBooks.silent ⟨rfl, rfl, rfl, rfl⟩ rfl, fun _ => trivial,
            fun outside => absurd rfl outside, fun _ => ⟨rfl, rfl, stopped⟩,
            sound.woken, sound.late⟩
      | _ => exact sound.idle

/-- A step of the capture thread that the others do not see. -/
theorem Sound.moves (sound : Sound past source) {thread : CaptureThread Frame}
    (notExited : source.thread ≠ .exited)
    (stillEnded : source.thread.hasEnded → thread.hasEnded) :
    Kept past ({ source with thread := thread }, .quiet) := by
  refine sound.quiet ⟨rfl, rfl, rfl, rfl⟩
    ⟨fun error => stillEnded (sound.ended error), sound.stopping, fun joined => ?_,
      sound.woken, sound.late⟩
  exact absurd joined (sound.notJoined notExited)

/-- A notification moves nobody who is awake. -/
theorem Sound.notifies (sound : Sound past source) {thread : CaptureThread Frame}
    (notExited : source.thread ≠ .exited)
    (stillEnded : source.thread.hasEnded → thread.hasEnded) :
    Kept past
      ({ source with consumer := source.consumer.notify, thread := thread }, .quiet) := by
  refine sound.quiet ⟨rfl, rfl, rfl, rfl⟩
    ⟨fun error => stillEnded (sound.ended error), sound.stopping, fun joined => ?_, ?_, ?_⟩
  · exact absurd joined (sound.notJoined notExited)
  · exact fun woken => sound.woken (Consumer.notify_eq_woken.mp woken)
  · exact fun woken => sound.late (Consumer.notify_eq_woken.mp woken)

theorem Consumer.ne_woken_of_free {consumer : Consumer} (free : consumer.holdsLock = false)
    (woke : Bool) : consumer ≠ .woken woke := by
  rintro rfl
  cases free

theorem Sound.publish (sound : Sound past source) {frame : Frame}
    (place : source.thread = .publishing frame)
    (free : source.consumer.holdsLock = false) :
    Kept past ({ source with
      slot := source.slot.publish frame, thread := .notifyingOne }, .published frame) := by
  have notFailed := sound.notFailed (by rw [place]; exact not_false)
  have notJoined := sound.notJoined (by simp [place])
  refine Kept.intro fun countable => ⟨⟨notFailed, notJoined⟩, ⟨?_, ?_, ?_, ?_, ?_⟩,
    fun error => ?_, sound.stopping, fun joined => ?_, fun woken => ?_, fun woken => ?_⟩
  · rw [published_append] at countable ⊢
    exact sound.slot.publish frame (by simpa [published] using countable)
  · rw [published_append, delivered_append]
    exact (List.append_nil (delivered past)).symm ▸ sound.reader.publish frame
  · rw [seen_append]
    exact sound.number
  · simpa using sound.running
  · simpa using sound.error
  · exact absurd (sound.error.mp error) notFailed
  · exact absurd (by simpa using joined) notJoined
  · exact absurd woken (Consumer.ne_woken_of_free free true)
  · exact absurd woken (Consumer.ne_woken_of_free free false)

theorem Sound.fail (sound : Sound past source) {captureError : Bool}
    (place : source.thread = .failing captureError)
    (free : source.consumer.holdsLock = false) :
    Kept past ({ source with captureError := captureError, thread := .notifyingAll },
      if captureError then .failed else .quiet) := by
  have notFailed := sound.notFailed (by rw [place]; exact not_false)
  have notJoined := sound.notJoined (by simp [place])
  cases captureError with
  | true =>
      refine Kept.intro fun _ => ⟨⟨notFailed, notJoined⟩, ⟨?_, ?_, ?_, ?_, ?_⟩,
        fun _ => trivial, sound.stopping, fun joined => ?_, fun woken => ?_, sound.late⟩
      · rw [if_pos rfl, published_append]
        exact (List.append_nil (published past)).symm ▸ sound.slot
      · rw [if_pos rfl, published_append, delivered_append]
        exact (List.append_nil (published past)).symm ▸
          (List.append_nil (delivered past)).symm ▸ sound.reader
      · rw [if_pos rfl, seen_append]
        exact sound.number
      · simpa using sound.running
      · simp
      · exact absurd (by simpa using joined) notJoined
      · exact absurd woken (Consumer.ne_woken_of_free free true)
  | false =>
      have noError : source.captureError = false := by
        rw [← Bool.not_eq_true, sound.error]
        exact notFailed
      refine sound.quiet ⟨rfl, rfl, rfl, noError.symm⟩
        ⟨fun _ => trivial, sound.stopping, fun joined => absurd joined notJoined,
          fun woken => ?_, sound.late⟩
      exact absurd woken (Consumer.ne_woken_of_free free true)

theorem Sound.captureStep (sound : Sound past source) (result : CaptureResult Frame) :
    Kept past (captureStep source result) := by
  unfold FrameSource.captureStep
  cases place : source.thread with
  | checking =>
      have moves : ∀ thread, Kept past ({ source with thread := thread }, .quiet) :=
        fun thread => sound.moves (by simp [place]) (by simp [place, CaptureThread.hasEnded])
      simp only
      split
      · exact moves _
      · exact moves _
  | capturing =>
      have moves : ∀ thread, Kept past ({ source with thread := thread }, .quiet) :=
        fun thread => sound.moves (by simp [place]) (by simp [place, CaptureThread.hasEnded])
      cases result with
      | ok frame => exact moves _
      | timeout => exact moves _
      | stopped =>
          simp only
          split
          · exact moves _
          · exact sound.idle
      | error => exact moves _
  | publishing frame =>
      cases free : source.consumer.holdsLock with
      | true => exact sound.idle
      | false => exact sound.publish place free
  | notifyingOne =>
      exact sound.notifies (by simp [place]) (by simp [place, CaptureThread.hasEnded])
  | failing captureError =>
      cases free : source.consumer.holdsLock with
      | true => exact sound.idle
      | false => exact sound.fail place free
  | notifyingAll => exact sound.notifies (by simp [place]) fun _ => trivial
  | exited => exact sound.idle

/-- The consumer goes on, and has the news or knows that there is none. -/
theorem Sound.waits (sound : Sound past source) {consumer : Consumer}
    (woken : consumer = .woken true → source.hasNews = true)
    (late : consumer = .woken false → source.slot.isNew source.lastSeq = false) :
    Kept past ({ source with consumer := consumer }, .quiet) :=
  sound.quiet ⟨rfl, rfl, rfl, rfl⟩
    ⟨sound.ended, sound.stopping, sound.joined, woken, late⟩

/-- An answer without a frame. -/
theorem Sound.answers (sound : Sound past source) (status : Status Frame)
    (silent : (Happening.answered status).isSilent = true)
    (promised : Promised past (.answered status)) :
    Kept past ({ source with consumer := .outside }, .answered status) := by
  refine Kept.intro fun _ => ⟨promised, sound.toBooks.silent ⟨rfl, rfl, rfl, rfl⟩ silent,
    sound.ended, sound.stopping, ?_, nofun, nofun⟩
  simpa using sound.joined

theorem Sound.caughtUp (sound : Sound past source)
    (nothing : source.slot.isNew source.lastSeq = false) :
    seen past = (published past).length := by
  have notBehind : ¬ source.lastSeq.toNat < (published past).length := by
    rw [← LatestSlot.isNew_iff sound.slot sound.reader, nothing]
    exact Bool.false_ne_true
  have bounded := sound.reader.seen
  rw [sound.number]
  omega

theorem Sound.delivers (sound : Sound past source)
    (new : source.slot.isNew source.lastSeq = true)
    (noError : source.captureError = false) :
    Kept past ({ source with consumer := .outside, lastSeq := source.slot.version },
      .answered (.ok source.slot.latest source.slot.version)) := by
  obtain ⟨frame, newest, later, reader⟩ := sound.reader.take sound.slot new
  have notFailed : .failed ∉ past := by
    rw [← sound.error, noError]
    exact Bool.false_ne_true
  refine Kept.intro fun _ =>
    ⟨⟨notFailed, sound.slot.latest, ?_, sound.slot.toNat_version, ?_⟩,
      ⟨?_, ?_, ?_, ?_, ?_⟩, sound.ended, sound.stopping, ?_, nofun, nofun⟩
  · rw [newest]
    rfl
  · rw [sound.number]
    exact later
  · rw [published_append]
    exact (List.append_nil (published past)).symm ▸ sound.slot
  · rw [published_append, delivered_append, newest]
    exact (List.append_nil (published past)).symm ▸ reader
  · rw [seen_append]
    rfl
  · simpa using sound.running
  · simpa using sound.error
  · simpa using sound.joined

theorem Sound.finish (sound : Sound past source) {woke : Bool}
    (place : source.consumer = .woken woke) : Kept past (finish source woke) := by
  dsimp only [FrameSource.finish]
  by_cases error : source.captureError = true
  · rw [if_pos error]
    exact sound.answers .error rfl (sound.error.mp error)
  · rw [if_neg error]
    have notFailed := mt sound.error.mpr error
    by_cases ended : (!source.running && !source.slot.isNew source.lastSeq) = true
    · rw [if_pos ended]
      simp only [Bool.and_eq_true, Bool.not_eq_true'] at ended
      exact sound.answers .stopped rfl
        ⟨notFailed, sound.isStopping ended.1, sound.caughtUp ended.2⟩
    · rw [if_neg ended]
      cases woke with
      | false =>
          have nothing := sound.late place
          have running : source.running = true := by simpa [nothing] using ended
          exact sound.answers .timeout rfl
            ⟨notFailed, sound.running.mp running, sound.caughtUp nothing⟩
      | true =>
          -- `wait_for` returned for news, and neither an error nor `stop` is the news.
          have news := sound.woken place
          have new : source.slot.isNew source.lastSeq = true := by
            by_contra nothing
            simp_all [State.hasNews]
          exact sound.delivers new (Bool.eq_false_iff.mpr error)

theorem Sound.consumerStep (sound : Sound past source) (timedOut : Bool) :
    Kept past (consumerStep source timedOut) := by
  unfold FrameSource.consumerStep
  cases place : source.consumer with
  | outside => exact sound.idle
  | fallingAsleep => exact sound.waits nofun nofun
  | asleep notified =>
      cases news : source.hasNews with
      | true => exact sound.waits (fun _ => news) nofun
      | false =>
          cases timedOut with
          | true =>
              refine sound.waits nofun fun _ => ?_
              simp only [State.hasNews, Bool.or_eq_false_iff] at news
              exact news.1.1
          | false => exact sound.waits nofun nofun
  | woken woke => exact sound.finish place

theorem Sound.step (sound : Sound past source) (event : Event Frame) :
    Kept past (step source event) := by
  cases event with
  | stop =>
      by_cases running : source.running = true
      · rw [FrameSource.step, if_pos running]
        exact sound.stop running
      · rw [FrameSource.step, if_neg running]
        exact sound.idle
  | stopper => exact sound.stopperStep
  | capture result => exact sound.captureStep result
  | next =>
      unfold FrameSource.step
      cases place : source.consumer with
      | outside =>
          cases news : source.hasNews with
          | true => exact sound.waits (fun _ => news) nofun
          | false => exact sound.waits nofun nofun
      | _ => exact sound.idle
  | consumer timedOut => exact sound.consumerStep timedOut

end StepLemmas

section Runs

/-- What happens in a run. -/
def happenings (events : List (Event Frame)) : List (Happening Frame) :=
  (machine Frame).outputsFrom started events

theorem length_published_le {shorter longer : List (Happening Frame)}
    (part : shorter.Sublist longer) :
    (published shorter).length ≤ (published longer).length :=
  (part.filterMap _).length_le

theorem sound_run (events : List (Event Frame))
    (countable : (published (happenings events)).length < 2 ^ 64) :
    Sound (happenings events) ((machine Frame).runFrom started events) := by
  refine (machine Frame).run_induction
    (fun _ source past => (published past).length < 2 ^ 64 → Sound past source)
    (fun _ => sound_started) ?_ events countable
  intro _ source past event before countable
  have earlier := length_published_le
    (List.sublist_append_left past [(step source event).2])
  exact ((before (lt_of_le_of_lt earlier countable)).step event countable).2

/-- Whatever the order in which the threads take their steps: a frame that `next`
hands over is the newest and newer than the ones before, every other answer has
its reason, a failure is final, and nothing is published once `stop` has joined the
capture thread.  The frames handed over are those published, in their order, with
some left out. -/
theorem newest_frames_delivered (events : List (Event Frame))
    (countable : (published (happenings events)).length < 2 ^ 64) :
    (∀ index happening, (happenings events)[index]? = some happening →
      Promised ((happenings events).take index) happening) ∧
    (delivered (happenings events)).Sublist (published (happenings events)) := by
  constructor
  · intro index happening found
    have promised := (machine Frame).outputs_promised
      (fun past source => (published past).length < 2 ^ 64 → Sound past source)
      (fun past happening =>
        (published (past ++ [happening])).length < 2 ^ 64 → Promised past happening)
      (fun _ => sound_started) ?_ events found
    · apply promised
      obtain ⟨inRun, rfl⟩ := List.getElem?_eq_some_iff.mp found
      have upTo : ((machine Frame).outputsFrom started events).take (index + 1) =
          (happenings events).take index ++ [(happenings events)[index]] :=
        List.take_succ_eq_append_getElem inRun
      have earlier := length_published_le
        (List.take_sublist (index + 1) ((machine Frame).outputsFrom started events))
      rw [upTo] at earlier
      exact lt_of_le_of_lt earlier countable
    · intro past source event before
      have soundBefore : (published (past ++ [(step source event).2])).length < 2 ^ 64 →
          Sound past source := by
        intro countable
        have earlier := length_published_le
          (List.sublist_append_left past [(step source event).2])
        exact before (lt_of_le_of_lt earlier countable)
      exact ⟨fun countable => ((soundBefore countable).step event countable).1,
        fun countable => ((soundBefore countable).step event countable).2⟩
  · have sound := sound_run events countable
    exact sound.reader.inOrder.trans (List.take_sublist _ _)

/-- Three frames, of which the consumer gets the second and, after `stop`, the third. -/
def twoOfThree : List (Event Nat) :=
  [.next, .consumer false, .capture .timeout, .capture (.ok 10), .capture .timeout,
    .capture .timeout, .capture .timeout, .capture (.ok 20), .capture .timeout,
    .consumer false, .consumer false, .capture .timeout, .capture .timeout,
    .capture (.ok 30), .stop, .capture .timeout, .next, .consumer true, .next,
    .consumer true]

theorem newest_frames_delivered_twoOfThree :
    (∀ index happening, (happenings twoOfThree)[index]? = some happening →
      Promised ((happenings twoOfThree).take index) happening) ∧
    (delivered (happenings twoOfThree)).Sublist (published (happenings twoOfThree)) :=
  newest_frames_delivered twoOfThree (by decide)

end Runs

end Adas.FrameSource
