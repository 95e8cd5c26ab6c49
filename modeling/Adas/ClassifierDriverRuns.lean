import Adas.ClassifierDriver
import Mathlib.Tactic.IntervalCases
import Mathlib.Tactic.SplitIfs

/-!
# When a classification is fresh

A `RUN` that finds the accelerator idle and its `AP_DONE` bit clear returns 0
only for its own computation.  When an earlier `RUN` has timed out and left its
computation running or its `AP_DONE` bit unread, the next `RUN` can return 0
for that one, with the result of the earlier image.
-/

namespace Adas.ClassifierDriver

variable {Image Output : Type} {board : Board Image Output}
variable {device : Device Image Output} {action : Action Image Output}
variable {actions : List (Action Image Output)}

section Counterexample

/-- An accelerator that copies one number, and a kernel with one jiffy a
millisecond. -/
def copyBoard : Board Nat Nat where
  compute _ image := image
  msecsToJiffies timeoutMs := timeoutMs
  registers := ⟨fun _ => ⟨1, 32⟩, fun _ => 0, fun _ => 0, fun _ => 0⟩
  ifmap := 0
  output := 0
  jiffies := 0

/-- The `RUN` for image 1 times out, its computation completes late, and the
`RUN` for image 2 reads the `AP_DONE` that was left. -/
def lateCompletion : List (Action Nat Nat) :=
  [.setParameters (some copyBoard.registers),
    .writeIfmap 1, .run (some 1000), .start, .poll, .tick 1000, .wake,
    .complete,
    .writeIfmap 2, .run (some 1000), .start, .poll]

theorem not_runsAreFresh : ¬ RunsAreFresh copyBoard := by
  intro fresh
  have returns : ReturnsZero copyBoard lateCompletion 11 := ⟨rfl, by decide⟩
  obtain ⟨start, ⟨⟨startAction, -⟩, before, last⟩, -, ownResult⟩ :=
    fresh lateCompletion 11 returns
  have lastStart : RunStart copyBoard lateCompletion 10 := ⟨rfl, 1000, rfl⟩
  have startIs : start = 10 := by
    by_contra other
    exact last 10 (by omega) (by omega) lastStart
  subst start
  exact absurd ownResult (by decide)

end Counterexample

/-- The ioctl is in the polling loop of a `RUN`. -/
def Call.waiting : Call → Bool
  | .free => false
  | .starting _ => false
  | .polling _ => true
  | .sleeping _ => true

/-- What one action can do to the call, the accelerator and its output. -/
inductive Effect (board : Board Image Output) (device : Device Image Output) :
    Action Image Output → Device Image Output → Prop where
  | aside {action next} (call : next.call = device.call)
      (core : next.core = device.core) (output : next.output = device.output)
      (starts : next.starts = device.starts) : Effect board device action next
  | enters {action next timeoutMs} (free : device.call = .free)
      (call : next.call = .starting timeoutMs)
      (core : next.core = device.core) (output : next.output = device.output)
      (starts : next.starts = device.starts) : Effect board device action next
  | starts {next timeoutMs deadline}
      (starting : device.call = .starting timeoutMs)
      (call : next.call = .polling deadline)
      (core : next.core = device.core.startWith device.request)
      (output : next.output = device.output)
      (starts : next.starts = device.starts + 1) :
      Effect board device .start next
  | polls {next deadline} (polling : device.call = .polling deadline)
      (call : next.call =
        if device.core.apDone then .free else .sleeping deadline)
      (core : next.core = { device.core with apDone := false })
      (output : next.output = device.output)
      (starts : next.starts = device.starts) : Effect board device .poll next
  | wakes {next deadline} (sleeping : device.call = .sleeping deadline)
      (call : next.call = .polling deadline ∨ next.call = .free)
      (core : next.core = device.core) (output : next.output = device.output)
      (starts : next.starts = device.starts) : Effect board device .wake next
  | progresses {next computation output}
      (running : device.core.running = some computation)
      (call : next.call = device.call) (core : next.core = device.core)
      (starts : next.starts = device.starts) :
      Effect board device (.progress output) next
  | completes {next computation}
      (running : device.core.running = some computation)
      (call : next.call = device.call)
      (core : next.core = ⟨none, true, some computation⟩)
      (output : next.output =
        board.compute computation.parameters computation.ifmap)
      (starts : next.starts = device.starts) :
      Effect board device .complete next

theorem step_effect (board : Board Image Output) (device : Device Image Output)
    (action : Action Image Output) :
    Effect board device action (step board device action).1 := by
  cases action with
  | writeIfmap image => exact .aside rfl rfl rfl rfl
  | tick count => exact .aside rfl rfl rfl rfl
  | setParameters argument =>
      cases call : device.call with
      | free =>
          simp only [step, call]
          cases argument with
          | none => exact .aside rfl rfl rfl rfl
          | some parameters =>
              simp only [setParameters]
              split_ifs <;> exact .aside rfl rfl rfl rfl
      | starting _ | polling _ | sleeping _ =>
          simp only [step, call]
          exact .aside rfl rfl rfl rfl
  | run timeoutMs =>
      cases call : device.call with
      | free =>
          simp only [step, call]
          cases timeoutMs with
          | none => exact .aside rfl rfl rfl rfl
          | some timeoutMs =>
              simp only [enterRun]
              split_ifs
              · exact .aside rfl rfl rfl rfl
              · exact .enters call rfl rfl rfl rfl
      | starting _ | polling _ | sleeping _ =>
          simp only [step, call]
          exact .aside rfl rfl rfl rfl
  | start =>
      cases call : device.call with
      | starting timeoutMs =>
          simp only [step, call]
          exact .starts call rfl rfl rfl rfl
      | free | polling _ | sleeping _ =>
          simp only [step, call]
          exact .aside rfl rfl rfl rfl
  | poll =>
      cases call : device.call with
      | polling deadline =>
          cases done : device.core.apDone with
          | true =>
              simp only [step, call, Core.readDone, done, if_true]
              exact .polls call (by simp [done]) rfl rfl rfl
          | false =>
              simp only [step, call, Core.readDone, done, Bool.false_eq_true,
                if_false]
              exact .polls call (by simp [done]) rfl rfl rfl
      | free | starting _ | sleeping _ =>
          simp only [step, call]
          exact .aside rfl rfl rfl rfl
  | wake =>
      cases call : device.call with
      | sleeping deadline =>
          simp only [step, call]
          split_ifs
          · exact .wakes call (Or.inl rfl) rfl rfl rfl
          · exact .wakes call (Or.inr rfl) rfl rfl rfl
      | free | starting _ | polling _ =>
          simp only [step, call]
          exact .aside rfl rfl rfl rfl
  | progress output =>
      cases running : device.core.running with
      | some computation =>
          simp only [step, running]
          exact .progresses running rfl rfl rfl
      | none =>
          simp only [step, running]
          exact .aside rfl rfl rfl rfl
  | complete =>
      cases running : device.core.running with
      | some computation =>
          simp only [step, running]
          exact .completes running rfl rfl rfl rfl
      | none =>
          simp only [step, running]
          exact .aside rfl rfl rfl rfl

theorem deviceAt_succ {index : Nat} (atIndex : actions[index]? = some action) :
    deviceAt board actions (index + 1) =
      (step board (deviceAt board actions index) action).1 := by
  obtain ⟨inRun, rfl⟩ := List.getElem?_eq_some_iff.mp atIndex
  exact EventMachine.stateAt_succ inRun

section OwnStart

/-- A polling loop is only entered by writing `AP_START`. -/
theorem waiting_of_effect {next : Device Image Output}
    (effect : Effect board device action next)
    (waiting : next.call.waiting = true) :
    device.call.waiting = true ∨
      action = .start ∧ ∃ timeoutMs, device.call = .starting timeoutMs := by
  cases effect with
  | aside call => exact Or.inl (call ▸ waiting)
  | enters _ call => simp [call, Call.waiting] at waiting
  | starts starting => exact Or.inr ⟨rfl, _, starting⟩
  | polls polling => simp [polling, Call.waiting]
  | wakes sleeping => simp [sleeping, Call.waiting]
  | progresses _ call => exact Or.inl (call ▸ waiting)
  | completes _ call => exact Or.inl (call ▸ waiting)

theorem IsStartOf.succ {start index : Nat}
    (isStart : IsStartOf board actions start index)
    (noStart : ¬ RunStart board actions index) :
    IsStartOf board actions start (index + 1) := by
  obtain ⟨starts, before, last⟩ := isStart
  refine ⟨starts, by omega, fun between after lt => ?_⟩
  rcases (Nat.le_of_lt_succ lt).lt_or_eq with earlier | rfl
  · exact last between after earlier
  · exact noStart

variable (board) in
/-- A `RUN` in its polling loop has written `AP_START` earlier in the run. -/
theorem exists_isStartOf {index : Nat} (inRun : index ≤ actions.length)
    (waiting : (deviceAt board actions index).call.waiting = true) :
    ∃ start, IsStartOf board actions start index := by
  induction index with
  | zero => simp [deviceAt, machine, Board.probe, Call.waiting] at waiting
  | succ index ih =>
      have atIndex := List.getElem?_eq_getElem (l := actions) inRun
      rw [deviceAt_succ atIndex] at waiting
      rcases waiting_of_effect (step_effect _ _ _) waiting with
        already | ⟨isStart, starting⟩
      · obtain ⟨start, isStartOf⟩ := ih (by omega) already
        refine ⟨start, isStartOf.succ ?_⟩
        rintro ⟨-, timeoutMs, starting⟩
        simp [starting, Call.waiting] at already
      · refine ⟨index, ⟨isStart ▸ atIndex, starting⟩, Nat.lt_succ_self index, ?_⟩
        intro between after before
        omega

end OwnStart

section Fresh

/-- While its `RUN` polls, the computation that was asked for runs, or it was
the last to complete and its result is in the output buffer. -/
def HoldsOwn (board : Board Image Output) (own : Computation Image)
    (device : Device Image Output) : Prop :=
  device.call.waiting = true →
    (device.core.running = some own ∧ device.core.apDone = false) ∨
    (device.core.running = none ∧ device.core.finished = some own ∧
      device.output = board.compute own.parameters own.ifmap)

theorem HoldsOwn.effect {own : Computation Image}
    {next : Device Image Output} (holds : HoldsOwn board own device)
    (effect : Effect board device action next)
    (noStart : ¬ (action = .start ∧
      ∃ timeoutMs, device.call = .starting timeoutMs)) :
    HoldsOwn board own next := by
  intro waiting
  have already := (waiting_of_effect effect waiting).resolve_right noStart
  have before := holds already
  cases effect with
  | aside call core output => rwa [core, output]
  | enters free => simp [free, Call.waiting] at already
  | starts starting => exact absurd ⟨rfl, _, starting⟩ noStart
  | polls polling call core output =>
      rw [core, output]
      exact before.imp (fun running => ⟨running.1, rfl⟩) id
  | wakes sleeping call core output => rwa [core, output]
  | progresses running call core =>
      rw [core]
      rcases before with runs | ⟨idle, -⟩
      · exact Or.inl runs
      · simp [idle] at running
  | completes running call core output =>
      rw [core, output]
      rcases before with ⟨runs, -⟩ | ⟨idle, -⟩
      · rw [runs, Option.some_inj] at running
        subst running
        exact Or.inr ⟨rfl, rfl, rfl⟩
      · simp [idle] at running

/-- A `RUN` that starts on a quiet accelerator holds its own computation for as
long as it polls. -/
theorem holdsOwn_of_quiet {start index : Nat}
    (isStart : IsStartOf board actions start index)
    (inRun : index ≤ actions.length)
    (quiet : (deviceAt board actions start).core.Quiet) :
    HoldsOwn board (deviceAt board actions start).request
      (deviceAt board actions index) := by
  obtain ⟨⟨startAction, timeoutMs, starting⟩, before, last⟩ := isStart
  induction index, before using Nat.le_induction with
  | base =>
      intro _
      rw [deviceAt_succ startAction]
      simp [step, starting, Core.startWith, quiet.1, quiet.2]
  | succ index before ih =>
      have atIndex := List.getElem?_eq_getElem (l := actions) inRun
      rw [deviceAt_succ atIndex]
      refine (ih (by omega) fun between after lt =>
        last between after (by omega)).effect (step_effect _ _ _) ?_
      rintro ⟨isStart, starting⟩
      exact last index before (Nat.lt_succ_self index)
        ⟨isStart ▸ atIndex, starting⟩

theorem ReturnsZero.polling {index : Nat}
    (returns : ReturnsZero board actions index) :
    (∃ deadline, (deviceAt board actions index).call = .polling deadline) ∧
      (deviceAt board actions index).core.apDone = true := by
  obtain ⟨-, answer⟩ := returns
  cases call : (deviceAt board actions index).call with
  | polling deadline =>
      refine ⟨⟨deadline, rfl⟩, ?_⟩
      by_contra notDone
      simp [step, call, Core.readDone, notDone] at answer
  | free | starting _ | sleeping _ => simp [step, call] at answer

/-- A `RUN` that starts on a quiet accelerator returns 0 for its own
computation. -/
theorem observesOwn_of_quiet {start index : Nat}
    (isStart : IsStartOf board actions start index)
    (returns : ReturnsZero board actions index)
    (quiet : (deviceAt board actions start).core.Quiet) :
    ObservesOwn board actions start index := by
  obtain ⟨inRun, -⟩ := List.getElem?_eq_some_iff.mp returns.1
  obtain ⟨⟨deadline, polling⟩, done⟩ := returns.polling
  have waiting : (deviceAt board actions index).call.waiting = true := by
    simp [polling, Call.waiting]
  rcases holdsOwn_of_quiet isStart inRun.le quiet waiting with
    ⟨-, notDone⟩ | ⟨-, finished, output⟩
  · simp [notDone] at done
  · exact ⟨finished, output⟩

end Fresh

section Stale

/-- Every computation was begun by an earlier `AP_START` write. -/
def StartsBounded (device : Device Image Output) : Prop :=
  (∀ computation, device.core.running = some computation →
    computation.start < device.starts) ∧
  ∀ computation, device.core.finished = some computation →
    computation.start < device.starts

theorem StartsBounded.effect {next : Device Image Output}
    (bounded : StartsBounded device)
    (effect : Effect board device action next) : StartsBounded next := by
  obtain ⟨running, finished⟩ := bounded
  cases effect with
  | aside _ core _ starts =>
      rw [StartsBounded, core, starts]
      exact ⟨running, finished⟩
  | enters _ _ core _ starts =>
      rw [StartsBounded, core, starts]
      exact ⟨running, finished⟩
  | starts _ _ core _ starts =>
      rw [StartsBounded, core, starts, Core.startWith]
      cases busy : device.core.running with
      | some computation =>
          simp only [busy, Option.some_inj, forall_eq']
          exact ⟨(running _ busy).trans (Nat.lt_succ_self _),
            fun other old => (finished other old).trans (Nat.lt_succ_self _)⟩
      | none =>
          simp only [Option.some_inj, forall_eq']
          exact ⟨Nat.lt_succ_self _,
            fun other old => (finished other old).trans (Nat.lt_succ_self _)⟩
  | polls _ _ core _ starts =>
      rw [StartsBounded, core, starts]
      exact ⟨running, finished⟩
  | wakes _ _ core _ starts =>
      rw [StartsBounded, core, starts]
      exact ⟨running, finished⟩
  | progresses _ _ core starts =>
      rw [StartsBounded, core, starts]
      exact ⟨running, finished⟩
  | completes busy _ core _ starts =>
      rw [StartsBounded, core, starts]
      simp only [reduceCtorEq, false_implies, implies_true, Option.some_inj,
        forall_eq', true_and]
      exact running _ busy

variable (board actions) in
theorem startsBounded_deviceAt {index : Nat} (inRun : index ≤ actions.length) :
    StartsBounded (deviceAt board actions index) := by
  refine EventMachine.stateAt_invariant StartsBounded (fun _ => True) ?_ ?_
    (fun _ _ => trivial) inRun
  · simp [StartsBounded, machine, Board.probe]
  · intro device action _ bounded
    exact bounded.effect (step_effect board device action)

/-- The call the next action finds after some first actions. -/
theorem deviceAt_append (before more : List (Action Image Output))
    (count : Nat) :
    deviceAt board (before ++ more) (before.length + count) =
      (machine board).runFrom (deviceAt board before before.length)
        (more.take count) := by
  rw [deviceAt, EventMachine.stateAt_append_add, deviceAt,
    EventMachine.stateAt_length]

theorem deviceAt_append_length (before more : List (Action Image Output)) :
    deviceAt board (before ++ more) before.length =
      deviceAt board before before.length :=
  deviceAt_append before more 0

/-- A `RUN` that starts after some first actions, followed by actions that are
not starts. -/
theorem isStartOf_append {before more : List (Action Image Output)}
    {timeoutMs : BitVec 32} {count : Nat}
    (starting : (deviceAt board before before.length).call =
      .starting timeoutMs) (later : 0 < count)
    (noStart : Action.start ∉ more) :
    IsStartOf board (before ++ .start :: more) before.length
      (before.length + count) := by
  refine ⟨⟨by simp, timeoutMs, ?_⟩, by omega, ?_⟩
  · rw [deviceAt_append_length]
    exact starting
  · rintro between after lt ⟨isStart, -⟩
    obtain ⟨gap, rfl⟩ : ∃ gap, between = before.length + 1 + gap :=
      ⟨between - before.length - 1, by omega⟩
    have offset : before.length + 1 + gap - before.length = gap + 1 := by omega
    rw [List.getElem?_append_right (by omega), offset,
      List.getElem?_cons_succ] at isStart
    exact noStart (List.mem_of_getElem? isStart)

/-- A `RUN` that starts on an accelerator that is not quiet can return 0 for an
earlier computation. -/
theorem quiet_of_always_own {before : List (Action Image Output)}
    {timeoutMs : BitVec 32}
    (starting : (deviceAt board before before.length).call =
      .starting timeoutMs)
    (alwaysOwn : ∀ more index,
      IsStartOf board (before ++ .start :: more) before.length index →
      ReturnsZero board (before ++ .start :: more) index →
        ObservesOwn board (before ++ .start :: more) before.length index) :
    (deviceAt board before before.length).core.Quiet := by
  obtain ⟨runningBounded, finishedBounded⟩ :=
    startsBounded_deviceAt board before le_rfl
  constructor
  · -- The computation that runs completes, and the poll takes it for its own.
    by_contra busy
    obtain ⟨computation, running⟩ := Option.ne_none_iff_exists'.mp busy
    have older := runningBounded computation running
    have returns : ReturnsZero board (before ++ .start :: [.complete, .poll])
        (before.length + 2) := by
      refine ⟨by simp, ?_⟩
      rw [deviceAt_append]
      simp [machine, EventMachine.next, step, starting, Core.startWith, running,
        Core.readDone]
    have own := (alwaysOwn [.complete, .poll] _
      (isStartOf_append starting Nat.two_pos (by simp)) returns).1
    rw [deviceAt_append, deviceAt_append_length] at own
    simp [machine, EventMachine.next, step, starting, Core.startWith, running,
      Device.request] at own
    simp [own] at older
  · -- The bit is still set from before, and the first poll reads it.
    by_contra unread
    rw [Bool.not_eq_false] at unread
    have sameDone : ∀ computation, ((deviceAt board before
        before.length).core.startWith computation).apDone = true := by
      intro computation
      unfold Core.startWith
      split <;> exact unread
    have sameFinished : ∀ computation, ((deviceAt board before
        before.length).core.startWith computation).finished =
          (deviceAt board before before.length).core.finished := by
      intro computation
      unfold Core.startWith
      split <;> rfl
    have returns : ReturnsZero board (before ++ .start :: [.poll])
        (before.length + 1) := by
      refine ⟨by simp, ?_⟩
      rw [deviceAt_append]
      simp [machine, EventMachine.next, step, starting, Core.readDone, sameDone]
    have own := (alwaysOwn [.poll] _
      (isStartOf_append starting Nat.one_pos (by simp)) returns).1
    rw [deviceAt_append, deviceAt_append_length] at own
    simp only [machine, EventMachine.next, step, starting, List.take_succ_cons,
      List.take_zero, EventMachine.runFrom_cons, EventMachine.runFrom_nil,
      sameFinished] at own
    exact absurd (finishedBounded _ own) (lt_irrefl _)

end Stale

/-- When every `RUN` of a run starts on a quiet accelerator, every `RUN` that
returns 0 has observed its own computation; and being quiet is exactly what
makes a `RUN` safe whatever happens after its start. -/
theorem runs_fresh_of_quiet (board : Board Image Output) :
    (∀ actions : List (Action Image Output),
      (∀ start, RunStart board actions start →
        (deviceAt board actions start).core.Quiet) →
      ∀ index, ReturnsZero board actions index →
        ∃ start, IsStartOf board actions start index ∧
          ObservesOwn board actions start index) ∧
    ∀ (before : List (Action Image Output)) timeoutMs,
      (deviceAt board before before.length).call = .starting timeoutMs →
        ((∀ more index,
            IsStartOf board (before ++ .start :: more) before.length index →
            ReturnsZero board (before ++ .start :: more) index →
              ObservesOwn board (before ++ .start :: more) before.length
                index) ↔
          (deviceAt board before before.length).core.Quiet) := by
  constructor
  · intro actions allQuiet index returns
    obtain ⟨inRun, -⟩ := List.getElem?_eq_some_iff.mp returns.1
    obtain ⟨⟨deadline, polling⟩, -⟩ := returns.polling
    obtain ⟨start, isStart⟩ := exists_isStartOf board inRun.le
      (by simp [polling, Call.waiting])
    exact ⟨start, isStart,
      observesOwn_of_quiet isStart returns (allQuiet start isStart.1)⟩
  · intro before timeoutMs starting
    constructor
    · exact quiet_of_always_own starting
    · intro quiet more index isStart returns
      apply observesOwn_of_quiet isStart returns
      rw [deviceAt_append_length]
      exact quiet

end Adas.ClassifierDriver
