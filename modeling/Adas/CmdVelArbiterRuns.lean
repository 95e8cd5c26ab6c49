import Adas.CmdVelArbiter
import Mathlib.Tactic.Linarith

/-!
# When the robot may move

One inversion lemma says what a tick does: it halts, it waits at the resume
gate, or it moves with every condition met.  From it, for every interleaving
of the callbacks, a twist other than zero needs a fresh and permissive safety
state, a current input and an open gate; and after a stop the gate opens only
for a neutral input followed by a new one.
-/

namespace Adas.Turtlebot.CmdVelArbiter

open FloatOps (lit lt le eq abs)
open EventMachine (lastSeen lastSeen_append)

variable {F : Type} [FloatOps F] {params : Params F}

section Tick

/-- The tick finds a fresh safety state other than `stop`. -/
structure Driving (params : Params F) (arbiter : CmdVelArbiter F) (now : F) :
    Prop where
  fresh : arbiter.safetyStale params now = false
  notStopped : arbiter.safety ≠ .stop

/-- The tick finds a current input; with a controller the deadman is held and
the e-stop, as the tick leaves it, is off. -/
structure InputCurrent (params : Params F) (arbiter after : CmdVelArbiter F)
    (now : F) : Prop where
  manual : params.noJoyMode = true → arbiter.manualTimedOut params now = false
  joy : params.noJoyMode = false →
    arbiter.joyTimedOut params now = false ∧ arbiter.btn kDeadmanBtn = true ∧
      after.estop = false

/-- The gate has just been armed. -/
def Armed (arbiter : CmdVelArbiter F) : Prop :=
  arbiter.requireResume = true ∧ arbiter.seenNeutral = false

/-- The gate is as it was. -/
def SameGate (arbiter after : CmdVelArbiter F) : Prop :=
  after.requireResume = arbiter.requireResume ∧
    after.seenNeutral = arbiter.seenNeutral

/-- Everything a tick can do. -/
inductive TickEffect (params : Params F) (arbiter : CmdVelArbiter F) (now : F) :
    CmdVelArbiter F × Twist F → Prop where
  | halts {after : CmdVelArbiter F} (gate : Armed after ∨ SameGate arbiter after) :
      TickEffect params arbiter now (after, {})
  | waits {after : CmdVelArbiter F} (driving : Driving params arbiter now)
      (required : after.requireResume = true)
      (seen : after.seenNeutral = true →
        arbiter.seenNeutral = true ∨ isNeutral (input params arbiter) = true) :
      TickEffect params arbiter now (after, {})
  | moves {after : CmdVelArbiter F} {twist : Twist F}
      (driving : Driving params arbiter now)
      (current : InputCurrent params arbiter after now)
      (opened : after.requireResume = false)
      (resumed : arbiter.requireResume = true →
        arbiter.seenNeutral = true ∧ isNeutral (input params arbiter) = false) :
      TickEffect params arbiter now (after, twist)

variable (arbiter : CmdVelArbiter F) (now : F)

theorem armed_armResume : Armed arbiter.armResume :=
  ⟨rfl, rfl⟩

/-- The gate lets an input pass only if it was not required, or the input is a
new one after a neutral one. -/
theorem resumeGate_passes {values : F × F}
    (passes : (arbiter.resumeGate values).2 = true) :
    (arbiter.resumeGate values).1.requireResume = false ∧
      (arbiter.requireResume = true →
        arbiter.seenNeutral = true ∧ isNeutral values = false) := by
  cases required : arbiter.requireResume <;>
    cases neutral : isNeutral values <;>
    cases seen : arbiter.seenNeutral <;>
    simp_all [resumeGate]

theorem resumeGate_blocks {values : F × F}
    (blocks : (arbiter.resumeGate values).2 = false) :
    (arbiter.resumeGate values).1.requireResume = true ∧
      ((arbiter.resumeGate values).1.seenNeutral = true →
        arbiter.seenNeutral = true ∨ isNeutral values = true) := by
  cases required : arbiter.requireResume <;>
    cases neutral : isNeutral values <;>
    cases seen : arbiter.seenNeutral <;>
    simp_all [resumeGate]

@[simp]
theorem resumeGate_estop (values : F × F) :
    (arbiter.resumeGate values).1.estop = arbiter.estop := by
  simp only [resumeGate]
  split_ifs <;> rfl

/-- Toggling touches the two e-stop fields only. -/
theorem toggleEstop_eq :
    ∃ estop prevEstopBtn, arbiter.toggleEstop =
      { arbiter with estop := estop, prevEstopBtn := prevEstopBtn } := by
  simp only [toggleEstop]
  split
  · exact ⟨_, _, rfl⟩
  · split_ifs <;> exact ⟨_, _, rfl⟩

/-- Leaving a stop records the safety state and can only arm the gate. -/
theorem leaveStop_eq :
    ∃ requireResume seenNeutral,
      arbiter.leaveStop = { arbiter with
        requireResume := requireResume, seenNeutral := seenNeutral,
        prevSafety := arbiter.safety } ∧
      (requireResume = true ∧ seenNeutral = false ∨
        requireResume = arbiter.requireResume ∧
          seenNeutral = arbiter.seenNeutral) := by
  simp only [leaveStop]
  split_ifs
  · exact ⟨true, false, rfl, Or.inl ⟨rfl, rfl⟩⟩
  · exact ⟨_, _, rfl, Or.inr ⟨rfl, rfl⟩⟩

theorem timerNoJoy_effect (noJoy : params.noJoyMode = true) :
    TickEffect params arbiter now (arbiter.timerNoJoy params now) := by
  simp only [timerNoJoy]
  split_ifs with stale stopped timedOut passes
  · exact .halts (Or.inl (armed_armResume arbiter))
  · exact .halts (Or.inl (armed_armResume arbiter))
  · exact .halts (Or.inl (armed_armResume arbiter))
  · obtain ⟨opened, resumed⟩ := resumeGate_passes arbiter passes
    refine .moves ⟨by simpa using stale, stopped⟩
      ⟨fun _ => by simpa using timedOut, ?_⟩ opened ?_
    · intro joyMode
      simp [noJoy] at joyMode
    · simpa [input, noJoy] using resumed
  · obtain ⟨required, seen⟩ :=
      resumeGate_blocks arbiter (by simpa using passes)
    refine .waits ⟨by simpa using stale, stopped⟩ required ?_
    simpa [input, noJoy] using seen

theorem timerJoy_effect (joyMode : params.noJoyMode = false) :
    TickEffect params arbiter now (arbiter.timerJoy params now) := by
  obtain ⟨estop, prevEstopBtn, toggledEq⟩ := toggleEstop_eq arbiter
  obtain ⟨requireResume, seenNeutral, leftEq, gate⟩ :=
    leaveStop_eq arbiter.toggleEstop
  rw [toggledEq] at leftEq gate
  have readsStick : input params arbiter = directionInput params arbiter := by
    simp [input, joyMode]
  simp only [timerJoy, toggledEq, leftEq]
  split_ifs with stopped timedOut released stale safetyStop passes
  · exact .halts (Or.inr ⟨rfl, rfl⟩)
  · exact .halts (Or.inl (armed_armResume _))
  · exact .halts (Or.inr ⟨rfl, rfl⟩)
  · exact .halts (Or.inl (armed_armResume _))
  · exact .halts (Or.inl (armed_armResume _))
  · obtain ⟨opened, resumed⟩ := resumeGate_passes _ passes
    refine .moves ⟨eq_false_of_ne_true stale, safetyStop⟩
      ⟨?_, fun _ => ⟨eq_false_of_ne_true timedOut, ?_, ?_⟩⟩ opened ?_
    · intro noJoy
      simp [joyMode] at noJoy
    · rwa [Bool.not_eq_true, Bool.not_eq_false'] at released
    · rw [resumeGate_estop]
      exact eq_false_of_ne_true stopped
    · intro required
      rw [readsStick]
      -- Leaving a stop at this tick would have closed the gate again.
      rcases gate with ⟨rfl, rfl⟩ | ⟨rfl, rfl⟩
      · exact absurd (resumed rfl).1 (by simp)
      · exact resumed required
  · obtain ⟨required, seen⟩ :=
      resumeGate_blocks _ (eq_false_of_ne_true passes)
    refine .waits ⟨eq_false_of_ne_true stale, safetyStop⟩ required ?_
    intro seenAfter
    rw [readsStick]
    rcases gate with ⟨rfl, rfl⟩ | ⟨rfl, rfl⟩
    · exact Or.inr ((seen seenAfter).resolve_left (by simp))
    · exact seen seenAfter

variable (params) in
theorem timerCb_effect :
    TickEffect params arbiter now (arbiter.timerCb params now) := by
  cases mode : params.noJoyMode with
  | true => simpa [timerCb, mode] using timerNoJoy_effect arbiter now mode
  | false => simpa [timerCb, mode] using timerJoy_effect arbiter now mode

end Tick

section ZeroCommands

/-- The limits of the `slow` state leave a zero command at zero. -/
structure KeepsZero (params : Params F) : Prop where
  linear : limitTo params.slowLinearMax (lit 0) = lit 0
  angular : limitTo params.slowAngularMax (lit 0) = lit 0

theorem limitTo_zero_iff {limit : ℚ} : limitTo limit 0 = 0 ↔ 0 ≤ limit := by
  simp only [limitTo, pyMax, pyMin, FloatOps.lt_rat, decide_eq_true_eq]
  split_ifs <;> constructor <;> intro <;> linarith

/-- In exact arithmetic these are the limits that are not negative. -/
theorem keepsZero_iff {params : Params ℚ} :
    KeepsZero params ↔ 0 ≤ params.slowLinearMax ∧ 0 ≤ params.slowAngularMax := by
  rw [← limitTo_zero_iff, ← limitTo_zero_iff]
  exact ⟨fun keeps => ⟨keeps.linear, keeps.angular⟩,
    fun zero => ⟨zero.1, zero.2⟩⟩

theorem buildTwist_zero (keeps : KeepsZero params) (arbiter : CmdVelArbiter F) :
    arbiter.buildTwist params (lit 0) (lit 0) = {} := by
  unfold buildTwist
  rw [keeps.linear, keeps.angular]
  split_ifs <;> rfl

/-- Without a controller a tick either publishes zero, or finds a current
manual command and builds its twist from it. -/
theorem timerNoJoy_moving {arbiter : CmdVelArbiter F} {now : F}
    (moving : (arbiter.timerNoJoy params now).2 ≠ {}) :
    arbiter.manualTimedOut params now = false ∧
      ∃ gated : CmdVelArbiter F, (arbiter.timerNoJoy params now).2 =
        gated.buildTwist params arbiter.manualTwist.linear.x
          arbiter.manualTwist.angular.z := by
  simp only [timerNoJoy] at moving ⊢
  split_ifs at moving ⊢ with stale stopped timedOut passes
  · exact absurd rfl moving
  · exact absurd rfl moving
  · exact absurd rfl moving
  · exact ⟨eq_false_of_ne_true timedOut, _, rfl⟩
  · exact absurd rfl moving

/-- A zero command is published as zero. -/
theorem manualTwist_ne_zero (keeps : KeepsZero params) {arbiter : CmdVelArbiter F}
    {now : F} (moving : (arbiter.timerNoJoy params now).2 ≠ {}) :
    arbiter.manualTwist ≠ {} := by
  obtain ⟨-, gated, isBuilt⟩ := timerNoJoy_moving moving
  intro zero
  rw [isBuilt, zero] at moving
  exact moving (buildTwist_zero keeps gated)

end ZeroCommands

section Messages

def Event.safetyMsg : Event F → Option (Int × F)
  | .onSafety data now => some (data, now)
  | _ => none

def Event.joyMsg : Event F → Option (Joy F × F)
  | .onJoy msg now => some (msg, now)
  | _ => none

def Event.manualMsg : Event F → Option (Twist F × F)
  | .onManual msg now => some (msg, now)
  | _ => none

/-- The arbiter remembers the last message of each topic; a stamp is `0.0`
before the first message. -/
structure Remembers (params : Params F) (past : List (Event F))
    (arbiter : CmdVelArbiter F) : Prop where
  safety : arbiter.safety =
    ((lastSeen Event.safetyMsg past).bind fun msg =>
      SafetyState.ofInt? msg.1).getD .stop
  safetyStamp : arbiter.safetyStamp =
    ((lastSeen Event.safetyMsg past).map Prod.snd).getD (lit 0)
  joy : arbiter.joy = (lastSeen Event.joyMsg past).map Prod.fst
  joyStamp : arbiter.joyStamp =
    ((lastSeen Event.joyMsg past).map Prod.snd).getD (lit 0)
  manualTwist : params.noJoyMode = true → arbiter.manualTwist =
    ((lastSeen Event.manualMsg past).map Prod.fst).getD {}
  manualStamp : params.noJoyMode = true → arbiter.manualStamp =
    ((lastSeen Event.manualMsg past).map Prod.snd).getD (lit 0)

variable (arbiter : CmdVelArbiter F)

/-- Nothing a callback has recorded differs. -/
def SameMessages (arbiter after : CmdVelArbiter F) : Prop :=
  ∃ requireResume seenNeutral prevSafety estop prevEstopBtn,
    after = { arbiter with
      requireResume := requireResume, seenNeutral := seenNeutral,
      prevSafety := prevSafety, estop := estop, prevEstopBtn := prevEstopBtn }

theorem SameMessages.resumeGate {arbiter after : CmdVelArbiter F}
    (same : SameMessages arbiter after) (values : F × F) :
    SameMessages arbiter (after.resumeGate values).1 := by
  obtain ⟨_, _, _, _, _, rfl⟩ := same
  simp only [CmdVelArbiter.resumeGate]
  split_ifs <;> exact ⟨_, _, _, _, _, rfl⟩

variable (params) in
theorem sameMessages_timerNoJoy (now : F) :
    SameMessages arbiter (arbiter.timerNoJoy params now).1 := by
  have unchanged : SameMessages arbiter arbiter := ⟨_, _, _, _, _, rfl⟩
  simp only [timerNoJoy]
  split_ifs
  · exact ⟨_, _, _, _, _, rfl⟩
  · exact ⟨_, _, _, _, _, rfl⟩
  · exact ⟨_, _, _, _, _, rfl⟩
  · exact unchanged.resumeGate _
  · exact unchanged.resumeGate _

variable (params) in
theorem sameMessages_timerJoy (now : F) :
    SameMessages arbiter (arbiter.timerJoy params now).1 := by
  obtain ⟨estop, prevEstopBtn, toggledEq⟩ := toggleEstop_eq arbiter
  obtain ⟨_, _, leftEq, -⟩ := leaveStop_eq arbiter.toggleEstop
  rw [toggledEq] at leftEq
  simp only [timerJoy, toggledEq, leftEq]
  split_ifs
  all_goals first
    | exact ⟨_, _, _, _, _, rfl⟩
    | exact SameMessages.resumeGate ⟨_, _, _, _, _, rfl⟩ _

variable (params) in
theorem sameMessages_timerCb (now : F) :
    SameMessages arbiter (arbiter.timerCb params now).1 := by
  rw [timerCb]
  split_ifs
  · exact sameMessages_timerNoJoy params arbiter now
  · exact sameMessages_timerJoy params arbiter now

theorem Remembers.step {past : List (Event F)} {arbiter : CmdVelArbiter F}
    (remembers : Remembers params past arbiter) (event : Event F) :
    Remembers params (past ++ [event]) (step params arbiter event).1 := by
  obtain ⟨safety, safetyStamp, joy, joyStamp, manualTwist, manualStamp⟩ := remembers
  cases event with
  | onSafety data now =>
      simp only [CmdVelArbiter.step, onSafety]
      split_ifs
      all_goals
        constructor <;> intros <;> rw [lastSeen_append]
        · rfl
        · rfl
        · exact joy
        · exact joyStamp
        · exact manualTwist ‹_›
        · exact manualStamp ‹_›
  | onJoy msg now =>
      constructor <;> intros <;> rw [lastSeen_append]
      · exact safety
      · exact safetyStamp
      · rfl
      · rfl
      · exact manualTwist ‹_›
      · exact manualStamp ‹_›
  | onManual msg now =>
      simp only [CmdVelArbiter.step]
      split_ifs with noJoy
      all_goals
        constructor <;> intros <;> rw [lastSeen_append]
        · exact safety
        · exact safetyStamp
        · exact joy
        · exact joyStamp
        · first
            | rfl
            | exact absurd ‹_› noJoy
        · first
            | rfl
            | exact absurd ‹_› noJoy
  | timer now =>
      obtain ⟨_, _, _, _, _, tickedEq⟩ := sameMessages_timerCb params arbiter now
      simp only [CmdVelArbiter.step, tickedEq]
      constructor <;> intros <;> rw [lastSeen_append]
      · exact safety
      · exact safetyStamp
      · exact joy
      · exact joyStamp
      · exact manualTwist ‹_›
      · exact manualStamp ‹_›

/-- The arbiter before the event at `index` of a run. -/
def arbiterAt (params : Params F) (events : List (Event F)) (index : Nat) :
    CmdVelArbiter F :=
  (machine params).stateAt events index

/-- What the event at `index` of a run publishes. -/
def publishedAt (params : Params F) (events : List (Event F)) (index : Nat) :
    Option (Twist F) :=
  match events[index]? with
  | some event => (step params (arbiterAt params events index) event).2
  | none => none

variable {events : List (Event F)}

theorem arbiterAt_succ {index : Nat} {event : Event F}
    (atIndex : events[index]? = some event) :
    arbiterAt params events (index + 1) =
      (step params (arbiterAt params events index) event).1 := by
  obtain ⟨inRun, rfl⟩ := List.getElem?_eq_some_iff.mp atIndex
  exact EventMachine.stateAt_succ inRun

/-- Before every event of every run the arbiter remembers the last message of
each topic. -/
theorem remembers_arbiterAt (params : Params F) (events : List (Event F))
    (index : Nat) :
    Remembers params (events.take index) (arbiterAt params events index) :=
  (machine params).run_induction
    (fun past arbiter _ => Remembers params past arbiter)
    ⟨rfl, rfl, rfl, rfl, fun _ => rfl, fun _ => rfl⟩
    (fun _ _ _ event remembers => remembers.step event) (events.take index)

end Messages

section Gating

/-- The last safety message is `clear` or `slow` and not too old. -/
def SafetyPermits (params : Params F) (past : List (Event F)) (now : F) :
    Prop :=
  ∃ data sentAt, lastSeen Event.safetyMsg past = some (data, sentAt) ∧
    (data = 0 ∨ data = 1) ∧ lt params.safetyTimeoutSec (now - sentAt) = false

/-- The last message of the active input is not too old.  With a controller it holds
the deadman, and the e-stop is off. -/
structure InputPermits (params : Params F) (past : List (Event F))
    (after : CmdVelArbiter F) (now : F) : Prop where
  manual : params.noJoyMode = true →
    ∃ msg sentAt, lastSeen Event.manualMsg past = some (msg, sentAt) ∧
      lt params.joyTimeoutSec (now - sentAt) = false
  joy : params.noJoyMode = false →
    ∃ msg sentAt, lastSeen Event.joyMsg past = some (msg, sentAt) ∧
      lt params.joyTimeoutSec (now - sentAt) = false ∧
      msg.buttons.getD kDeadmanBtn 0 ≠ 0 ∧ after.estop = false

variable {events : List (Event F)}

theorem ofInt?_moves {data : Int}
    (moves : (SafetyState.ofInt? data).getD .stop ≠ .stop) :
    data = 0 ∨ data = 1 := by
  unfold SafetyState.ofInt? at moves
  split at moves <;> simp_all

theorem Remembers.safetyPermits {past : List (Event F)}
    {arbiter : CmdVelArbiter F} {now : F}
    (remembers : Remembers params past arbiter)
    (driving : Driving params arbiter now) : SafetyPermits params past now := by
  have notStopped := driving.notStopped
  have fresh := driving.fresh
  rw [remembers.safety] at notStopped
  rw [safetyStale, remembers.safetyStamp] at fresh
  cases last : lastSeen Event.safetyMsg past with
  | none => simp [last] at notStopped
  | some msg =>
      rw [last] at notStopped fresh
      exact ⟨msg.1, msg.2, last, ofInt?_moves notStopped, fresh⟩

theorem Remembers.inputPermits {past : List (Event F)}
    {arbiter after : CmdVelArbiter F} {now : F}
    (remembers : Remembers params past arbiter)
    (current : InputCurrent params arbiter after now)
    (commanded : params.noJoyMode = true → arbiter.manualTwist ≠ {}) :
    InputPermits params past after now := by
  constructor
  · intro noJoy
    have fresh := current.manual noJoy
    have notZero := commanded noJoy
    rw [manualTimedOut, remembers.manualStamp noJoy] at fresh
    rw [remembers.manualTwist noJoy] at notZero
    cases last : lastSeen Event.manualMsg past with
    | none => simp [last] at notZero
    | some msg =>
        rw [last] at fresh
        exact ⟨msg.1, msg.2, rfl, fresh⟩
  · intro joyMode
    obtain ⟨fresh, held, notEstopped⟩ := current.joy joyMode
    rw [joyTimedOut, remembers.joyStamp] at fresh
    rw [btn, remembers.joy] at held
    cases last : lastSeen Event.joyMsg past with
    | none => simp [last] at held
    | some msg =>
        rw [last] at fresh held
        exact ⟨msg.1, msg.2, rfl, fresh, by simpa using held, notEstopped⟩

/-- Only a tick that moves publishes anything but zero. -/
theorem tick_of_published {index : Nat} {twist : Twist F}
    (published : publishedAt params events index = some twist)
    (moving : twist ≠ {}) :
    ∃ now, events[index]? = some (.timer now) ∧
      Driving params (arbiterAt params events index) now ∧
      InputCurrent params (arbiterAt params events index)
        (arbiterAt params events (index + 1)) now ∧
      (arbiterAt params events (index + 1)).requireResume = false ∧
      ((arbiterAt params events index).requireResume = true →
        (arbiterAt params events index).seenNeutral = true ∧
          isNeutral (input params (arbiterAt params events index)) = false) := by
  cases atIndex : events[index]? with
  | none => simp [publishedAt, atIndex] at published
  | some event =>
      rw [arbiterAt_succ atIndex]
      simp only [publishedAt, atIndex] at published
      cases event with
      | onSafety data now =>
          simp only [step, onSafety] at published
          split_ifs at published
          exact absurd (Option.some.inj published).symm moving
      | onJoy msg now => simp [step] at published
      | onManual msg now =>
          simp only [step] at published
          split_ifs at published
      | timer now =>
          refine ⟨now, rfl, ?_⟩
          have effect := timerCb_effect params (arbiterAt params events index) now
          simp only [step, Option.some.injEq] at published ⊢
          generalize timerCb params (arbiterAt params events index) now = ticked
            at effect published
          cases effect with
          | halts => exact absurd published.symm moving
          | waits => exact absurd published.symm moving
          | moves driving current opened resumed =>
              exact ⟨driving, current, opened, resumed⟩

/-- A manual command that moves the robot is not zero. -/
theorem commanded_of_published (keeps : KeepsZero params)
    (noJoy : params.noJoyMode = true) {index : Nat} {now : F} {twist : Twist F}
    (atIndex : events[index]? = some (.timer now))
    (published : publishedAt params events index = some twist)
    (moving : twist ≠ {}) : (arbiterAt params events index).manualTwist ≠ {} := by
  simp only [publishedAt, atIndex, step, timerCb, noJoy, if_true,
    Option.some.injEq] at published
  exact manualTwist_ne_zero keeps (published ▸ moving)

end Gating

/-- A twist other than zero is published only by a tick that finds a permissive safety
message, a current input and an open gate. -/
def Gated (params : Params F) (events : List (Event F)) : Prop :=
  ∀ index twist, publishedAt params events index = some twist → twist ≠ {} →
    ∃ now, events[index]? = some (.timer now) ∧
      SafetyPermits params (events.take index) now ∧
      InputPermits params (events.take index)
        (arbiterAt params events (index + 1)) now ∧
      (arbiterAt params events (index + 1)).requireResume = false

/-- A node without a controller whose limit is negative. -/
def negativeLimit : Params ℚ :=
  { slowLinearMax := -1 / 20, noJoyMode := true }

/-- A `slow` and a tick, and no manual command at all. -/
def noCommand : List (Event ℚ) :=
  [.onSafety 1 (1 / 10), .timer (2 / 10)]

/-- Limiting the zero command makes the robot move. -/
theorem not_gated_noCommand :
    publishedAt negativeLimit noCommand 1 = some { linear := { x := 1 / 20 } } ∧
      ¬ Gated negativeLimit noCommand := by
  have published : publishedAt negativeLimit noCommand 1 =
      some { linear := { x := 1 / 20 } } := by
    decide +kernel
  refine ⟨published, fun gated => ?_⟩
  obtain ⟨_, -, -, input, -⟩ := gated 1 _ published (by decide +kernel)
  obtain ⟨_, _, given, -⟩ := input.manual rfl
  exact absurd given (by simp [noCommand, EventMachine.lastSeen, Event.manualMsg])

/-- For every interleaving, with limits that leave a zero command at zero, a twist
other than zero is published only by a tick that may.  A safety value that is not a
state acts as `stop`. -/
theorem gated_along_runs (params : Params F)
    (keeps : params.noJoyMode = true → KeepsZero params) (events : List (Event F)) :
    Gated params events ∧
    (∀ (arbiter : CmdVelArbiter F) data now,
      data ≠ 0 → data ≠ 1 → data ≠ 2 →
        step params arbiter (.onSafety data now) =
          step params arbiter (.onSafety 2 now)) := by
  constructor
  · intro index twist published moving
    obtain ⟨now, atIndex, driving, current, opened, -⟩ :=
      tick_of_published published moving
    have remembers := remembers_arbiterAt params events index
    have commanded : params.noJoyMode = true →
        (arbiterAt params events index).manualTwist ≠ {} := fun noJoy =>
      commanded_of_published (keeps noJoy) noJoy atIndex published moving
    exact ⟨now, atIndex, remembers.safetyPermits driving,
      remembers.inputPermits current commanded, opened⟩
  · intro arbiter data now notClear notSlow notStop
    have invalid : SafetyState.ofInt? data = none := by
      unfold SafetyState.ofInt?
      split <;> simp_all
    simp only [step, onSafety, invalid]
    rfl

/-- A controller message with the deadman held and `Y` as given. -/
def heldJoy (forward : Int) : Joy ℚ :=
  { axes := [0, 0], buttons := [0, 0, 0, forward, 1, 0, 0] }

/-- A `stop` that is withdrawn before a tick, then a neutral and a new input. -/
def stopThenForward : List (Event ℚ) :=
  [.onSafety 2 10, .onSafety 0 (101 / 10), .onJoy (heldJoy 0) (102 / 10),
    .timer (103 / 10), .onJoy (heldJoy 1) (104 / 10), .timer (105 / 10)]

theorem publishedAt_stopThenForward :
    publishedAt {} stopThenForward 5 = some { linear := { x := 0.22 } } := by
  decide +kernel

/-- A manual command while the state is `slow`. -/
def manualForward : List (Event ℚ) :=
  [.onSafety 1 10, .onManual { linear := { x := 1 / 10 } } (101 / 10),
    .timer (102 / 10)]

theorem gated_along_runs_bothModes :
    (SafetyPermits {} (stopThenForward.take 5) (105 / 10) ∧
      (arbiterAt {} stopThenForward 6).estop = false) ∧
    InputPermits { noJoyMode := true } (manualForward.take 2)
      (arbiterAt { noJoyMode := true } manualForward 3) (102 / 10) := by
  constructor
  · obtain ⟨now, atTick, permits, input, -⟩ :=
      (gated_along_runs {} nofun stopThenForward).1 5 _ publishedAt_stopThenForward
        (by decide +kernel)
    obtain rfl : 105 / 10 = now := by simpa [stopThenForward] using atTick
    obtain ⟨_, _, _, _, _, notEstopped⟩ := input.joy rfl
    exact ⟨permits, notEstopped⟩
  · have keeps : KeepsZero ({ noJoyMode := true } : Params ℚ) := by
      constructor
      · decide +kernel
      · decide +kernel
    have published : publishedAt { noJoyMode := true } manualForward 2 =
        some { linear := { x := 1 / 20 } } := by
      decide +kernel
    obtain ⟨now, atTick, -, input, -⟩ :=
      (gated_along_runs { noJoyMode := true } (fun _ => keeps) manualForward).1 2 _
        published (by decide +kernel)
    obtain rfl : 102 / 10 = now := by simpa [manualForward] using atTick
    exact input

section Resume

/-- The tick takes the branch for a controller or manual input that is too
old. -/
def TakesTimeout (params : Params F) (arbiter : CmdVelArbiter F) (now : F) :
    Prop :=
  if params.noJoyMode then
    arbiter.safetyStale params now = false ∧ arbiter.safety ≠ .stop ∧
      arbiter.manualTimedOut params now = true
  else
    arbiter.toggleEstop.estop = false ∧
      arbiter.toggleEstop.joyTimedOut params now = true

/-- The event is a safety message that stops, or a tick that takes the timeout
branch. -/
def StopsAt (params : Params F) (events : List (Event F)) (index : Nat) :
    Prop :=
  (∃ data now, events[index]? = some (.onSafety data now) ∧
    data ≠ 0 ∧ data ≠ 1) ∨
  ∃ now, events[index]? = some (.timer now) ∧
    TakesTimeout params (arbiterAt params events index) now

/-- The event is a tick with a permissive safety message whose input is
neutral, or is not. -/
def ReadsInput (params : Params F) (events : List (Event F)) (index : Nat)
    (neutral : Bool) : Prop :=
  ∃ now, events[index]? = some (.timer now) ∧
    SafetyPermits params (events.take index) now ∧
    isNeutral (input params (arbiterAt params events index)) = neutral

/-- After `start` and before `index` a tick with a neutral input was followed
by one with a new input. -/
def Resumed (params : Params F) (events : List (Event F))
    (start index : Nat) : Prop :=
  ∃ neutralTick newTick, start < neutralTick ∧ neutralTick < newTick ∧
    newTick < index ∧ ReadsInput params events neutralTick true ∧
    ReadsInput params events newTick false

/-- What the gate knows at `index` of what happened after `start`. -/
def GateFollows (params : Params F) (events : List (Event F))
    (start index : Nat) (arbiter : CmdVelArbiter F) : Prop :=
  (arbiter.requireResume = true ∧
    (arbiter.seenNeutral = true →
      ∃ neutralTick, start < neutralTick ∧ neutralTick < index ∧
        ReadsInput params events neutralTick true)) ∨
  Resumed params events start index

variable {events : List (Event F)}

theorem armed_of_takesTimeout {arbiter : CmdVelArbiter F} {now : F}
    (takes : TakesTimeout params arbiter now) :
    Armed (arbiter.timerCb params now).1 := by
  cases mode : params.noJoyMode with
  | true =>
      simp only [TakesTimeout, mode, if_true] at takes
      obtain ⟨fresh, notStopped, timedOut⟩ := takes
      rw [timerCb, if_pos mode, timerNoJoy, if_neg (Bool.eq_false_iff.mp fresh),
        if_neg notStopped, if_pos timedOut]
      exact armed_armResume arbiter
  | false =>
      simp only [TakesTimeout, mode, Bool.false_eq_true, if_false] at takes
      obtain ⟨notEstopped, timedOut⟩ := takes
      rw [timerCb, if_neg (Bool.eq_false_iff.mp mode), timerJoy]
      dsimp only
      rw [if_neg (Bool.eq_false_iff.mp notEstopped), if_pos timedOut]
      exact armed_armResume arbiter.toggleEstop

theorem armed_of_stopsAt {index : Nat} (stops : StopsAt params events index) :
    Armed (arbiterAt params events (index + 1)) := by
  rcases stops with ⟨data, now, atIndex, notClear, notSlow⟩ | ⟨now, atIndex, takes⟩
  · rw [arbiterAt_succ atIndex]
    have stopped : (SafetyState.ofInt? data).getD .stop = .stop := by
      by_contra moves
      rcases ofInt?_moves moves with clear | slow
      · exact notClear clear
      · exact notSlow slow
    simp only [step, onSafety, stopped]
    exact armed_armResume _
  · rw [arbiterAt_succ atIndex]
    exact armed_of_takesTimeout takes

theorem Resumed.later {start index : Nat}
    (resumed : Resumed params events start index) :
    Resumed params events start (index + 1) := by
  obtain ⟨neutralTick, newTick, after, follows, before, reads⟩ := resumed
  exact ⟨neutralTick, newTick, after, follows, by omega, reads⟩

/-- An event that arms the gate or leaves it alone loses nothing. -/
theorem GateFollows.later {start index : Nat}
    {arbiter after : CmdVelArbiter F}
    (follows : GateFollows params events start index arbiter)
    (gate : Armed after ∨ SameGate arbiter after) :
    GateFollows params events start (index + 1) after := by
  rcases follows with ⟨required, seen⟩ | resumed
  · left
    rcases gate with ⟨armed, unseen⟩ | ⟨sameRequired, sameSeen⟩
    · exact ⟨armed, fun seenAfter => by simp [unseen] at seenAfter⟩
    · refine ⟨sameRequired.trans required, fun seenAfter => ?_⟩
      obtain ⟨neutralTick, after, before, reads⟩ :=
        seen (sameSeen.symm.trans seenAfter)
      exact ⟨neutralTick, after, by omega, reads⟩
  · exact Or.inr resumed.later

theorem ReadsInput.of_driving {index : Nat} {now : F} {neutral : Bool}
    (atIndex : events[index]? = some (.timer now))
    (driving : Driving params (arbiterAt params events index) now)
    (reads : isNeutral (input params (arbiterAt params events index)) = neutral) :
    ReadsInput params events index neutral :=
  ⟨now, atIndex,
    (remembers_arbiterAt params events index).safetyPermits driving, reads⟩

theorem GateFollows.tick {start index : Nat} {now : F} (after : start < index)
    (follows : GateFollows params events start index
      (arbiterAt params events index))
    (atIndex : events[index]? = some (.timer now)) :
    GateFollows params events start (index + 1)
      ((arbiterAt params events index).timerCb params now).1 := by
  have effect := timerCb_effect params (arbiterAt params events index) now
  generalize timerCb params (arbiterAt params events index) now = ticked at effect
  cases effect with
  | halts gate => exact follows.later gate
  | waits driving required seen =>
      rcases follows with ⟨-, seenBefore⟩ | resumed
      · refine Or.inl ⟨required, fun seenAfter => ?_⟩
        rcases seen seenAfter with already | neutral
        · obtain ⟨neutralTick, after, before, reads⟩ := seenBefore already
          exact ⟨neutralTick, after, by omega, reads⟩
        · exact ⟨index, after, by omega, .of_driving atIndex driving neutral⟩
      · exact Or.inr resumed.later
  | moves driving current opened resumes =>
      rcases follows with ⟨required, seenBefore⟩ | resumed
      · obtain ⟨seen, notNeutral⟩ := resumes required
        obtain ⟨neutralTick, after, before, reads⟩ := seenBefore seen
        exact Or.inr ⟨neutralTick, index, after, before, by omega, reads,
          .of_driving atIndex driving notNeutral⟩
      · exact Or.inr resumed.later

/-- From the event after a stop on, the gate knows what has happened since. -/
theorem gateFollows_arbiterAt {start index : Nat}
    (stops : StopsAt params events start) (after : start < index)
    (inRun : index ≤ events.length) :
    GateFollows params events start index (arbiterAt params events index) := by
  obtain ⟨armed, unseen⟩ := armed_of_stopsAt stops
  have atStart : GateFollows params events start (start + 1)
      (arbiterAt params events (start + 1)) :=
    Or.inl ⟨armed, fun seen => by simp [unseen] at seen⟩
  induction index, after using Nat.le_induction with
  | base => exact atStart
  | succ index after ih =>
      have follows := ih (by omega)
      have atIndex : events[index]? = some events[index] :=
        List.getElem?_eq_getElem (by omega)
      rw [arbiterAt_succ atIndex]
      generalize events[index] = event at atIndex
      cases event with
      | onSafety data now =>
          simp only [step, onSafety]
          split_ifs
          · exact follows.later (Or.inl (armed_armResume _))
          · exact follows.later (Or.inr ⟨rfl, rfl⟩)
      | onJoy msg now => exact follows.later (Or.inr ⟨rfl, rfl⟩)
      | onManual msg now =>
          simp only [step]
          split_ifs <;> exact follows.later (Or.inr ⟨rfl, rfl⟩)
      | timer now => exact follows.tick after atIndex

end Resume

/-- After a safety message that stops and after a tick that found the input too
old, nothing but zero is published until a tick with a neutral input has been
followed by one with a new input, both with a permissive safety message. -/
theorem resume_gate_along_runs (params : Params F) (events : List (Event F))
    {start index : Nat} {twist : Twist F} (stops : StopsAt params events start)
    (after : start < index)
    (published : publishedAt params events index = some twist)
    (moving : twist ≠ {}) :
    ∃ neutralTick newTick, start < neutralTick ∧ neutralTick < newTick ∧
      newTick ≤ index ∧ ReadsInput params events neutralTick true ∧
      ReadsInput params events newTick false := by
  obtain ⟨now, atIndex, driving, -, -, resumes⟩ :=
    tick_of_published published moving
  obtain ⟨inRun, -⟩ := List.getElem?_eq_some_iff.mp atIndex
  rcases gateFollows_arbiterAt stops after (by omega) with
    ⟨required, seenBefore⟩ | resumed
  · obtain ⟨seen, notNeutral⟩ := resumes required
    obtain ⟨neutralTick, follows, before, reads⟩ := seenBefore seen
    exact ⟨neutralTick, index, follows, before, le_rfl, reads,
      .of_driving atIndex driving notNeutral⟩
  · obtain ⟨neutralTick, newTick, follows, before, inTime, reads⟩ := resumed
    exact ⟨neutralTick, newTick, follows, before, by omega, reads⟩

theorem resume_gate_along_runs_stopThenForward :
    ∃ neutralTick newTick, 0 < neutralTick ∧ neutralTick < newTick ∧
      newTick ≤ 5 ∧ ReadsInput {} stopThenForward neutralTick true ∧
      ReadsInput {} stopThenForward newTick false :=
  resume_gate_along_runs {} stopThenForward
    (Or.inl ⟨2, 10, rfl, by decide, by decide⟩) (by decide)
    publishedAt_stopThenForward (by decide +kernel)

end Adas.Turtlebot.CmdVelArbiter
