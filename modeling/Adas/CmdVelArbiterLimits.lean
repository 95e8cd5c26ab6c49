import Adas.CmdVelArbiterRuns
import Mathlib.Algebra.Order.Field.Basic
import Mathlib.Data.Rat.Defs
import Mathlib.Tactic.Linarith
import Mathlib.Tactic.NormNum

/-!
# How large a published command can be, and which way it points

In exact arithmetic a stick is corrected to a value between minus one and one
that has its sign or is zero.  Limiting a velocity does not turn it around and
does not make it larger.  Both hold in every state of the arbiter, so nothing
is assumed about how it was reached.
-/

namespace Adas.Turtlebot

/-- The value is zero or has the sign of the other one. -/
def Follows (value source : ℚ) : Prop :=
  value = 0 ∨ (0 < value ∧ 0 < source) ∨ (value < 0 ∧ source < 0)

namespace Follows

variable {value source : ℚ}

theorem refl (value : ℚ) : Follows value value := by
  rcases lt_trichotomy value 0 with negative | zero | positive
  · exact Or.inr (Or.inr ⟨negative, negative⟩)
  · exact Or.inl zero
  · exact Or.inr (Or.inl ⟨positive, positive⟩)

theorem zero (source : ℚ) : Follows 0 source :=
  Or.inl rfl

theorem trans {first middle last : ℚ} (follows : Follows first middle)
    (next : Follows middle last) : Follows first last := by
  unfold Follows at *
  rcases follows with isZero | ⟨positive, above⟩ | ⟨negative, below⟩
  · exact Or.inl isZero
  · rcases next with isZero | ⟨_, above⟩ | ⟨_, _⟩
    · exact absurd isZero above.ne'
    · exact Or.inr (Or.inl ⟨positive, above⟩)
    · linarith
  · rcases next with isZero | ⟨_, _⟩ | ⟨_, below⟩
    · exact absurd isZero below.ne
    · linarith
    · exact Or.inr (Or.inr ⟨negative, below⟩)

theorem mul {factor : ℚ} (positive : 0 < factor) (follows : Follows value source) :
    Follows (value * factor) source := by
  rcases follows with isZero | ⟨above, sourceAbove⟩ | ⟨below, sourceBelow⟩
  · exact Or.inl (by rw [isZero, zero_mul])
  · exact Or.inr (Or.inl ⟨mul_pos above positive, sourceAbove⟩)
  · exact Or.inr (Or.inr ⟨mul_neg_of_neg_of_pos below positive, sourceBelow⟩)

end Follows

namespace CmdVelArbiter

section Values

theorem pyMax_rat (first second : ℚ) : pyMax first second = max first second := by
  unfold pyMax
  rw [FloatOps.lt_rat]
  split_ifs with less
  · exact (max_eq_right (of_decide_eq_true less).le).symm
  · exact (max_eq_left (not_lt.mp fun more => less (decide_eq_true more))).symm

theorem pyMin_rat (first second : ℚ) : pyMin first second = min first second := by
  unfold pyMin
  rw [FloatOps.lt_rat]
  split_ifs with less
  · exact (min_eq_right (of_decide_eq_true less).le).symm
  · exact (min_eq_left (not_lt.mp fun more => less (decide_eq_true more))).symm

/-- The effect of limiting a value. -/
structure Limits (cap value limited : ℚ) : Prop where
  within : |limited| ≤ cap
  notLarger : |limited| ≤ |value|
  follows : Follows limited value

theorem limits_limitTo {cap : ℚ} (nonneg : 0 ≤ cap) (value : ℚ) :
    Limits cap value (limitTo cap value) := by
  rw [limitTo, pyMax_rat, pyMin_rat]
  rcases le_total 0 value with above | below
  · have positive : 0 ≤ min cap value := le_min nonneg above
    rw [max_eq_right (by linarith)]
    refine ⟨?_, ?_, ?_⟩
    · rw [abs_of_nonneg positive]
      exact min_le_left cap value
    · rw [abs_of_nonneg positive, abs_of_nonneg above]
      exact min_le_right cap value
    · rcases positive.eq_or_lt with isZero | isPositive
      · exact Or.inl isZero.symm
      · exact Or.inr (Or.inl ⟨isPositive, lt_of_lt_of_le isPositive (min_le_right _ _)⟩)
  · rw [min_eq_right (below.trans nonneg)]
    have negative : max (-cap) value ≤ 0 := max_le (by linarith) below
    refine ⟨?_, ?_, ?_⟩
    · rw [abs_of_nonpos negative]
      linarith [le_max_left (-cap) value]
    · rw [abs_of_nonpos negative, abs_of_nonpos below]
      linarith [le_max_right (-cap) value]
    · rcases negative.eq_or_lt with isZero | isNegative
      · exact Or.inl isZero
      · exact Or.inr (Or.inr ⟨isNegative, lt_of_le_of_lt (le_max_right _ _) isNegative⟩)

variable (params : Params ℚ)

theorem limitedDeadzone_mem :
    0 ≤ params.limitedDeadzone ∧ params.limitedDeadzone ≤ 0.95 := by
  rw [Params.limitedDeadzone, pyMax_rat, pyMin_rat]
  exact ⟨le_max_left _ _, max_le (by norm_num [FloatOps.lit]) (min_le_left _ _)⟩

/-- What is left of an axis outside of the dead zone. -/
theorem scaled_mem {magnitude deadzone : ℚ} (outside : deadzone < magnitude)
    (below : deadzone ≤ 0.95) :
    0 < min 1 ((magnitude - deadzone) / (1 - deadzone)) ∧
      min 1 ((magnitude - deadzone) / (1 - deadzone)) ≤ 1 := by
  have room : 0 < 1 - deadzone := by
    norm_num at below
    linarith
  exact ⟨lt_min one_pos (div_pos (by linarith) room), min_le_left _ _⟩

/-- The correction of one axis stays between minus one and one and keeps the
sign. -/
theorem applyDeadzone_bounds (value : ℚ) :
    |applyDeadzone params value| ≤ 1 ∧ Follows (applyDeadzone params value) value := by
  obtain ⟨nonneg, below⟩ := limitedDeadzone_mem params
  unfold applyDeadzone
  simp only [FloatOps.le_rat, FloatOps.lt_rat, pyMin_rat, FloatOps.lit, FloatOps.abs,
    decide_eq_true_eq]
  split_ifs with inside positive
  · exact ⟨by norm_num, Follows.zero value⟩
  · obtain ⟨above, atMost⟩ := scaled_mem (not_le.mp inside) below
    exact ⟨by rwa [abs_of_pos above], Or.inr (Or.inl ⟨above, positive⟩)⟩
  · obtain ⟨above, atMost⟩ := scaled_mem (not_le.mp inside) below
    have notZero : value ≠ 0 := by
      rintro rfl
      exact inside (abs_zero.trans_le nonneg)
    have isNegative : value < 0 := lt_of_le_of_ne (not_lt.mp positive) notZero
    refine ⟨by rwa [abs_neg, abs_of_pos above], Or.inr (Or.inr ⟨?_, isNegative⟩)⟩
    exact neg_neg_of_pos above

theorem abs_btnValue_sub_le (arbiter : CmdVelArbiter ℚ) (plus minus : Nat) :
    |(arbiter.btnValue plus - arbiter.btnValue minus : ℚ)| ≤ 1 := by
  unfold btnValue
  split_ifs <;> norm_num [FloatOps.lit]

/-- The input before it is corrected: the buttons, or else the stick. -/
def rawInput (arbiter : CmdVelArbiter ℚ) : ℚ × ℚ :=
  let buttons := (arbiter.btnValue kYBtn - arbiter.btnValue kABtn,
    arbiter.btnValue kXBtn - arbiter.btnValue kBBtn)
  if params.noJoyMode then
    (arbiter.manualTwist.linear.x, arbiter.manualTwist.angular.z)
  else if buttons = (0, 0) then
    (params.linearAxisSign * arbiter.axis kLinearAxis, arbiter.axis kAngularAxis)
  else
    buttons

/-- What is promised of a corrected input. -/
structure Corrects (raw corrected : ℚ × ℚ) : Prop where
  linearWithin : |corrected.1| ≤ 1
  angularWithin : |corrected.2| ≤ 1
  linearFollows : Follows corrected.1 raw.1
  angularFollows : Follows corrected.2 raw.2

theorem corrects_directionInput (arbiter : CmdVelArbiter ℚ)
    (joyMode : params.noJoyMode = false) :
    Corrects (rawInput params arbiter) (directionInput params arbiter) := by
  have linear := applyDeadzone_bounds params
    (params.linearAxisSign * arbiter.axis kLinearAxis)
  have angular := applyDeadzone_bounds params (arbiter.axis kAngularAxis)
  have buttonLinear := abs_btnValue_sub_le arbiter kYBtn kABtn
  have buttonAngular := abs_btnValue_sub_le arbiter kXBtn kBBtn
  unfold rawInput directionInput
  simp only [joyMode, Bool.false_eq_true, if_false, FloatOps.eq_rat, FloatOps.lt_rat,
    FloatOps.le_rat, FloatOps.lit, Prod.mk.injEq, Bool.or_eq_true, Bool.not_eq_true',
    decide_eq_false_iff_not, decide_eq_true_eq]
  by_cases idle : arbiter.btnValue kYBtn - arbiter.btnValue kABtn = (0 : ℚ) ∧
      arbiter.btnValue kXBtn - arbiter.btnValue kBBtn = (0 : ℚ)
  · have notPressed : ¬(¬arbiter.btnValue kYBtn - arbiter.btnValue kABtn = (0 : ℚ) ∨
        ¬arbiter.btnValue kXBtn - arbiter.btnValue kBBtn = (0 : ℚ)) :=
      fun pressed => pressed.elim (absurd idle.1) (absurd idle.2)
    rw [if_pos idle, if_neg notPressed]
    have zeroWithin : |(0 : ℚ)| ≤ 1 := by norm_num
    split_ifs
    · exact ⟨linear.1, zeroWithin, linear.2, Follows.zero _⟩
    · exact ⟨linear.1, angular.1, linear.2, angular.2⟩
    · exact ⟨zeroWithin, angular.1, Follows.zero _, angular.2⟩
    · exact ⟨linear.1, angular.1, linear.2, angular.2⟩
    · exact ⟨linear.1, angular.1, linear.2, angular.2⟩
  · have pressed : ¬arbiter.btnValue kYBtn - arbiter.btnValue kABtn = (0 : ℚ) ∨
        ¬arbiter.btnValue kXBtn - arbiter.btnValue kBBtn = (0 : ℚ) :=
      not_and_or.mp idle
    rw [if_neg idle, if_pos pressed]
    exact ⟨buttonLinear, buttonAngular, Follows.refl _, Follows.refl _⟩

end Values

section Tick

variable (params : Params ℚ) (arbiter : CmdVelArbiter ℚ) (now : ℚ)

/-- The velocities that an input stands for. -/
def velocities : ℚ × ℚ :=
  if params.noJoyMode then
    input params arbiter
  else
    ((input params arbiter).1 * kMaxLinear, (input params arbiter).2 * kMaxAngular)

/-- The twist for two velocities in a safety state. -/
def built (safety : SafetyState) (values : ℚ × ℚ) : Twist ℚ :=
  buildTwist params { safety := safety } values.1 values.2

/-- The arbiter with another safety state. -/
def withSafety (safety : SafetyState) : CmdVelArbiter ℚ :=
  { arbiter with safety := safety }

variable {arbiter}

theorem resumeGate_safety (values : ℚ × ℚ) :
    (arbiter.resumeGate values).1.safety = arbiter.safety := by
  simp only [resumeGate]
  split_ifs <;> rfl

/-- Only the gate's own fields decide whether a value passes. -/
theorem resumeGate_congr {other : CmdVelArbiter ℚ}
    (required : arbiter.requireResume = other.requireResume)
    (seen : arbiter.seenNeutral = other.seenNeutral) (values : ℚ × ℚ) :
    (arbiter.resumeGate values).2 = (other.resumeGate values).2 := by
  cases isRequired : other.requireResume <;>
    cases neutral : isNeutral values <;>
      cases isSeen : other.seenNeutral <;>
        simp [resumeGate, required, seen, isRequired, neutral, isSeen]

theorem directionInput_congr {other : CmdVelArbiter ℚ} (same : arbiter.joy = other.joy) :
    directionInput params arbiter = directionInput params other := by
  have sameBtn : ∀ index, (arbiter.btnValue index : ℚ) = other.btnValue index := by
    intro index
    rw [btnValue, btnValue, btn, btn, same]
  have sameAxis : ∀ index, arbiter.axis index = other.axis index := by
    intro index
    rw [axis, axis, same]
  simp only [directionInput, sameBtn, sameAxis]

theorem buildTwist_eq (linear angular : ℚ) :
    arbiter.buildTwist params linear angular =
      built params arbiter.safety (linear, angular) :=
  rfl

theorem toggleEstop_withSafety (safety : SafetyState) :
    (arbiter.withSafety safety).toggleEstop = arbiter.toggleEstop.withSafety safety := by
  obtain ⟨_, _, joy, _, _, _, _, _, prevEstopBtn, _, _⟩ := arbiter
  cases joy with
  | none => rfl
  | some msg =>
      by_cases up : msg.buttons[kEstopBtn]?.getD 0 = 0 <;>
        cases prevEstopBtn <;> simp [toggleEstop, withSafety, btn, up]

/-- The gate that a tick with a moving safety state finds. -/
theorem leaveStop_withSafety {safety : SafetyState} (moving : safety ≠ .stop) :
    (arbiter.withSafety safety).leaveStop =
      { (if arbiter.prevSafety = .stop then arbiter.armResume else arbiter).withSafety
          safety with prevSafety := safety } := by
  unfold leaveStop withSafety
  by_cases stopped : arbiter.prevSafety = .stop
  · simp [stopped, moving, armResume]
  · simp [stopped]

/-- Whether a tick with a manual command lets it pass does not depend on which
safety state moves. -/
theorem timerNoJoy_passes (noJoy : params.noJoyMode = true) :
    ∃ passes : Bool, ∀ safety, safety ≠ .stop →
      ((arbiter.withSafety safety).timerNoJoy params now).2 =
        if passes then built params safety (velocities params arbiter) else {} := by
  refine ⟨!arbiter.safetyStale params now && !arbiter.manualTimedOut params now &&
    (arbiter.resumeGate (input params arbiter)).2, ?_⟩
  intro safety moving
  have isInput : input params arbiter =
      (arbiter.manualTwist.linear.x, arbiter.manualTwist.angular.z) := if_pos noJoy
  have sameGate : ((arbiter.withSafety safety).resumeGate (input params arbiter)).2 =
      (arbiter.resumeGate (input params arbiter)).2 := by
    apply resumeGate_congr
    · rfl
    · rfl
  have stale : (arbiter.withSafety safety).safetyStale params now =
      arbiter.safetyStale params now := rfl
  have timedOut : (arbiter.withSafety safety).manualTimedOut params now =
      arbiter.manualTimedOut params now := rfl
  have isSafety : (arbiter.withSafety safety).safety = safety := rfl
  have manual : (arbiter.withSafety safety).manualTwist = arbiter.manualTwist := rfl
  have isVelocities : velocities params arbiter = input params arbiter := if_pos noJoy
  simp only [timerNoJoy, stale, timedOut, isSafety, manual, if_neg moving, ← isInput,
    sameGate, isVelocities, buildTwist_eq, resumeGate_safety]
  cases arbiter.safetyStale params now with
  | true => rfl
  | false =>
      cases arbiter.manualTimedOut params now with
      | true => rfl
      | false =>
          cases (arbiter.resumeGate (input params arbiter)).2 with
          | false => rfl
          | true =>
              rw [isInput]
              rfl

/-- The same with a controller. -/
theorem timerJoy_passes (joyMode : params.noJoyMode = false) :
    ∃ passes : Bool, ∀ safety, safety ≠ .stop →
      ((arbiter.withSafety safety).timerJoy params now).2 =
        if passes then built params safety (velocities params arbiter) else {} := by
  let toggled := arbiter.toggleEstop
  let left := if toggled.prevSafety = .stop then toggled.armResume else toggled
  refine ⟨!toggled.estop && !toggled.joyTimedOut params now &&
    toggled.btn kDeadmanBtn && !toggled.safetyStale params now &&
      (left.resumeGate (input params arbiter)).2, ?_⟩
  intro safety moving
  have isToggled : (arbiter.withSafety safety).toggleEstop = toggled.withSafety safety :=
    toggleEstop_withSafety safety
  have isLeft : (toggled.withSafety safety).leaveStop =
      { left.withSafety safety with prevSafety := safety } :=
    leaveStop_withSafety moving
  have sameJoy : toggled.joy = arbiter.joy := by
    obtain ⟨_, _, isToggle⟩ := toggleEstop_eq arbiter
    simp only [toggled, isToggle]
  have leftJoy : left.joy = toggled.joy := by
    simp only [left]
    split_ifs <;> rfl
  have isInput : directionInput params { left.withSafety safety with prevSafety := safety } =
      input params arbiter := by
    rw [input, joyMode, if_neg Bool.false_ne_true]
    exact directionInput_congr params (leftJoy.trans sameJoy)
  have sameGate : (({ left.withSafety safety with prevSafety := safety } :
      CmdVelArbiter ℚ).resumeGate (input params arbiter)).2 =
      (left.resumeGate (input params arbiter)).2 := by
    apply resumeGate_congr
    · rfl
    · rfl
  have estop : (toggled.withSafety safety).estop = toggled.estop := rfl
  have timedOut : (toggled.withSafety safety).joyTimedOut params now =
      toggled.joyTimedOut params now := rfl
  have deadman : (toggled.withSafety safety).btn kDeadmanBtn =
      toggled.btn kDeadmanBtn := rfl
  have stale : (toggled.withSafety safety).safetyStale params now =
      toggled.safetyStale params now := rfl
  have isVelocities : velocities params arbiter =
      ((input params arbiter).1 * kMaxLinear, (input params arbiter).2 * kMaxAngular) :=
    if_neg (by simp [joyMode])
  have isSafety : ({ left.withSafety safety with prevSafety := safety } :
      CmdVelArbiter ℚ).safety = safety := rfl
  simp only [timerJoy, isToggled, isLeft, isInput, sameGate, estop, timedOut, deadman,
    stale, isSafety, isVelocities, if_neg moving, buildTwist_eq, resumeGate_safety]
  cases toggled.estop with
  | true => rfl
  | false =>
      cases toggled.joyTimedOut params now with
      | true => rfl
      | false =>
          cases toggled.btn kDeadmanBtn with
          | false => rfl
          | true =>
              cases toggled.safetyStale params now with
              | true => rfl
              | false => cases (left.resumeGate (input params arbiter)).2 <;> rfl

theorem timerCb_passes (arbiter : CmdVelArbiter ℚ) :
    ∃ passes : Bool, ∀ safety, safety ≠ .stop →
      ((arbiter.withSafety safety).timerCb params now).2 =
        if passes then built params safety (velocities params arbiter) else {} := by
  cases mode : params.noJoyMode with
  | true => simpa [timerCb, mode] using timerNoJoy_passes params now mode
  | false => simpa [timerCb, mode] using timerJoy_passes params now mode

/-- A tick publishes a stop or the twist for the velocities. -/
theorem timerCb_twist (arbiter : CmdVelArbiter ℚ) :
    (arbiter.timerCb params now).2 = {} ∨
      (arbiter.timerCb params now).2 =
        built params arbiter.safety (velocities params arbiter) := by
  by_cases stopped : arbiter.safety = .stop
  · have effect := timerCb_effect params arbiter now
    left
    generalize arbiter.timerCb params now = ticked at effect
    cases effect with
    | halts => rfl
    | waits => rfl
    | moves driving => exact absurd stopped driving.notStopped
  · obtain ⟨passes, isTwist⟩ := timerCb_passes params now arbiter
    have twist := isTwist arbiter.safety stopped
    change (arbiter.timerCb params now).2 = _ at twist
    rw [twist]
    cases passes with
    | true => exact Or.inr rfl
    | false => exact Or.inl rfl

end Tick

section Published

variable {params : Params ℚ}

/-- What is promised of a published twist. -/
structure WithinLimits (params : Params ℚ) (arbiter after : CmdVelArbiter ℚ)
    (twist : Twist ℚ) : Prop where
  joyLinear : params.noJoyMode = false → |twist.linear.x| ≤ 0.22
  joyAngular : params.noJoyMode = false → |twist.angular.z| ≤ 2.84
  slowLinear : after.safety = .slow → |twist.linear.x| ≤ params.slowLinearMax
  slowAngular : after.safety = .slow → |twist.angular.z| ≤ params.slowAngularMax
  linearFollows : Follows twist.linear.x (input params arbiter).1
  angularFollows : Follows twist.angular.z (input params arbiter).2

/-- One twist is in no component larger than another one. -/
structure NotLarger (first second : Twist ℚ) : Prop where
  linear : |first.linear.x| ≤ |second.linear.x|
  angular : |first.angular.z| ≤ |second.angular.z|

theorem withinLimits_zero (linearCap : 0 ≤ params.slowLinearMax)
    (angularCap : 0 ≤ params.slowAngularMax) (arbiter after : CmdVelArbiter ℚ) :
    WithinLimits params arbiter after {} := by
  have isZero : |(FloatOps.lit 0 : ℚ)| = 0 := by norm_num [FloatOps.lit]
  constructor <;> intros <;> simp only [isZero]
  · norm_num
  · norm_num
  · exact linearCap
  · exact angularCap
  · exact Follows.zero _
  · exact Follows.zero _

/-- In joy mode the velocities are those of the robot at most, and in every mode
they have the signs of the input. -/
theorem velocities_bounds (arbiter : CmdVelArbiter ℚ) :
    (params.noJoyMode = false → |(velocities params arbiter).1| ≤ 0.22 ∧
      |(velocities params arbiter).2| ≤ 2.84) ∧
    Follows (velocities params arbiter).1 (input params arbiter).1 ∧
    Follows (velocities params arbiter).2 (input params arbiter).2 := by
  have maxLinear : (kMaxLinear : ℚ) = 0.22 := rfl
  have maxAngular : (kMaxAngular : ℚ) = 2.84 := rfl
  cases mode : params.noJoyMode with
  | true =>
      rw [velocities, mode, if_pos rfl]
      exact ⟨nofun, Follows.refl _, Follows.refl _⟩
  | false =>
      have corrects := corrects_directionInput params arbiter mode
      rw [velocities, mode, if_neg Bool.false_ne_true, maxLinear, maxAngular, input, mode,
        if_neg Bool.false_ne_true]
      refine ⟨fun _ => ⟨?_, ?_⟩, (Follows.refl _).mul (by norm_num),
        (Follows.refl _).mul (by norm_num)⟩
      · rw [abs_mul, abs_of_pos (by norm_num : (0 : ℚ) < 0.22)]
        exact mul_le_of_le_one_left (by norm_num) corrects.linearWithin
      · rw [abs_mul, abs_of_pos (by norm_num : (0 : ℚ) < 2.84)]
        exact mul_le_of_le_one_left (by norm_num) corrects.angularWithin

theorem built_slow (values : ℚ × ℚ) :
    built params .slow values =
      { linear := { x := limitTo params.slowLinearMax values.1 }
        angular := { z := limitTo params.slowAngularMax values.2 } } :=
  rfl

theorem built_of_notSlow {safety : SafetyState} (notSlow : safety ≠ .slow)
    (values : ℚ × ℚ) :
    built params safety values =
      { linear := { x := values.1 }, angular := { z := values.2 } } :=
  if_neg notSlow

/-- The twist for the velocities is within the limits. -/
theorem withinLimits_built (linearCap : 0 ≤ params.slowLinearMax)
    (angularCap : 0 ≤ params.slowAngularMax) {arbiter after : CmdVelArbiter ℚ}
    (sameSafety : after.safety = arbiter.safety) :
    WithinLimits params arbiter after
      (built params arbiter.safety (velocities params arbiter)) := by
  obtain ⟨bounds, linearFollows, angularFollows⟩ := @velocities_bounds params arbiter
  by_cases slow : arbiter.safety = .slow
  · have linear := limits_limitTo linearCap (velocities params arbiter).1
    have angular := limits_limitTo angularCap (velocities params arbiter).2
    rw [slow, built_slow]
    constructor
    · exact fun joyMode => linear.notLarger.trans (bounds joyMode).1
    · exact fun joyMode => angular.notLarger.trans (bounds joyMode).2
    · exact fun _ => linear.within
    · exact fun _ => angular.within
    · exact linear.follows.trans linearFollows
    · exact angular.follows.trans angularFollows
  · have notSlow : after.safety ≠ .slow := fun isSlow => slow (sameSafety.symm.trans isSlow)
    rw [built_of_notSlow slow]
    constructor
    · exact fun joyMode => (bounds joyMode).1
    · exact fun joyMode => (bounds joyMode).2
    · exact fun isSlow => absurd isSlow notSlow
    · exact fun isSlow => absurd isSlow notSlow
    · exact linearFollows
    · exact angularFollows

theorem notLarger_built (linearCap : 0 ≤ params.slowLinearMax)
    (angularCap : 0 ≤ params.slowAngularMax) (values : ℚ × ℚ) :
    NotLarger (built params .slow values) (built params .clear values) := by
  rw [built_slow, built_of_notSlow (by decide)]
  exact ⟨(limits_limitTo linearCap values.1).notLarger,
    (limits_limitTo angularCap values.2).notLarger⟩

/-- The arbiter publishes outside of a tick only to stop at once. -/
theorem step_published {arbiter : CmdVelArbiter ℚ} {event : Event ℚ} {twist : Twist ℚ}
    (published : (step params arbiter event).2 = some twist) :
    twist = {} ∨ ∃ now, event = .timer now ∧ twist = (arbiter.timerCb params now).2 := by
  cases event with
  | onSafety data now =>
      simp only [step, onSafety] at published
      split_ifs at published
      exact Or.inl (Option.some.inj published).symm
  | onJoy msg now => simp [step] at published
  | onManual msg now =>
      simp only [step] at published
      split_ifs at published
  | timer now => exact Or.inr ⟨now, rfl, (Option.some.inj published).symm⟩

/-- From every state: what a callback publishes is within the limits, the input
of the joy mode is corrected, and a tick in `slow` publishes no more than the
same tick in `clear`. -/
theorem published_within_limits (params : Params ℚ)
    (linearCap : 0 ≤ params.slowLinearMax) (angularCap : 0 ≤ params.slowAngularMax)
    (arbiter : CmdVelArbiter ℚ) :
    (∀ event twist, (step params arbiter event).2 = some twist →
      WithinLimits params arbiter (step params arbiter event).1 twist) ∧
    (params.noJoyMode = false →
      Corrects (rawInput params arbiter) (input params arbiter)) ∧
    ∀ now, ∃ slow clear,
      (step params (arbiter.withSafety .slow) (.timer now)).2 = some slow ∧
      (step params (arbiter.withSafety .clear) (.timer now)).2 = some clear ∧
      NotLarger slow clear := by
  refine ⟨?_, ?_, ?_⟩
  · intro event twist published
    rcases step_published published with rfl | ⟨now, rfl, rfl⟩
    · exact withinLimits_zero linearCap angularCap _ _
    · obtain ⟨_, _, _, _, _, tickedEq⟩ := sameMessages_timerCb params arbiter now
      have sameSafety : (step params arbiter (.timer now)).1.safety = arbiter.safety := by
        simp only [step, tickedEq]
      rcases timerCb_twist params now arbiter with isZero | isBuilt
      · rw [isZero]
        exact withinLimits_zero linearCap angularCap _ _
      · rw [isBuilt]
        exact withinLimits_built linearCap angularCap sameSafety
  · intro joyMode
    rw [input, joyMode, if_neg Bool.false_ne_true]
    exact corrects_directionInput params arbiter joyMode
  · intro now
    obtain ⟨passes, isTwist⟩ := timerCb_passes params now arbiter
    refine ⟨_, _, rfl, rfl, ?_⟩
    rw [isTwist .slow (by decide), isTwist .clear (by decide)]
    cases passes with
    | true => exact notLarger_built linearCap angularCap _
    | false => exact ⟨le_rfl, le_rfl⟩

/-- A robot in `slow` whose driver holds the deadman and `Y`. -/
def forwardWhileSlow : CmdVelArbiter ℚ where
  safety := .slow
  safetyStamp := 10
  joy := some { axes := [0, 0], buttons := [0, 0, 0, 1, 1, 0, 0] }
  joyStamp := 10
  prevSafety := .slow

/-- With the caps that the node has by default the full forward command is cut to
0.05. -/
theorem published_within_limits_forwardWhileSlow :
    (step {} forwardWhileSlow (.timer (101 / 10))).2 =
        some { linear := { x := 1 / 20 } } ∧
      WithinLimits {} forwardWhileSlow (step {} forwardWhileSlow (.timer (101 / 10))).1
        { linear := { x := 1 / 20 } } ∧
      Corrects (rawInput {} forwardWhileSlow) (input {} forwardWhileSlow) ∧
      ∀ now, ∃ slow clear,
        (step {} (forwardWhileSlow.withSafety .slow) (.timer now)).2 = some slow ∧
        (step {} (forwardWhileSlow.withSafety .clear) (.timer now)).2 = some clear ∧
        NotLarger slow clear := by
  obtain ⟨within, corrects, notLarger⟩ := published_within_limits {}
    (by norm_num [FloatOps.lit]) (by norm_num [FloatOps.lit]) forwardWhileSlow
  have published : (step {} forwardWhileSlow (.timer (101 / 10))).2 =
      some { linear := { x := 1 / 20 } } := by
    decide +kernel
  exact ⟨published, within _ _ published, corrects rfl, notLarger⟩

end Published

end CmdVelArbiter

end Adas.Turtlebot
