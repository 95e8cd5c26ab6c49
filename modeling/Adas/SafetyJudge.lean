import Adas.FloatOps
import Mathlib.Order.Lattice

/-!
# The per-frame safety judgement

The judgement looks at the detections of one frame and nothing else: each
detection has a level, and a frame is as dangerous as its worst detection.
The loop that finds the worst detection stops at the first `stop`, can skip
one class, and reports the class of the detection it settled on.  This file
models that loop and shows that its level is the least upper bound of the
levels it does not skip.
-/

namespace Adas.Safety

open FloatOps

/-- The state sent to the robot.  Larger codes are more dangerous. -/
inductive State where
  | clear
  | slow
  | stop
  deriving DecidableEq, Repr

/-- The `uint8_t` value of a state, on which every comparison depends. -/
def State.code : State → Nat
  | .clear => 0
  | .slow => 1
  | .stop => 2

theorem State.code_injective : Function.Injective State.code := by
  intro first second
  cases first <;> cases second <;> simp [State.code]

instance : LinearOrder State :=
  LinearOrder.lift' State.code State.code_injective

@[simp]
theorem State.code_lt_code {first second : State} :
    first.code < second.code ↔ first < second :=
  Iff.rfl

theorem State.le_stop (state : State) : state ≤ .stop := by
  cases state <;> decide

theorem State.clear_le (state : State) : .clear ≤ state := by
  cases state <;> decide

@[simp]
theorem State.stop_le_iff {state : State} : .stop ≤ state ↔ state = .stop := by
  cases state <;> decide

/-- One detection in coordinates normalised to the frame. -/
structure DetectionRecord (F : Type) where
  x1 : F
  y1 : F
  x2 : F
  y2 : F
  score : F
  classId : Int

/-- The most detections one frame can carry. -/
def kMaxDetections : Nat := 32

/-- The class ids of the deployed classifier.  A model without a background
class has `background = -1`. -/
structure ClassMap where
  car : Int := 0
  person : Int := 1
  signWarning : Int := 2
  signProhibition : Int := 3
  signMandatory : Int := 4
  background : Int := -1
  deriving DecidableEq, Repr

variable {F : Type} [FloatOps F]

/-- The thresholds of the judgement. -/
structure JudgeConfig (F : Type) [FloatOps F] where
  zoneXMin : F := lit (25 / 100)
  zoneXMax : F := lit (75 / 100)
  zoneYMin : F := lit (55 / 100)
  stopHeight : F := lit (45 / 100)
  slowHeight : F := lit (25 / 100)
  signSlowWidth : F := lit (12 / 100)
  minScore : F := lit (25 / 100)
  classes : ClassMap := {}

def isHazardClass (classId : Int) (classes : ClassMap) : Bool :=
  classId == classes.car || classId == classes.person

def isSignClass (classId : Int) (classes : ClassMap) : Bool :=
  classId == classes.signWarning || classId == classes.signProhibition ||
    classId == classes.signMandatory

/-- The level of one detection. -/
def judgeOne (det : DetectionRecord F) (config : JudgeConfig F) : State :=
  if 0 ≤ config.classes.background ∧ det.classId = config.classes.background then
    .clear
  else if !isSignClass det.classId config.classes &&
      !isHazardClass det.classId config.classes then
    .clear
  else if lt det.score config.minScore then
    .clear
  else
    let height := det.y2 - det.y1
    -- A flipped box has no usable height or width.
    if le height (lit 0) || le det.x2 det.x1 then
      .clear
    else if isSignClass det.classId config.classes then
      -- Signs pass no position gate and never reach `stop`.
      let width := det.x2 - det.x1
      if le config.signSlowWidth width then .slow else .clear
    else
      let centerX := (det.x1 + det.x2) * lit (1 / 2)
      if lt centerX config.zoneXMin || lt config.zoneXMax centerX then
        .clear
      else if lt det.y2 config.zoneYMin then
        .clear
      else if le config.stopHeight height then
        .stop
      else if le config.slowHeight height then
        .slow
      else
        .clear

/-- The loop of `judgeWorst` after some detections: `worst` and `outClass` are
the level found so far and the class that reached it. -/
def judgeWorstFrom (config : JudgeConfig F) (excludeClass : Int) :
    State → Int → List (DetectionRecord F) → State × Int
  | worst, outClass, [] => (worst, outClass)
  | worst, outClass, det :: rest =>
      if det.classId = excludeClass then
        judgeWorstFrom config excludeClass worst outClass rest
      else
        let level := judgeOne det config
        if level = .stop then
          (.stop, det.classId)
        else if worst.code < level.code then
          judgeWorstFrom config excludeClass level det.classId rest
        else
          judgeWorstFrom config excludeClass worst outClass rest

/-- The worst level among the detections whose class is not `excludeClass`,
with the class of the detection that reached it (`-1` when none did). -/
def judgeWorst (items : List (DetectionRecord F)) (config : JudgeConfig F)
    (excludeClass : Int) : State × Int :=
  judgeWorstFrom config excludeClass .clear (-1) items

/-- The level of a frame. -/
def judge (items : List (DetectionRecord F)) (config : JudgeConfig F) : State :=
  (judgeWorst items config (-1)).1

/-- Whether some detection of `targetClass` passes the judgement's gates. -/
def classPresent (items : List (DetectionRecord F)) (targetClass : Int)
    (config : JudgeConfig F) : Bool :=
  if targetClass < 0 then
    false
  else
    items.any fun det =>
      det.classId == targetClass && judgeOne det config != .clear

section WorstLevel

variable {config : JudgeConfig F} {excludeClass : Int}

private theorem judgeWorstFrom_le_iff {worst : State} {outClass : Int}
    {items : List (DetectionRecord F)} {bound : State} :
    (judgeWorstFrom config excludeClass worst outClass items).1 ≤ bound ↔
      worst ≤ bound ∧ ∀ det ∈ items,
        det.classId ≠ excludeClass → judgeOne det config ≤ bound := by
  induction items generalizing worst outClass with
  | nil => simp [judgeWorstFrom]
  | cons det rest ih =>
      rw [judgeWorstFrom, List.forall_mem_cons]
      by_cases skipped : det.classId = excludeClass
      · simp [skipped, ih]
      · simp only [skipped, if_false]
        split_ifs with stops worse
        · -- The early exit: nothing is above `stop`.
          constructor
          · intro bounded
            have atStop : bound = .stop := State.stop_le_iff.mp bounded
            subst bound
            exact ⟨worst.le_stop, fun _ => State.le_stop _,
              fun _ _ _ => State.le_stop _⟩
          · rintro ⟨-, first, -⟩
            exact stops ▸ first skipped
        · rw [ih]
          have lower : worst ≤ judgeOne det config :=
            (State.code_lt_code.mp worse).le
          constructor
          · rintro ⟨first, others⟩
            exact ⟨lower.trans first, fun _ => first, others⟩
          · rintro ⟨-, first, others⟩
            exact ⟨first skipped, others⟩
        · rw [ih]
          have lower : judgeOne det config ≤ worst :=
            not_lt.mp fun above => worse (State.code_lt_code.mpr above)
          constructor
          · rintro ⟨first, others⟩
            exact ⟨first, fun _ => lower.trans first, others⟩
          · rintro ⟨first, -, others⟩
            exact ⟨first, others⟩

/-- The level `judgeWorst` returns is the least upper bound of the levels of
the detections it does not skip. -/
theorem judgeWorst_le_iff {items : List (DetectionRecord F)} {bound : State} :
    (judgeWorst items config excludeClass).1 ≤ bound ↔
      ∀ det ∈ items, det.classId ≠ excludeClass →
        judgeOne det config ≤ bound := by
  rw [judgeWorst, judgeWorstFrom_le_iff]
  exact and_iff_right bound.clear_le

theorem judgeOne_le_judgeWorst {items : List (DetectionRecord F)}
    {det : DetectionRecord F} (mem : det ∈ items)
    (kept : det.classId ≠ excludeClass) :
    judgeOne det config ≤ (judgeWorst items config excludeClass).1 :=
  judgeWorst_le_iff.mp le_rfl det mem kept

/-- A frame whose class ids are non-negative is at least as dangerous as each
of its detections, and no more dangerous than all of them. -/
theorem judge_le_iff {items : List (DetectionRecord F)} {bound : State}
    (classIds : ∀ det ∈ items, 0 ≤ det.classId) :
    judge items config ≤ bound ↔
      ∀ det ∈ items, judgeOne det config ≤ bound := by
  rw [judge, judgeWorst_le_iff]
  constructor
  · intro bounded det mem
    have := classIds det mem
    exact bounded det mem (by omega)
  · intro bounded det mem _
    exact bounded det mem

private theorem judgeWorstFrom_stop {worst : State} {outClass : Int}
    {items : List (DetectionRecord F)} (notYet : worst ≠ .stop)
    (stops : (judgeWorstFrom config excludeClass worst outClass items).1 =
      .stop) :
    ∃ det, items.find? (fun det => det.classId != excludeClass &&
        judgeOne det config == .stop) = some det ∧
      (judgeWorstFrom config excludeClass worst outClass items).2 =
        det.classId := by
  induction items generalizing worst outClass with
  | nil => exact absurd stops notYet
  | cons det rest ih =>
      rw [judgeWorstFrom] at stops ⊢
      by_cases skipped : det.classId = excludeClass
      · simp only [skipped, if_true] at stops ⊢
        simpa [skipped] using ih notYet stops
      · simp only [skipped, if_false] at stops ⊢
        by_cases first : judgeOne det config = .stop
        · exact ⟨det, by simp [skipped, first], by simp [first]⟩
        · simp only [first, if_false] at stops ⊢
          have continues : (det.classId != excludeClass &&
              judgeOne det config == .stop) = false := by simp [first]
          rw [List.find?_cons, continues]
          split_ifs at stops ⊢
          · exact ih first stops
          · exact ih notYet stops

/-- When `judgeWorst` returns `stop` it names the class of the first detection
that reached `stop` among those it does not skip. -/
theorem judgeWorst_stop {items : List (DetectionRecord F)}
    (stops : (judgeWorst items config excludeClass).1 = .stop) :
    ∃ det, items.find? (fun det => det.classId != excludeClass &&
        judgeOne det config == .stop) = some det ∧
      (judgeWorst items config excludeClass).2 = det.classId :=
  judgeWorstFrom_stop (by decide) stops

theorem judgeWorst_eq_stop_iff {items : List (DetectionRecord F)} :
    (judgeWorst items config excludeClass).1 = .stop ↔
      ∃ det ∈ items, det.classId ≠ excludeClass ∧
        judgeOne det config = .stop := by
  constructor
  · intro stops
    obtain ⟨det, found, -⟩ := judgeWorst_stop stops
    have passes := List.find?_some found
    simp only [Bool.and_eq_true, bne_iff_ne, beq_iff_eq] at passes
    exact ⟨det, List.mem_of_find?_eq_some found, passes⟩
  · rintro ⟨det, mem, kept, stops⟩
    rw [← State.stop_le_iff, ← stops]
    exact judgeOne_le_judgeWorst mem kept

end WorstLevel

theorem classPresent_iff {items : List (DetectionRecord F)} {targetClass : Int}
    {config : JudgeConfig F} (target : 0 ≤ targetClass) :
    classPresent items targetClass config = true ↔
      ∃ det ∈ items, det.classId = targetClass ∧
        judgeOne det config ≠ .clear := by
  have notNegative : ¬ targetClass < 0 := by omega
  simp [classPresent, notNegative]

/-- A sign never reaches `stop`: only a car or a person does. -/
theorem isHazardClass_of_judgeOne_stop {det : DetectionRecord F}
    {config : JudgeConfig F} (stops : judgeOne det config = .stop) :
    isHazardClass det.classId config.classes = true ∧
      isSignClass det.classId config.classes = false := by
  unfold judgeOne at stops
  cases sign : isSignClass det.classId config.classes with
  | true =>
      simp only [sign, Bool.not_true, Bool.false_and, Bool.false_eq_true,
        if_false, if_true] at stops
      split_ifs at stops
  | false =>
      cases hazard : isHazardClass det.classId config.classes with
      | true => exact ⟨rfl, rfl⟩
      | false => simp [sign, hazard] at stops

end Adas.Safety
