import Mathlib.Data.Nat.Init

/-!
# Counted loops over arrays

Nested counted loops fill arrays and add up sums.  An array is a function of
its indices, and a loop transforms a state.  The rules look at a loop through
an observation of the state: what no iteration changes is unchanged, and what
one iteration alone changes has the value that this iteration gives it.
-/

namespace BoundedLoop

variable {State Value : Type*}

/-- `for (i = 0; i < count; ++i)`. -/
def forLoop : Nat → (Nat → State → State) → State → State
  | 0, _, state => state
  | count + 1, body, state => body count (forLoop count body state)

/-- `for (i = 0; i < limit; i += stride)`. -/
def forStride (limit stride : Nat) (body : Nat → State → State)
    (state : State) : State :=
  forLoop ((limit + stride - 1) / stride)
    (fun block => body (block * stride)) state

section Rules

variable {count : Nat} {body : Nat → State → State} {state : State}

@[simp]
theorem forLoop_zero : forLoop 0 body state = state :=
  rfl

theorem forLoop_succ :
    forLoop (count + 1) body state = body count (forLoop count body state) :=
  rfl

/-- A stride that divides the limit makes one iteration for each block. -/
theorem forStride_mul {stride : Nat} (positive : 0 < stride) (blocks : Nat) :
    forStride (blocks * stride) stride body =
      forLoop blocks fun block => body (block * stride) := by
  funext state
  have trips : (blocks * stride + stride - 1) / stride = blocks := by
    rw [Nat.add_sub_assoc positive, Nat.add_comm,
      Nat.add_mul_div_right _ _ positive, Nat.div_eq_of_lt (by omega),
      Nat.zero_add]
  rw [forStride, trips]

end Rules

/-- A block and a lane within it say which cell is meant. -/
theorem block_lane_unique {stride block lane other otherLane : Nat}
    (laneIn : lane < stride) (otherIn : otherLane < stride)
    (same : block * stride + lane = other * stride + otherLane) :
    block = other ∧ lane = otherLane := by
  have positive : 0 < stride := by omega
  have sameBlock := congrArg (· / stride) same
  simp only [Nat.mul_comm _ stride, Nat.mul_add_div positive,
    Nat.div_eq_of_lt laneIn, Nat.div_eq_of_lt otherIn, Nat.add_zero] at sameBlock
  subst sameBlock
  exact ⟨rfl, by omega⟩

theorem block_lane_lt {stride blocks block lane : Nat} (blockIn : block < blocks)
    (laneIn : lane < stride) : block * stride + lane < blocks * stride := by
  calc block * stride + lane < block * stride + stride := by omega
    _ = (block + 1) * stride := (Nat.succ_mul block stride).symm
    _ ≤ blocks * stride := Nat.mul_le_mul_right stride blockIn

section Observations

variable {count : Nat} {body : Nat → State → State} {read : State → Value}

/-- The program leaves what is observed alone. -/
def Keeps (read : State → Value) (program : State → State) : Prop :=
  ∀ state, read (program state) = read state

/-- Whatever the state, the program gives what is observed this value. -/
def Sets (read : State → Value) (program : State → State) (value : Value) :
    Prop :=
  ∀ state, read (program state) = value

theorem Keeps.forLoop (keeps : ∀ i < count, Keeps read (body i)) :
    Keeps read (forLoop count body) := by
  intro state
  induction count with
  | zero => rfl
  | succ count ih =>
      rw [forLoop_succ, keeps count (Nat.lt_succ_self count)]
      exact ih fun i inRange => keeps i (by omega)

/-- A loop of which one iteration alone touches what is observed. -/
theorem forLoop_once {once : Nat} (inRange : once < count)
    (others : ∀ i < count, i ≠ once → Keeps read (body i)) (state : State) :
    read (forLoop count body state) =
      read (body once (forLoop once body state)) := by
  induction count with
  | zero => omega
  | succ count ih =>
      rw [forLoop_succ]
      by_cases last : count = once
      · rw [last]
      · rw [others count (Nat.lt_succ_self count) last]
        exact ih (by omega) fun i inRange => others i (by omega)

theorem Sets.forLoop {once : Nat} {value : Value} (inRange : once < count)
    (others : ∀ i < count, i ≠ once → Keeps read (body i))
    (sets : Sets read (body once) value) :
    Sets read (forLoop count body) value :=
  fun state => (forLoop_once inRange others state).trans (sets _)

end Observations

section Arrays

variable {Cell : Type*}

def write1 (array : Nat → Cell) (i : Nat) (cell : Cell) : Nat → Cell :=
  fun i' => if i' = i then cell else array i'

def write2 (array : Nat → Nat → Cell) (i j : Nat) (cell : Cell) :
    Nat → Nat → Cell :=
  fun i' j' => if i' = i ∧ j' = j then cell else array i' j'

def write3 (array : Nat → Nat → Nat → Cell) (i j k : Nat) (cell : Cell) :
    Nat → Nat → Nat → Cell :=
  fun i' j' k' => if i' = i ∧ j' = j ∧ k' = k then cell else array i' j' k'

def write4 (array : Nat → Nat → Nat → Nat → Cell) (i j k l : Nat)
    (cell : Cell) : Nat → Nat → Nat → Nat → Cell :=
  fun i' j' k' l' =>
    if i' = i ∧ j' = j ∧ k' = k ∧ l' = l then cell else array i' j' k' l'

/-- Copying loops, one for each number of dimensions. -/
def load1 (rows : Nat) (source : Nat → Cell) : (Nat → Cell) → Nat → Cell :=
  forLoop rows fun i array => write1 array i (source i)

def load2 (rows columns : Nat) (source : Nat → Nat → Cell) :
    (Nat → Nat → Cell) → Nat → Nat → Cell :=
  forLoop rows fun i => forLoop columns fun j array =>
    write2 array i j (source i j)

def load3 (rows columns planes : Nat) (source : Nat → Nat → Nat → Cell) :
    (Nat → Nat → Nat → Cell) → Nat → Nat → Nat → Cell :=
  forLoop rows fun i => forLoop columns fun j => forLoop planes fun k array =>
    write3 array i j k (source i j k)

def load4 (rows columns planes cells : Nat)
    (source : Nat → Nat → Nat → Nat → Cell) :
    (Nat → Nat → Nat → Nat → Cell) → Nat → Nat → Nat → Nat → Cell :=
  forLoop rows fun i => forLoop columns fun j => forLoop planes fun k =>
    forLoop cells fun l array => write4 array i j k l (source i j k l)

variable {rows columns planes cells i j k l : Nat}

theorem load1_apply {source array : Nat → Cell} (rowIn : i < rows) :
    load1 rows source array i = source i := by
  have sets : Sets (fun array : Nat → Cell => array i) (load1 rows source)
      (source i) := by
    refine .forLoop rowIn (fun i' _ differs array => ?_) fun array => ?_
    · simp [write1, differs.symm]
    · simp [write1]
  exact sets array

theorem load2_apply {source array : Nat → Nat → Cell} (rowIn : i < rows)
    (columnIn : j < columns) : load2 rows columns source array i j = source i j := by
  have sets : Sets (fun array : Nat → Nat → Cell => array i j)
      (load2 rows columns source) (source i j) := by
    refine .forLoop rowIn (fun i' _ differs => ?_)
      (.forLoop columnIn (fun j' _ differs array => ?_) fun array => ?_)
    · refine .forLoop fun j' _ array => ?_
      simp [write2, differs.symm]
    · simp [write2, differs.symm]
    · simp [write2]
  exact sets array

theorem load3_apply {source array : Nat → Nat → Nat → Cell} (rowIn : i < rows)
    (columnIn : j < columns) (planeIn : k < planes) :
    load3 rows columns planes source array i j k = source i j k := by
  have sets : Sets (fun array : Nat → Nat → Nat → Cell => array i j k)
      (load3 rows columns planes source) (source i j k) := by
    refine .forLoop rowIn (fun i' _ differs => ?_)
      (.forLoop columnIn (fun j' _ differs => ?_)
        (.forLoop planeIn (fun k' _ differs array => ?_) fun array => ?_))
    · refine .forLoop fun j' _ => .forLoop fun k' _ array => ?_
      simp [write3, differs.symm]
    · refine .forLoop fun k' _ array => ?_
      simp [write3, differs.symm]
    · simp [write3, differs.symm]
    · simp [write3]
  exact sets array

theorem load4_apply {source array : Nat → Nat → Nat → Nat → Cell}
    (rowIn : i < rows) (columnIn : j < columns) (planeIn : k < planes)
    (cellIn : l < cells) :
    load4 rows columns planes cells source array i j k l = source i j k l := by
  have sets : Sets (fun array : Nat → Nat → Nat → Nat → Cell => array i j k l)
      (load4 rows columns planes cells source) (source i j k l) := by
    refine .forLoop rowIn (fun i' _ differs => ?_)
      (.forLoop columnIn (fun j' _ differs => ?_)
        (.forLoop planeIn (fun k' _ differs => ?_)
          (.forLoop cellIn (fun l' _ differs array => ?_) fun array => ?_)))
    · refine .forLoop fun j' _ => .forLoop fun k' _ => .forLoop fun l' _ array => ?_
      simp [write4, differs.symm]
    · refine .forLoop fun k' _ => .forLoop fun l' _ array => ?_
      simp [write4, differs.symm]
    · refine .forLoop fun l' _ array => ?_
      simp [write4, differs.symm]
    · simp [write4, differs.symm]
    · simp [write4]
  exact sets array

end Arrays

end BoundedLoop
