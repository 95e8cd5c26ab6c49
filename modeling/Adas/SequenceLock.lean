import Adas.EventMachine
import Mathlib.Data.List.Perm.Basic
import Mathlib.Data.List.Nodup
import Mathlib.Logic.Function.Basic
import Mathlib.Algebra.Order.Ring.Abs

/-!
# Reading cells that are being written

One writer and one reader share some cells and a sequence number, and neither
waits for the other.  The writer raises the number before and after it writes, so
that it is odd in between.  The reader looks at the number, copies the cells in any
order and looks at the number again.  As long as the number has not come round in
the meantime, an equal and even number means that the copy is what the last
complete write has left.
-/

namespace SequenceLock

variable (Cell : Type) (Value : Cell → Type) (width : Nat)

/-- An order in which all cells are copied. -/
structure Order where
  cells : List Cell
  complete : ∀ cell, cell ∈ cells

/-- What the reader has seen and copied. -/
structure Reading where
  before : BitVec width
  remaining : List Cell
  out : ∀ cell, Value cell

/-- The shared memory, what is still to be written, and the reader. -/
structure State where
  sequence : BitVec width
  cells : ∀ cell, Value cell
  writing : Option (List (Sigma Value)) := none
  reading : Option (Reading Cell Value width) := none

inductive Event where
  | startWrite (stores : List (Sigma Value))
  | store
  | endWrite
  | startRead (order : Order Cell) (out : ∀ cell, Value cell)
  | load
  | endRead

inductive Happening where
  | quiet
  | writeStarted (stores : List (Sigma Value))
  | writeEnded
  | readStarted
  | refused
  | torn
  | snapshot (out : ∀ cell, Value cell)

variable {Cell} {Value} {width}

section Counting

/-- How often the sequence number has been raised. -/
def raised (past : List (Happening Cell Value)) : Nat :=
  past.countP fun
    | .writeStarted _ | .writeEnded => true
    | _ => false

/-- The happenings since the reader has last looked for an even number, the last
one first. -/
def sinceStart (past : List (Happening Cell Value)) : List (Happening Cell Value) :=
  past.reverse.takeWhile fun
    | .readStarted => false
    | _ => true

theorem raised_append (past more : List (Happening Cell Value)) :
    raised (past ++ more) = raised past + raised more :=
  List.countP_append

variable {past : List (Happening Cell Value)}

theorem sinceStart_readStarted :
    sinceStart (past ++ [Happening.readStarted]) = [] := by
  simp [sinceStart]

/-- Everything but a look for an even number comes to what has happened since. -/
theorem raised_sinceStart {happening : Happening Cell Value}
    (other : sinceStart [happening] = [happening]) :
    raised (sinceStart (past ++ [happening])) =
      raised (sinceStart past) + raised [happening] := by
  cases happening with
  | readStarted => simp [sinceStart] at other
  | _ => simp [sinceStart, raised]

end Counting

def isOdd (sequence : BitVec width) : Bool :=
  sequence &&& BitVec.ofNat width 1 != BitVec.ofNat width 0

theorem isOdd_eq (positive : 0 < width) (sequence : BitVec width) :
    isOdd sequence = decide (sequence.toNat % 2 = 1) := by
  have one : 1 % 2 ^ width = 1 := Nat.one_mod_two_pow positive
  rw [isOdd, Bool.eq_iff_iff, bne_iff_ne, ne_eq, decide_eq_true_iff, BitVec.toNat_eq,
    BitVec.toNat_and, BitVec.toNat_ofNat, BitVec.toNat_ofNat, one, Nat.and_one_is_mod,
    Nat.zero_mod]
  omega

/-- From an even number on, the numbers are even and odd in turns. -/
theorem isOdd_add (positive : 0 < width) {start : BitVec width}
    (even : isOdd start = false) (count : Nat) :
    isOdd (start + BitVec.ofNat width count) = decide (count % 2 = 1) := by
  rw [isOdd_eq positive] at even ⊢
  have evenStart : ¬ start.toNat % 2 = 1 := of_decide_eq_false even
  have two : 2 ∣ 2 ^ width := dvd_pow_self 2 (Nat.pos_iff_ne_zero.mp positive)
  rw [BitVec.toNat_add, BitVec.toNat_ofNat, Nat.mod_mod_of_dvd _ two, Nat.add_mod,
    Nat.mod_mod_of_dvd _ two]
  congr 1
  rw [eq_iff_iff]
  omega

variable [DecidableEq Cell]

def apply (cells : ∀ cell, Value cell) (store : Sigma Value) : ∀ cell, Value cell :=
  Function.update cells store.1 store.2

def applyAll (cells : ∀ cell, Value cell) (stores : List (Sigma Value)) :
    ∀ cell, Value cell :=
  stores.foldl apply cells

def step (state : State Cell Value width) :
    Event Cell Value → State Cell Value width × Happening Cell Value
  | .startWrite stores =>
      match state.writing with
      | some _ => (state, .quiet)
      | none =>
          ({ state with sequence := state.sequence + 1, writing := some stores },
            .writeStarted stores)
  | .store =>
      match state.writing with
      | some (store :: stores) =>
          ({ state with cells := apply state.cells store, writing := some stores },
            .quiet)
      | _ => (state, .quiet)
  | .endWrite =>
      match state.writing with
      | some [] =>
          ({ state with sequence := state.sequence + 1, writing := none }, .writeEnded)
      | _ => (state, .quiet)
  | .startRead order out =>
      match state.reading with
      | some _ => (state, .quiet)
      | none =>
          if isOdd state.sequence then
            (state, .refused)
          else
            ({ state with reading := some ⟨state.sequence, order.cells, out⟩ },
              .readStarted)
  | .load =>
      match state.reading with
      | some ⟨before, cell :: remaining, out⟩ =>
          ({ state with
            reading := some ⟨before, remaining, apply out ⟨cell, state.cells cell⟩⟩ },
            .quiet)
      | _ => (state, .quiet)
  | .endRead =>
      match state.reading with
      | some ⟨before, [], out⟩ =>
          if state.sequence ≠ before then
            ({ state with reading := none }, .torn)
          else
            ({ state with reading := none }, .snapshot out)
      | _ => (state, .quiet)

section Stores

variable {cells : ∀ cell, Value cell} {stores : List (Sigma Value)}

theorem applyAll_of_notMem {cell : Cell} (untouched : ∀ store ∈ stores, store.1 ≠ cell) :
    applyAll cells stores cell = cells cell := by
  induction stores generalizing cells with
  | nil => rfl
  | cons store stores ih =>
      rw [applyAll, List.foldl_cons]
      refine (ih fun other isStore => untouched other (List.mem_cons_of_mem _ isStore)).trans ?_
      exact Function.update_of_ne (untouched store List.mem_cons_self).symm _ _

/-- If no cell is stored twice, every store stays. -/
theorem applyAll_of_mem (distinct : (stores.map Sigma.fst).Nodup) {store : Sigma Value}
    (isStore : store ∈ stores) : applyAll cells stores store.1 = store.2 := by
  induction stores generalizing cells with
  | nil => simp at isStore
  | cons first stores ih =>
      rw [List.map_cons, List.nodup_cons] at distinct
      rw [applyAll, List.foldl_cons]
      rcases List.mem_cons.mp isStore with rfl | later
      · refine (applyAll_of_notMem fun other isOther same => ?_).trans
          (Function.update_self _ _ _)
        exact distinct.1 (same ▸ List.mem_map_of_mem isOther)
      · exact ih distinct.2 later

end Stores

section Books

/-- What the writes that have been started leave in the cells. -/
def contents (initial : ∀ cell, Value cell) (past : List (Happening Cell Value)) :
    ∀ cell, Value cell :=
  past.foldl (fun cells happening =>
    match happening with
    | .writeStarted stores => applyAll cells stores
    | _ => cells) initial

variable {past : List (Happening Cell Value)} {initial : ∀ cell, Value cell}

theorem contents_append (more : List (Happening Cell Value)) :
    contents initial (past ++ more) = contents (contents initial past) more :=
  List.foldl_append

end Books

section Invariant

/-- The cells when the write in progress is over. -/
def State.settled (state : State Cell Value width) : ∀ cell, Value cell :=
  match state.writing with
  | some stores => applyAll state.cells stores
  | none => state.cells

/-- The copy is made while nothing is written, and the cells that are not to be
copied any more are as they are. -/
structure Copies (state : State Cell Value width) (reading : Reading Cell Value width) :
    Prop where
  notWriting : state.writing = none
  copied : ∀ cell, cell ∈ reading.remaining ∨ reading.out cell = state.cells cell

/-- What the state has to do with what has happened. -/
structure Sound (start : BitVec width) (initial : ∀ cell, Value cell)
    (past : List (Happening Cell Value)) (state : State Cell Value width) : Prop where
  sequence : state.sequence = start + BitVec.ofNat width (raised past)
  writing : state.writing = none ↔ raised past % 2 = 0
  cells : state.settled = contents initial past
  since : ∀ reading, state.reading = some reading →
    state.sequence = reading.before + BitVec.ofNat width (raised (sinceStart past))
  copies : ∀ reading, state.reading = some reading → raised (sinceStart past) = 0 →
    Copies state reading

variable {start : BitVec width} {initial : ∀ cell, Value cell}
  {past : List (Happening Cell Value)} {state : State Cell Value width}

/-- A step after which nothing is written or read that was not before. -/
theorem Sound.same (sound : Sound start initial past state)
    {happening : Happening Cell Value} (other : sinceStart [happening] = [happening])
    (raises : raised [happening] = 0)
    (stores : contents (contents initial past) [happening] = contents initial past) :
    Sound start initial (past ++ [happening]) state := by
  obtain ⟨sequence, writing, cells, since, copies⟩ := sound
  have raisedAll : raised (past ++ [happening]) = raised past := by
    rw [raised_append, raises, Nat.add_zero]
  have raisedSince : raised (sinceStart (past ++ [happening])) =
      raised (sinceStart past) := by
    rw [raised_sinceStart other, raises, Nat.add_zero]
  refine ⟨?_, ?_, ?_, ?_, ?_⟩
  · rwa [raisedAll]
  · rwa [raisedAll]
  · rw [contents_append, stores]
    exact cells
  · rwa [raisedSince]
  · rwa [raisedSince]

theorem Sound.quiet (sound : Sound start initial past state) :
    Sound start initial (past ++ [.quiet]) state :=
  sound.same rfl rfl rfl

/-- A step that raises the number. -/
theorem Sound.since_raised (sound : Sound start initial past state)
    {happening : Happening Cell Value} (other : sinceStart [happening] = [happening])
    (raises : raised [happening] = 1) {reading : Reading Cell Value width}
    (isReading : state.reading = some reading) :
    state.sequence + 1 = reading.before +
        BitVec.ofNat width (raised (sinceStart (past ++ [happening]))) ∧
      raised (sinceStart (past ++ [happening])) ≠ 0 := by
  rw [raised_sinceStart other, raises, BitVec.ofNat_add, ← BitVec.add_assoc,
    ← sound.since reading isReading]
  exact ⟨rfl, Nat.succ_ne_zero _⟩

theorem Sound.sequence_raised (sound : Sound start initial past state)
    {happening : Happening Cell Value} (raises : raised [happening] = 1) :
    state.sequence + 1 = start + BitVec.ofNat width (raised (past ++ [happening])) := by
  rw [raised_append, raises, BitVec.ofNat_add, ← BitVec.add_assoc, ← sound.sequence]
  rfl

theorem Sound.startWrite (sound : Sound start initial past state)
    (idle : state.writing = none) (stores : List (Sigma Value)) :
    Sound start initial (past ++ [.writeStarted stores])
      { state with sequence := state.sequence + 1, writing := some stores } := by
  have even := sound.writing.mp idle
  refine ⟨sound.sequence_raised rfl, ?_, ?_, ?_, ?_⟩
  · rw [raised_append]
    change some stores = none ↔ (raised past + 1) % 2 = 0
    simp only [reduceCtorEq, false_iff]
    omega
  · rw [contents_append, ← sound.cells, State.settled, State.settled, idle]
    rfl
  · exact fun reading isReading => (sound.since_raised rfl rfl isReading).1
  · exact fun reading isReading none =>
      absurd none (sound.since_raised rfl rfl isReading).2

theorem Sound.endWrite (sound : Sound start initial past state)
    (finished : state.writing = some []) :
    Sound start initial (past ++ [.writeEnded])
      { state with sequence := state.sequence + 1, writing := none } := by
  have odd : ¬ raised past % 2 = 0 := by
    rw [← sound.writing, finished]
    exact Option.some_ne_none []
  refine ⟨sound.sequence_raised rfl, ?_, ?_, ?_, ?_⟩
  · rw [raised_append]
    change none = none ↔ (raised past + 1) % 2 = 0
    simp only [true_iff]
    omega
  · rw [contents_append, ← sound.cells, State.settled, State.settled, finished]
    rfl
  · exact fun reading isReading => (sound.since_raised rfl rfl isReading).1
  · exact fun reading isReading none =>
      absurd none (sound.since_raised rfl rfl isReading).2

theorem Sound.store (sound : Sound start initial past state) {store : Sigma Value}
    {stores : List (Sigma Value)} (writing : state.writing = some (store :: stores)) :
    Sound start initial (past ++ [.quiet])
      { state with cells := apply state.cells store, writing := some stores } := by
  obtain ⟨sequence, isWriting, cells, since, copies⟩ := sound.quiet
  refine ⟨sequence, ?_, ?_, since, ?_⟩
  · rw [← isWriting, writing]
    simp only [reduceCtorEq]
  · rw [← cells, State.settled, State.settled, writing]
    rfl
  · intro reading isReading none
    have notWriting := (copies reading isReading none).notWriting
    rw [writing] at notWriting
    contradiction

theorem Sound.startRead (sound : Sound start initial past state) (positive : 0 < width)
    (evenStart : isOdd start = false) (even : ¬ isOdd state.sequence = true)
    (order : Order Cell) (out : ∀ cell, Value cell) :
    Sound start initial (past ++ [.readStarted])
      { state with reading := some ⟨state.sequence, order.cells, out⟩ } := by
  rw [sound.sequence, isOdd_add positive evenStart, decide_eq_true_iff] at even
  have idle : state.writing = none := sound.writing.mpr (by omega)
  have raisedAll : raised (past ++ [.readStarted]) = raised past := raised_append _ _
  refine ⟨?_, ?_, ?_, ?_, ?_⟩
  · rw [raisedAll]
    exact sound.sequence
  · rw [raisedAll]
    exact sound.writing
  · rw [contents_append]
    exact sound.cells
  · rintro reading ⟨⟩
    rw [sinceStart_readStarted]
    exact (BitVec.add_zero _).symm
  · rintro reading ⟨⟩ -
    exact ⟨idle, fun cell => Or.inl (order.complete cell)⟩

theorem Sound.load (sound : Sound start initial past state) {before : BitVec width}
    {cell : Cell} {remaining : List Cell} {out : ∀ cell, Value cell}
    (reading : state.reading = some ⟨before, cell :: remaining, out⟩) :
    Sound start initial (past ++ [.quiet])
      { state with
        reading := some ⟨before, remaining, apply out ⟨cell, state.cells cell⟩⟩ } := by
  obtain ⟨sequence, writing, cells, since, copies⟩ := sound.quiet
  refine ⟨sequence, writing, cells, ?_, ?_⟩
  · rintro _ ⟨⟩
    exact since ⟨before, cell :: remaining, out⟩ reading
  · rintro _ ⟨⟩ none
    obtain ⟨notWriting, copied⟩ := copies _ reading none
    refine ⟨notWriting, fun other => ?_⟩
    by_cases same : other = cell
    · subst same
      exact Or.inr (Function.update_self _ _ _)
    · rcases copied other with isRemaining | isCopied
      · exact Or.inl (List.mem_of_ne_of_mem same isRemaining)
      · exact Or.inr ((Function.update_of_ne same _ _).trans isCopied)

/-- The reader gives up what it has copied, or has got it. -/
theorem Sound.endRead (sound : Sound start initial past state)
    {happening : Happening Cell Value} (raises : raised [happening] = 0)
    (stores : contents (contents initial past) [happening] = contents initial past) :
    Sound start initial (past ++ [happening]) { state with reading := none } := by
  refine ⟨?_, ?_, ?_, ?_, ?_⟩
  · rw [raised_append, raises]
    exact sound.sequence
  · rw [raised_append, raises]
    exact sound.writing
  · rw [contents_append, stores]
    exact sound.cells
  · rintro reading ⟨⟩
  · rintro reading ⟨⟩

theorem Sound.step (sound : Sound start initial past state) (positive : 0 < width)
    (even : isOdd start = false) (event : Event Cell Value) :
    Sound start initial (past ++ [(step state event).2]) (step state event).1 := by
  cases event with
  | startWrite stores =>
      cases writing : state.writing with
      | none =>
          simp only [SequenceLock.step, writing]
          exact sound.startWrite writing stores
      | some pending =>
          simp only [SequenceLock.step, writing]
          exact sound.quiet
  | store =>
      rcases writing : state.writing with _ | _ | ⟨store, stores⟩
      · simp only [SequenceLock.step, writing]
        exact sound.quiet
      · simp only [SequenceLock.step, writing]
        exact sound.quiet
      · simp only [SequenceLock.step, writing]
        exact sound.store writing
  | endWrite =>
      rcases writing : state.writing with _ | _ | ⟨store, stores⟩
      · simp only [SequenceLock.step, writing]
        exact sound.quiet
      · simp only [SequenceLock.step, writing]
        exact sound.endWrite writing
      · simp only [SequenceLock.step, writing]
        exact sound.quiet
  | startRead order out =>
      cases reading : state.reading with
      | some reading =>
          simp only [SequenceLock.step, reading]
          exact sound.quiet
      | none =>
          simp only [SequenceLock.step, reading]
          split_ifs with odd
          · exact sound.same rfl rfl rfl
          · exact sound.startRead positive even odd order out
  | load =>
      rcases reading : state.reading with _ | ⟨before, _ | ⟨cell, remaining⟩, out⟩
      · simp only [SequenceLock.step, reading]
        exact sound.quiet
      · simp only [SequenceLock.step, reading]
        exact sound.quiet
      · simp only [SequenceLock.step, reading]
        exact sound.load reading
  | endRead =>
      rcases reading : state.reading with _ | ⟨before, _ | ⟨cell, remaining⟩, out⟩
      · simp only [SequenceLock.step, reading]
        exact sound.quiet
      · simp only [SequenceLock.step, reading]
        split_ifs
        · exact sound.endRead rfl rfl
        · exact sound.endRead rfl rfl
      · simp only [SequenceLock.step, reading]
        exact sound.quiet

/-- A snapshot that was got before the number came round is what the last complete
write has left, and no write has disturbed it. -/
theorem Sound.snapshot (sound : Sound start initial past state)
    {out : ∀ cell, Value cell}
    (isSnapshot : (SequenceLock.step state .endRead).2 = .snapshot out)
    (few : raised (sinceStart past) < 2 ^ width) :
    raised (sinceStart past) = 0 ∧ raised past % 2 = 0 ∧ out = contents initial past := by
  rcases reading : state.reading with _ | ⟨before, _ | ⟨cell, remaining⟩, copied⟩
  · simp [SequenceLock.step, reading] at isSnapshot
  · simp only [SequenceLock.step, reading] at isSnapshot
    split_ifs at isSnapshot with changed
    obtain rfl : copied = out := by simpa using isSnapshot
    have since := sound.since _ reading
    rw [not_not.mp changed, BitVec.self_eq_add_right, BitVec.toNat_eq, BitVec.toNat_ofNat,
      Nat.mod_eq_of_lt few] at since
    have none : raised (sinceStart past) = 0 := since.trans BitVec.toNat_zero
    obtain ⟨notWriting, isCopied⟩ := sound.copies _ reading none
    refine ⟨none, sound.writing.mp notWriting, ?_⟩
    rw [← sound.cells, State.settled, notWriting]
    exact funext fun cell => (isCopied cell).resolve_left List.not_mem_nil
  · simp [SequenceLock.step, reading] at isSnapshot

end Invariant

end SequenceLock
