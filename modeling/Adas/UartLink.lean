import Adas.UartCrc
import Adas.UartPort

/-!
# Frames that arrive damaged

What the receiver makes of the bytes of the sender when some do not arrive, some
are flipped, or others come before them.  In each case the argument is which
byte of the stream can be taken for the start of a frame: the state and the CRC
of a frame are never the magic byte, and two magic bytes in a row start no frame
of a state.
-/

namespace Adas.Turtlebot.UartSafetyReceiver

open Safety (State)
open UartFrame (Byte crc8 stateByte frameOf kFrameSize)

section Windows

variable {magic state crc : Byte} {rest : List Byte}

theorem readFrame_frameOf (sent : State) :
    readFrame (frameOf sent) = some (sent.code : Int) := by
  cases sent <;> decide +kernel

/-- A frame starts with the magic byte and ends with the CRC of the others. -/
theorem of_readFrame {value : Int}
    (found : readFrame [magic, state, crc] = some value) :
    magic = UartFrame.kMagic ∧ crc8 (some [magic, state]) = crc ∧
      value = safeState state := by
  simp only [readFrame, crc8Atm_eq] at found
  split_ifs at found with isMagic isCrc
  refine ⟨?_, BitVec.eq_of_toNat_eq (not_not.mp isCrc),
    (Option.some.inj found).symm⟩
  exact BitVec.eq_of_toNat_eq (not_not.mp isMagic)

theorem readFrame_of_ne_magic (differs : magic ≠ UartFrame.kMagic) :
    readFrame [magic, state, crc] = none := by
  rw [Option.eq_none_iff_forall_ne_some]
  exact fun value found => differs (of_readFrame found).1

theorem readFrame_of_ne_crc (differs : crc8 (some [magic, state]) ≠ crc) :
    readFrame [magic, state, crc] = none := by
  rw [Option.eq_none_iff_forall_ne_some]
  exact fun value found => differs (of_readFrame found).2.1

theorem safeState_range (state : Byte) :
    safeState state = 0 ∨ safeState state = 1 ∨ safeState state = 2 := by
  unfold safeState
  split_ifs with known
  · simp only [List.mem_cons, List.not_mem_nil, or_false] at known
    omega
  · exact Or.inr (Or.inr rfl)

theorem readFrame_range {window : List Byte} {value : Int}
    (found : readFrame window = some value) :
    value = 0 ∨ value = 1 ∨ value = 2 := by
  unfold readFrame at found
  split at found
  · split_ifs at found
    rw [← Option.some.inj found]
    exact safeState_range _
  · simp at found

theorem values_frame (sent : State) (rest : List Byte) :
    frames.values (frameOf sent ++ rest) =
      (sent.code : Int) :: frames.values rest := by
  have found : frames.read ((frameOf sent ++ rest).take 3) =
      some (sent.code : Int) := readFrame_frameOf sent
  have long : frames.size ≤ (frameOf sent ++ rest).length := by
    rw [List.length_append]
    exact Nat.le_add_right _ _
  rw [WindowScanner.values, WindowScanner.scan_frame long found, List.map_cons,
    (WindowScanner.scan_offset _ _).1]
  rfl

/-- A byte at which no frame starts is dropped. -/
theorem values_drop
    (noFrame : ∀ state crc more, rest = state :: crc :: more →
      readFrame [magic, state, crc] = none) :
    frames.values (magic :: rest) = frames.values rest := by
  by_cases long : frames.size ≤ (magic :: rest).length
  · have nothing : frames.read ((magic :: rest).take 3) = none := by
      match rest, long with
      | state :: crc :: more, _ => exact noFrame state crc more rfl
    rw [WindowScanner.values, WindowScanner.scan_no_frame long nothing,
      (WindowScanner.scan_offset _ _).1]
    rfl
  · have short : rest.length < frames.size := by
      rw [List.length_cons] at long
      omega
    rw [WindowScanner.values, WindowScanner.values,
      WindowScanner.scan_short (by omega), WindowScanner.scan_short short]

theorem values_drop_of_ne (differs : magic ≠ UartFrame.kMagic) :
    frames.values (magic :: rest) = frames.values rest :=
  values_drop fun _ _ _ _ => readFrame_of_ne_magic differs

theorem stateByte_ne_magic (sent : State) : stateByte sent ≠ UartFrame.kMagic := by
  cases sent <;> decide

theorem crc_ne_magic (sent : State) :
    crc8 (some [UartFrame.kMagic, stateByte sent]) ≠ UartFrame.kMagic := by
  cases sent <;> decide

/-- Two magic bytes start a frame only with a third byte that is no state. -/
theorem crc_of_two_magics :
    crc8 (some [UartFrame.kMagic, UartFrame.kMagic]) = 0x2B := by
  decide

end Windows

section Truncated

/-- What reaches the link from one write of a frame: all of it, or a strict
prefix when the write fails part way. -/
inductive Written where
  | complete (state : State)
  | truncated (state : State) (count : Fin 3)
  deriving DecidableEq, Repr

def Written.bytes : Written → List Byte
  | .complete state => frameOf state
  | .truncated state count => (frameOf state).take count

/-- The state of a complete frame, as it is published. -/
def Written.state? : Written → Option Int
  | .complete state => some state.code
  | .truncated _ _ => none

/-- What a write of a frame leaves on the link. -/
def Written.ofWrite (state : State) : Control.WriteEnd → Written
  | .complete => .complete state
  | .failed sent => .truncated state sent

theorem Written.bytes_ofWrite (state : State) (ending : Control.WriteEnd) :
    (Written.ofWrite state ending).bytes = ending.taken (frameOf state) := by
  cases ending with
  | complete => rfl
  | failed sent => rfl

/-- The port writes complete frames or strict prefixes of them. -/
theorem exists_written_of_write {sent : State}
    {results : List Control.PosixUartPort.WriteResult} {bytes : List Byte}
    {complete : Bool}
    (written : Control.PosixUartPort.write (frameOf sent) results =
      some (bytes, complete)) :
    ∃ element : Written, element.bytes = bytes ∧
      (complete = true ↔ element.state?.isSome = true) := by
  obtain ⟨ending, rfl, rfl⟩ := Control.exists_writeEnd written
  refine ⟨.ofWrite sent ending, Written.bytes_ofWrite sent ending, ?_⟩
  cases ending with
  | complete => simp [Written.ofWrite, Written.state?, Control.WriteEnd.accepted]
  | failed count => simp [Written.ofWrite, Written.state?, Control.WriteEnd.accepted]

/-- What is written starts with a magic byte. -/
theorem head_of_written {elements : List Written} {first : Byte}
    {more : List Byte} (starts : elements.flatMap Written.bytes = first :: more) :
    first = UartFrame.kMagic := by
  induction elements with
  | nil => simp at starts
  | cons element elements ih =>
      rw [List.flatMap_cons] at starts
      match element with
      | .complete state => exact (List.cons.inj starts).1.symm
      | .truncated state 0 => exact ih starts
      | .truncated state 1 => exact (List.cons.inj starts).1.symm
      | .truncated state 2 => exact (List.cons.inj starts).1.symm

/-- The second byte that is written is a state, or magic again. -/
theorem second_of_written {elements : List Written} {first second : Byte}
    {more : List Byte}
    (starts : elements.flatMap Written.bytes = first :: second :: more) :
    second = UartFrame.kMagic ∨ ∃ state, second = stateByte state := by
  induction elements with
  | nil => simp at starts
  | cons element elements ih =>
      rw [List.flatMap_cons] at starts
      match element with
      | .complete state =>
          exact Or.inr ⟨state, (List.cons.inj (List.cons.inj starts).2).1.symm⟩
      | .truncated state 0 => exact ih starts
      | .truncated state 1 =>
          exact Or.inl (head_of_written (List.cons.inj starts).2)
      | .truncated state 2 =>
          exact Or.inr ⟨state, (List.cons.inj (List.cons.inj starts).2).1.symm⟩

theorem values_written (elements : List Written) :
    frames.values (elements.flatMap Written.bytes) =
      elements.filterMap Written.state? := by
  induction elements with
  | nil => rfl
  | cons element elements ih =>
      rw [List.flatMap_cons]
      match element with
      | .complete state => exact (values_frame state _).trans (by rw [ih]; rfl)
      | .truncated state 0 => exact ih
      | .truncated state 1 =>
          refine (values_drop fun next crc more rest => ?_).trans ih
          -- A lone magic byte stands before another one.
          rw [head_of_written rest]
          apply readFrame_of_ne_crc
          rw [crc_of_two_magics]
          rcases second_of_written rest with rfl | ⟨sent, rfl⟩
          · decide
          · cases sent <;> decide
      | .truncated state 2 =>
          refine Eq.trans (values_drop fun next crc more rest => ?_)
            ((values_drop_of_ne (stateByte_ne_magic state)).trans ih)
          have isState : stateByte state = next := (List.cons.inj rest).1
          have starts : elements.flatMap Written.bytes = crc :: more :=
            (List.cons.inj rest).2
          rw [← isState, head_of_written starts]
          exact readFrame_of_ne_crc (crc_ne_magic state)

end Truncated

/-- Frames that are written in part are skipped, and every complete frame is
published, however the bytes arrive. -/
theorem published_written (elements : List Written) (polls : List (List Byte))
    (arrive : polls.flatten = elements.flatMap Written.bytes) :
    published polls = elements.filterMap Written.state? ∧
      ∀ others : List (List Byte), others.flatten = polls.flatten →
        published others = published polls := by
  constructor
  · rw [published_eq, arrive, values_written]
  · intro others same
    rw [published_eq, published_eq, same]

/-- Two writes that fail part way, then a `stop` that arrives in two polls. -/
theorem published_written_stop :
    published [[0xA5], [0xA5, 0x01, 0xA5, 0x02], [], [0x57]] = [2] :=
  (published_written [.truncated .clear 1, .truncated .slow 2, .complete .stop]
    _ (by decide)).1

section Corrupted

/-- A frame with at most two bits flipped. -/
structure Corrupted where
  state : State
  magicFlips : Byte := 0#8
  stateFlips : Byte := 0#8
  crcFlips : Byte := 0#8
  few : magicFlips.cpop.toNat + stateFlips.cpop.toNat + crcFlips.cpop.toNat ≤ 2

def Corrupted.bytes (frame : Corrupted) : List Byte :=
  [UartFrame.kMagic ^^^ frame.magicFlips, stateByte frame.state ^^^ frame.stateFlips,
    crc8 (some [UartFrame.kMagic, stateByte frame.state]) ^^^ frame.crcFlips]

/-- No bit is flipped. -/
def Corrupted.intact (frame : Corrupted) : Bool :=
  frame.magicFlips = 0#8 ∧ frame.stateFlips = 0#8 ∧ frame.crcFlips = 0#8

/-- Two flips do not lead from a byte to one that differs in more bits. -/
theorem flipped_ne {byte target : Byte} (far : 2 < (byte ^^^ target).cpop.toNat)
    (flips : Byte) (few : flips.cpop.toNat ≤ 2) : byte ^^^ flips ≠ target := by
  rintro rfl
  rw [← BitVec.xor_assoc, BitVec.xor_self, BitVec.zero_xor] at far
  exact absurd few (not_le.mpr far)

/-- Two flips are too few to turn a state or a CRC into the magic byte. -/
theorem flipped_state_ne_magic (sent : State) : ∀ flips : Byte,
    flips.cpop.toNat ≤ 2 → stateByte sent ^^^ flips ≠ UartFrame.kMagic := by
  apply flipped_ne
  cases sent <;> decide

theorem flipped_crc_ne_magic (sent : State) : ∀ flips : Byte,
    flips.cpop.toNat ≤ 2 →
      crc8 (some [UartFrame.kMagic, stateByte sent]) ^^^ flips ≠
        UartFrame.kMagic := by
  apply flipped_ne
  cases sent <;> decide +kernel

/-- One or two flips of the state flip more bits of the CRC than are left to
flip. -/
theorem crc_distance : ∀ flips : Byte,
    flips.cpop.toNat + (crc8 (some [0, flips])).cpop.toNat ≤ 2 → flips = 0#8 := by
  decide +kernel

variable (frame : Corrupted)

theorem intact_of_readFrame {value : Int}
    (found : readFrame frame.bytes = some value) : frame.intact = true := by
  obtain ⟨sent, magicFlips, stateFlips, crcFlips, few⟩ := frame
  obtain ⟨isMagic, isCrc, -⟩ := of_readFrame found
  have noMagicFlips : magicFlips = 0#8 := by
    calc magicFlips = UartFrame.kMagic ^^^ (UartFrame.kMagic ^^^ magicFlips) := by
          rw [← BitVec.xor_assoc, BitVec.xor_self, BitVec.zero_xor]
      _ = 0#8 := by rw [isMagic, BitVec.xor_self]
  subst noMagicFlips
  have flipped : crcFlips = crc8 (some [UartFrame.kMagic, stateByte sent]) ^^^
      crc8 (some [UartFrame.kMagic, stateByte sent ^^^ stateFlips]) := by
    rw [isMagic] at isCrc
    rw [isCrc, ← BitVec.xor_assoc, BitVec.xor_self, BitVec.zero_xor]
  have noStateFlips : stateFlips = 0#8 := by
    apply crc_distance
    rw [← UartFrame.crc8_xor_flipped UartFrame.kMagic (stateByte sent), ← flipped]
    omega
  subst noStateFlips
  rw [BitVec.xor_zero, BitVec.xor_self] at flipped
  simp [Corrupted.intact, flipped]

theorem bytes_of_intact (intact : frame.intact = true) :
    frame.bytes = frameOf frame.state := by
  obtain ⟨noMagicFlips, noStateFlips, noCrcFlips⟩ :=
    of_decide_eq_true intact
  rw [Corrupted.bytes, noMagicFlips, noStateFlips, noCrcFlips, BitVec.xor_zero,
    BitVec.xor_zero, BitVec.xor_zero]
  rfl

/-- A damaged frame costs itself only: no window that starts in it is a frame. -/
theorem values_corrupted (rest : List Byte) :
    frames.values (frame.bytes ++ rest) =
      if frame.intact then (frame.state.code : Int) :: frames.values rest
      else frames.values rest := by
  cases intact : frame.intact with
  | true =>
      rw [bytes_of_intact frame intact]
      exact values_frame frame.state rest
  | false =>
      have few := frame.few
      have stateDiffers :=
        flipped_state_ne_magic frame.state frame.stateFlips (by omega)
      have crcDiffers :=
        flipped_crc_ne_magic frame.state frame.crcFlips (by omega)
      refine Eq.trans (values_drop fun second third more bytes => ?_)
        ((values_drop_of_ne stateDiffers).trans (values_drop_of_ne crcDiffers))
      have isState := (List.cons.inj bytes).1
      have isCrc := (List.cons.inj (List.cons.inj bytes).2).1
      rw [← isState, ← isCrc, Option.eq_none_iff_forall_ne_some]
      intro value found
      have readable := intact_of_readFrame frame found
      rw [intact] at readable
      exact Bool.false_ne_true readable

end Corrupted

/-- With at most two bits flipped in each frame, exactly the frames without a
flip are published, however the bytes arrive. -/
theorem published_corrupted (transmitted : List Corrupted)
    (polls : List (List Byte))
    (arrive : polls.flatten = transmitted.flatMap Corrupted.bytes) :
    published polls =
      (transmitted.filter Corrupted.intact).map fun frame =>
        (frame.state.code : Int) := by
  rw [published_eq, arrive]
  induction transmitted generalizing polls with
  | nil => rfl
  | cons frame transmitted ih =>
      have later := ih [transmitted.flatMap Corrupted.bytes] (List.append_nil _)
      rw [List.flatMap_cons, values_corrupted, List.filter_cons, later]
      split_ifs <;> rfl

/-- The first frame loses two bits of its state, the second arrives whole. -/
theorem published_corrupted_second :
    published [[0xA5, 0x03, 0x59], [0xA5, 0x02, 0x57]] = [2] :=
  published_corrupted
    [{ state := .clear, stateFlips := 0x03, few := by decide },
      { state := .stop, few := by decide }] _ (by decide +kernel)

section Garbage

variable (states : List State)

theorem values_frames :
    frames.values (states.flatMap frameOf) =
      states.map fun state => (state.code : Int) := by
  induction states with
  | nil => rfl
  | cons state states ih => rw [List.flatMap_cons, values_frame, ih, List.map_cons]

/-- What a scan gives from `offset` on, when `garbage` stands there and then
frames: windows that start in the garbage, and all frames, or all but the first
with a window that ends on its magic byte. -/
structure ResumesAfter (garbage : List Byte) (offset : Nat)
    (windows inGarbage : List (Nat × Int)) : Prop where
  within : ∀ window ∈ inGarbage, window.1 < offset + garbage.length
  resumes : ∃ after : List (Nat × Int), windows = inGarbage ++ after ∧
    (after.map Prod.snd = (states.map fun state => (state.code : Int)) ∨
      states ≠ [] ∧
        after.map Prod.snd = (states.tail.map fun state => (state.code : Int)) ∧
        ∃ window ∈ inGarbage, window.1 + 3 = offset + garbage.length + 1)

variable {states}

/-- A byte of the garbage is dropped. -/
theorem ResumesAfter.drop {garbage : List Byte} {offset : Nat}
    {windows inGarbage : List (Nat × Int)} (byte : Byte)
    (follows : ResumesAfter states garbage (offset + 1) windows inGarbage) :
    ResumesAfter states (byte :: garbage) offset windows inGarbage := by
  obtain ⟨within, resumes⟩ := follows
  have size : offset + 1 + garbage.length = offset + (byte :: garbage).length := by
    rw [List.length_cons]
    omega
  rw [size] at within resumes
  exact ⟨within, resumes⟩

/-- Three bytes of the garbage are taken for a frame. -/
theorem ResumesAfter.take {garbage : List Byte} {offset : Nat}
    {windows inGarbage : List (Nat × Int)} (first second third : Byte) (value : Int)
    (follows : ResumesAfter states garbage (offset + 3) windows inGarbage) :
    ResumesAfter states (first :: second :: third :: garbage) offset
      ((offset, value) :: windows) ((offset, value) :: inGarbage) := by
  obtain ⟨within, after, rfl, resumes⟩ := follows
  have size : offset + 3 + garbage.length =
      offset + (first :: second :: third :: garbage).length := by
    simp only [List.length_cons]
    omega
  rw [size] at resumes within
  refine ⟨fun window member => ?_, after, rfl, ?_⟩
  · rcases List.mem_cons.mp member with rfl | later
    · exact Nat.lt_add_of_pos_right (Nat.succ_pos _)
    · exact within window later
  · rcases resumes with all | ⟨nonempty, tail, window, member, ends⟩
    · exact Or.inl all
    · exact Or.inr ⟨nonempty, tail, window, List.mem_cons_of_mem _ member, ends⟩

/-- Two bytes of garbage and the magic byte of the first frame are taken for a
frame, and the rest of the first frame is dropped. -/
theorem resumesAfter_overlap (first second : Byte) (state : State) (value : Int)
    (offset : Nat) :
    ResumesAfter (state :: states) [first, second] offset
      ((offset, value) :: (frames.scan (offset + 3)
        (stateByte state :: crc8 (some [UartFrame.kMagic, stateByte state]) ::
          states.flatMap frameOf)).1)
      [(offset, value)] := by
  refine ⟨by simp, _, rfl, Or.inr ⟨List.cons_ne_nil _ _, ?_, _,
    List.mem_singleton_self _, rfl⟩⟩
  rw [(WindowScanner.scan_offset _ _).1,
    values_drop_of_ne (stateByte_ne_magic state),
    values_drop_of_ne (crc_ne_magic state)]
  exact values_frames states

/-- Garbage too short for a frame, with nothing behind it. -/
theorem resumesAfter_short {garbage : List Byte} (offset : Nat)
    (short : garbage.length < frames.size) :
    ResumesAfter [] garbage offset
      (frames.scan offset (garbage ++ [].flatMap frameOf)).1 [] := by
  rw [List.flatMap_nil, List.append_nil, WindowScanner.scan_short short]
  exact ⟨by simp, [], rfl, Or.inl rfl⟩

/-- A last byte of garbage would need two magic bytes in a row and a third that
is no state. -/
theorem readFrame_last (byte : Byte) (state : State) :
    readFrame [byte, UartFrame.kMagic, stateByte state] = none := by
  rw [Option.eq_none_iff_forall_ne_some]
  intro value found
  obtain ⟨rfl, isCrc, -⟩ := of_readFrame found
  rw [crc_of_two_magics] at isCrc
  cases state <;> exact absurd isCrc (by decide)

theorem exists_resumesAfter : ∀ (states : List State) (garbage : List Byte)
    (offset : Nat), ∃ inGarbage, ResumesAfter states garbage offset
      (frames.scan offset (garbage ++ states.flatMap frameOf)).1 inGarbage
  | states, [], offset => by
      refine ⟨[], by simp, _, rfl, Or.inl ?_⟩
      rw [(WindowScanner.scan_offset _ _).1]
      exact values_frames states
  | [], [_], offset => ⟨[], resumesAfter_short offset (by simp [frames])⟩
  | [], [_, _], offset => ⟨[], resumesAfter_short offset (by simp [frames])⟩
  | state :: states, [first], offset => by
      obtain ⟨inGarbage, follows⟩ :=
        exists_resumesAfter (state :: states) [] (offset + 1)
      have noFrame := readFrame_last first state
      refine ⟨inGarbage, ?_⟩
      rw [WindowScanner.scan_no_frame (Nat.le_add_left _ _) noFrame]
      exact follows.drop first
  | state :: states, [first, second], offset => by
      have long : frames.size ≤
          ([first, second] ++ (state :: states).flatMap frameOf).length :=
        Nat.le_add_left _ _
      cases found : readFrame [first, second, UartFrame.kMagic] with
      | none =>
          obtain ⟨inGarbage, follows⟩ :=
            exists_resumesAfter (state :: states) [second] (offset + 1)
          refine ⟨inGarbage, ?_⟩
          rw [WindowScanner.scan_no_frame long found]
          exact follows.drop first
      | some value =>
          refine ⟨[(offset, value)], ?_⟩
          rw [WindowScanner.scan_frame long found]
          exact resumesAfter_overlap first second state value offset
  | states, first :: second :: third :: garbage, offset => by
      have long : frames.size ≤ (first :: second :: third :: garbage ++
          states.flatMap frameOf).length := Nat.le_add_left _ _
      cases found : readFrame [first, second, third] with
      | none =>
          obtain ⟨inGarbage, follows⟩ :=
            exists_resumesAfter states (second :: third :: garbage) (offset + 1)
          refine ⟨inGarbage, ?_⟩
          rw [WindowScanner.scan_no_frame long found]
          exact follows.drop first
      | some value =>
          obtain ⟨inGarbage, follows⟩ :=
            exists_resumesAfter states garbage (offset + 3)
          refine ⟨(offset, value) :: inGarbage, ?_⟩
          rw [WindowScanner.scan_frame long found]
          exact follows.take first second third value

theorem mem_published_range {polls : List (List Byte)} {value : Int}
    (member : value ∈ published polls) : value = 0 ∨ value = 1 ∨ value = 2 := by
  rw [published_eq, WindowScanner.values, List.mem_map] at member
  obtain ⟨⟨place, value⟩, found, rfl⟩ := member
  exact readFrame_range (WindowScanner.read_of_mem_scan found).2

end Garbage

/-- Garbage before some frames costs at most the first of them, and that only
when a window that starts in the garbage is accepted and ends on its magic byte.
Nothing else is added, and only states are published. -/
theorem published_after_garbage (garbage : List Byte) (states : List State)
    (polls : List (List Byte))
    (arrive : polls.flatten = garbage ++ states.flatMap frameOf) :
    ∃ inGarbage : List (Nat × Int),
      (∀ window ∈ inGarbage, window.1 < garbage.length ∧
        window ∈ (frames.scan 0 polls.flatten).1 ∧
        readFrame ((polls.flatten.drop window.1).take 3) = some window.2) ∧
      (published polls = inGarbage.map Prod.snd ++
          (states.map fun state => (state.code : Int)) ∨
        states ≠ [] ∧
          published polls = inGarbage.map Prod.snd ++
            (states.tail.map fun state => (state.code : Int)) ∧
          ∃ window ∈ inGarbage, window.1 + 3 = garbage.length + 1) ∧
      ∀ value ∈ published polls, value = 0 ∨ value = 1 ∨ value = 2 := by
  obtain ⟨inGarbage, within, after, windows, resumes⟩ :=
    exists_resumesAfter states garbage 0
  rw [Nat.zero_add] at within resumes
  refine ⟨inGarbage, fun window member => ⟨within window member, ?_⟩, ?_,
    fun value => mem_published_range⟩
  · have scanned : window ∈
        (frames.scan 0 (garbage ++ states.flatMap frameOf)).1 := by
      rw [windows]
      exact List.mem_append_left _ member
    rw [arrive]
    exact ⟨scanned, (WindowScanner.read_of_mem_scan scanned).2⟩
  · rw [published_eq, arrive, WindowScanner.values, windows, List.map_append]
    rcases resumes with all | ⟨nonempty, tail, lost⟩
    · exact Or.inl (by rw [all])
    · exact Or.inr ⟨nonempty, by rw [tail], lost⟩

/-- Two bytes of garbage that swallow the magic byte of the first frame. -/
theorem published_after_garbage_overlap :
    ∃ before, published
      [[0xA5], [0x24, 0xA5, 0x00, 0x59, 0xA5], [0x01, 0x5E]] = before ++ [1] := by
  obtain ⟨inGarbage, -, all | ⟨-, lost, -⟩, -⟩ :=
    published_after_garbage [0xA5, 0x24] [.clear, .slow]
      [[0xA5], [0x24, 0xA5, 0x00, 0x59, 0xA5], [0x01, 0x5E]] (by decide +kernel)
  · refine ⟨inGarbage.map Prod.snd ++ [0], ?_⟩
    rw [all, List.append_assoc]
    rfl
  · exact ⟨inGarbage.map Prod.snd, lost⟩

end Adas.Turtlebot.UartSafetyReceiver
