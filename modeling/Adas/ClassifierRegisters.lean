import Adas.ClassifierDriver
import Adas.MemoryRegion
import Mathlib.Algebra.Order.Ring.Abs
import Mathlib.Data.Fintype.Basic
import Mathlib.Tactic.FinCases

/-!
# The registers that the driver writes

The driver hands the parameters to the accelerator in one block of registers
and the addresses of the DMA buffer in another.  The file models both blocks
word by word and follows them along the runs of the driver: when the
accelerator is started, the registers spell out the parameters that were
accepted last and the five regions of the buffer.
-/

namespace Adas.ClassifierDriver

open BoundedLoop MemoryRegion

section Layout

/-- `ADAS_CLASSIFIER_DMA_SPAN`. -/
abbrev kDmaSpan : Nat := 0x13000

/-- The parts of the DMA buffer. -/
inductive Buffer where
  | ifmap
  | wConv0
  | wConv1
  | wConv2
  | output
  deriving DecidableEq, Repr

/-- The offset and the size of a part, in bytes. -/
def Buffer.region : Buffer → MemoryRegion
  | .ifmap => ⟨0x00000, 98 * 98 * 3⟩
  | .wConv0 => ⟨0x08000, 16 * 3 * 3 * 3⟩
  | .wConv1 => ⟨0x09000, 32 * 16 * 3 * 3⟩
  | .wConv2 => ⟨0x0b000, 64 * 32 * 3 * 3⟩
  | .output => ⟨0x10000, 12 * 12 * 64⟩

/-- `REG_IFMAP_LO` to `REG_OUTPUT_HI`, the offsets in the block of the
arguments. -/
def Buffer.regLo : Buffer → Nat
  | .ifmap => 0x10
  | .wConv0 => 0x1c
  | .wConv1 => 0x28
  | .wConv2 => 0x34
  | .output => 0x40

def Buffer.regHi : Buffer → Nat
  | .ifmap => 0x14
  | .wConv0 => 0x20
  | .wConv1 => 0x2c
  | .wConv2 => 0x38
  | .output => 0x44

def regApCtrl : Nat := 0x000
def regB0 : Nat := 0x040
def regB1 : Nat := 0x080
def regB2 : Nat := 0x100

/-- `REG_RQ0_MUL`, `REG_RQ1_MUL` and `REG_RQ2_MUL`. -/
def regRqMul : Fin 3 → Nat
  | 0 => 0x010
  | 1 => 0x01c
  | 2 => 0x028

/-- `REG_RQ0_SHIFT`, `REG_RQ1_SHIFT` and `REG_RQ2_SHIFT`. -/
def regRqShift : Fin 3 → Nat
  | 0 => 0x014
  | 1 => 0x020
  | 2 => 0x02c

/-- The parts lie side by side in the buffer. -/
theorem regions_disjoint : ∀ buffer other : Buffer, buffer ≠ other →
    buffer.region.Disjoint other.region := by
  rintro (_ | _) (_ | _) differ <;> first | exact absurd rfl differ | decide

theorem regions_in_span (buffer : Buffer) :
    buffer.region.base + buffer.region.size ≤ kDmaSpan := by
  cases buffer <;> decide

end Layout

section Writes

local instance layerCount_neZero : NeZero 3 := ⟨three_ne_zero⟩

/-- The two blocks of registers, by their offsets in bytes. -/
structure Registers where
  args : Nat → BitVec 32
  exec : Nat → BitVec 32

/-- `write_dma_address`. -/
def writeDmaAddress (lo hi : Nat) (address : BitVec 64) (args : Nat → BitVec 32) :
    Nat → BitVec 32 :=
  write1 (write1 args lo (address.setWidth 32)) hi
    ((address >>> 32).setWidth 32)

/-- The address of a part of the buffer. -/
def Buffer.address (dmaHandle : BitVec 64) (buffer : Buffer) : BitVec 64 :=
  dmaHandle + BitVec.ofNat 64 buffer.region.base

/-- `configure_dma_addresses`. -/
def configureDmaAddresses (dmaHandle : BitVec 64) (args : Nat → BitVec 32) :
    Nat → BitVec 32 :=
  [Buffer.ifmap, .wConv0, .wConv1, .wConv2, .output].foldl
    (fun args buffer => writeDmaAddress buffer.regLo buffer.regHi
      (buffer.address dmaHandle) args) args

/-- `write_bias`. -/
def writeBias {count : Nat} (offset : Nat) (bias : Fin count → BitVec 32) :
    (Nat → BitVec 32) → Nat → BitVec 32 :=
  writeWords 4 offset count fun i => if h : i < count then bias ⟨i, h⟩ else 0

/-- The writes of `set_parameters`. -/
def writeParameters (parameters : Parameters) (exec : Nat → BitVec 32) :
    Nat → BitVec 32 :=
  let exec := write1 exec (regRqMul 0) (parameters.requant 0).multiplier
  let exec := write1 exec (regRqShift 0) (parameters.requant 0).shift
  let exec := write1 exec (regRqMul 1) (parameters.requant 1).multiplier
  let exec := write1 exec (regRqShift 1) (parameters.requant 1).shift
  let exec := write1 exec (regRqMul 2) (parameters.requant 2).multiplier
  let exec := write1 exec (regRqShift 2) (parameters.requant 2).shift
  let exec := writeBias regB0 parameters.biasConv0 exec
  let exec := writeBias regB1 parameters.biasConv1 exec
  writeBias regB2 parameters.biasConv2 exec

/-- The parameters as the accelerator finds them. -/
def readParameters (exec : Nat → BitVec 32) : Parameters where
  requant layer := ⟨exec (regRqMul layer), exec (regRqShift layer)⟩
  biasConv0 i := exec (regB0 + i * 4)
  biasConv1 i := exec (regB1 + i * 4)
  biasConv2 i := exec (regB2 + i * 4)

/-- An address as the accelerator finds it. -/
def readDmaAddress (args : Nat → BitVec 32) (buffer : Buffer) : BitVec 64 :=
  args buffer.regHi ++ args buffer.regLo

end Writes

section Reads

theorem writeBias_apply {count offset : Nat} (bias : Fin count → BitVec 32)
    (memory : Nat → BitVec 32) (i : Fin count) :
    writeBias offset bias memory (offset + i * 4) = bias i := by
  rw [writeBias, writeWords_apply (by decide) i.isLt, dif_pos i.isLt]

theorem writeBias_of_outside {count offset : Nat} (bias : Fin count → BitVec 32)
    (memory : Nat → BitVec 32) {address : Nat}
    (outside : address < offset ∨ offset + count * 4 ≤ address) :
    writeBias offset bias memory address = memory address := by
  refine writeWords_of_notContains ?_ (by decide)
  rintro ⟨lower, upper⟩
  rcases outside with below | above
  · exact absurd lower (Nat.not_le.mpr below)
  · exact absurd upper (Nat.not_lt.mpr above)

/-- No write of `set_parameters` reaches another's register: the accelerator
finds all the parameters. -/
theorem readParameters_writeParameters (parameters : Parameters)
    (exec : Nat → BitVec 32) :
    readParameters (writeParameters parameters exec) = parameters := by
  obtain ⟨requant, biasConv0, biasConv1, biasConv2⟩ := parameters
  simp only [readParameters, Parameters.mk.injEq]
  refine ⟨?_, ?_, ?_, ?_⟩
  · funext layer
    fin_cases layer <;>
      simp [writeParameters, writeBias_of_outside, write1, regRqMul, regRqShift, regB0,
        regB1, regB2]
  · funext i
    have upper := i.isLt
    rw [writeParameters, writeBias_of_outside _ _ (by simp only [regB0, regB2]; omega),
      writeBias_of_outside _ _ (by simp only [regB0, regB1]; omega),
      writeBias_apply]
  · funext i
    have upper := i.isLt
    rw [writeParameters, writeBias_of_outside _ _ (by simp only [regB1, regB2]; omega),
      writeBias_apply]
  · funext i
    rw [writeParameters, writeBias_apply]

/-- The control register is none of the parameters'. -/
theorem readParameters_writeApCtrl (exec : Nat → BitVec 32) (value : BitVec 32) :
    readParameters (write1 exec regApCtrl value) = readParameters exec := by
  have other : ∀ offset, offset ≠ 0 → write1 exec regApCtrl value offset =
      exec offset := fun offset nonzero => if_neg nonzero
  simp only [readParameters, Parameters.mk.injEq, regB0, regB1, regB2]
  refine ⟨?_, ?_, ?_, ?_⟩
  · funext layer
    rw [other, other]
    · fin_cases layer <;> decide
    · fin_cases layer <;> decide
  · exact funext fun i => other _ (by omega)
  · exact funext fun i => other _ (by omega)
  · exact funext fun i => other _ (by omega)

/-- The two words of an address spell it out. -/
theorem words_of_address (address : BitVec 64) :
    (((address >>> 32).setWidth 32 : BitVec 32) ++
      (address.setWidth 32 : BitVec 32) : BitVec 64) = address := by
  ext i inside
  rw [BitVec.getElem_append]
  split_ifs with low
  · simp [BitVec.getLsbD_eq_getElem inside]
  · have position : 32 + (i - 32) = i := by omega
    simp [position, BitVec.getLsbD_eq_getElem inside]

theorem readDmaAddress_configureDmaAddresses (dmaHandle : BitVec 64)
    (args : Nat → BitVec 32) (buffer : Buffer) :
    readDmaAddress (configureDmaAddresses dmaHandle args) buffer =
      buffer.address dmaHandle := by
  have words : readDmaAddress (configureDmaAddresses dmaHandle args) buffer =
      ((buffer.address dmaHandle >>> 32).setWidth 32 : BitVec 32) ++
        ((buffer.address dmaHandle).setWidth 32 : BitVec 32) := by
    simp only [readDmaAddress, configureDmaAddresses, List.foldl_cons, List.foldl_nil]
    generalize Buffer.address dmaHandle = address
    cases buffer <;> simp [writeDmaAddress, write1, Buffer.regLo, Buffer.regHi]
  rw [words, words_of_address]

end Reads

section Runs

variable {Image Output : Type}

/-- The driver's device with the registers of the accelerator. -/
structure Wired (Image Output : Type) where
  device : Device Image Output
  registers : Registers

/-- The parameters that a `SET_PARAMETERS` takes over. -/
def accepted (board : Board Image Output) (wired : Wired Image Output)
    (action : Action Image Output) : Option Parameters :=
  match action, (step board wired.device action).2 with
  | .setParameters (some parameters), some (.ok ()) => some parameters
  | _, _ => none

/-- The writes to the registers that go with an action. -/
def writeRegisters (board : Board Image Output) (dmaHandle : BitVec 64)
    (wired : Wired Image Output) (action : Action Image Output) : Registers :=
  match accepted board wired action with
  | some parameters =>
      { wired.registers with
        exec := writeParameters parameters wired.registers.exec }
  | none =>
      match action, wired.device.call with
      | .start, .starting _ =>
          { args := configureDmaAddresses dmaHandle wired.registers.args
            exec := write1 wired.registers.exec regApCtrl 1 }
      | _, _ => wired.registers

/-- The driver on a board whose registers hold anything at first. -/
def wiredMachine (board : Board Image Output) (dmaHandle : BitVec 64)
    (registers : Registers) :
    EventMachine (Wired Image Output) (Action Image Output)
      (Option (Except Errno Unit)) where
  init := ⟨board.probe, registers⟩
  step wired action :=
    (⟨(step board wired.device action).1,
      writeRegisters board dmaHandle wired action⟩,
      (step board wired.device action).2)

variable {board : Board Image Output} {dmaHandle : BitVec 64}
variable {wired : Wired Image Output} {action : Action Image Output}

/-- The parameters that the driver has taken over before `index`, in order. -/
def acceptedBefore (board : Board Image Output) (dmaHandle : BitVec 64)
    (registers : Registers) (actions : List (Action Image Output)) (index : Nat) :
    List Parameters :=
  (wiredMachine board dmaHandle registers).collectFrom (accepted board)
    ⟨board.probe, registers⟩ (actions.take index)

/-- Parameters that are accepted are those of the device from then on. -/
theorem step_of_accepted {parameters : Parameters}
    (isAccepted : accepted board wired action = some parameters) :
    (step board wired.device action).1 =
      { wired.device with parameters := parameters, parametersSet := true } := by
  unfold accepted at isAccepted
  split at isAccepted
  · next argument answer =>
      rw [Option.some_inj] at isAccepted
      subst isAccepted
      cases call : wired.device.call with
      | free =>
          simp only [step, call, setParameters] at answer ⊢
          split_ifs at answer ⊢ with tooLarge
          · simp at answer
          · rfl
      | starting _ | polling _ | sleeping _ => simp [step, call] at answer
  · cases isAccepted

/-- What an action keeps that takes no parameters over. -/
structure KeepsParameters (device next : Device Image Output) : Prop where
  parameters : next.parameters = device.parameters
  parametersSet : next.parametersSet = device.parametersSet
  entered : next.call ≠ .free → device.call ≠ .free ∨ device.parametersSet = true

theorem KeepsParameters.refl (device : Device Image Output) :
    KeepsParameters device device :=
  ⟨rfl, rfl, Or.inl⟩

theorem step_of_not_accepted (notAccepted : accepted board wired action = none) :
    KeepsParameters wired.device (step board wired.device action).1 := by
  cases action with
  | writeIfmap _ => exact ⟨rfl, rfl, Or.inl⟩
  | tick _ => exact ⟨rfl, rfl, Or.inl⟩
  | setParameters argument =>
      cases call : wired.device.call with
      | free =>
          cases argument with
          | none => simpa only [step, call] using .refl _
          | some parameters =>
              simp only [accepted, step, call, setParameters] at notAccepted ⊢
              split_ifs at notAccepted ⊢
              exact .refl _
      | starting _ | polling _ | sleeping _ => simpa only [step, call] using .refl _
  | run timeoutMs =>
      cases call : wired.device.call with
      | free =>
          cases timeoutMs with
          | none => simpa only [step, call] using .refl _
          | some timeoutMs =>
              simp only [step, call, enterRun]
              split_ifs with refused
              · exact .refl _
              · rw [not_or] at refused
                exact ⟨rfl, rfl, fun _ => Or.inr (by simpa using refused.1)⟩
      | starting _ | polling _ | sleeping _ => simpa only [step, call] using .refl _
  | start =>
      cases call : wired.device.call with
      | starting _ => exact ⟨by simp [step, call], by simp [step, call], by simp [call]⟩
      | free | polling _ | sleeping _ => simpa only [step, call] using .refl _
  | poll =>
      cases call : wired.device.call with
      | polling _ =>
          simp only [step, call]
          split_ifs <;> exact ⟨rfl, rfl, by simp [call]⟩
      | free | starting _ | sleeping _ => simpa only [step, call] using .refl _
  | wake =>
      cases call : wired.device.call with
      | sleeping _ =>
          simp only [step, call]
          split_ifs <;> exact ⟨rfl, rfl, by simp [call]⟩
      | free | starting _ | polling _ => simpa only [step, call] using .refl _
  | progress _ =>
      cases running : wired.device.core.running <;> simp only [step, running]
      · exact .refl _
      · exact ⟨rfl, rfl, Or.inl⟩
  | complete =>
      cases running : wired.device.core.running <;> simp only [step, running]
      · exact .refl _
      · exact ⟨rfl, rfl, Or.inl⟩

/-- Writes that go with an action that takes no parameters over leave the
registers of the parameters alone. -/
theorem readParameters_of_not_accepted
    (notAccepted : accepted board wired action = none) :
    readParameters (writeRegisters board dmaHandle wired action).exec =
      readParameters wired.registers.exec := by
  simp only [writeRegisters, notAccepted]
  split
  · exact readParameters_writeApCtrl _ _
  · rfl

/-- The registers and the driver agree on the parameters accepted so far, and no
`RUN` has been entered without any. -/
structure Agree (past : List Parameters) (wired : Wired Image Output) : Prop where
  spelled : wired.device.parametersSet = true →
    past.getLast? = some (readParameters wired.registers.exec) ∧
      wired.device.parameters = readParameters wired.registers.exec
  entered : wired.device.call ≠ .free → wired.device.parametersSet = true

/-- One action keeps the agreement. -/
theorem Agree.step {past : List Parameters} (agree : Agree past wired) :
    Agree (past ++ (accepted board wired action).toList)
      ⟨(step board wired.device action).1,
        writeRegisters board dmaHandle wired action⟩ := by
  cases isAccepted : accepted board wired action with
  | some parameters =>
      have written : (writeRegisters board dmaHandle wired action).exec =
          writeParameters parameters wired.registers.exec := by
        simp only [writeRegisters, isAccepted]
      constructor
      · intro _
        simp [written, readParameters_writeParameters, step_of_accepted isAccepted]
      · intro _
        simp [step_of_accepted isAccepted]
  | none =>
      have keeps := step_of_not_accepted isAccepted
      constructor
      · intro set
        rw [keeps.parametersSet] at set
        simpa [readParameters_of_not_accepted isAccepted, keeps.parameters] using
          agree.spelled set
      · intro busy
        rw [keeps.parametersSet]
        exact (keeps.entered busy).elim agree.entered id

theorem agree_stateAt (board : Board Image Output) (dmaHandle : BitVec 64)
    (registers : Registers) (actions : List (Action Image Output)) {index : Nat}
    (inRun : index ≤ actions.length) :
    Agree (acceptedBefore board dmaHandle registers actions index)
      ((wiredMachine board dmaHandle registers).stateAt actions index) := by
  induction index with
  | zero => exact ⟨fun set => (nomatch set), fun busy => absurd rfl busy⟩
  | succ index ih =>
      have before := ih (by omega)
      rw [EventMachine.stateAt_succ inRun, acceptedBefore,
        List.take_succ_eq_append_getElem inRun, EventMachine.collectFrom_append,
        EventMachine.collectFrom_cons, EventMachine.collectFrom_nil, List.append_nil]
      exact before.step

/-- What the accelerator finds in its registers when it is started by the action
at `index`. -/
structure StartsWired (board : Board Image Output) (dmaHandle : BitVec 64)
    (registers : Registers) (actions : List (Action Image Output)) (index : Nat)
    (found : Registers) : Prop where
  parameters : (acceptedBefore board dmaHandle registers actions index).getLast? =
    some (readParameters found.exec)
  requested : ((wiredMachine board dmaHandle registers).stateAt actions
    index).device.request.parameters = readParameters found.exec
  addresses : ∀ buffer, (readDmaAddress found.args buffer).toNat =
    dmaHandle.toNat + buffer.region.base
  apart : ∀ buffer other : Buffer, buffer ≠ other →
    MemoryRegion.Disjoint
      ⟨(readDmaAddress found.args buffer).toNat, buffer.region.size⟩
      ⟨(readDmaAddress found.args other).toNat, other.region.size⟩
  inSpan : ∀ buffer, (readDmaAddress found.args buffer).toNat + buffer.region.size ≤
    dmaHandle.toNat + kDmaSpan

theorem toNat_address {dmaHandle : BitVec 64}
    (fits : dmaHandle.toNat + kDmaSpan ≤ 2 ^ 32) (buffer : Buffer) :
    (buffer.address dmaHandle).toNat = dmaHandle.toNat + buffer.region.base := by
  have inSpan := regions_in_span buffer
  rw [Buffer.address, BitVec.toNat_add, BitVec.toNat_ofNat,
    Nat.mod_eq_of_lt (show buffer.region.base < 2 ^ 64 by omega)]
  exact Nat.mod_eq_of_lt (by omega)

/-- However the ioctls, the time and the accelerator interleave, every start finds
the parameters that were accepted last, word for word, and the addresses of five
regions that lie apart in the DMA buffer. -/
theorem starts_wired (board : Board Image Output) (dmaHandle : BitVec 64)
    (fits : dmaHandle.toNat + kDmaSpan ≤ 2 ^ 32) (registers : Registers)
    (actions : List (Action Image Output)) {index : Nat} {timeoutMs : BitVec 32}
    (isStart : actions[index]? = some .start)
    (starting : ((wiredMachine board dmaHandle registers).stateAt actions
      index).device.call = .starting timeoutMs) :
    StartsWired board dmaHandle registers actions index
      ((wiredMachine board dmaHandle registers).stateAt actions
        (index + 1)).registers := by
  obtain ⟨inRun, isStart⟩ := List.getElem?_eq_some_iff.mp isStart
  have agree := agree_stateAt board dmaHandle registers actions inRun.le
  obtain ⟨wired, atIndex⟩ : ∃ wired, (wiredMachine board dmaHandle registers).stateAt
      actions index = wired := ⟨_, rfl⟩
  rw [EventMachine.stateAt_succ inRun, isStart, atIndex]
  rw [atIndex] at agree starting
  obtain ⟨last, same⟩ := agree.spelled (agree.entered (by simp [starting]))
  have found : (wiredMachine board dmaHandle registers).next wired .start =
      ⟨(step board wired.device .start).1,
        configureDmaAddresses dmaHandle wired.registers.args,
        write1 wired.registers.exec regApCtrl 1⟩ := by
    simp [wiredMachine, EventMachine.next, writeRegisters, accepted, starting]
  have address : ∀ buffer, (readDmaAddress
      (configureDmaAddresses dmaHandle wired.registers.args) buffer).toNat =
        dmaHandle.toNat + buffer.region.base := by
    intro buffer
    rw [readDmaAddress_configureDmaAddresses, toNat_address fits]
  rw [found]
  refine ⟨?_, ?_, address, fun buffer other differ => ?_, fun buffer => ?_⟩
  · rw [readParameters_writeApCtrl]
    exact last
  · rw [readParameters_writeApCtrl, atIndex]
    exact same
  · have disjoint := regions_disjoint buffer other differ
    simp only [MemoryRegion.Disjoint, address] at disjoint ⊢
    omega
  · have inSpan := regions_in_span buffer
    simp only [address]
    omega

/-- A board whose accelerator computes nothing, and parameters that number the
registers. -/
def blankBoard : Board Unit Unit where
  compute _ _ := ()
  msecsToJiffies timeoutMs := timeoutMs
  registers := ⟨fun _ => ⟨0, 0⟩, fun _ => 0, fun _ => 0, fun _ => 0⟩
  ifmap := ()
  output := ()
  jiffies := 0

def numbered : Parameters where
  requant layer := ⟨BitVec.ofNat 32 layer, 40⟩
  biasConv0 i := BitVec.ofNat 32 i
  biasConv1 i := -BitVec.ofNat 32 i
  biasConv2 i := BitVec.ofNat 32 (i * i)

/-- The start after one `SET_PARAMETERS`, on registers that are all ones. -/
theorem starts_wired_numbered :
    StartsWired blankBoard 0x1e000000 ⟨fun _ => -1, fun _ => -1⟩
      [.setParameters (some numbered), .run (some 1000), .start] 2
      ((wiredMachine blankBoard 0x1e000000 ⟨fun _ => -1, fun _ => -1⟩).stateAt
        [.setParameters (some numbered), .run (some 1000), .start] 3).registers :=
  starts_wired blankBoard 0x1e000000 (by decide) ⟨fun _ => -1, fun _ => -1⟩
    [.setParameters (some numbered), .run (some 1000), .start]
    rfl (show _ = Call.starting 1000 from rfl)

end Runs

end Adas.ClassifierDriver
