import Adas.EventMachine

/-!
# The kernel driver of the classifier

The driver starts the accelerator with `AP_START` and polls the control
register until it reads `AP_DONE` or a deadline passes.  The ioctls run under a
mutex, but user space writes the input buffer at any time and the accelerator
takes its own steps, so a run of the system is a list of actions in any order.
An action that is not possible where the driver is does nothing: an ioctl that
finds the mutex taken waits.

The accelerator follows the `ap_ctrl_hs` protocol: `AP_DONE` is set when a
computation completes and cleared when the register is read, and `AP_START` is
ignored while a computation runs.
-/

namespace Adas.ClassifierDriver

structure Requant where
  multiplier : BitVec 32
  shift : BitVec 32
  deriving DecidableEq

/-- `adas_classifier_parameters_uapi`. -/
structure Parameters where
  requant : Fin 3 → Requant
  biasConv0 : Fin 16 → BitVec 32
  biasConv1 : Fin 32 → BitVec 32
  biasConv2 : Fin 64 → BitVec 32

/-- A computation of the accelerator: what it works on, and the number of
`AP_START` writes before the one that began it. -/
structure Computation (Image : Type) where
  start : Nat
  parameters : Parameters
  ifmap : Image

/-- The accelerator behind the control register. -/
structure Core (Image : Type) where
  running : Option (Computation Image) := none
  apDone : Bool := false
  finished : Option (Computation Image) := none

inductive Errno where
  | efault
  | einval
  | etimedout
  deriving DecidableEq, Repr

/-- Where the `RUN` ioctl that holds the mutex is. -/
inductive Call where
  | free
  | starting (timeoutMs : BitVec 32)
  | polling (deadline : BitVec 32)
  | sleeping (deadline : BitVec 32)
  deriving DecidableEq, Repr

/-- The driver, its DMA buffer and the accelerator. -/
structure Device (Image Output : Type) where
  parametersSet : Bool
  parameters : Parameters
  ifmap : Image
  output : Output
  jiffies : BitVec 32
  core : Core Image
  call : Call
  starts : Nat

/-- What the driver runs on: the function the accelerator computes, the kernel's
conversion of a timeout, and what the registers and buffers hold at first. -/
structure Board (Image Output : Type) where
  compute : Parameters → Image → Output
  msecsToJiffies : BitVec 32 → BitVec 32
  registers : Parameters
  ifmap : Image
  output : Output
  jiffies : BitVec 32

/-- Something that happens.  An ioctl argument is `none` when it cannot be
copied from user space. -/
inductive Action (Image Output : Type) where
  | writeIfmap (image : Image)
  | setParameters (argument : Option Parameters)
  | run (timeoutMs : Option (BitVec 32))
  | start
  | poll
  | wake
  | tick (count : BitVec 32)
  | progress (output : Output)
  | complete

variable {Image Output : Type}

/-- A write of `AP_START`. -/
def Core.startWith (core : Core Image) (computation : Computation Image) :
    Core Image :=
  match core.running with
  | some _ => core
  | none => { core with running := some computation }

/-- A read of the control register, with the `AP_DONE` bit. -/
def Core.readDone (core : Core Image) : Core Image × Bool :=
  ({ core with apDone := false }, core.apDone)

/-- `time_before`: the difference is negative as a signed number. -/
def timeBefore (a b : BitVec 32) : Bool :=
  (a - b).msb

/-- `adas_classifier_probe`. -/
def Board.probe (board : Board Image Output) : Device Image Output where
  parametersSet := false
  parameters := board.registers
  ifmap := board.ifmap
  output := board.output
  jiffies := board.jiffies
  core := {}
  call := .free
  starts := 0

def setParameters (device : Device Image Output)
    (argument : Option Parameters) :
    Device Image Output × Except Errno Unit :=
  match argument with
  | none => (device, .error .efault)
  | some parameters =>
      if 63 < (parameters.requant 0).shift ∨ 63 < (parameters.requant 1).shift ∨
          63 < (parameters.requant 2).shift then
        (device, .error .einval)
      else
        ({ device with parameters := parameters, parametersSet := true }, .ok ())

/-- `run_classifier` up to the write of `AP_START`. -/
def enterRun (device : Device Image Output) (timeoutMs : Option (BitVec 32)) :
    Device Image Output × Option (Except Errno Unit) :=
  match timeoutMs with
  | none => (device, some (.error .efault))
  | some timeoutMs =>
      if device.parametersSet = false ∨ timeoutMs = 0 then
        (device, some (.error .einval))
      else
        ({ device with call := .starting timeoutMs }, none)

/-- What an `AP_START` write of the driver asks the accelerator to do. -/
def Device.request (device : Device Image Output) : Computation Image where
  start := device.starts
  parameters := device.parameters
  ifmap := device.ifmap

/-- One action, with the answer of the ioctl that it finishes, if any. -/
def step (board : Board Image Output) (device : Device Image Output) :
    Action Image Output → Device Image Output × Option (Except Errno Unit)
  | .writeIfmap image => ({ device with ifmap := image }, none)
  | .setParameters argument =>
      match device.call with
      | .free =>
          let set := setParameters device argument
          (set.1, some set.2)
      | _ => (device, none)
  | .run timeoutMs =>
      match device.call with
      | .free => enterRun device timeoutMs
      | _ => (device, none)
  | .start =>
      match device.call with
      | .starting timeoutMs =>
          ({ device with
              core := device.core.startWith device.request
              starts := device.starts + 1
              call := .polling (device.jiffies + board.msecsToJiffies timeoutMs) },
            none)
      | _ => (device, none)
  | .poll =>
      match device.call with
      | .polling deadline =>
          let read := device.core.readDone
          if read.2 then
            ({ device with core := read.1, call := .free }, some (.ok ()))
          else
            ({ device with core := read.1, call := .sleeping deadline }, none)
      | _ => (device, none)
  | .wake =>
      match device.call with
      | .sleeping deadline =>
          if timeBefore device.jiffies deadline then
            ({ device with call := .polling deadline }, none)
          else
            ({ device with call := .free }, some (.error .etimedout))
      | _ => (device, none)
  | .tick count => ({ device with jiffies := device.jiffies + count }, none)
  | .progress output =>
      match device.core.running with
      | some _ => ({ device with output := output }, none)
      | none => (device, none)
  | .complete =>
      match device.core.running with
      | some computation =>
          ({ device with
              output := board.compute computation.parameters computation.ifmap
              core := {
                running := none
                apDone := true
                finished := some computation } }, none)
      | none => (device, none)

def machine (board : Board Image Output) :
    EventMachine (Device Image Output) (Action Image Output)
      (Option (Except Errno Unit)) where
  init := board.probe
  step := step board

/-- The device before the action at `index`. -/
def deviceAt (board : Board Image Output)
    (actions : List (Action Image Output)) (index : Nat) :
    Device Image Output :=
  (machine board).stateAt actions index

/-- A `RUN` writes `AP_START` at `index`. -/
def RunStart (board : Board Image Output)
    (actions : List (Action Image Output)) (index : Nat) : Prop :=
  actions[index]? = some .start ∧
    ∃ timeoutMs, (deviceAt board actions index).call = .starting timeoutMs

/-- A `RUN` returns 0 at `index`. -/
def ReturnsZero (board : Board Image Output)
    (actions : List (Action Image Output)) (index : Nat) : Prop :=
  actions[index]? = some .poll ∧
    (step board (deviceAt board actions index) .poll).2 = some (.ok ())

/-- The `RUN` that is under way at `index` wrote its `AP_START` at `start`. -/
def IsStartOf (board : Board Image Output)
    (actions : List (Action Image Output)) (start index : Nat) : Prop :=
  RunStart board actions start ∧ start < index ∧
    ∀ between, start < between → between < index →
      ¬ RunStart board actions between

/-- What is read as done at `index` is the computation that the `RUN` asked for
at `start`, and the output buffer holds its result. -/
def ObservesOwn (board : Board Image Output)
    (actions : List (Action Image Output)) (start index : Nat) : Prop :=
  (deviceAt board actions index).core.finished =
      some (deviceAt board actions start).request ∧
    (deviceAt board actions index).output =
      board.compute (deviceAt board actions start).parameters
        (deviceAt board actions start).ifmap

/-- Every `RUN` that returns 0 has observed its own computation. -/
def RunsAreFresh (board : Board Image Output) : Prop :=
  ∀ (actions : List (Action Image Output)) index,
    ReturnsZero board actions index →
      ∃ start, IsStartOf board actions start index ∧
        ObservesOwn board actions start index

/-- Nothing is left of an earlier `RUN`: the accelerator is idle and its
`AP_DONE` bit is clear. -/
def Core.Quiet (core : Core Image) : Prop :=
  core.running = none ∧ core.apDone = false

end Adas.ClassifierDriver
