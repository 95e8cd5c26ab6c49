import Adas.EventMachine
import Adas.ResourceLedger
import Mathlib.Algebra.Order.Ring.Abs

/-!
# The camera

The capture opens a device and an event descriptor, agrees with the driver on a format,
maps the driver's buffers and reads frames out of them.  Each step of the set-up may
fail, and the driver may answer anything.  Every call tells which descriptors and
mappings it takes, uses and gives back, one entry for each system call.
-/

namespace Adas.V4L2Capture

section Device

/-- `kPixelFormatYUYV`. -/
def kPixelFormatYUYV : BitVec 32 := 0x56595559

def kCapDeviceCaps : BitVec 32 := 0x80000000
def kCapVideoCapture : BitVec 32 := 0x00000001
def kCapStreaming : BitVec 32 := 0x04000000
def kCapTimePerFrame : BitVec 32 := 0x1000

structure Request where
  width : BitVec 32 := 640
  height : BitVec 32 := 360
  pixelformat : BitVec 32 := kPixelFormatYUYV
  fps : BitVec 32 := 30
  bufferCount : BitVec 32 := 4
  deriving DecidableEq, Repr

structure Format where
  width : BitVec 32 := 0
  height : BitVec 32 := 0
  pixelformat : BitVec 32 := 0
  bytesperline : BitVec 32 := 0
  sizeimage : BitVec 32 := 0
  fpsNumerator : BitVec 32 := 0
  fpsDenominator : BitVec 32 := 0
  deriving DecidableEq, Repr

/-- `v4l2_capability`. -/
structure Capability where
  capabilities : BitVec 32
  deviceCaps : BitVec 32

/-- `v4l2_captureparm`. -/
structure Parm where
  capability : BitVec 32
  numerator : BitVec 32
  denominator : BitVec 32

/-- What the driver says of a buffer, where it is mapped and whether it is queued. -/
structure BufferAnswer where
  length : Option (BitVec 32)
  address : Option Nat
  queued : Bool

/-- The answers of the operating system during `init`; `none` is a failure. -/
structure Driver where
  openDevice : Option Nat
  eventfd : Option Nat
  queryCap : Option Capability
  setFormat : Request → Option Format
  getParm : Option Parm
  getParmAgain : Option Parm
  requestBuffers : BitVec 32 → Option (BitVec 32)
  buffer : Nat → BufferAnswer
  streamOn : Bool

/-- A descriptor, or a mapping of so many bytes. -/
inductive Resource where
  | descriptor (fd : Nat)
  | mapping (address length : Nat)
  deriving DecidableEq, Repr

abbrev Entry := LedgerEntry Resource

end Device

structure Capture where
  fd : Option Nat := none
  stopFd : Option Nat := none
  streaming : Bool := false
  format : Format := {}
  buffers : List (Nat × Nat) := []
  deriving DecidableEq, Repr

namespace Capture

def mappings (capture : Capture) : List Resource :=
  capture.buffers.map fun buffer => .mapping buffer.1 buffer.2

/-- The device, if it is open. -/
def device (capture : Capture) : List Resource :=
  capture.fd.toList.map .descriptor

def descriptors (capture : Capture) : List Resource :=
  capture.device ++ capture.stopFd.toList.map .descriptor

/-- What the capture has to give back. -/
def resources (capture : Capture) : List Resource :=
  capture.mappings ++ capture.descriptors

/-- A system call on the device. -/
def ask (capture : Capture) : List Entry :=
  capture.device.map .use

/-- `close`.  A stream that runs is stopped first. -/
def close (capture : Capture) : Capture × List Entry :=
  ({}, (if capture.streaming then capture.ask else []) ++ capture.resources.map .release)

def queryCapability (driver : Driver) : Bool :=
  match driver.queryCap with
  | none => false
  | some cap =>
      let caps :=
        if cap.capabilities &&& kCapDeviceCaps ≠ 0 then cap.deviceCaps
        else cap.capabilities
      caps &&& kCapVideoCapture ≠ 0 ∧ caps &&& kCapStreaming ≠ 0

def negotiateFormat (capture : Capture) (request : Request) (driver : Driver) :
    Capture × Bool :=
  match driver.setFormat request with
  | none => (capture, false)
  | some pix =>
      let format := { capture.format with
        width := pix.width
        height := pix.height
        pixelformat := pix.pixelformat
        bytesperline := pix.bytesperline
        sizeimage := pix.sizeimage }
      if format.width = 0 ∨ format.height = 0 then
        ({ capture with format := format }, false)
      else if format.pixelformat ≠ kPixelFormatYUYV then
        ({ capture with format := format }, false)
      else
        -- Some drivers do not fill in the stride.
        let minimumStride := format.width * 2
        let bytesperline :=
          if format.bytesperline < minimumStride then minimumStride
          else format.bytesperline
        ({ capture with format := { format with bytesperline := bytesperline } }, true)

def negotiateFrameRate (capture : Capture) (fps : BitVec 32) (driver : Driver) :
    Capture × Bool × List Entry :=
  if fps = 0 then
    (capture, true, [])
  else
    match driver.getParm with
    | none => (capture, false, capture.ask)
    | some parm =>
        -- A rate that is refused is only a warning; what is set is read again.
        let settled :=
          if parm.capability &&& kCapTimePerFrame ≠ 0 then
            (driver.getParmAgain, capture.ask ++ capture.ask ++ capture.ask)
          else
            (some parm, capture.ask)
        match settled.1 with
        | none => (capture, false, settled.2)
        | some parm =>
            ({ capture with format := { capture.format with
              fpsNumerator := parm.numerator
              fpsDenominator := parm.denominator } }, true, settled.2)

/-- The bytes that a frame takes. -/
def needed (capture : Capture) : Nat :=
  capture.format.bytesperline.toNat * capture.format.height.toNat

/-- The loop of `setupBuffers` from the buffer at `index` on. -/
def addBuffers (driver : Driver) (index : Nat) : Nat → Capture →
    Capture × Bool × List Entry
  | 0, capture => (capture, true, [])
  | count + 1, capture =>
      match (driver.buffer index).length with
      | none => (capture, false, capture.ask)
      | some length =>
          if length.toNat < capture.needed then
            (capture, false, capture.ask)
          else
            match (driver.buffer index).address with
            | none => (capture, false, capture.ask ++ capture.ask)
            | some address =>
                let mapped := { capture with
                  buffers := capture.buffers ++ [(address, length.toNat)] }
                -- The buffer is asked for, mapped and queued.
                let log := capture.ask ++ capture.ask ++
                  (.acquire (.mapping address length.toNat) :: mapped.ask)
                if (driver.buffer index).queued then
                  let rest := addBuffers driver (index + 1) count mapped
                  (rest.1, rest.2.1, log ++ rest.2.2)
                else
                  (mapped, false, log)

def setupBuffers (capture : Capture) (count : BitVec 32) (driver : Driver) :
    Capture × Bool × List Entry :=
  match driver.requestBuffers count with
  | none => (capture, false, capture.ask)
  | some granted =>
      if granted = 0 then
        (capture, false, capture.ask)
      else
        let added := addBuffers driver 0 granted.toNat capture
        (added.1, added.2.1, capture.ask ++ added.2.2)

def startStreaming (capture : Capture) (driver : Driver) : Capture × Bool :=
  if driver.streamOn then ({ capture with streaming := true }, true)
  else (capture, false)

/-- The steps of `init` on an open device, up to the first one that fails. -/
def setUp (capture : Capture) (request : Request) (driver : Driver) :
    Capture × Bool × List Entry :=
  if queryCapability driver then
    let formatted := capture.negotiateFormat request driver
    let log := capture.ask ++ capture.ask
    if formatted.2 then
      let rated := formatted.1.negotiateFrameRate request.fps driver
      let log := log ++ rated.2.2
      if rated.2.1 then
        let buffered := rated.1.setupBuffers request.bufferCount driver
        let log := log ++ buffered.2.2
        if buffered.2.1 then
          let started := buffered.1.startStreaming driver
          (started.1, started.2, log ++ buffered.1.ask)
        else
          (buffered.1, false, log)
      else
        (rated.1, false, log)
    else
      (formatted.1, false, log)
  else
    (capture, false, capture.ask)

/-- `init`. -/
def init (capture : Capture) (request : Request) (driver : Driver) :
    Capture × Bool × List Entry :=
  let closed := capture.close
  match driver.openDevice with
  | none => (closed.1, false, closed.2)
  | some fd =>
      let opened := { closed.1 with fd := some fd }
      let taken := closed.2 ++ [.acquire (.descriptor fd)]
      match driver.eventfd with
      | none => (opened.close.1, false, taken ++ opened.close.2)
      | some stopFd =>
          let ready := { opened with stopFd := some stopFd }
          let up := ready.setUp request driver
          let log := taken ++ [.acquire (.descriptor stopFd)] ++ up.2.2
          if up.2.1 then
            (up.1, true, log)
          else
            (up.1.close.1, false, log ++ up.1.close.2)

end Capture

section Frames

/-- `V4L2Capture::Result`. -/
inductive Result where
  | ok
  | timeout
  | stopped
  | error
  deriving DecidableEq, Repr

/-- What `poll` reports of the device, unless it fails. -/
inductive Poll where
  | failed
  | device (error readable : Bool)

inductive Dequeue where
  | notReady
  | failed
  | buffer (index : BitVec 32)

/-- The answers of the operating system during `captureFrame`. -/
structure FrameAnswers where
  poll : Poll
  dequeue : Dequeue
  requeued : Bool

/-- The part of a mapping that a conversion reads, row by row. -/
structure Reading where
  address : Nat
  length : Nat
  format : Format

def Reading.resource (reading : Reading) : Resource :=
  .mapping reading.address reading.length

/-- `waitForEvent`.  The event descriptor is readable from a request to stop on. -/
def waitForEvent (stopRequested : Bool) : Poll → Result
  | .failed => .error
  | .device error readable =>
      if stopRequested then .stopped
      else if error then .error
      else if readable then .ok
      else .timeout

/-- `captureFrame`, with what it reads and all that it uses. -/
def captureFrame (capture : Capture) (stopRequested : Bool) (answers : FrameAnswers) :
    Result × Option Reading × List Resource :=
  if capture.fd = none ∨ capture.streaming = false then
    (.error, none, [])
  else
    let polled := capture.descriptors
    match waitForEvent stopRequested answers.poll with
    | .ok =>
        let dequeued := polled ++ capture.device
        match answers.dequeue with
        | .notReady => (.timeout, none, dequeued)
        | .failed => (.error, none, dequeued)
        | .buffer index =>
            match capture.buffers[index.toNat]? with
            | none => (.error, none, dequeued)
            | some (address, length) =>
                let reading : Reading := ⟨address, length, capture.format⟩
                (if answers.requeued then .ok else .error, some reading,
                  dequeued ++ (reading.resource :: capture.device))
    | other => (other, none, polled)

end Frames

/-- The capture, and whether its event descriptor has been written to. -/
structure State where
  capture : Capture := {}
  stopRequested : Bool := false

inductive Call where
  | init (request : Request) (driver : Driver)
  | captureFrame (answers : FrameAnswers)
  | requestStop (written : Bool)
  | close

/-- What a call returns and what it does to the resources. -/
structure Shown where
  initialised : Option Bool := none
  frame : Option Result := none
  reading : Option Reading := none
  log : List Entry := []

def step (state : State) : Call → State × Shown
  | .init request driver =>
      let done := state.capture.init request driver
      ({ capture := done.1 }, { initialised := some done.2.1, log := done.2.2 })
  | .captureFrame answers =>
      let captured := captureFrame state.capture state.stopRequested answers
      (state, {
        frame := some captured.1
        reading := captured.2.1
        log := captured.2.2.map .use })
  | .requestStop written =>
      ({ state with
        stopRequested := state.stopRequested ||
          (state.capture.stopFd.isSome && written) },
        { log := (state.capture.stopFd.toList.map .descriptor).map .use })
  | .close =>
      let closed := state.capture.close
      ({ capture := closed.1 }, { log := closed.2 })

def machine : EventMachine State Call Shown where
  init := {}
  step := step

section Resources

open LedgerEntry

variable {capture : Capture} {driver : Driver}

/-- A row of pixels takes no more than the bytes of a row. -/
def Format.RowsFit (format : Format) : Prop :=
  format.width.toNat < 2 ^ 31 → 2 * format.width.toNat ≤ format.bytesperline.toNat

namespace Capture

/-- A frame fits into each of the mapped buffers. -/
def FramesFit (capture : Capture) : Prop :=
  ∀ buffer ∈ capture.buffers, capture.format.RowsFit ∧ capture.needed ≤ buffer.2

theorem mem_resources_of_descriptor {resource : Resource}
    (isOpen : resource ∈ capture.descriptors) : resource ∈ capture.resources :=
  List.mem_append_right _ isOpen

theorem mem_resources_of_device {resource : Resource}
    (isDevice : resource ∈ capture.device) : resource ∈ capture.resources :=
  mem_resources_of_descriptor (List.mem_append_left _ isDevice)

theorem leaves_ask (capture : Capture) :
    Leaves capture.resources capture.ask capture.resources :=
  leaves_uses fun _ => mem_resources_of_device

theorem leaves_close (capture : Capture) : Leaves capture.resources capture.close.2 [] := by
  refine Leaves.append ?_ (leaves_releases (List.Perm.refl _))
  split_ifs
  · exact capture.leaves_ask
  · exact leaves_nil (List.Perm.refl _)

/-- The mappings of some buffers. -/
def mapped (buffers : List (Nat × Nat)) : List Resource :=
  buffers.map fun buffer => .mapping buffer.1 buffer.2

/-- Buffers are added on the same device. -/
structure Extends (before after : Capture) (added : List (Nat × Nat)) : Prop where
  fd : after.fd = before.fd
  stopFd : after.stopFd = before.stopFd
  buffers : after.buffers = before.buffers ++ added

theorem Extends.none {before after : Capture} (fd : after.fd = before.fd)
    (stopFd : after.stopFd = before.stopFd) (buffers : after.buffers = before.buffers) :
    Extends before after [] :=
  ⟨fd, stopFd, by rw [buffers, List.append_nil]⟩

theorem Extends.trans {before between after : Capture} {added more : List (Nat × Nat)}
    (first : Extends before between added) (second : Extends between after more) :
    Extends before after (added ++ more) where
  fd := second.fd.trans first.fd
  stopFd := second.stopFd.trans first.stopFd
  buffers := by rw [second.buffers, first.buffers, List.append_assoc]

/-- Buffers more are mappings more. -/
theorem Extends.resources_perm {before after : Capture} {added : List (Nat × Nat)}
    (extended : Extends before after added) :
    (before.resources ++ mapped added).Perm after.resources := by
  simp only [resources, mappings, descriptors, device, extended.fd, extended.stopFd,
    extended.buffers, List.map_append, List.append_assoc]
  refine List.Perm.append_left _ ?_
  rw [← List.append_assoc]
  exact List.perm_append_comm

/-- Without new buffers there is as much to give back as before. -/
theorem Extends.same_resources {before after : Capture} (extended : Extends before after []) :
    before.resources.Perm after.resources := by
  have same := extended.resources_perm
  rwa [mapped, List.map_nil, List.append_nil] at same

/-- The format is all that the negotiation changes. -/
theorem negotiateFormat_spec (capture : Capture) (request : Request) (driver : Driver) :
    Extends capture (capture.negotiateFormat request driver).1 [] ∧
      ((capture.negotiateFormat request driver).2 = true →
        (capture.negotiateFormat request driver).1.format.RowsFit) := by
  rw [negotiateFormat]
  cases driver.setFormat request with
  | none => exact ⟨.none rfl rfl rfl, by simp⟩
  | some pix =>
      dsimp only
      split_ifs with empty other short
      · exact ⟨.none rfl rfl rfl, by simp⟩
      · exact ⟨.none rfl rfl rfl, by simp⟩
      · refine ⟨.none rfl rfl rfl, fun _ narrow => ?_⟩
        have narrow : pix.width.toNat < 2 ^ 31 := narrow
        change 2 * pix.width.toNat ≤ (pix.width * 2).toNat
        rw [BitVec.toNat_mul, show (2 : BitVec 32).toNat = 2 from rfl]
        omega
      · refine ⟨.none rfl rfl rfl, fun _ narrow => ?_⟩
        have narrow : pix.width.toNat < 2 ^ 31 := narrow
        change 2 * pix.width.toNat ≤ pix.bytesperline.toNat
        have enough : (pix.width * 2).toNat ≤ pix.bytesperline.toNat :=
          BitVec.le_def.mp (BitVec.not_lt.mp short)
        rw [BitVec.toNat_mul, show (2 : BitVec 32).toNat = 2 from rfl] at enough
        omega

theorem negotiateFrameRate_spec (capture : Capture) (fps : BitVec 32) (driver : Driver) :
    Extends capture (capture.negotiateFrameRate fps driver).1 [] ∧
      (capture.format.RowsFit →
        (capture.negotiateFrameRate fps driver).1.format.RowsFit) ∧
      Leaves capture.resources (capture.negotiateFrameRate fps driver).2.2
        capture.resources := by
  have asked := capture.leaves_ask
  rw [negotiateFrameRate]
  split_ifs
  · exact ⟨.none rfl rfl rfl, id, leaves_nil (List.Perm.refl _)⟩
  cases driver.getParm with
  | none => exact ⟨.none rfl rfl rfl, id, asked⟩
  | some parm =>
      dsimp only
      have settles : Leaves capture.resources
          (if parm.capability &&& kCapTimePerFrame ≠ 0 then
            (driver.getParmAgain, capture.ask ++ capture.ask ++ capture.ask)
          else
            (some parm, capture.ask)).2 capture.resources := by
        split_ifs
        · exact (asked.append asked).append asked
        · exact asked
      generalize (if parm.capability &&& kCapTimePerFrame ≠ 0 then
          (driver.getParmAgain, capture.ask ++ capture.ask ++ capture.ask)
        else
          (some parm, capture.ask)) = settled at *
      cases settled.1 with
      | none => exact ⟨.none rfl rfl rfl, id, settles⟩
      | some parm => exact ⟨.none rfl rfl rfl, id, settles⟩

/-- What the loop adds is mapped, recorded and large enough, wherever it stops. -/
theorem addBuffers_spec (capture : Capture) (driver : Driver) (index count : Nat) :
    ∃ added, Extends capture (addBuffers driver index count capture).1 added ∧
      (addBuffers driver index count capture).1.format = capture.format ∧
      Leaves capture.resources (addBuffers driver index count capture).2.2
        (addBuffers driver index count capture).1.resources ∧
      ∀ buffer ∈ added, capture.needed ≤ buffer.2 := by
  induction count generalizing index capture with
  | zero => exact ⟨[], .none rfl rfl rfl, rfl, leaves_nil (List.Perm.refl _), by simp⟩
  | succ count ih =>
      have asked := capture.leaves_ask
      rw [addBuffers]
      cases (driver.buffer index).length with
      | none => exact ⟨[], .none rfl rfl rfl, rfl, asked, by simp⟩
      | some length =>
          dsimp only
          by_cases short : length.toNat < capture.needed
          · rw [if_pos short]
            exact ⟨[], .none rfl rfl rfl, rfl, asked, by simp⟩
          rw [if_neg short]
          have enough : capture.needed ≤ length.toNat := Nat.not_lt.mp short
          cases (driver.buffer index).address with
          | none => exact ⟨[], .none rfl rfl rfl, rfl, asked.append asked, by simp⟩
          | some address =>
              dsimp only
              have first : Extends capture
                  { capture with buffers := capture.buffers ++ [(address, length.toNat)] }
                  [(address, length.toNat)] :=
                ⟨rfl, rfl, rfl⟩
              have isMapped := (leaves_acquire (Resource.mapping address length.toNat)).congr
                first.resources_perm
              have isQueued := (asked.append asked).append (isMapped.append (leaves_ask _))
              split_ifs
              · obtain ⟨added, rest, sameFormat, leaves, restEnough⟩ := ih
                  { capture with buffers := capture.buffers ++ [(address, length.toNat)] }
                  (index + 1)
                exact ⟨(address, length.toNat) :: added, first.trans rest, sameFormat,
                  isQueued.append leaves, List.forall_mem_cons.mpr ⟨enough, restEnough⟩⟩
              · exact ⟨[(address, length.toNat)], first, rfl, isQueued,
                  by simpa using enough⟩

theorem setupBuffers_spec (capture : Capture) (count : BitVec 32) (driver : Driver) :
    ∃ added, Extends capture (capture.setupBuffers count driver).1 added ∧
      (capture.setupBuffers count driver).1.format = capture.format ∧
      Leaves capture.resources (capture.setupBuffers count driver).2.2
        (capture.setupBuffers count driver).1.resources ∧
      ∀ buffer ∈ added, capture.needed ≤ buffer.2 := by
  have asked := capture.leaves_ask
  rw [setupBuffers]
  cases driver.requestBuffers count with
  | none => exact ⟨[], .none rfl rfl rfl, rfl, asked, by simp⟩
  | some granted =>
      dsimp only
      split_ifs
      · exact ⟨[], .none rfl rfl rfl, rfl, asked, by simp⟩
      · obtain ⟨added, extended, sameFormat, leaves, enough⟩ :=
          addBuffers_spec capture driver 0 granted.toNat
        exact ⟨added, extended, sameFormat, asked.append leaves, enough⟩

theorem startStreaming_spec (capture : Capture) (driver : Driver) :
    Extends capture (capture.startStreaming driver).1 [] ∧
      (capture.startStreaming driver).1.format = capture.format := by
  rw [startStreaming]
  split_ifs
  · exact ⟨.none rfl rfl rfl, rfl⟩
  · exact ⟨.none rfl rfl rfl, rfl⟩

theorem framesFit_of_no_buffers (empty : capture.buffers = []) : capture.FramesFit := by
  intro buffer isBuffer
  rw [empty] at isBuffer
  exact absurd isBuffer List.not_mem_nil

theorem Extends.framesFit {before after : Capture} {added : List (Nat × Nat)}
    (extended : Extends before after added) (empty : before.buffers = [])
    (rowsFit : after.format.RowsFit) (enough : ∀ buffer ∈ added, after.needed ≤ buffer.2) :
    after.FramesFit := by
  intro buffer isBuffer
  rw [extended.buffers, empty, List.nil_append] at isBuffer
  exact ⟨rowsFit, enough buffer isBuffer⟩

/-- However far the set-up comes, it asks nothing but the open device, and what it took
is what the capture has to give back. -/
theorem setUp_spec (capture : Capture) (request : Request) (driver : Driver)
    (empty : capture.buffers = []) :
    ∃ added, Extends capture (capture.setUp request driver).1 added ∧
      Leaves capture.resources (capture.setUp request driver).2.2
        (capture.setUp request driver).1.resources ∧
      (capture.setUp request driver).1.FramesFit := by
  have unfilled : ∀ {after}, Extends capture after [] → after.FramesFit := fun unchanged =>
    framesFit_of_no_buffers (unchanged.buffers.trans (by rw [empty, List.append_nil]))
  have asked := capture.leaves_ask
  rw [setUp]
  by_cases able : queryCapability driver = true
  swap
  · rw [if_neg able]
    exact ⟨[], .none rfl rfl rfl, asked, unfilled (.none rfl rfl rfl)⟩
  rw [if_pos able]
  obtain ⟨isFormatted, formatFits⟩ := capture.negotiateFormat_spec request driver
  generalize capture.negotiateFormat request driver = formatted at *
  have formatAsked := (asked.append asked).congr isFormatted.same_resources
  by_cases accepted : formatted.2 = true
  swap
  · simp only [if_neg accepted]
    exact ⟨[], isFormatted, formatAsked, unfilled isFormatted⟩
  simp only [if_pos accepted]
  obtain ⟨ratedOnly, rateFits, rateLeaves⟩ :=
    formatted.1.negotiateFrameRate_spec request.fps driver
  generalize formatted.1.negotiateFrameRate request.fps driver = rated at *
  have isRated : Extends capture rated.1 [] := isFormatted.trans ratedOnly
  have rateAsked := formatAsked.append (rateLeaves.congr ratedOnly.same_resources)
  by_cases kept : rated.2.1 = true
  swap
  · simp only [if_neg kept]
    exact ⟨[], isRated, rateAsked, unfilled isRated⟩
  simp only [if_pos kept]
  obtain ⟨added, buffersOnly, sameFormat, buffersLeave, enough⟩ :=
    rated.1.setupBuffers_spec request.bufferCount driver
  generalize rated.1.setupBuffers request.bufferCount driver = buffered at *
  have isBuffered : Extends capture buffered.1 added := isRated.trans buffersOnly
  have buffersAsked := rateAsked.append buffersLeave
  have rowsFit : rated.1.format.RowsFit := rateFits (formatFits accepted)
  by_cases complete : buffered.2.1 = true
  · simp only [if_pos complete]
    obtain ⟨streamOnly, stillFormat⟩ := buffered.1.startStreaming_spec driver
    have isStarted := isBuffered.trans streamOnly
    rw [List.append_nil] at isStarted
    refine ⟨added, isStarted, buffersAsked.append
      (buffered.1.leaves_ask.congr streamOnly.same_resources),
      isStarted.framesFit empty ?_ ?_⟩
    · rwa [stillFormat, sameFormat]
    · rwa [needed, stillFormat, sameFormat]
  · simp only [if_neg complete]
    refine ⟨added, isBuffered, buffersAsked, isBuffered.framesFit empty ?_ ?_⟩
    · rwa [sameFormat]
    · rwa [needed, sameFormat]

/-- `init` gives back what the capture had, and what it took itself if it fails. -/
theorem init_spec (capture : Capture) (request : Request) (driver : Driver) :
    Leaves capture.resources (capture.init request driver).2.2
        (capture.init request driver).1.resources ∧
      (capture.init request driver).1.FramesFit ∧
      ((capture.init request driver).2.1 = false →
        (capture.init request driver).1.resources = []) := by
  have closed := capture.leaves_close
  have noFrames : capture.close.1.FramesFit := framesFit_of_no_buffers rfl
  rw [init]
  cases driver.openDevice with
  | none => exact ⟨closed, noFrames, fun _ => rfl⟩
  | some fd =>
      dsimp only
      have opened := closed.append (leaves_acquire (Resource.descriptor fd))
      cases driver.eventfd with
      | none =>
          exact ⟨opened.append (leaves_close { capture.close.1 with fd := some fd }),
            framesFit_of_no_buffers rfl, fun _ => rfl⟩
      | some stopFd =>
          dsimp only
          have ready := opened.append (leaves_acquire (Resource.descriptor stopFd))
          obtain ⟨_, _, upLeaves, upFit⟩ := setUp_spec
            { capture.close.1 with fd := some fd, stopFd := some stopFd } request driver rfl
          have up := ready.append upLeaves
          split_ifs with works
          · exact ⟨up, upFit, by simp⟩
          · exact ⟨up.append (leaves_close _), framesFit_of_no_buffers rfl, fun _ => rfl⟩

end Capture

/-- Every byte of every row lies in the mapping that is read. -/
def Reading.Within (reading : Reading) : Prop :=
  ∀ row < reading.format.height.toNat, ∀ column < 2 * reading.format.width.toNat,
    row * reading.format.bytesperline.toNat + column < reading.length

/-- What is read is a mapped buffer, in the negotiated format, and all that is used is
held. -/
theorem captureFrame_spec (stopRequested : Bool) (answers : FrameAnswers) :
    (∀ reading ∈ (captureFrame capture stopRequested answers).2.1,
      (reading.address, reading.length) ∈ capture.buffers ∧
        reading.format = capture.format) ∧
    ∀ resource ∈ (captureFrame capture stopRequested answers).2.2,
      resource ∈ capture.resources := by
  have polled : ∀ resource ∈ capture.descriptors, resource ∈ capture.resources :=
    fun _ => Capture.mem_resources_of_descriptor
  have dequeued : ∀ resource ∈ capture.descriptors ++ capture.device,
      resource ∈ capture.resources :=
    List.forall_mem_append.mpr ⟨polled, fun _ => Capture.mem_resources_of_device⟩
  rw [captureFrame]
  by_cases closed : capture.fd = none ∨ capture.streaming = false
  · rw [if_pos closed]
    exact ⟨by simp, by simp⟩
  rw [if_neg closed]
  cases waitForEvent stopRequested answers.poll with
  | ok =>
      cases answers.dequeue with
      | notReady => exact ⟨by simp, dequeued⟩
      | failed => exact ⟨by simp, dequeued⟩
      | buffer index =>
          dsimp only
          cases found : capture.buffers[index.toNat]? with
          | none => exact ⟨by simp, dequeued⟩
          | some buffer =>
              have isBuffer := List.mem_of_getElem? found
              refine ⟨fun reading reads => ?_, List.forall_mem_append.mpr ⟨dequeued,
                List.forall_mem_cons.mpr ⟨?_, fun _ => Capture.mem_resources_of_device⟩⟩⟩
              · obtain rfl := Option.some.inj reads
                exact ⟨isBuffer, rfl⟩
              · exact List.mem_append_left _ (List.mem_map_of_mem isBuffer)
  | timeout => exact ⟨by simp, polled⟩
  | stopped => exact ⟨by simp, polled⟩
  | error => exact ⟨by simp, polled⟩

theorem captureFrame_within {stopRequested : Bool} {answers : FrameAnswers}
    {reading : Reading} (fit : capture.FramesFit)
    (reads : (captureFrame capture stopRequested answers).2.1 = some reading)
    (narrow : reading.format.width.toNat < 2 ^ 31) : reading.Within := by
  obtain ⟨isBuffer, isFormat⟩ := (captureFrame_spec stopRequested answers).1 reading reads
  obtain ⟨rowsFit, enough⟩ := fit _ isBuffer
  rw [Capture.needed, ← isFormat] at enough
  rw [← isFormat] at rowsFit
  intro row isRow column isColumn
  have rowFits := rowsFit narrow
  calc
    row * reading.format.bytesperline.toNat + column <
        (row + 1) * reading.format.bytesperline.toNat := by
      rw [Nat.succ_mul]
      omega
    _ ≤ reading.format.height.toNat * reading.format.bytesperline.toNat :=
      Nat.mul_le_mul_right _ isRow
    _ ≤ reading.length := by
      rw [Nat.mul_comm]
      exact enough

/-- No call touches what is not held, and what is held then is what the capture has to
give back. -/
theorem leaves_step {state : State} (fit : state.capture.FramesFit) (call : Call) :
    Leaves state.capture.resources (step state call).2.log
        (step state call).1.capture.resources ∧
      (step state call).1.capture.FramesFit := by
  cases call with
  | init request driver =>
      obtain ⟨leaves, ready, _⟩ := Capture.init_spec state.capture request driver
      exact ⟨leaves, ready⟩
  | captureFrame answers =>
      exact ⟨leaves_uses (captureFrame_spec state.stopRequested answers).2, fit⟩
  | requestStop written =>
      exact ⟨leaves_uses fun _ isStop =>
        Capture.mem_resources_of_descriptor (List.mem_append_right _ isStop), fit⟩
  | close => exact ⟨state.capture.leaves_close, Capture.framesFit_of_no_buffers rfl⟩

theorem step_within {state : State} (fit : state.capture.FramesFit) (call : Call)
    {reading : Reading} (reads : (step state call).2.reading = some reading)
    (narrow : reading.format.width.toNat < 2 ^ 31) : reading.Within := by
  cases call with
  | captureFrame answers => exact captureFrame_within fit reads narrow
  | init request driver => exact absurd reads (by simp [step])
  | requestStop written => exact absurd reads (by simp [step])
  | close => exact absurd reads (by simp [step])

/-- What the calls of a run do to the resources. -/
def logOf (shown : List Shown) : List Entry :=
  shown.flatMap Shown.log

/-- After every run. -/
structure Follows (state : State) (shown : List Shown) : Prop where
  leaves : Leaves [] (logOf shown) state.capture.resources
  fit : state.capture.FramesFit
  within : ∀ answer ∈ shown, ∀ reading ∈ answer.reading,
    reading.format.width.toNat < 2 ^ 31 → reading.Within

theorem follows_run (calls : List Call) :
    Follows (machine.runFrom machine.init calls)
      (machine.outputsFrom machine.init calls) := by
  refine machine.run_induction (fun _ => Follows) ?_ ?_ calls
  · exact ⟨leaves_nil (List.Perm.refl _), Capture.framesFit_of_no_buffers rfl,
      fun answer isAnswer => absurd isAnswer List.not_mem_nil⟩
  · intro past state shown call follows
    obtain ⟨leaves, fit⟩ := leaves_step follows.fit call
    refine ⟨?_, fit, fun answer isAnswer reading reads narrow => ?_⟩
    · rw [logOf, List.flatMap_append, List.flatMap_singleton]
      exact follows.leaves.append leaves
    · rcases List.mem_append.mp isAnswer with isOld | isNew
      · exact follows.within answer isOld reading reads narrow
      · obtain rfl := List.mem_singleton.mp isNew
        exact step_within follows.fit call reads narrow

/-- Where a call leaves nothing to give back, the ledger is empty. -/
theorem replay_eq_nil {calls : List Call} {call : Call}
    (empty : (machine.next (machine.runFrom machine.init calls) call).capture.resources = []) :
    replay [] (logOf (machine.outputsFrom machine.init (calls ++ [call]))) = some [] := by
  have leaves := (follows_run (calls ++ [call])).leaves
  rw [EventMachine.runFrom_append] at leaves
  exact (leaves.congr (List.Perm.of_eq empty)).replay_eq

/-- Whatever the driver answers and in whatever order the calls come, the capture uses
and gives back only what it holds, a frame of less than `2 ^ 31` columns lies within the
mapping that it is read from, and nothing is left after `close` and after an `init` that
fails. -/
theorem capture_holds_what_it_touches (calls : List Call) :
    (∃ held, replay [] (logOf (machine.outputsFrom machine.init calls)) = some held ∧
      held.Perm (machine.runFrom machine.init calls).capture.resources) ∧
    (∀ shown ∈ machine.outputsFrom machine.init calls, ∀ reading ∈ shown.reading,
      reading.format.width.toNat < 2 ^ 31 → reading.Within) ∧
    replay [] (logOf (machine.outputsFrom machine.init (calls ++ [.close]))) = some [] ∧
    ∀ request driver,
      ((machine.runFrom machine.init calls).capture.init request driver).2.1 = false →
      replay [] (logOf (machine.outputsFrom machine.init
        (calls ++ [.init request driver]))) = some [] := by
  have follows := follows_run calls
  refine ⟨follows.leaves, follows.within, replay_eq_nil rfl, ?_⟩
  intro request driver fails
  obtain ⟨_, _, empty⟩ := Capture.init_spec
    (machine.runFrom machine.init calls).capture request driver
  exact replay_eq_nil (empty fails)

/-- A driver that grants the request and does not fill in the stride. -/
def plainDriver : Driver where
  openDevice := some 3
  eventfd := some 4
  queryCap := some ⟨kCapVideoCapture ||| kCapStreaming, 0⟩
  setFormat := fun request =>
    some { width := request.width, height := request.height
           pixelformat := request.pixelformat }
  getParm := some ⟨0, 1, 30⟩
  getParmAgain := none
  requestBuffers := fun _ => some 2
  buffer := fun index => ⟨some 460800, some (4096 + 460800 * index), true⟩
  streamOn := true

theorem capture_holds_what_it_touches_plainDriver :
    ∃ reading : Reading, reading.address = 464896 ∧ reading.Within ∧
      replay [] (logOf (machine.outputsFrom machine.init
        ([.init {} plainDriver, .captureFrame ⟨.device false true, .buffer 1, true⟩] ++
          [.close]))) = some [] := by
  have touches := capture_holds_what_it_touches
    [.init {} plainDriver, .captureFrame ⟨.device false true, .buffer 1, true⟩]
  refine ⟨⟨464896, 460800, ⟨640, 360, kPixelFormatYUYV, 1280, 0, 1, 30⟩⟩, rfl, ?_,
    touches.2.2.1⟩
  exact touches.2.1 _ (List.mem_cons_of_mem _ List.mem_cons_self) _ rfl (by decide)

end Resources

end Adas.V4L2Capture
