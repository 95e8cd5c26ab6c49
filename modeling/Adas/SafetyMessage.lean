import Adas.SafetyJudge
import Adas.SequenceLock
import Mathlib.Data.List.FinRange

/-!
# The message in shared memory

The detections of a frame lie in memory that two cores share, and no lock can be
held across them.  `publish` writes the message between two raises of its sequence
number; `read` copies it and tries again when the number was odd or has changed.
Each word is one cell here, and the two barriers leave the order of the words in
between open, for the writes as for the copies.
-/

namespace Adas.Safety

namespace SafetyMessage

/-- The words of a detection. -/
inductive Word where
  | x1
  | y1
  | x2
  | y2
  | score
  | classId
  deriving DecidableEq, Repr

/-- The words of the message but its sequence number. -/
inductive Cell where
  | magic
  | version
  | count
  | captureTimeLow
  | captureTimeHigh
  | detection (index : Fin kMaxDetections) (word : Word)
  deriving DecidableEq, Repr

abbrev Value : Cell → Type
  | .version | .count => BitVec 16
  | _ => BitVec 32

abbrev Cells : Type := ∀ cell, Value cell

/-- A detection as it lies in memory. -/
abbrev Record : Type := Word → BitVec 32

def kMessageMagic : BitVec 32 := 0x41445341

def kMessageVersion : BitVec 16 := 1

/-- The arguments of `publish`: an array of at least `count` records, or none. -/
structure Publication where
  items : Option (List Record)
  count : Nat
  captureTimeNs : BitVec 64
  enough : ∀ records ∈ items, count ≤ records.length

/-- Detections beyond what the message holds are cut off. -/
def Publication.kept (publication : Publication) : Nat :=
  if kMaxDetections < publication.count then kMaxDetections else publication.count

def Word.all : List Word :=
  [.x1, .y1, .x2, .y2, .score, .classId]

/-- `memcpy` of the records. -/
def Publication.records (publication : Publication) : List (Sigma Value) :=
  match publication.items with
  | none => []
  | some records =>
      (List.finRange kMaxDetections).flatMap fun index =>
        if index.val < publication.kept then
          (records[index.val]?).toList.flatMap fun record =>
            Word.all.map fun word => ⟨.detection index word, record word⟩
        else
          []

/-- What `publish` writes between the barriers. -/
def Publication.stores (publication : Publication) : List (Sigma Value) :=
  [⟨.magic, kMessageMagic⟩, ⟨.version, kMessageVersion⟩,
    ⟨.count, BitVec.ofNat 16 publication.kept⟩,
    ⟨.captureTimeLow, publication.captureTimeNs.extractLsb' 0 32⟩,
    ⟨.captureTimeHigh, publication.captureTimeNs.extractLsb' 32 32⟩] ++
      publication.records

/-- The checks of `read` on its copy. -/
def accepts (out : Cells) : Bool :=
  if out .magic ≠ kMessageMagic then
    false
  else if out .version ≠ kMessageVersion then
    false
  else if kMaxDetections < (out .count).toNat then
    false
  else
    true

/-- The shared memory with its writer and its reader, and the attempts that a call of
`read` has left. -/
structure State where
  lock : SequenceLock.State Cell Value 32
  attempts : Option Nat := none

/-- A step of `publish` or of `read`. -/
inductive Event where
  | publish (publication : Publication)
      (stores : { stores : List (Sigma Value) // stores.Perm publication.stores })
  | store
  | endPublish
  | read (maxRetries : Int)
  | attempt (order : SequenceLock.Order Cell) (out : Cells)
  | load
  | verify

/-- What happens to the lock, and what `publish` and `read` are called with and what
`read` returns. -/
inductive Happening where
  | lock (happening : SequenceLock.Happening Cell Value)
  | publishing (publication : Publication)
      (stores : { stores : List (Sigma Value) // stores.Perm publication.stores })
  | called (maxRetries : Int)
  | gaveUp
  | returned (out : Cells) (accepted : Bool)

/-- A step that only moves the lock. -/
def lockStep (state : State) (event : SequenceLock.Event Cell Value) :
    State × Happening :=
  let stepped := SequenceLock.step state.lock event
  ({ state with lock := stepped.1 }, .lock stepped.2)

def step (state : State) : Event → State × Happening
  | .publish publication stores =>
      match state.lock.writing with
      | some _ => (state, .lock .quiet)
      | none =>
          ((lockStep state (.startWrite stores.val)).1, .publishing publication stores)
  | .store => lockStep state .store
  | .endPublish => lockStep state .endWrite
  | .read maxRetries =>
      match state.attempts with
      | some _ => (state, .lock .quiet)
      | none =>
          ({ state with attempts := some (maxRetries + 1).toNat }, .called maxRetries)
  | .attempt order out =>
      match state.lock.reading, state.attempts with
      | none, some 0 => ({ state with attempts := none }, .gaveUp)
      | none, some (attempts + 1) =>
          lockStep { state with attempts := some attempts } (.startRead order out)
      | _, _ => (state, .lock .quiet)
  | .load => lockStep state .load
  | .verify =>
      let stepped := SequenceLock.step state.lock .endRead
      match stepped.2 with
      | .snapshot out =>
          ({ lock := stepped.1, attempts := none }, .returned out (accepts out))
      | happening => ({ state with lock := stepped.1 }, .lock happening)

/-- From memory that holds anything. -/
def machine (sequence : BitVec 32) (cells : Cells) :
    EventMachine State Event Happening where
  init := { lock := { sequence := sequence, cells := cells } }
  step := step

end SafetyMessage

end Adas.Safety
