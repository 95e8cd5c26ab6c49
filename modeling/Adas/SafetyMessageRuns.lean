import Adas.SafetyMessage

/-!
# Copies of the message are whole

However the two cores interleave, a copy that `read` returns is the message that was
published last before the copy began, as long as the sequence number has not come
round while it was made.  `read` gives up only on account of a publication that was
under way.
-/

namespace Adas.Safety.SafetyMessage

open SequenceLock (Sound applyAll contents raised sinceStart isOdd)

section Books

/-- What a happening means to the lock. -/
def lockPart : Happening → Option (SequenceLock.Happening Cell Value)
  | .lock happening => some happening
  | .publishing _ stores => some (.writeStarted stores.val)
  | .returned out _ => some (.snapshot out)
  | .called _ | .gaveUp => none

def lockParts (past : List Happening) : List (SequenceLock.Happening Cell Value) :=
  past.filterMap lockPart

/-- The argument of the last call of `read`. -/
def lastCall (past : List Happening) : Option Int :=
  EventMachine.lastSeen (fun
    | .called maxRetries => some maxRetries
    | _ => none) past

def lastPublication (past : List Happening) : Option Publication :=
  EventMachine.lastSeen (fun
    | .publishing publication _ => some publication
    | _ => none) past

/-- The happenings since the last call of `read`, the last one first. -/
def sinceCall (past : List Happening) : List Happening :=
  past.reverse.takeWhile fun
    | .called _ => false
    | _ => true

/-- Since the last call of `read` no publication was under way. -/
structure Undisturbed (past : List Happening) : Prop where
  noRaise : raised (lockParts (sinceCall past)) = 0
  even : raised (lockParts past) % 2 = 0

variable {past : List Happening} {happening : Happening}

theorem lockParts_append :
    lockParts (past ++ [happening]) = lockParts past ++ lockParts [happening] :=
  List.filterMap_append

theorem sinceCall_append (noCall : sinceCall [happening] = [happening]) :
    sinceCall (past ++ [happening]) = happening :: sinceCall past := by
  cases happening with
  | called maxRetries => simp [sinceCall] at noCall
  | _ => simp [sinceCall]

/-- Undisturbed after a step means undisturbed before it, and that the step has not
raised the number. -/
theorem Undisturbed.before (undisturbed : Undisturbed (past ++ [happening]))
    (noCall : sinceCall [happening] = [happening]) :
    Undisturbed past ∧ raised (lockParts [happening]) = 0 := by
  obtain ⟨none, even⟩ := undisturbed
  rw [sinceCall_append noCall, ← List.singleton_append, lockParts, List.filterMap_append,
    SequenceLock.raised_append, Nat.add_eq_zero_iff] at none
  rw [lockParts_append, SequenceLock.raised_append] at even
  have noRaise : raised (lockParts [happening]) = 0 := none.1
  exact ⟨⟨none.2, by omega⟩, noRaise⟩

end Books

section Contents

/-- The message holds what was published. -/
structure Holds (publication : Publication) (cells : Cells) : Prop where
  magic : cells .magic = kMessageMagic
  version : cells .version = kMessageVersion
  count : cells .count = BitVec.ofNat 16 publication.kept
  captureTimeNs :
    cells .captureTimeHigh ++ cells .captureTimeLow = publication.captureTimeNs
  records : ∀ records ∈ publication.items, ∀ index : Fin kMaxDetections,
    index.val < publication.kept → ∀ record ∈ records[index.val]?, ∀ word,
      cells (.detection index word) = record word

variable (publication : Publication)

theorem mem_records {store : Sigma Value} :
    store ∈ publication.records ↔ ∃ records ∈ publication.items,
      ∃ index : Fin kMaxDetections, index.val < publication.kept ∧
        ∃ record ∈ records[index.val]?, ∃ word,
          store = ⟨.detection index word, record word⟩ := by
  cases items : publication.items with
  | none => simp [Publication.records, items]
  | some records =>
      constructor
      · intro isStore
        simp only [Publication.records, items, List.mem_flatMap] at isStore
        obtain ⟨index, -, inRecord⟩ := isStore
        split_ifs at inRecord with isKept
        · obtain ⟨record, isRecord, inWords⟩ := List.mem_flatMap.mp inRecord
          obtain ⟨word, -, rfl⟩ := List.mem_map.mp inWords
          exact ⟨records, rfl, index, isKept, record, Option.mem_toList.mp isRecord, word,
            rfl⟩
        · exact absurd inRecord List.not_mem_nil
      · rintro ⟨_, ⟨⟩, index, isKept, record, isRecord, word, rfl⟩
        simp only [Publication.records, items, List.mem_flatMap]
        refine ⟨index, List.mem_finRange index, ?_⟩
        rw [if_pos isKept]
        refine List.mem_flatMap.mpr ⟨record, Option.mem_toList.mpr isRecord, ?_⟩
        exact List.mem_map.mpr ⟨word, by cases word <;> decide, rfl⟩

/-- No word of a message is written twice. -/
theorem nodup_records : (publication.records.map Sigma.fst).Nodup := by
  cases items : publication.items with
  | none => simp [Publication.records, items]
  | some records =>
      have ofIndex : ∀ (index : Fin kMaxDetections) (cell : Cell),
          cell ∈ List.map Sigma.fst (if index.val < publication.kept then
            (records[index.val]?).toList.flatMap fun record =>
              Word.all.map fun word => (⟨.detection index word, record word⟩ : Sigma Value)
            else []) → ∃ word, cell = .detection index word := by
        intro index cell isCell
        obtain ⟨store, isStore, rfl⟩ := List.mem_map.mp isCell
        split_ifs at isStore
        · obtain ⟨record, -, inWords⟩ := List.mem_flatMap.mp isStore
          obtain ⟨word, -, rfl⟩ := List.mem_map.mp inWords
          exact ⟨word, rfl⟩
        · exact absurd isStore List.not_mem_nil
      simp only [Publication.records, items]
      rw [List.map_flatMap, List.nodup_flatMap]
      constructor
      · intro index _
        split_ifs
        · cases records[index.val]? with
          | none => exact List.nodup_nil
          | some record =>
              rw [Option.toList_some, List.flatMap_singleton, List.map_map]
              refine List.Nodup.map ?_ (by decide)
              rintro first second ⟨⟩
              rfl
        · exact List.nodup_nil
      · refine (List.nodup_finRange kMaxDetections).imp ?_
        intro first second differ cell inFirst inSecond
        obtain ⟨word, rfl⟩ := ofIndex first cell inFirst
        obtain ⟨other, same⟩ := ofIndex second _ inSecond
        exact differ (Cell.detection.inj same).1

theorem nodup_stores : (publication.stores.map Sigma.fst).Nodup := by
  rw [Publication.stores, List.map_append, List.nodup_append']
  refine ⟨?_, nodup_records publication, ?_⟩
  · change [Cell.magic, .version, .count, .captureTimeLow, .captureTimeHigh].Nodup
    decide
  intro cell isHeader isRecord
  obtain ⟨store, isStore, rfl⟩ := List.mem_map.mp isRecord
  obtain ⟨_, _, index, _, _, _, word, rfl⟩ := (mem_records publication).mp isStore
  simp at isHeader

/-- Whatever the order of the writes, they leave the message. -/
theorem holds_stores {publication : Publication} {stores : List (Sigma Value)}
    (isOrder : stores.Perm publication.stores) (cells : Cells) :
    Holds publication (applyAll cells stores) := by
  have distinct : (stores.map Sigma.fst).Nodup :=
    (isOrder.map _).nodup_iff.mpr (nodup_stores publication)
  have holds : ∀ store ∈ publication.stores, applyAll cells stores store.1 = store.2 :=
    fun store isStore =>
      SequenceLock.applyAll_of_mem distinct (isOrder.mem_iff.mpr isStore)
  constructor
  · exact holds ⟨.magic, kMessageMagic⟩ (.head _)
  · exact holds ⟨.version, kMessageVersion⟩ (.tail _ (.head _))
  · exact holds ⟨.count, BitVec.ofNat 16 publication.kept⟩ (.tail _ (.tail _ (.head _)))
  · have low := holds ⟨.captureTimeLow, publication.captureTimeNs.extractLsb' 0 32⟩
      (.tail _ (.tail _ (.tail _ (.head _))))
    have high := holds ⟨.captureTimeHigh, publication.captureTimeNs.extractLsb' 32 32⟩
      (.tail _ (.tail _ (.tail _ (.tail _ (.head _)))))
    rw [low, high]
    exact BitVec.extractLsb'_append_extractLsb'
  · intro records areRecords index isKept record isRecord word
    refine holds ⟨.detection index word, record word⟩ (List.mem_append_right _ ?_)
    exact (mem_records publication).mpr
      ⟨records, areRecords, index, isKept, record, isRecord, word, rfl⟩

theorem Publication.kept_le : publication.kept ≤ kMaxDetections := by
  rw [Publication.kept]
  split_ifs with more
  · exact Nat.le_refl _
  · exact Nat.le_of_not_lt more

/-- What has been published passes the checks of `read`. -/
theorem Holds.accepts {publication : Publication} {cells : Cells}
    (holds : Holds publication cells) : accepts cells = true := by
  have kept := publication.kept_le
  have count : (cells .count).toNat = publication.kept := by
    rw [holds.count]
    refine Nat.mod_eq_of_lt (kept.trans_lt ?_)
    decide
  rw [SafetyMessage.accepts, if_neg (not_not.mpr holds.magic),
    if_neg (not_not.mpr holds.version), if_neg (by omega)]

end Contents

section Invariant

variable {sequence : BitVec 32} {cells : Cells} {past : List Happening} {state : State}

/-- The call of `read` has met no obstacle: it has all its attempts left, or copies
what is still there. -/
structure Waits (maxRetries : Int) (attempts : Nat)
    (lock : SequenceLock.State Cell Value 32) : Prop where
  atHead : lock.reading = none → attempts = (maxRetries + 1).toNat
  copying : ∀ reading, lock.reading = some reading → reading.before = lock.sequence

structure Follows (sequence : BitVec 32) (cells : Cells) (past : List Happening)
    (state : State) : Prop where
  sound : Sound sequence cells (lockParts past) state.lock
  holds : ∀ publication, lastPublication past = some publication →
    Holds publication (contents cells (lockParts past))
  idle : state.attempts = none → state.lock.reading = none
  waits : ∀ maxRetries, lastCall past = some maxRetries → 0 ≤ maxRetries →
    Undisturbed past → ∀ attempts, state.attempts = some attempts →
      Waits maxRetries attempts state.lock

/-- A step that only moves the lock, and starts no publication. -/
theorem Follows.lock (follows : Follows sequence cells past state)
    (even : isOdd sequence = false) (event : SequenceLock.Event Cell Value)
    (attempts : Option Nat)
    (noStart : ∀ cells, contents cells [(SequenceLock.step state.lock event).2] = cells)
    (idle : attempts = none →
      (SequenceLock.step state.lock event).1.reading = none)
    (waits : ∀ maxRetries, lastCall past = some maxRetries → 0 ≤ maxRetries →
      Undisturbed past → raised [(SequenceLock.step state.lock event).2] = 0 →
        ∀ left, attempts = some left →
          Waits maxRetries left (SequenceLock.step state.lock event).1) :
    Follows sequence cells
      (past ++ [.lock (SequenceLock.step state.lock event).2])
      ⟨(SequenceLock.step state.lock event).1, attempts⟩ := by
  refine ⟨?_, ?_, idle, ?_⟩
  · rw [lockParts_append]
    exact follows.sound.step (by decide) even event
  · intro publication last
    rw [lastPublication, EventMachine.lastSeen_append] at last
    rw [lockParts_append, show lockParts [.lock (SequenceLock.step state.lock event).2] =
      [(SequenceLock.step state.lock event).2] from rfl, SequenceLock.contents_append,
      noStart]
    exact follows.holds publication last
  · intro maxRetries last nonneg undisturbed
    rw [lastCall, EventMachine.lastSeen_append] at last
    obtain ⟨before, noRaise⟩ := undisturbed.before rfl
    exact waits maxRetries last nonneg before noRaise

theorem Follows.quiet (follows : Follows sequence cells past state) :
    Follows sequence cells (past ++ [.lock .quiet]) state := by
  refine ⟨?_, ?_, follows.idle, ?_⟩
  · rw [lockParts_append]
    exact follows.sound.quiet
  · intro publication last
    rw [lastPublication, EventMachine.lastSeen_append] at last
    rw [lockParts_append, SequenceLock.contents_append]
    exact follows.holds publication last
  · intro maxRetries last nonneg undisturbed
    rw [lastCall, EventMachine.lastSeen_append] at last
    exact follows.waits maxRetries last nonneg (undisturbed.before rfl).1

theorem Follows.publish (follows : Follows sequence cells past state)
    (notWriting : state.lock.writing = none) (publication : Publication)
    (stores : { stores : List (Sigma Value) // stores.Perm publication.stores }) :
    Follows sequence cells (past ++ [.publishing publication stores])
      { state with lock := { state.lock with
        sequence := state.lock.sequence + 1, writing := some stores.val } } := by
  refine ⟨?_, ?_, follows.idle, ?_⟩
  · rw [lockParts_append]
    exact follows.sound.startWrite notWriting stores.val
  · intro other last
    rw [lastPublication, EventMachine.lastSeen_append] at last
    obtain rfl : publication = other := Option.some.inj last
    rw [lockParts_append, SequenceLock.contents_append]
    exact holds_stores stores.property _
  · intro maxRetries last nonneg undisturbed
    exact absurd (undisturbed.before rfl).2 Nat.one_ne_zero

/-- A step of the writer between the raises of the number, and a step of the reader
that only copies. -/
theorem Follows.moves (follows : Follows sequence cells past state)
    (even : isOdd sequence = false) {event : SequenceLock.Event Cell Value}
    (isQuiet : (SequenceLock.step state.lock event).2 = .quiet)
    (sameSequence : (SequenceLock.step state.lock event).1.sequence = state.lock.sequence)
    (sameReading : (SequenceLock.step state.lock event).1.reading.map
      SequenceLock.Reading.before = state.lock.reading.map SequenceLock.Reading.before) :
    Follows sequence cells (past ++ [(lockStep state event).2])
      (lockStep state event).1 := by
  have atRest : (SequenceLock.step state.lock event).1.reading = none ↔
      state.lock.reading = none := by
    rw [← Option.map_eq_none_iff, sameReading, Option.map_eq_none_iff]
  refine follows.lock even event _ ?_ ?_ ?_
  · intro cells
    rw [isQuiet]
    rfl
  · exact fun noCall => atRest.mpr (follows.idle noCall)
  · intro maxRetries last nonneg undisturbed _ left isLeft
    obtain ⟨atHead, copying⟩ := follows.waits maxRetries last nonneg undisturbed left isLeft
    refine ⟨fun none => atHead (atRest.mp none), fun reading isReading => ?_⟩
    rw [isReading, Option.map_some, eq_comm, Option.map_eq_some_iff] at sameReading
    obtain ⟨earlier, isEarlier, same⟩ := sameReading
    rw [sameSequence, ← same]
    exact copying earlier isEarlier

theorem Follows.store (follows : Follows sequence cells past state)
    (even : isOdd sequence = false) :
    Follows sequence cells (past ++ [(step state .store).2]) (step state .store).1 := by
  apply follows.moves even
  all_goals
    rcases writing : state.lock.writing with _ | _ | ⟨store, stores⟩ <;>
      simp only [SequenceLock.step, writing]

theorem Follows.load (follows : Follows sequence cells past state)
    (even : isOdd sequence = false) :
    Follows sequence cells (past ++ [(step state .load).2]) (step state .load).1 := by
  apply follows.moves even
  all_goals
    rcases reading : state.lock.reading with _ | ⟨before, _ | ⟨cell, remaining⟩, out⟩ <;>
      simp only [SequenceLock.step, reading, Option.map_some]

theorem Follows.endPublish (follows : Follows sequence cells past state)
    (even : isOdd sequence = false) :
    Follows sequence cells (past ++ [(step state .endPublish).2])
      (step state .endPublish).1 := by
  rcases writing : state.lock.writing with _ | _ | ⟨store, stores⟩
  · have isQuiet : SequenceLock.step state.lock .endWrite = (state.lock, .quiet) := by
      simp only [SequenceLock.step, writing]
    simp only [step, lockStep, isQuiet]
    exact follows.quiet
  · refine follows.lock even .endWrite _ ?_ ?_ ?_
    · intro cells
      simp only [SequenceLock.step, writing]
      rfl
    · intro noCall
      simp only [SequenceLock.step, writing]
      exact follows.idle noCall
    · intro _ _ _ _ noRaise
      simp only [SequenceLock.step, writing] at noRaise
      exact absurd noRaise Nat.one_ne_zero
  · have isQuiet : SequenceLock.step state.lock .endWrite = (state.lock, .quiet) := by
      simp only [SequenceLock.step, writing]
    simp only [step, lockStep, isQuiet]
    exact follows.quiet

theorem Follows.read (follows : Follows sequence cells past state)
    (noCall : state.attempts = none) (maxRetries : Int) :
    Follows sequence cells (past ++ [.called maxRetries])
      { state with attempts := some (maxRetries + 1).toNat } := by
  have parts : lockParts (past ++ [.called maxRetries]) = lockParts past := by
    rw [lockParts_append]
    exact List.append_nil _
  refine ⟨parts ▸ follows.sound, ?_, ?_, ?_⟩
  · intro publication last
    rw [lastPublication, EventMachine.lastSeen_append] at last
    rw [parts]
    exact follows.holds publication last
  · rintro ⟨⟩
  · intro other last _ _ left isLeft
    rw [lastCall, EventMachine.lastSeen_append] at last
    obtain rfl : maxRetries = other := Option.some.inj last
    refine ⟨fun _ => (Option.some.inj isLeft).symm, fun reading isReading => ?_⟩
    have idle : state.lock.reading = none := follows.idle noCall
    rw [show state.lock.reading = some reading from isReading] at idle
    contradiction

theorem Follows.giveUp (follows : Follows sequence cells past state)
    (atHead : state.lock.reading = none) :
    Follows sequence cells (past ++ [.gaveUp]) { state with attempts := none } := by
  have parts : lockParts (past ++ [.gaveUp]) = lockParts past := by
    rw [lockParts_append]
    exact List.append_nil _
  refine ⟨parts ▸ follows.sound, ?_, fun _ => atHead, ?_⟩
  · intro publication last
    rw [lastPublication, EventMachine.lastSeen_append] at last
    rw [parts]
    exact follows.holds publication last
  · rintro _ _ _ _ _ ⟨⟩

/-- An attempt that nothing disturbs gets to copy. -/
theorem Follows.attempt (follows : Follows sequence cells past state)
    (even : isOdd sequence = false) (atHead : state.lock.reading = none) (attempts : Nat)
    (order : SequenceLock.Order Cell) (out : Cells) :
    Follows sequence cells
      (past ++ [(lockStep { state with attempts := some attempts }
        (.startRead order out)).2])
      (lockStep { state with attempts := some attempts } (.startRead order out)).1 := by
  refine follows.lock even (.startRead order out) _ ?_ ?_ ?_
  · intro cells
    simp only [SequenceLock.step, atHead]
    split_ifs
    · rfl
    · rfl
  · rintro ⟨⟩
  · intro maxRetries _ _ undisturbed _ _ _
    have isEven : isOdd state.lock.sequence = false := by
      rw [follows.sound.sequence, SequenceLock.isOdd_add (by decide) even,
        undisturbed.even]
      rfl
    simp only [SequenceLock.step, atHead, isEven]
    constructor
    · rintro ⟨⟩
    · rintro _ ⟨⟩
      rfl

theorem Follows.verify (follows : Follows sequence cells past state)
    (even : isOdd sequence = false) :
    Follows sequence cells (past ++ [(step state .verify).2]) (step state .verify).1 := by
  rcases reading : state.lock.reading with _ | ⟨before, _ | ⟨cell, remaining⟩, out⟩
  · simp only [step, SequenceLock.step, reading]
    exact follows.quiet
  · by_cases changed : state.lock.sequence ≠ before
    · have torn : SequenceLock.step state.lock .endRead =
          ({ state.lock with reading := none }, .torn) := by
        simp only [SequenceLock.step, reading, if_pos changed]
      have isTorn := follows.lock even .endRead state.attempts
      rw [torn] at isTorn
      simp only [step, torn]
      refine isTorn (fun _ => rfl) (fun _ => rfl) ?_
      intro maxRetries last nonneg undisturbed _ left isLeft
      have waits := follows.waits maxRetries last nonneg undisturbed left isLeft
      exact absurd (waits.copying _ reading).symm changed
    · have snapshot : SequenceLock.step state.lock .endRead =
          ({ state.lock with reading := none }, .snapshot out) := by
        simp only [SequenceLock.step, reading, if_neg changed]
      have sound := follows.sound.step (by decide) even .endRead
      rw [snapshot] at sound
      simp only [step, snapshot]
      refine ⟨?_, ?_, fun _ => rfl, ?_⟩
      · rw [lockParts_append]
        exact sound
      · intro publication last
        rw [lastPublication, EventMachine.lastSeen_append] at last
        rw [lockParts_append, SequenceLock.contents_append]
        exact follows.holds publication last
      · rintro _ _ _ _ _ ⟨⟩
  · simp only [step, SequenceLock.step, reading]
    exact follows.quiet

theorem Follows.step (follows : Follows sequence cells past state)
    (even : isOdd sequence = false) (event : Event) :
    Follows sequence cells (past ++ [(step state event).2]) (step state event).1 := by
  cases event with
  | publish publication stores =>
      cases writing : state.lock.writing with
      | none =>
          simp only [SafetyMessage.step, writing, lockStep, SequenceLock.step]
          exact follows.publish writing publication stores
      | some pending =>
          simp only [SafetyMessage.step, writing]
          exact follows.quiet
  | store => exact follows.store even
  | endPublish => exact follows.endPublish even
  | read maxRetries =>
      cases noCall : state.attempts with
      | none =>
          simp only [SafetyMessage.step, noCall]
          exact follows.read noCall maxRetries
      | some attempts =>
          simp only [SafetyMessage.step, noCall]
          exact follows.quiet
  | attempt order out =>
      rcases atHead : state.lock.reading with _ | reading
      · rcases left : state.attempts with _ | _ | attempts
        · simp only [SafetyMessage.step, atHead, left]
          exact follows.quiet
        · simp only [SafetyMessage.step, atHead, left]
          exact follows.giveUp atHead
        · simp only [SafetyMessage.step, atHead, left]
          exact follows.attempt even atHead attempts order out
      · simp only [SafetyMessage.step, atHead]
        exact follows.quiet
  | load => exact follows.load even
  | verify => exact follows.verify even

/-- What an answer of `read` says about the publications before it.  While the copy was
made no publication began or ended, and none was under way. -/
structure Promised (cells : Cells) (past : List Happening) (happening : Happening) :
    Prop where
  whole : ∀ out accepted, happening = .returned out accepted →
    raised (sinceStart (lockParts past)) < 2 ^ 32 →
      raised (sinceStart (lockParts past)) = 0 ∧ raised (lockParts past) % 2 = 0 ∧
        out = contents cells (lockParts past) ∧
        ∀ publication, lastPublication past = some publication →
          Holds publication out ∧ accepted = true
  patient : happening = .gaveUp → ∀ maxRetries, lastCall past = some maxRetries →
    0 ≤ maxRetries → ¬ Undisturbed past

theorem Follows.promised (follows : Follows sequence cells past state) (event : Event) :
    Promised cells past (SafetyMessage.step state event).2 := by
  constructor
  · intro out accepted answer few
    have snapshot : (SequenceLock.step state.lock .endRead).2 = .snapshot out ∧
        accepts out = accepted := by
      cases event with
      | verify =>
          simp only [SafetyMessage.step] at answer
          split at answer
          · next copy isSnapshot =>
            obtain ⟨rfl, rfl⟩ := Happening.returned.inj answer
            exact ⟨isSnapshot, rfl⟩
          · contradiction
      | publish | read | attempt =>
          simp only [SafetyMessage.step, lockStep] at answer
          split at answer <;> contradiction
      | store | endPublish | load => contradiction
    obtain ⟨undisturbed, even, isContents⟩ := follows.sound.snapshot snapshot.1 few
    refine ⟨undisturbed, even, isContents, fun publication last => ?_⟩
    have holds : Holds publication out := isContents ▸ follows.holds publication last
    exact ⟨holds, snapshot.2.symm.trans holds.accepts⟩
  · intro gaveUp maxRetries last nonneg undisturbed
    cases event with
    | attempt order out =>
        simp only [SafetyMessage.step] at gaveUp
        split at gaveUp
        · next atHead noneLeft =>
          have waits := follows.waits maxRetries last nonneg undisturbed 0 noneLeft
          have all := waits.atHead atHead
          omega
        · contradiction
        · contradiction
    | publish | read =>
        simp only [SafetyMessage.step] at gaveUp
        split at gaveUp <;> contradiction
    | verify =>
        simp only [SafetyMessage.step] at gaveUp
        split at gaveUp <;> contradiction
    | store | endPublish | load => contradiction

end Invariant

/-- In every run from an even sequence number, whatever the memory held: `read` returns
what has been published last, whole and with no publication under way, unless the
number has come round while it copied, and it gives up only if a publication was under
way since it was called. -/
theorem reads_are_publications (sequence : BitVec 32) (cells : Cells)
    (even : isOdd sequence = false) (events : List Event) {index : Nat}
    {happening : Happening}
    (shown : ((machine sequence cells).outputsFrom (machine sequence cells).init
      events)[index]? = some happening) :
    Promised cells (((machine sequence cells).outputsFrom (machine sequence cells).init
      events).take index) happening := by
  refine (machine sequence cells).outputs_promised (Follows sequence cells)
    (Promised cells) ?_ (fun _ _ event follows => ⟨follows.promised event,
      follows.step even event⟩) events shown
  refine ⟨⟨?_, ?_, rfl, ?_, ?_⟩, ?_, fun _ => rfl, ?_⟩
  · exact (BitVec.add_zero _).symm
  · exact iff_of_true rfl rfl
  · rintro _ ⟨⟩
  · rintro _ ⟨⟩
  · rintro _ ⟨⟩
  · rintro _ ⟨⟩

def allCells : List Cell :=
  [.magic, .version, .count, .captureTimeLow, .captureTimeHigh] ++
    (List.finRange kMaxDetections).flatMap fun index =>
      Word.all.map (Cell.detection index)

def ascending : SequenceLock.Order Cell where
  cells := allCells
  complete := by
    intro cell
    cases cell with
    | detection index word =>
        refine List.mem_append_right _ (List.mem_flatMap.mpr ⟨index, List.mem_finRange index, ?_⟩)
        exact List.mem_map_of_mem (by cases word <;> decide)
    | _ => exact List.mem_append_left _ (by decide)

def blank : Cells
  | .magic | .captureTimeLow | .captureTimeHigh | .detection _ _ => 0#32
  | .version | .count => 0#16

/-- One detection that was seen at the given time. -/
def oneDetection : Publication where
  items := some [fun _ => 7#32]
  count := 1
  captureTimeNs := 5
  enough := by simp

/-- A copy is begun, and torn by a publication that ends while it is made; the next
attempt succeeds. -/
def tornThenWhole : List Event :=
  [.read 1, .attempt ascending blank, .publish oneDetection ⟨_, .refl _⟩] ++
    List.replicate 197 .load ++ List.replicate 11 .store ++
    [.endPublish, .verify, .attempt ascending blank] ++ List.replicate 197 .load ++ [.verify]

def Happening.isAccepted : Happening → Bool
  | .returned _ accepted => accepted
  | _ => false

theorem exists_returned {shown : Option Happening}
    (isAccepted : shown.any Happening.isAccepted = true) :
    ∃ out, shown = some (.returned out true) := by
  obtain ⟨happening, rfl, isAccepted⟩ := (Option.any_eq_true _ _).mp isAccepted
  cases happening with
  | returned out accepted =>
      obtain rfl : accepted = true := isAccepted
      exact ⟨out, rfl⟩
  | _ => contradiction

theorem reads_are_publications_tornThenWhole :
    ∃ out, ((machine 0 blank).outputsFrom (machine 0 blank).init tornThenWhole)[411]? =
        some (.returned out true) ∧
      out .captureTimeHigh ++ out .captureTimeLow = 5#64 := by
  obtain ⟨out, shown⟩ := exists_returned (by decide +kernel :
    (((machine 0 blank).outputsFrom (machine 0 blank).init tornThenWhole)[411]?.any
      Happening.isAccepted) = true)
  have promised := reads_are_publications 0 blank (by decide) tornThenWhole shown
  obtain ⟨-, -, -, holds⟩ := promised.whole out true rfl (by decide +kernel)
  obtain ⟨publication, last, time⟩ := (Option.any_eq_true _ _).mp (by decide +kernel :
    (lastPublication (((machine 0 blank).outputsFrom (machine 0 blank).init
      tornThenWhole).take 411)).any (fun publication =>
        publication.captureTimeNs == 5#64) = true)
  refine ⟨out, shown, ?_⟩
  rw [(holds publication last).1.captureTimeNs]
  exact eq_of_beq time

end Adas.Safety.SafetyMessage
