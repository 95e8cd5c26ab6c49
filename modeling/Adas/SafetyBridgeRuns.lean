import Adas.HazardLatchRuns
import Adas.SafetyBridge

/-!
# What every run of the bridge keeps

Whatever the server calls, the buffer holds observations that passed the
checks, the class the latch remembers was once judged `stop` in such an
observation, and the latch's times lie in the past.
-/

namespace Adas.Control.SafetyBridge

open Safety
open Safety.HazardLatch (settle excludedClass settle_cases settle_of_idle
  settle_latchedClass update_cases)

variable {F : Type} [FloatOps F]

/-- The handle after some calls from the start. -/
def handleAfter (settings : Settings F) (calls : List (Call F)) : Handle F :=
  (machine settings).runFrom (machine settings).init calls

/-- A class that some observation can bring to `stop`. -/
def CanStop (settings : Settings F) (classId : Int) : Prop :=
  ∃ bbox result det, observe settings bbox result = .detection det ∧
    judgeOne det settings.judgeConfig = .stop ∧ det.classId = classId

/-- What the latch of a handle is never without, at a time that no call is
later than. -/
structure LatchSound (settings : Settings F) (nowMs : Nat)
    (latch : HazardLatch) : Prop where
  canStop : latch.phase ≠ .idle → CanStop settings latch.latchedClass
  holdUntil_lt : latch.holdUntilMs < 2 ^ 64
  absentFrames_lt : latch.absentFrames < 2 ^ 32
  absentSince_le : latch.absentSinceMs ≤ nowMs

structure HandleSound (settings : Settings F) (nowMs : Nat)
    (handle : Handle F) : Prop where
  observed : ∀ det ∈ handle.pending.items,
    ∃ bbox result, observe settings bbox result = .detection det
  latchSound : LatchSound settings nowMs handle.latch

variable {settings : Settings F} {nowMs : Nat}

theorem LatchSound.of_le {latch : HazardLatch} {laterMs : Nat}
    (sound : LatchSound settings nowMs latch) (le : nowMs ≤ laterMs) :
    LatchSound settings laterMs latch :=
  { sound with absentSince_le := sound.absentSince_le.trans le }

/-- Judging a frame keeps everything but the class and the deadline of a new
event. -/
theorem LatchSound.settle {latch : HazardLatch} {frame : Frame F}
    (sound : LatchSound settings nowMs latch) (notLater : frame.nowMs ≤ nowMs) :
    LatchSound settings nowMs
      (settle latchConfig settings.judgeConfig latch frame) := by
  by_cases idle : latch.phase = .idle
  · rw [settle_of_idle idle]
    exact sound
  · have canStop := sound.canStop idle
    have endHold_fields : (latch.endHold frame.nowMs).holdUntilMs =
          latch.holdUntilMs ∧
        (latch.endHold frame.nowMs).absentSinceMs ≤ nowMs := by
      unfold HazardLatch.endHold
      split_ifs
      · exact ⟨rfl, notLater⟩
      · exact ⟨rfl, sound.absentSince_le⟩
    rcases settle_cases latchConfig settings.judgeConfig frame idle with
      ⟨-, settled⟩ | ⟨-, counted, rfl, ⟨-, settled⟩ | ⟨-, settled⟩⟩
    · rw [settled]
      exact ⟨fun _ => canStop, sound.holdUntil_lt, Nat.two_pow_pos 32, notLater⟩
    · rw [settled]
      exact ⟨fun busy => absurd rfl busy,
        endHold_fields.1 ▸ sound.holdUntil_lt,
        Nat.mod_lt _ (by decide), endHold_fields.2⟩
    · rw [settled]
      exact ⟨fun _ => by simpa using canStop,
        endHold_fields.1 ▸ sound.holdUntil_lt,
        Nat.mod_lt _ (by decide), endHold_fields.2⟩

theorem LatchSound.update {latch : HazardLatch} (frame : Frame F)
    (sound : LatchSound settings nowMs latch) (notLater : frame.nowMs ≤ nowMs)
    (observed : ∀ det ∈ frame.items,
      ∃ bbox result, observe settings bbox result = .detection det) :
    LatchSound settings nowMs
      (latch.update latchConfig settings.judgeConfig frame).1 := by
  have settled := sound.settle notLater
  cases ended : latch.holdRuns frame.nowMs with
  | true =>
      rw [HazardLatch.update_of_holdRuns ended]
      exact { sound with }
  | false =>
      by_cases starts : HazardLatch.StartsEvent latchConfig settings.judgeConfig
          latch frame
      · obtain ⟨det, mem, stops, -, result⟩ :=
          HazardLatch.update_of_startsEvent starts
        obtain ⟨bbox, answer, seen⟩ := observed det mem
        rw [result]
        exact ⟨fun _ => ⟨bbox, answer, det, seen, stops, rfl⟩,
          Nat.mod_lt _ (by decide), settled.absentFrames_lt,
          settled.absentSince_le⟩
      · rw [HazardLatch.update_of_quiet ended starts]
        exact { settled with }

theorem HandleSound.step {handle : Handle F}
    (sound : HandleSound settings nowMs handle) (call : Call F)
    (notLater : call.nowMs ≤ nowMs) :
    HandleSound settings nowMs (step settings handle call).1 := by
  cases call with
  | addObservation callMs bbox result =>
      simp only [SafetyBridge.step]
      rcases addObservation_cases settings handle bbox result with
        same | flagged | ⟨record, room, seen, pushed⟩
      · rw [same]
        exact sound
      · rw [flagged]
        exact { sound with }
      · rw [pushed]
        refine ⟨?_, sound.latchSound⟩
        intro det mem
        rcases List.mem_append.mp mem with old | new
        · exact sound.observed det old
        · rw [List.mem_singleton.mp new]
          exact ⟨bbox, result, seen⟩
  | flushFrame callMs =>
      exact ⟨by simp [SafetyBridge.step, flushFrame],
        sound.latchSound.update _ notLater sound.observed⟩
  | forceStop callMs =>
      exact ⟨by simp [SafetyBridge.step, forceStop], sound.latchSound⟩

theorem handleSound_handleAfter (settings : Settings F) {nowMs : Nat}
    {calls : List (Call F)} (past : ∀ call ∈ calls, call.nowMs ≤ nowMs) :
    HandleSound settings nowMs (handleAfter settings calls) := by
  have everywhere : HandleSound settings nowMs
      ((machine settings).stateAt calls calls.length) :=
    EventMachine.stateAt_invariant _ (fun call => call.nowMs ≤ nowMs)
    ⟨by simp [machine], ⟨by simp [machine], Nat.two_pow_pos 64,
      Nat.two_pow_pos 32, Nat.zero_le _⟩⟩
    (fun handle call notLater sound => sound.step call notLater) past le_rfl
  rwa [EventMachine.stateAt_length] at everywhere

end Adas.Control.SafetyBridge
