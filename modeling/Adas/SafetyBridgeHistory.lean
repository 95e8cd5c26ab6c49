import Adas.HazardLatchHistory
import Adas.SafetyBridgeRuns

/-!
# What a forced stop forgets

`ps_safety_force_stop` drops the buffer, the background flag and the sign
deadline, but it leaves the hazard latch alone.  Two handles therefore publish
the same after a forced stop exactly when their latches are alike.

That alike latches publish the same is a simulation.  For the other direction
every difference is made visible by an experiment: flush empty frames until one
latch has released and the other has not, then show again the observation that
once stopped the robot.
-/

namespace Adas.Control.SafetyBridge

open FloatOps
open Safety
open Safety.HazardLatch (AlikeFrom)

variable {F : Type} [FloatOps F]

/-- Calls in the order of a clock that has reached `nowMs`. -/
def OrderedFrom (nowMs : Nat) (calls : List (Call F)) : Prop :=
  (calls.Pairwise fun a b => a.nowMs ≤ b.nowMs) ∧
    ∀ call ∈ calls, nowMs ≤ call.nowMs ∧ call.nowMs < 2 ^ 64

/-- What the bridge publishes from a handle on. -/
def published (settings : Settings F) (handle : Handle F)
    (calls : List (Call F)) : List (Option State) :=
  (machine settings).outputsFrom handle calls

/-- Whatever was called before a forced stop, the same is published after it. -/
def ForgetsHistory (settings : Settings F) : Prop :=
  ∀ (before otherBefore later : List (Call F)) (nowMs : Nat),
    (before.Pairwise fun a b => a.nowMs ≤ b.nowMs) →
    (otherBefore.Pairwise fun a b => a.nowMs ≤ b.nowMs) →
    (∀ call ∈ before, call.nowMs ≤ nowMs) →
    (∀ call ∈ otherBefore, call.nowMs ≤ nowMs) →
    nowMs < 2 ^ 64 →
    OrderedFrom nowMs later →
      published settings (handleAfter settings before)
          (.forceStop nowMs :: later) =
        published settings (handleAfter settings otherBefore)
          (.forceStop nowMs :: later)

/-- A car close ahead on the path. -/
def carBbox : RoiBbox ℚ :=
  ⟨160, 108, 320, 216, 9 / 10, 640, 360⟩

def carResult : RoiResult :=
  ⟨roiStatusOk, 1, 900000⟩

/-- The link breaks four seconds after a car has been seen, and the first frame
after the reconnect shows a car again: the bridge that saw the first car
publishes `clear`, a bridge that did not publishes `stop`. -/
theorem not_forgetsHistory : ¬ ForgetsHistory ({} : Settings ℚ) := by
  intro forgets
  have same := forgets
    [.addObservation 1000 carBbox carResult, .flushFrame 1000] []
    [.addObservation 5010 carBbox carResult, .flushFrame 5010] 5000
    (by simp [Call.nowMs]) (by simp) (by simp [Call.nowMs]) (by simp)
    (by decide) (by simp [OrderedFrom, Call.nowMs])
  exact absurd same (by decide +kernel)

variable {settings : Settings F} {nowMs : Nat}

omit [FloatOps F] in
theorem OrderedFrom.of_le {laterMs : Nat} {calls : List (Call F)}
    (le : nowMs ≤ laterMs) (ordered : OrderedFrom laterMs calls) :
    OrderedFrom nowMs calls :=
  ⟨ordered.1, fun call mem =>
    ⟨le.trans (ordered.2 call mem).1, (ordered.2 call mem).2⟩⟩

omit [FloatOps F] in
theorem orderedFrom_cons {call : Call F} {calls : List (Call F)} :
    OrderedFrom nowMs (call :: calls) ↔
      nowMs ≤ call.nowMs ∧ call.nowMs < 2 ^ 64 ∧
        OrderedFrom call.nowMs calls := by
  constructor
  · rintro ⟨sorted, bounds⟩
    obtain ⟨first, rest⟩ := List.pairwise_cons.mp sorted
    exact ⟨(bounds call List.mem_cons_self).1, (bounds call List.mem_cons_self).2,
      rest, fun later mem =>
        ⟨first later mem, (bounds later (List.mem_cons_of_mem call mem)).2⟩⟩
  · rintro ⟨notBefore, inRange, rest, bounds⟩
    refine ⟨List.pairwise_cons.mpr ⟨fun later mem => (bounds later mem).1, rest⟩,
      ?_⟩
    intro later mem
    rcases List.mem_cons.mp mem with rfl | later_mem
    · exact ⟨notBefore, inRange⟩
    · exact ⟨notBefore.trans (bounds later later_mem).1,
        (bounds later later_mem).2⟩

section Simulation

/-- The handles differ in their latches only, and these are alike. -/
def AlikeHandles (nowMs : Nat) (left right : Handle F) : Prop :=
  AlikeFrom latchConfig nowMs left.latch right.latch ∧
    right = { left with latch := right.latch }

theorem AlikeHandles.step {call : Call F} {left right : Handle F}
    (alike : AlikeHandles nowMs left right) (later : nowMs ≤ call.nowMs) :
    (step settings left call).2 = (step settings right call).2 ∧
      AlikeHandles call.nowMs (step settings left call).1
        (step settings right call).1 := by
  obtain ⟨alikeLatches, sameRest⟩ := alike
  replace alikeLatches := alikeLatches.mono later
  rw [sameRest]
  cases call with
  | addObservation callMs bbox result =>
      refine ⟨rfl, by simpa [SafetyBridge.step] using alikeLatches, ?_⟩
      simp only [SafetyBridge.step, addObservation]
      split_ifs with room
      · cases observe settings bbox result with
        | dropped => rfl
        | background dangerous => cases dangerous <;> rfl
        | detection record => rfl
      · rfl
  | flushFrame callMs =>
      obtain ⟨sameAnswer, stillAlike⟩ := AlikeFrom.update
        settings.judgeConfig ⟨left.pending.items, callMs⟩ alikeLatches
      simp only [SafetyBridge.step, flushFrame, sameAnswer, true_and]
      exact ⟨stillAlike, rfl⟩
  | forceStop callMs => exact ⟨rfl, alikeLatches, rfl⟩

variable (settings) in
/-- Handles with alike latches publish the same. -/
theorem AlikeHandles.published_eq {left right : Handle F}
    {calls : List (Call F)} (alike : AlikeHandles nowMs left right)
    (ordered : OrderedFrom nowMs calls) :
    published settings left calls = published settings right calls := by
  apply EventMachine.outputsFrom_eq_of_simulation (machine settings)
    (fun left right calls =>
      ∃ nowMs, AlikeHandles nowMs left right ∧ OrderedFrom nowMs calls)
  · rintro left right call calls ⟨nowMs, alike, ordered⟩
    obtain ⟨notBefore, -, rest⟩ := orderedFrom_cons.mp ordered
    obtain ⟨sameOutput, stillAlike⟩ := alike.step notBefore
    exact ⟨sameOutput, call.nowMs, stillAlike, rest⟩
  · exact ⟨nowMs, alike, ordered⟩

end Simulation

section OneFrame

variable {latch : HazardLatch}

/-- One update with the bridge's settings. -/
def updated (settings : Settings F) (latch : HazardLatch)
    (items : List (DetectionRecord F)) (nowMs : Nat) : HazardLatch × State :=
  latch.update latchConfig settings.judgeConfig ⟨items, nowMs⟩

variable (settings) in
theorem answer_of_over (items : List (DetectionRecord F))
    (ended : latch.holdRuns nowMs = false) :
    (updated settings latch items nowMs).2 =
      (judgeWorst items settings.judgeConfig
        (latch.settle latchConfig settings.judgeConfig
          ⟨items, nowMs⟩).excludedClass).1 := by
  rw [updated, HazardLatch.update_of_not_holdRuns ended, HazardLatch.judgeFrame]
  split_ifs with stops
  · exact stops.symm
  · rfl

/-- An empty frame is answered `stop` while a hold runs, and `clear`
otherwise. -/
theorem answer_empty :
    (updated settings latch [] nowMs).2 =
      if latch.holdRuns nowMs then .stop else .clear := by
  split_ifs with runs
  · rw [updated, HazardLatch.update_of_holdRuns runs]
  · rw [answer_of_over settings _ (by simpa using runs)]
    rfl

theorem judgeWorst_singleton_of_stop {det : DetectionRecord F}
    (stops : judgeOne det settings.judgeConfig = .stop) (excluded : Int) :
    (judgeWorst [det] settings.judgeConfig excluded).1 =
      if det.classId = excluded then .clear else .stop := by
  simp only [judgeWorst, judgeWorstFrom, stops]
  split_ifs <;> rfl

/-- A frame that shows the latched class alone is suppressed once the hold is
over. -/
theorem answer_latchedClass {det : DetectionRecord F}
    (stops : judgeOne det settings.judgeConfig = .stop)
    (latched : det.classId = latch.latchedClass)
    (notIdle : latch.phase ≠ .idle) (ended : latch.holdRuns nowMs = false) :
    (updated settings latch [det] nowMs).2 = .clear := by
  rw [answer_of_over settings _ ended, judgeWorst_singleton_of_stop stops, if_pos]
  have present : classPresent [det] latch.latchedClass settings.judgeConfig =
      true := by
    have hazard := classId_of_judgeOne_stop stops
    rw [classPresent_iff (by omega)]
    exact ⟨det, List.mem_singleton_self det, latched, by simp [stops]⟩
  rcases HazardLatch.settle_cases latchConfig settings.judgeConfig
    ⟨[det], nowMs⟩ notIdle with
    ⟨-, settled⟩ | ⟨absent, -⟩
  · rw [settled, HazardLatch.excludedClass, if_pos rfl]
    exact latched
  · simp [present] at absent

/-- A frame that shows another class alone stops the robot. -/
theorem answer_otherClass {det : DetectionRecord F}
    (stops : judgeOne det settings.judgeConfig = .stop)
    (other : latch.phase = .idle ∨ det.classId ≠ latch.latchedClass) :
    (updated settings latch [det] nowMs).2 = .stop := by
  cases ended : latch.holdRuns nowMs with
  | true => rw [updated, HazardLatch.update_of_holdRuns ended]
  | false =>
      rw [answer_of_over settings _ ended, judgeWorst_singleton_of_stop stops, if_neg]
      have hazard := classId_of_judgeOne_stop stops
      rcases other with idle | other
      · rw [HazardLatch.settle_of_idle idle, HazardLatch.excludedClass, if_neg]
        · omega
        · simp [idle]
      · rcases HazardLatch.excludedClass_settle latchConfig
          settings.judgeConfig latch ⟨[det], nowMs⟩ with excluded | excluded
        · omega
        · rwa [excluded]

end OneFrame

section EmptyFrames

variable {latch : HazardLatch} {count : Nat}

/-- The latch after some empty frames at one time. -/
def afterEmpty (settings : Settings F) (count nowMs : Nat)
    (latch : HazardLatch) : HazardLatch :=
  (fun latch => (updated settings latch [] nowMs).1)^[count] latch

theorem afterEmpty_succ :
    afterEmpty settings (count + 1) nowMs latch =
      afterEmpty settings count nowMs (updated settings latch [] nowMs).1 :=
  rfl

theorem updated_empty_of_over (ended : latch.holdRuns nowMs = false) :
    (updated settings latch [] nowMs).1 =
      { latch.settle latchConfig settings.judgeConfig ⟨[], nowMs⟩ with
        lastState := .clear } := by
  rw [updated, HazardLatch.update_of_not_holdRuns ended, HazardLatch.judgeFrame]
  rfl

theorem afterEmpty_of_idle (idle : latch.phase = .idle) :
    (afterEmpty settings count nowMs latch).phase = .idle := by
  induction count generalizing latch with
  | zero => exact idle
  | succ count ih =>
      rw [afterEmpty_succ]
      apply ih
      have ended : latch.holdRuns nowMs = false := by
        simp [HazardLatch.holdRuns, idle]
      rw [updated_empty_of_over ended, HazardLatch.settle_of_idle idle]
      exact idle

/-- An empty frame counts for a released latch. -/
theorem updated_empty_of_released (released : latch.phase = .released) :
    (updated settings latch [] nowMs).1 =
      if 3 ≤ (latch.absentFrames + 1) % 2 ^ 32 ∧
          latch.absentSinceMs + 200 ≤ nowMs then
        { latch with
          phase := .idle
          latchedClass := -1
          absentFrames := (latch.absentFrames + 1) % 2 ^ 32
          lastState := .clear }
      else
        { latch with
          absentFrames := (latch.absentFrames + 1) % 2 ^ 32
          lastState := .clear } := by
  have ended : latch.holdRuns nowMs = false := by
    simp [HazardLatch.holdRuns, released]
  have absent : classPresent ([] : List (DetectionRecord F)) latch.latchedClass
      settings.judgeConfig = false := by
    simp [classPresent]
  have due_iff : HazardLatch.releaseDue latchConfig
        { latch with absentFrames := (latch.absentFrames + 1) % 2 ^ 32 } nowMs =
          true ↔
      3 ≤ (latch.absentFrames + 1) % 2 ^ 32 ∧
        latch.absentSinceMs + 200 ≤ nowMs := by
    rw [HazardLatch.releaseDue_iff]
    simp [HazardLatch.Overdue, latchConfig]
  rw [updated_empty_of_over ended, HazardLatch.settle,
    HazardLatch.endHold_of_not_holding (by simp [released]),
    HazardLatch.watchRelease, if_pos released, if_neg (by simp [absent])]
  by_cases due : 3 ≤ (latch.absentFrames + 1) % 2 ^ 32 ∧
      latch.absentSinceMs + 200 ≤ nowMs
  · rw [if_pos due, if_pos (due_iff.mpr due)]
  · rw [if_neg due, if_neg (due ∘ due_iff.mp)]

variable (settings nowMs count) in
/-- While the time bound is not met, empty frames are only counted. -/
theorem afterEmpty_of_waiting (released : latch.phase = .released)
    (inRange : latch.absentFrames < 2 ^ 32)
    (early : nowMs < latch.absentSinceMs + 200) :
    (afterEmpty settings count nowMs latch).phase = .released ∧
      (afterEmpty settings count nowMs latch).absentSinceMs =
        latch.absentSinceMs ∧
      (afterEmpty settings count nowMs latch).absentFrames =
        (latch.absentFrames + count) % 2 ^ 32 := by
  induction count generalizing latch with
  | zero => exact ⟨released, rfl, (Nat.mod_eq_of_lt inRange).symm⟩
  | succ count ih =>
      rw [afterEmpty_succ, updated_empty_of_released released,
        if_neg (by omega)]
      obtain ⟨stillReleased, sameSince, counted⟩ :=
        @ih { latch with
          absentFrames := (latch.absentFrames + 1) % 2 ^ 32
          lastState := .clear } released (Nat.mod_lt _ (by decide)) early
      refine ⟨stillReleased, sameSince, counted.trans ?_⟩
      dsimp only
      omega

variable (settings nowMs count) in
/-- Once the time bound is met, the counter alone says how many empty frames
are left until the release. -/
theorem afterEmpty_of_overdue (released : latch.phase = .released)
    (late : latch.absentSinceMs + 200 ≤ nowMs) :
    (afterEmpty settings count nowMs latch).phase = .idle ↔
      4 ≤ count + min 3 ((latch.absentFrames + 1) % 2 ^ 32) := by
  induction count generalizing latch with
  | zero =>
      have busy : (afterEmpty settings 0 nowMs latch).phase ≠ .idle := by
        simp [afterEmpty, released]
      simp only [busy, false_iff]
      omega
  | succ count ih =>
      rw [afterEmpty_succ, updated_empty_of_released released]
      split_ifs with due
      · simp only [afterEmpty_of_idle, true_iff]
        omega
      · rw [@ih { latch with
          absentFrames := (latch.absentFrames + 1) % 2 ^ 32
          lastState := .clear } released late]
        dsimp only
        omega

end EmptyFrames

section Experiments

/-- The handle after a flush or a forced stop: only the latch and the state are
left of the past. -/
def atRest (latch : HazardLatch) (state : State) : Handle F where
  latch := latch
  state := state

/-- No calls from `nowMs` on can tell the two latches apart. -/
def SameFuture (settings : Settings F) (nowMs : Nat)
    (first second : HazardLatch) : Prop :=
  ∃ firstState secondState, ∀ calls : List (Call F), OrderedFrom nowMs calls →
    published settings (atRest first firstState) calls =
      published settings (atRest second secondState) calls

variable {first second : HazardLatch} {laterMs : Nat}

theorem SameFuture.symm (same : SameFuture settings nowMs first second) :
    SameFuture settings nowMs second first := by
  obtain ⟨firstState, secondState, same⟩ := same
  exact ⟨secondState, firstState, fun calls ordered => (same calls ordered).symm⟩

theorem SameFuture.of_le (same : SameFuture settings nowMs first second)
    (le : nowMs ≤ laterMs) : SameFuture settings laterMs first second := by
  obtain ⟨firstState, secondState, same⟩ := same
  exact ⟨firstState, secondState, fun calls ordered =>
    same calls (ordered.of_le le)⟩

theorem flushFrame_atRest (latch : HazardLatch) (state : State) :
    flushFrame settings (atRest latch state) nowMs =
      (atRest (updated settings latch [] nowMs).1
        (updated settings latch [] nowMs).2,
        (updated settings latch [] nowMs).2) := by
  simp [flushFrame, signSeen, atRest, updated]

variable (nowMs) in
/-- Showing one detection that is judged `stop`, alone in its frame. -/
theorem published_show {bbox : RoiBbox F} {result : RoiResult}
    {det : DetectionRecord F} (latch : HazardLatch) (state : State)
    (seen : observe settings bbox result = .detection det)
    (stops : judgeOne det settings.judgeConfig = .stop) :
    published settings (atRest latch state)
        [.addObservation nowMs bbox result, .flushFrame nowMs] =
      [none, some (updated settings latch [det] nowMs).2] := by
  have room : (atRest latch state : Handle F).pending.items.length <
      kMaxDetections := by
    simp [atRest, kMaxDetections]
  have noSign : signSeen settings.judgeConfig [det] = false := by
    simp [signSeen, stops]
  have added : addObservation settings (atRest latch state) bbox result =
      { latch := latch, state := state,
        pending := Pending.push {} det (by simp [kMaxDetections]) } := by
    rw [addObservation, dif_pos room, seen]
    rfl
  simp only [published, EventMachine.outputsFrom_cons, machine_next,
    machine_emits, step, added]
  simp [flushFrame, Pending.push, noSign, updated]

theorem SameFuture.empty (same : SameFuture settings nowMs first second)
    (notBefore : nowMs ≤ laterMs) (inRange : laterMs < 2 ^ 64) :
    (updated settings first [] laterMs).2 =
        (updated settings second [] laterMs).2 ∧
      SameFuture settings laterMs (updated settings first [] laterMs).1
        (updated settings second [] laterMs).1 := by
  obtain ⟨firstState, secondState, same⟩ := same
  have shown : ∀ calls, OrderedFrom laterMs calls →
      (updated settings first [] laterMs).2 =
          (updated settings second [] laterMs).2 ∧
        published settings (atRest (updated settings first [] laterMs).1
            (updated settings first [] laterMs).2) calls =
          published settings (atRest (updated settings second [] laterMs).1
            (updated settings second [] laterMs).2) calls := by
    intro calls ordered
    have equal := same (.flushFrame laterMs :: calls)
      (orderedFrom_cons.mpr ⟨notBefore, inRange, ordered⟩)
    simpa [published, step, flushFrame_atRest] using equal
  have nothing : OrderedFrom laterMs ([] : List (Call F)) :=
    ⟨List.Pairwise.nil, by simp⟩
  exact ⟨(shown [] nothing).1, _, _, fun calls ordered =>
    (shown calls ordered).2⟩

theorem SameFuture.show {bbox : RoiBbox F} {result : RoiResult}
    {det : DetectionRecord F} (same : SameFuture settings nowMs first second)
    (notBefore : nowMs ≤ laterMs) (inRange : laterMs < 2 ^ 64)
    (seen : observe settings bbox result = .detection det)
    (stops : judgeOne det settings.judgeConfig = .stop) :
    (updated settings first [det] laterMs).2 =
      (updated settings second [det] laterMs).2 := by
  obtain ⟨firstState, secondState, same⟩ := same
  have nothing : OrderedFrom laterMs ([] : List (Call F)) :=
    ⟨List.Pairwise.nil, by simp⟩
  have equal := same
    [.addObservation laterMs bbox result, .flushFrame laterMs]
    (orderedFrom_cons.mpr ⟨notBefore, inRange,
      orderedFrom_cons.mpr ⟨le_rfl, inRange, nothing⟩⟩)
  rw [published_show _ _ _ seen stops, published_show _ _ _ seen stops] at equal
  simpa using equal

theorem SameFuture.afterEmpty (same : SameFuture settings nowMs first second)
    (notBefore : nowMs ≤ laterMs) (inRange : laterMs < 2 ^ 64) (count : Nat) :
    SameFuture settings laterMs (afterEmpty settings count laterMs first)
      (afterEmpty settings count laterMs second) := by
  induction count generalizing nowMs first second with
  | zero => exact same.of_le notBefore
  | succ count ih => exact ih (same.empty notBefore inRange).2 le_rfl

/-- The two holds run up to the same time. -/
theorem SameFuture.holdRuns_eq (same : SameFuture settings nowMs first second)
    (notBefore : nowMs ≤ laterMs) (inRange : laterMs < 2 ^ 64) :
    first.holdRuns laterMs = second.holdRuns laterMs := by
  have equal := (same.empty notBefore inRange).1
  rw [answer_empty, answer_empty] at equal
  cases firstRuns : first.holdRuns laterMs <;>
    cases secondRuns : second.holdRuns laterMs <;>
    simp_all

/-- A latch that has forgotten everything is told apart from one that has not
by the observation the latter remembers. -/
theorem SameFuture.idle_of_idle (same : SameFuture settings nowMs first second)
    (inRange : nowMs < 2 ^ 64) (sound : LatchSound settings laterMs second)
    (idle : first.phase = .idle) : second.phase = .idle := by
  by_contra busy
  obtain ⟨bbox, result, det, seen, stops, latched⟩ := sound.canStop busy
  have firstOver : first.holdRuns nowMs = false := by
    simp [HazardLatch.holdRuns, idle]
  have secondOver : second.holdRuns nowMs = false :=
    (same.holdRuns_eq le_rfl inRange).symm.trans firstOver
  have equal := same.show le_rfl inRange seen stops
  rw [answer_otherClass stops (Or.inl idle),
    answer_latchedClass stops latched busy secondOver] at equal
  exact State.noConfusion equal

theorem SameFuture.idle_iff (same : SameFuture settings nowMs first second)
    (inRange : nowMs < 2 ^ 64) (firstSound : LatchSound settings laterMs first)
    (secondSound : LatchSound settings laterMs second) :
    first.phase = .idle ↔ second.phase = .idle :=
  ⟨same.idle_of_idle inRange secondSound,
    same.symm.idle_of_idle inRange firstSound⟩

/-- After both holds, showing one latched class tells another one apart. -/
theorem SameFuture.latchedClass_eq
    (same : SameFuture settings nowMs first second) (inRange : nowMs < 2 ^ 64)
    (firstSound : LatchSound settings laterMs first)
    (secondSound : LatchSound settings laterMs second)
    (firstBusy : first.phase ≠ .idle) :
    first.latchedClass = second.latchedClass := by
  obtain ⟨bbox, result, det, seen, stops, latched⟩ :=
    firstSound.canStop firstBusy
  have firstUntil := firstSound.holdUntil_lt
  have secondUntil := secondSound.holdUntil_lt
  obtain ⟨endMs, notBefore, endInRange, afterFirst⟩ :
      ∃ endMs, nowMs ≤ endMs ∧ endMs < 2 ^ 64 ∧ first.holdUntilMs ≤ endMs :=
    ⟨max nowMs first.holdUntilMs, by omega, by omega, by omega⟩
  have firstOver : first.holdRuns endMs = false := by
    simp only [HazardLatch.holdRuns, decide_eq_false_iff_not, not_and, not_lt]
    exact fun _ => afterFirst
  have equal := same.show notBefore endInRange seen stops
  rw [answer_latchedClass stops latched firstBusy firstOver] at equal
  by_contra other
  rw [answer_otherClass stops (Or.inr (latched ▸ other))] at equal
  exact State.noConfusion equal

theorem latchSound_afterEmpty {latch : HazardLatch} {count : Nat}
    (sound : LatchSound settings nowMs latch) (le : nowMs ≤ laterMs) :
    LatchSound settings laterMs
      (SafetyBridge.afterEmpty settings count laterMs latch) := by
  induction count generalizing nowMs latch with
  | zero => exact sound.of_le le
  | succ count ih =>
      exact ih ((sound.of_le le).update ⟨[], laterMs⟩ le_rfl
        (by simp)) le_rfl

/-- Empty frames bring both latches to `idle` at the same time. -/
theorem SameFuture.afterEmpty_idle_iff
    (same : SameFuture settings nowMs first second)
    (firstSound : LatchSound settings nowMs first)
    (secondSound : LatchSound settings nowMs second)
    (notBefore : nowMs ≤ laterMs) (inRange : laterMs < 2 ^ 64) (count : Nat) :
    (SafetyBridge.afterEmpty settings count laterMs first).phase = .idle ↔
      (SafetyBridge.afterEmpty settings count laterMs second).phase = .idle :=
  (same.afterEmpty notBefore inRange count).idle_iff inRange
    (latchSound_afterEmpty firstSound notBefore)
    (latchSound_afterEmpty secondSound notBefore)

/-- A latch whose hold is over is told apart from a released one: its absence
is counted from the next frame on. -/
theorem SameFuture.not_holding_released
    (same : SameFuture settings nowMs first second)
    (room : nowMs + 200 < 2 ^ 64)
    (firstSound : LatchSound settings nowMs first)
    (secondSound : LatchSound settings nowMs second)
    (holding : first.phase = .holding) : second.phase ≠ .released := by
  intro released
  have ended : first.holdRuns (nowMs + 200) = false := by
    rw [same.holdRuns_eq (by omega) room]
    simp [HazardLatch.holdRuns, released]
  have secondSince := secondSound.absentSince_le
  have secondIdle := (afterEmpty_of_overdue settings (nowMs + 200) 4 released
    (by omega)).mpr (by omega)
  have firstIdle := (same.afterEmpty_idle_iff firstSound secondSound (by omega)
    room 4).mpr secondIdle
  have firstAfterOne : (updated settings first [] (nowMs + 200)).1 =
      { first with
        phase := .released
        absentFrames := 1
        absentSinceMs := nowMs + 200
        lastState := .clear } := by
    rw [updated_empty_of_over ended]
    simp [HazardLatch.settle, HazardLatch.endHold, holding,
      HazardLatch.watchRelease, classPresent, HazardLatch.releaseDue,
      latchConfig]
  rw [afterEmpty_succ, firstAfterOne] at firstIdle
  have firstReleased : ({ first with
      phase := .released
      absentFrames := 1
      absentSinceMs := nowMs + 200
      lastState := .clear } : HazardLatch).phase = .released := rfl
  have firstBusy := (afterEmpty_of_waiting settings (nowMs + 200) 3
    firstReleased (by dsimp only; omega) (by dsimp only; omega)).1
  rw [firstIdle] at firstBusy
  exact HazardLatch.Phase.noConfusion firstBusy

/-- Of two released latches the one with the older sighting releases first,
unless both time bounds are met already. -/
theorem SameFuture.absentSince_le
    (same : SameFuture settings nowMs first second)
    (room : nowMs + 200 < 2 ^ 64)
    (firstSound : LatchSound settings nowMs first)
    (secondSound : LatchSound settings nowMs second)
    (firstReleased : first.phase = .released)
    (secondReleased : second.phase = .released)
    (early : nowMs < second.absentSinceMs + 200) :
    second.absentSinceMs ≤ first.absentSinceMs := by
  by_contra older
  have firstSince := firstSound.absentSince_le
  obtain ⟨laterMs, notBefore, inRange, firstLate, secondEarly⟩ :
      ∃ laterMs, nowMs ≤ laterMs ∧ laterMs < 2 ^ 64 ∧
        first.absentSinceMs + 200 ≤ laterMs ∧
        laterMs < second.absentSinceMs + 200 :=
    ⟨max nowMs (first.absentSinceMs + 200), by omega, by omega, by omega,
      by omega⟩
  have firstIdle := (afterEmpty_of_overdue settings laterMs 4 firstReleased
    firstLate).mpr (by omega)
  have secondIdle := (same.afterEmpty_idle_iff firstSound secondSound notBefore
    inRange 4).mp firstIdle
  have secondBusy := (afterEmpty_of_waiting settings laterMs 4 secondReleased
    secondSound.absentFrames_lt secondEarly).1
  rw [secondIdle] at secondBusy
  exact HazardLatch.Phase.noConfusion secondBusy

/-- The counters of two released latches whose time bound is not met agree:
some number of empty frames brings one of them just below the bound. -/
theorem SameFuture.absentFrames_eq
    (same : SameFuture settings nowMs first second)
    (room : nowMs + 200 < 2 ^ 64)
    (firstSound : LatchSound settings nowMs first)
    (secondSound : LatchSound settings nowMs second)
    (firstReleased : first.phase = .released)
    (secondReleased : second.phase = .released)
    (sameSince : first.absentSinceMs = second.absentSinceMs)
    (early : nowMs < second.absentSinceMs + 200) :
    first.absentFrames = second.absentFrames := by
  by_contra different
  have firstFrames := firstSound.absentFrames_lt
  have secondFrames := secondSound.absentFrames_lt
  have since := secondSound.absentSince_le
  obtain ⟨count, separates⟩ : ∃ count : Nat,
      ¬ (3 ≤ ((first.absentFrames + count) % 2 ^ 32 + 1) % 2 ^ 32 ↔
        3 ≤ ((second.absentFrames + count) % 2 ^ 32 + 1) % 2 ^ 32) := by
    by_cases close : (second.absentFrames + 2 ^ 32 - first.absentFrames) % 2 ^ 32 ≤
        2 ^ 32 - 3
    · exact ⟨2 ^ 32 + 1 - first.absentFrames, by omega⟩
    · exact ⟨2 ^ 32 - 1 - first.absentFrames, by omega⟩
  obtain ⟨firstStill, firstSince, firstCount⟩ :=
    afterEmpty_of_waiting settings nowMs count firstReleased
      firstFrames (by omega)
  obtain ⟨secondStill, secondSince, secondCount⟩ :=
    afterEmpty_of_waiting settings nowMs count secondReleased
      secondFrames early
  have sameLater := same.afterEmpty le_rfl (by omega) count
  have oneMore := sameLater.afterEmpty_idle_iff
    (latchSound_afterEmpty firstSound le_rfl)
    (latchSound_afterEmpty secondSound le_rfl) early.le (by omega) 1
  rw [afterEmpty_of_overdue _ _ _ firstStill (by omega),
    afterEmpty_of_overdue _ _ _ secondStill (by omega), firstCount, secondCount]
    at oneMore
  apply separates
  omega

/-- Latches that no calls can tell apart are alike. -/
theorem SameFuture.alikeFrom (same : SameFuture settings nowMs first second)
    (room : nowMs + 200 < 2 ^ 64)
    (firstSound : LatchSound settings nowMs first)
    (secondSound : LatchSound settings nowMs second) :
    AlikeFrom latchConfig nowMs first second := by
  have idle_iff := same.idle_iff (by omega) firstSound secondSound
  have sameClass :=
    same.latchedClass_eq (by omega) firstSound secondSound
  cases firstPhase : first.phase with
  | idle => exact .idle firstPhase (idle_iff.mp firstPhase)
  | holding =>
      have firstBusy : first.phase ≠ .idle := by simp [firstPhase]
      cases secondPhase : second.phase with
      | idle => exact absurd (idle_iff.mpr secondPhase) firstBusy
      | released =>
          exact absurd secondPhase
            (same.not_holding_released room firstSound secondSound firstPhase)
      | holding =>
          refine .holding firstPhase secondPhase (sameClass firstBusy) ?_
          by_contra different
          have firstUntil := firstSound.holdUntil_lt
          have secondUntil := secondSound.holdUntil_lt
          obtain ⟨laterMs, firstOver⟩ : ∃ laterMs, laterMs =
              min (max first.holdUntilMs nowMs) (max second.holdUntilMs nowMs) :=
            ⟨_, rfl⟩
          have notBefore : nowMs ≤ laterMs := by omega
          have equal := same.holdRuns_eq notBefore (by omega)
          simp only [HazardLatch.holdRuns, firstPhase, secondPhase, true_and,
            decide_eq_decide] at equal
          omega
  | released =>
      have firstBusy : first.phase ≠ .idle := by simp [firstPhase]
      cases secondPhase : second.phase with
      | idle => exact absurd (idle_iff.mpr secondPhase) firstBusy
      | holding =>
          exact absurd firstPhase (same.symm.not_holding_released room
            secondSound firstSound secondPhase)
      | released =>
          by_cases late : first.absentSinceMs + 200 ≤ nowMs ∧
              second.absentSinceMs + 200 ≤ nowMs
          · refine .overdue firstPhase secondPhase (sameClass firstBusy)
              (Or.inr late.1) (Or.inr late.2) ?_
            by_contra different
            have released := same.afterEmpty_idle_iff firstSound secondSound
              le_rfl (by omega)
            simp only [afterEmpty_of_overdue _ _ _ firstPhase late.1,
              afterEmpty_of_overdue _ _ _ secondPhase late.2] at released
            have firstCount := released
              (4 - min 3 ((first.absentFrames + 1) % 2 ^ 32))
            have secondCount := released
              (4 - min 3 ((second.absentFrames + 1) % 2 ^ 32))
            simp only [latchConfig] at different
            omega
          · have sameSince : first.absentSinceMs = second.absentSinceMs := by
              rcases Nat.lt_trichotomy first.absentSinceMs second.absentSinceMs
                with older | equal | younger
              · have := same.absentSince_le room firstSound secondSound
                  firstPhase secondPhase (by omega)
                omega
              · exact equal
              · have := same.symm.absentSince_le room secondSound firstSound
                  secondPhase firstPhase (by omega)
                omega
            exact .waiting firstPhase secondPhase (sameClass firstBusy) sameSince
              (same.absentFrames_eq room firstSound secondSound firstPhase
                secondPhase sameSince (by omega))

end Experiments

section FirstFrame

/-- The first frame after a forced stop: its observations are added, in order. -/
def collectFrame (settings : Settings F) (handle : Handle F)
    (observations : List (RoiBbox F × RoiResult)) : Handle F :=
  observations.foldl
    (fun handle observation =>
      addObservation settings handle observation.1 observation.2)
    (forceStop handle).1

/-- Whenever something in the first frame after a forced stop is judged `stop`,
the frame is published as `stop`. -/
def FirstFrameStops (settings : Settings F) (handle : Handle F) (nowMs : Nat) :
    Prop :=
  ∀ observations flushMs, nowMs ≤ flushMs → flushMs < 2 ^ 64 →
    (∃ det ∈ (collectFrame settings handle observations).pending.items,
      judgeOne det settings.judgeConfig = .stop) →
    (flushFrame settings (collectFrame settings handle observations)
      flushMs).2 = .stop

variable (settings) in
theorem collectFrame_latch (handle : Handle F)
    (observations : List (RoiBbox F × RoiResult)) :
    (collectFrame settings handle observations).latch = handle.latch := by
  induction observations using List.reverseRecOn with
  | nil => rfl
  | append_singleton observations observation ih =>
      rw [collectFrame, List.foldl_append, ← collectFrame]
      simpa using ih

theorem firstFrameStops_iff {handle : Handle F}
    (inRange : nowMs < 2 ^ 64)
    (sound : LatchSound settings nowMs handle.latch) :
    FirstFrameStops settings handle nowMs ↔ handle.latch.phase = .idle := by
  constructor
  · intro stopsAlways
    by_contra busy
    obtain ⟨bbox, result, det, seen, stops, latched⟩ := sound.canStop busy
    have untilInRange := sound.holdUntil_lt
    obtain ⟨flushMs, notBefore, flushInRange, afterHold⟩ :
        ∃ flushMs, nowMs ≤ flushMs ∧ flushMs < 2 ^ 64 ∧
          handle.latch.holdUntilMs ≤ flushMs :=
      ⟨max nowMs handle.latch.holdUntilMs, by omega, by omega, by omega⟩
    have ended : handle.latch.holdRuns flushMs = false := by
      simp only [HazardLatch.holdRuns, decide_eq_false_iff_not, not_and, not_lt]
      exact fun _ => afterHold
    have shown := published_show flushMs handle.latch .stop seen stops
    rw [answer_latchedClass stops latched busy ended] at shown
    have collected : collectFrame settings handle [(bbox, result)] =
        addObservation settings (atRest handle.latch .stop) bbox result := rfl
    have items : (collectFrame settings handle [(bbox, result)]).pending.items =
        [det] := by
      rw [collected, addObservation, dif_pos (by simp [atRest, kMaxDetections]),
        seen]
      rfl
    have published_clear : (flushFrame settings
        (collectFrame settings handle [(bbox, result)]) flushMs).2 = .clear := by
      simpa [published, step, collected] using shown
    have published_stop := stopsAlways [(bbox, result)] flushMs notBefore
      flushInRange ⟨det, by simp [items], stops⟩
    rw [published_clear] at published_stop
    exact State.noConfusion published_stop
  · rintro idle observations flushMs - - ⟨det, mem, stops⟩
    have idleStill := idle
    rw [← collectFrame_latch settings handle observations] at idleStill
    have ended : (collectFrame settings handle observations).latch.holdRuns
        flushMs = false := by
      simp [HazardLatch.holdRuns, idleStill]
    have hazard := classId_of_judgeOne_stop stops
    have answer := answer_of_over settings
      (collectFrame settings handle observations).pending.items ended
    rw [HazardLatch.settle_of_idle idleStill, HazardLatch.excludedClass,
      if_neg (by simp [idleStill]), judgeWorst_eq_stop_iff.mpr
        ⟨det, mem, by omega, stops⟩, updated] at answer
    have notBelow : ¬ State.stop < State.slow := by decide
    simp only [flushFrame, answer, reduceCtorEq, and_false, if_false,
      State.code_lt_code, notBelow]

end FirstFrame

/-- After a forced stop two handles publish the same, whatever is called, if
and only if their latches are alike; and a car or person judged `stop` in the
first frame after it is published as `stop` if and only if the latch is idle. -/
theorem forceStop_forgets_iff (settings : Settings F)
    (before otherBefore : List (Call F)) (nowMs : Nat)
    (past : ∀ call ∈ before, call.nowMs ≤ nowMs)
    (otherPast : ∀ call ∈ otherBefore, call.nowMs ≤ nowMs)
    (room : nowMs + 200 < 2 ^ 64) :
    ((∀ later, OrderedFrom nowMs later →
        published settings (handleAfter settings before)
            (.forceStop nowMs :: later) =
          published settings (handleAfter settings otherBefore)
            (.forceStop nowMs :: later)) ↔
      AlikeFrom latchConfig nowMs (handleAfter settings before).latch
        (handleAfter settings otherBefore).latch) ∧
    (FirstFrameStops settings (handleAfter settings before) nowMs ↔
      (handleAfter settings before).latch.phase = .idle) := by
  have firstSound := (handleSound_handleAfter settings past).latchSound
  have secondSound := (handleSound_handleAfter settings otherPast).latchSound
  refine ⟨⟨?_, ?_⟩, firstFrameStops_iff (by omega) firstSound⟩
  · intro same
    have sameFuture : SameFuture settings nowMs
        (handleAfter settings before).latch
        (handleAfter settings otherBefore).latch := by
      refine ⟨.stop, .stop, fun later ordered => ?_⟩
      have equal := same later ordered
      simp only [published, EventMachine.outputsFrom_cons,
        List.cons.injEq] at equal
      exact equal.2
    exact sameFuture.alikeFrom room firstSound secondSound
  · intro alike later ordered
    have alikeHandles : AlikeHandles nowMs
        (forceStop (handleAfter settings before)).1
        (forceStop (handleAfter settings otherBefore)).1 := ⟨alike, rfl⟩
    have equal := alikeHandles.published_eq settings ordered
    rw [published, published, EventMachine.outputsFrom_cons,
      EventMachine.outputsFrom_cons]
    exact congrArg (List.cons (some State.stop)) equal

theorem forceStop_forgets_iff_carSeen :
    ¬ FirstFrameStops ({} : Settings ℚ) (handleAfter {}
        [.addObservation 1000 carBbox carResult, .flushFrame 1000]) 5000 := by
  have exact_condition := (forceStop_forgets_iff ({} : Settings ℚ)
    [.addObservation 1000 carBbox carResult, .flushFrame 1000] [] 5000
    (by simp [Call.nowMs]) (by simp) (by decide)).2
  rw [exact_condition]
  decide +kernel

end Adas.Control.SafetyBridge
