import Mathlib.Data.List.Perm.Basic

/-!
# What is held

A program acquires resources, uses them and releases them.  The ledger follows a log
of this and refuses the log at the first release or use of something that is not held.
-/

/-- An entry of a log. -/
inductive LedgerEntry (Resource : Type*) where
  | acquire (resource : Resource)
  | release (resource : Resource)
  | use (resource : Resource)

namespace LedgerEntry

variable {Resource : Type*} [DecidableEq Resource]

/-- What is held after an entry. -/
def apply (held : List Resource) : LedgerEntry Resource → Option (List Resource)
  | .acquire resource => some (held ++ [resource])
  | .release resource => if resource ∈ held then some (held.erase resource) else none
  | .use resource => if resource ∈ held then some held else none

/-- What is held after a log; `none` if the log is refused. -/
def replay (held : List Resource) (log : List (LedgerEntry Resource)) :
    Option (List Resource) :=
  log.foldlM apply held

variable {held other : List Resource} {log more : List (LedgerEntry Resource)}

/-- The log is taken, and what is held then are the resources of a list. -/
def Leaves (held : List Resource) (log : List (LedgerEntry Resource))
    (resources : List Resource) : Prop :=
  ∃ after, replay held log = some after ∧ after.Perm resources

theorem leaves_nil (same : held.Perm other) : Leaves held [] other :=
  ⟨held, rfl, same⟩

theorem leaves_acquire (resource : Resource) :
    Leaves held [.acquire resource] (held ++ [resource]) :=
  ⟨held ++ [resource], rfl, List.Perm.refl _⟩

theorem leaves_uses {resources : List Resource}
    (areHeld : ∀ resource ∈ resources, resource ∈ held) :
    Leaves held (resources.map LedgerEntry.use) held := by
  refine ⟨held, ?_, List.Perm.refl _⟩
  induction resources with
  | nil => rfl
  | cons resource resources ih =>
      have isHeld : resource ∈ held := areHeld resource List.mem_cons_self
      have rest := ih fun other isOther => areHeld other (List.mem_cons_of_mem _ isOther)
      rw [replay, List.map_cons, List.foldlM_cons, apply, if_pos isHeld]
      exact rest

theorem leaves_release {resource : Resource} (same : held.Perm (resource :: other)) :
    Leaves held [.release resource] other := by
  have isHeld : resource ∈ held := same.mem_iff.mpr List.mem_cons_self
  refine ⟨held.erase resource, by simp [replay, apply, isHeld], ?_⟩
  have erased := same.erase resource
  rwa [List.erase_cons_head] at erased

theorem Leaves.congr {resources same : List Resource} (leaves : Leaves held log resources)
    (perm : resources.Perm same) : Leaves held log same := by
  obtain ⟨after, taken, isAfter⟩ := leaves
  exact ⟨after, taken, isAfter.trans perm⟩

/-- The order in which things are held does not matter. -/
theorem apply_perm (same : held.Perm other) {entry : LedgerEntry Resource}
    {after : List Resource} (taken : apply held entry = some after) :
    ∃ afterOther, apply other entry = some afterOther ∧ after.Perm afterOther := by
  cases entry with
  | acquire resource =>
      obtain rfl := Option.some.inj taken
      exact ⟨_, rfl, same.append_right _⟩
  | release resource =>
      rw [apply] at taken
      split_ifs at taken with isHeld
      obtain rfl := Option.some.inj taken
      exact ⟨_, if_pos (same.mem_iff.mp isHeld), same.erase resource⟩
  | use resource =>
      rw [apply] at taken
      split_ifs at taken with isHeld
      obtain rfl := Option.some.inj taken
      exact ⟨_, if_pos (same.mem_iff.mp isHeld), same⟩

theorem replay_perm (same : held.Perm other) {after : List Resource}
    (taken : replay held log = some after) :
    ∃ afterOther, replay other log = some afterOther ∧ after.Perm afterOther := by
  induction log generalizing held other with
  | nil =>
      obtain rfl := Option.some.inj taken
      exact ⟨other, rfl, same⟩
  | cons entry log ih =>
      rw [replay, List.foldlM_cons] at taken
      obtain ⟨next, isNext, rest⟩ := Option.bind_eq_some_iff.mp taken
      obtain ⟨nextOther, isNextOther, sameNext⟩ := apply_perm same isNext
      obtain ⟨afterOther, restOther, sameAfter⟩ := ih sameNext rest
      refine ⟨afterOther, ?_, sameAfter⟩
      rw [replay, List.foldlM_cons]
      exact Option.bind_eq_some_iff.mpr ⟨nextOther, isNextOther, restOther⟩

/-- One log after the other. -/
theorem Leaves.append {middle last : List Resource} (first : Leaves held log middle)
    (second : Leaves middle more last) : Leaves held (log ++ more) last := by
  obtain ⟨after, taken, same⟩ := first
  obtain ⟨afterMore, takenMore, sameMore⟩ := second
  obtain ⟨afterOther, takenOther, sameOther⟩ := replay_perm same.symm takenMore
  refine ⟨afterOther, ?_, sameOther.symm.trans sameMore⟩
  rw [replay, List.foldlM_append]
  exact Option.bind_eq_some_iff.mpr ⟨after, taken, takenOther⟩

/-- Everything can be released, in any order. -/
theorem leaves_releases {resources : List Resource} (same : held.Perm resources) :
    Leaves held (resources.map LedgerEntry.release) [] := by
  induction resources generalizing held with
  | nil => exact leaves_nil same
  | cons resource resources ih =>
      exact (leaves_release same).append (ih (List.Perm.refl resources))

/-- Nothing is held. -/
theorem Leaves.replay_eq (leaves : Leaves held log ([] : List Resource)) :
    replay held log = some [] := by
  obtain ⟨after, taken, same⟩ := leaves
  rw [taken, same.eq_nil]

end LedgerEntry
