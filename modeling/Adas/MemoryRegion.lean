import Adas.RowMajor

/-!
# Regions of a flat memory

A memory is a function of the address, and a region is a run of addresses.  A
copy into a region changes that region and nothing else, so what other regions
hold stays.  Registers are a memory of words in which a loop fills one address
after the other, a word apart.
-/

/-- The addresses from `base` on, `size` of them. -/
structure MemoryRegion where
  base : Nat
  size : Nat
  deriving DecidableEq, Repr

namespace MemoryRegion

open BoundedLoop RowMajor

variable {Cell : Type*}

/-- The address is in the region. -/
def Contains (region : MemoryRegion) (address : Nat) : Prop :=
  region.base ≤ address ∧ address < region.base + region.size

instance (region : MemoryRegion) (address : Nat) :
    Decidable (region.Contains address) :=
  inferInstanceAs (Decidable (_ ∧ _))

/-- One region ends before the other begins. -/
def Disjoint (region other : MemoryRegion) : Prop :=
  region.base + region.size ≤ other.base ∨ other.base + other.size ≤ region.base

instance (region other : MemoryRegion) : Decidable (region.Disjoint other) :=
  inferInstanceAs (Decidable (_ ∨ _))

/-- What the memory holds in the region. -/
def read (region : MemoryRegion) (memory : Nat → Cell) : Nat → Cell :=
  fun i => memory (region.base + i)

/-- `memcpy` of as many cells as the region has. -/
def copy (region : MemoryRegion) (source memory : Nat → Cell) : Nat → Cell :=
  fun address =>
    if region.Contains address then source (address - region.base)
    else memory address

/-- The region holds the cells of `source`. -/
def Holds (region : MemoryRegion) (memory source : Nat → Cell) : Prop :=
  ∀ i < region.size, region.read memory i = source i

variable {region other : MemoryRegion} {memory source : Nat → Cell}

theorem contains_add {i : Nat} (inside : i < region.size) :
    region.Contains (region.base + i) :=
  ⟨Nat.le_add_right _ _, Nat.add_lt_add_left inside _⟩

theorem Disjoint.notContains (disjoint : region.Disjoint other) {address : Nat}
    (inside : region.Contains address) : ¬ other.Contains address := by
  rintro ⟨lower, upper⟩
  obtain ⟨from_, below⟩ := inside
  rcases disjoint with before | after <;> omega

theorem copy_of_notContains {address : Nat} (outside : ¬ region.Contains address) :
    region.copy source memory address = memory address :=
  if_neg outside

/-- After a copy the region holds its source. -/
theorem holds_copy (region : MemoryRegion) (source memory : Nat → Cell) :
    region.Holds (region.copy source memory) source := by
  intro i inside
  rw [read, copy, if_pos (contains_add inside), Nat.add_sub_cancel_left]

/-- A copy leaves what a region next to it holds. -/
theorem Holds.copy {held : Nat → Cell} (holds : region.Holds memory held)
    (disjoint : region.Disjoint other) :
    region.Holds (other.copy source memory) held := by
  intro i inside
  rw [read, copy_of_notContains (disjoint.notContains (contains_add inside))]
  exact holds i inside

/-- A memory that agrees in the region holds the same there. -/
theorem Holds.congr {held changed : Nat → Cell} (holds : region.Holds memory held)
    (same : ∀ address, region.Contains address → changed address = memory address) :
    region.Holds changed held := by
  intro i inside
  rw [read, same _ (contains_add inside)]
  exact holds i inside

section Words

/-- A loop that stores a word every `width` addresses. -/
def writeWords (width base count : Nat) (words : Nat → Cell) :
    (Nat → Cell) → Nat → Cell :=
  forLoop count fun i memory => write1 memory (base + i * width) (words i)

variable {width base count : Nat} {words : Nat → Cell}

/-- Every word is where it was stored. -/
theorem writeWords_apply (positive : 0 < width) {i : Nat} (inside : i < count) :
    writeWords width base count words memory (base + i * width) = words i := by
  have sets : Sets (fun memory : Nat → Cell => memory (base + i * width))
      (writeWords width base count words) (words i) := by
    refine .forLoop inside (fun other _ differs memory => ?_) fun memory => ?_
    · have apart : base + i * width ≠ base + other * width := by
        intro same
        exact differs (Nat.eq_of_mul_eq_mul_right positive (by omega))
      exact if_neg apart
    · exact if_pos rfl
  exact sets memory

/-- A word outside of the region that is filled stays. -/
theorem writeWords_of_notContains {address : Nat}
    (outside : ¬ (⟨base, count * width⟩ : MemoryRegion).Contains address)
    (positive : 0 < width) :
    writeWords width base count words memory address = memory address := by
  have keeps : ∀ i < count, Keeps (fun memory : Nat → Cell => memory address)
      fun memory => write1 memory (base + i * width) (words i) := by
    intro i inside memory
    have within : i * width < count * width :=
      Nat.mul_lt_mul_of_pos_right inside positive
    have apart : address ≠ base + i * width := by
      rintro rfl
      exact outside ⟨Nat.le_add_right _ _, Nat.add_lt_add_left within _⟩
    exact if_neg apart
  exact Keeps.forLoop keeps memory

end Words

end MemoryRegion
