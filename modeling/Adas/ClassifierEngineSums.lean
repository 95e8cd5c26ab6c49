import Adas.ClassifierEngine
import Mathlib.Algebra.BigOperators.Ring.Finset

/-!
# The sums of the classifier engine

The reduction trees, the packed products and the lanes of partial sums only
reorder additions.  Each accumulator ends with the exact sum over the 3x3
window and the input channels, and none of its additions overflows.
-/

namespace Adas.ClassifierEngine

open BoundedLoop
open Accum (Collects Reduces Adds)

/-- A bound on the magnitude of one product. -/
abbrev productSize : Nat := 16384

theorem product_bounded (x w : BitVec 8) :
    |x.toInt * w.toInt| ≤ (productSize : Int) := by
  obtain ⟨lower, upper⟩ := toInt_mul_bounds x w
  rw [abs_le]
  exact ⟨lower, upper⟩

section Windows

/-- The sum of a convolution at one position and output channel, with the
weights by row, column and input channel. -/
def windowSum (inCh : Nat) (x w : Nat → Nat → Nat → Int) : Int :=
  ∑ ky ∈ Finset.range 3, ∑ kx ∈ Finset.range 3, ∑ ic ∈ Finset.range inCh,
    x ky kx ic * w ky kx ic

theorem windowSum_congr {inCh : Nat} {x x' w w' : Nat → Nat → Nat → Int}
    (sameX : ∀ ky < 3, ∀ kx < 3, ∀ ic < inCh, x ky kx ic = x' ky kx ic)
    (sameW : ∀ ky < 3, ∀ kx < 3, ∀ ic < inCh, w ky kx ic = w' ky kx ic) :
    windowSum inCh x w = windowSum inCh x' w' := by
  refine Finset.sum_congr rfl fun ky kyIn => Finset.sum_congr rfl fun kx kxIn =>
    Finset.sum_congr rfl fun ic icIn => ?_
  rw [Finset.mem_range] at kyIn kxIn icIn
  rw [sameX ky kyIn kx kxIn ic icIn, sameW ky kyIn kx kxIn ic icIn]

/-- Blocks of eight input channels make up all of them. -/
theorem sum_blocks (value : Nat → Int) (blocks : Nat) :
    ∑ ic ∈ Finset.range (blocks * 8), value ic =
      ∑ block ∈ Finset.range blocks, ∑ i ∈ Finset.range 8,
        value (block * 8 + i) := by
  induction blocks with
  | zero => rfl
  | succ blocks ih =>
      rw [Nat.succ_mul, Finset.sum_range_add, ih]
      exact (Finset.sum_range_succ
        (fun block => ∑ i ∈ Finset.range 8, value (block * 8 + i)) blocks).symm

/-- Summing up each lane of eight first is another order of the same sum. -/
theorem windowSum_lanes (blocks : Nat) (x w : Nat → Nat → Nat → Int) :
    ∑ i ∈ Finset.range 8, ∑ ky ∈ Finset.range 3, ∑ kx ∈ Finset.range 3,
      ∑ block ∈ Finset.range blocks,
        x ky kx (block * 8 + i) * w ky kx (block * 8 + i) =
      windowSum (blocks * 8) x w := by
  rw [Finset.sum_comm, windowSum]
  refine Finset.sum_congr rfl fun ky _ => ?_
  rw [Finset.sum_comm]
  refine Finset.sum_congr rfl fun kx _ => ?_
  rw [Finset.sum_comm, sum_blocks]

end Windows

section Trees

variable {size : Nat} {value : Nat → Int}

/-- An inner node over two neighbouring terms. -/
theorem reduces_pair (p : Nat → Accum 32) (i : Nat) :
    Reduces p (p i + p (i + 1)) i 2 :=
  .join (.leaf i) (.leaf (i + 1))

theorem reduces_eight (p : Nat → Accum 32) (i : Nat) :
    Reduces p ((p i + p (i + 1) + (p (i + 2) + p (i + 3))) +
      (p (i + 4) + p (i + 5) + (p (i + 6) + p (i + 7)))) i 8 := by
  have leftHalf := (reduces_pair p i).join (reduces_pair p (i + 2))
  have rightHalf := (reduces_pair p (i + 4)).join (reduces_pair p (i + 6))
  exact leftHalf.join rightHalf

theorem reduces_reduce8 (v : Nat → Accum 32) : Reduces v (reduce8 v) 0 8 :=
  reduces_eight v 0

theorem reduces_reduce27 (scratch : Scratch) (p : Nat → Accum 32) :
    Reduces p (reduce27 scratch p) 0 27 := by
  have sixteen := (reduces_eight p 0).join (reduces_eight p 8)
  -- The last term joins a level later than its neighbours.
  have eleven := (reduces_eight p 16).join ((reduces_pair p 24).join (.leaf 26))
  exact sixteen.join eleven

theorem reduce8_holds {p : Nat → Accum 32} (holds : ∀ i < 8, (p i).Holds size (value i))
    (room : 8 * size < 2 ^ 31) :
    (reduce8 p).Holds (8 * size) (∑ i ∈ Finset.range 8, value i) := by
  have whole := (reduces_reduce8 p).collects (by simpa using holds) room
  simpa only [Collects, Nat.zero_add] using whole

theorem reduce27_holds {scratch : Scratch} {p : Nat → Accum 32}
    (holds : ∀ i < 27, (p i).Holds size (value i)) (room : 27 * size < 2 ^ 31) :
    (reduce27 scratch p).Holds (27 * size) (∑ i ∈ Finset.range 27, value i) := by
  have whole := (reduces_reduce27 scratch p).collects (by simpa using holds) room
  simpa only [Collects, Nat.zero_add] using whole

/-- Packing loses nothing, and the reduction trees are sums modulo `2^32`,
whatever the accumulators and the storage of the local arrays hold. -/
theorem packing_and_reductions_exact :
    (∀ a wLo wHi, PacksExactly a wLo wHi) ∧
      (∀ v, (reduce8 v).bits.toInt =
        (∑ i ∈ Finset.range 8, (v i).bits.toInt).bmod (2 ^ 32)) ∧
      ∀ scratch p, (reduce27 scratch p).bits.toInt =
        (∑ i ∈ Finset.range 27, (p i).bits.toInt).bmod (2 ^ 32) := by
  refine ⟨packsExactly, fun v => ?_, fun scratch p => ?_⟩
  · have sum := (reduces_reduce8 v).toInt_bits
    simpa only [Nat.zero_add] using sum
  · have sum := (reduces_reduce27 scratch p).toInt_bits
    simpa only [Nat.zero_add] using sum

end Trees

section Conv0

variable {scratch : Scratch} {px w : Fmap}

variable (px w) in
/-- The products of a window lie one after the other. -/
theorem products_set {ky kx ic : Nat} (kyIn : ky < 3) (kxIn : kx < 3)
    (icIn : ic < 3) :
    Sets (fun p : Nat → Accum 32 => p ((ky * 3 + kx) * 3 + ic))
      (forLoop 3 fun ky => forLoop 3 fun kx => forLoop 3 fun ic p =>
        write1 p ((ky * 3 + kx) * 3 + ic)
          (.ofBits ((px ky kx ic).signExtend 32 * (w ky kx ic).signExtend 32)))
      (.ofBits ((px ky kx ic).signExtend 32 * (w ky kx ic).signExtend 32)) := by
  refine .forLoop kyIn (fun ky' _ differs => ?_)
    (.forLoop kxIn (fun kx' _ differs => ?_)
      (.forLoop icIn (fun ic' _ differs p => ?_) fun p => ?_))
  · refine .forLoop fun kx' kxIn' => .forLoop fun ic' icIn' p => ?_
    exact if_neg (by omega)
  · refine .forLoop fun ic' icIn' p => ?_
    exact if_neg (by omega)
  · exact if_neg (by omega)
  · exact if_pos rfl

theorem holds_product (x w : BitVec 8) :
    (Accum.ofBits (x.signExtend 32 * w.signExtend 32)).Holds productSize
      (x.toInt * w.toInt) := by
  have exact_product : (x.signExtend 32 * w.signExtend 32).toInt =
      x.toInt * w.toInt :=
    FixedWidth.toInt_mul_widened _ _ (by decide) (by decide) (by decide)
  exact ⟨exact_product, product_bounded x w, rfl⟩

variable (scratch px w) in
theorem dot27_holds :
    (dot27 scratch px w).Holds (27 * productSize)
      (windowSum 3 (fun ky kx ic => (px ky kx ic).toInt)
        (fun ky kx ic => (w ky kx ic).toInt)) := by
  have window : windowSum 3 (fun ky kx ic => (px ky kx ic).toInt)
      (fun ky kx ic => (w ky kx ic).toInt) =
        ∑ i ∈ Finset.range 27, (px (i / 9) (i / 3 % 3) (i % 3)).toInt *
          (w (i / 9) (i / 3 % 3) (i % 3)).toInt := by
    simp only [windowSum, Finset.sum_range_succ, Finset.sum_range_zero]
    norm_num
    ring
  rw [window]
  refine reduce27_holds (fun i inRange => ?_) (by decide)
  have position : i = (i / 9 * 3 + i / 3 % 3) * 3 + i % 3 := by omega
  have product := products_set px w (by omega : i / 9 < 3)
    (by omega : i / 3 % 3 < 3) (by omega : i % 3 < 3)
  have holds := holds_product (px (i / 9) (i / 3 % 3) (i % 3))
    (w (i / 9) (i / 3 % 3) (i % 3))
  rw [← position] at product
  rw [← product scratch.p] at holds
  exact holds

theorem conv0Lanes_holds (scratch : Scratch) (ifmapLocal : Fmap)
    (wLocal : Weights) {b : Nat → BitVec 32} (oy ox : Nat) {ocBase lane : Nat}
    (small : |(b (ocBase + lane)).toInt| ≤ 2 ^ 30) :
    (conv0Lanes scratch ifmapLocal wLocal b oy ox ocBase lane).Holds
      (2 ^ 30 + 27 * productSize)
      ((b (ocBase + lane)).toInt + windowSum 3
        (fun ky kx ic => (ifmapLocal (oy + ky) (ox + kx) ic).toInt)
        (fun ky kx ic => (wLocal (ocBase + lane) ic ky kx).toInt)) := by
  have dot := dot27_holds scratch
    (load3 3 3 3 (fun ky kx ic => ifmapLocal (oy + ky) (ox + kx) ic)
      scratch.window)
    (load3 3 3 3 (fun ky kx ic => wLocal (ocBase + lane) ic ky kx) scratch.wr)
  rw [windowSum_congr
    (fun ky kyIn kx kxIn ic icIn =>
      congrArg BitVec.toInt (load3_apply kyIn kxIn icIn))
    (fun ky kyIn kx kxIn ic icIn =>
      congrArg BitVec.toInt (load3_apply kyIn kxIn icIn))] at dot
  exact (Accum.holds_ofBits small).add dot (by decide)

end Conv0

section ConvSame

variable {scratch : Scratch} {px cell : Nat → BitVec 8}
  {weight : Nat → Nat → BitVec 8} {o i : Nat}

theorem addPair_keeps {op lane : Nat} (elsewhere : op ≠ o / 2 ∨ lane ≠ i) :
    Keeps (fun sums : Nat → Nat → Accum 32 => sums o i)
      (addPair px weight op lane) := by
  intro sums
  have notLow : ¬ (o = op * 2 ∧ i = lane) := by omega
  have notHigh : ¬ (o = op * 2 + 1 ∧ i = lane) := by omega
  simp [addPair, write2, notLow, notHigh]

theorem macPair_holds (a wLo wHi : BitVec 8) :
    (Accum.ofBits (macPair a wLo wHi).1).Holds productSize
        (a.toInt * wLo.toInt) ∧
      (Accum.ofBits (macPair a wLo wHi).2).Holds productSize
        (a.toInt * wHi.toInt) := by
  obtain ⟨lowExact, highExact⟩ := toInt_macPair a wLo wHi
  exact ⟨⟨lowExact, product_bounded a wLo, rfl⟩,
    ⟨highExact, product_bounded a wHi, rfl⟩⟩

variable (px weight o i) in
/-- Each of the two sums gets the product with its own weight. -/
theorem addPair_adds :
    Adds (fun sums : Nat → Nat → Accum 32 => sums o i)
      (addPair px weight (o / 2) i) productSize
      ((px i).toInt * (weight o i).toInt) := by
  obtain ⟨op, low | high⟩ := Nat.even_or_odd' o
  · have half : o / 2 = op := by omega
    obtain ⟨holds, -⟩ := macPair_holds (px i) (weight (op * 2) i)
      (weight (op * 2 + 1) i)
    rw [half, low, Nat.mul_comm 2 op]
    refine .of_add (fun sums => ?_) holds
    simp [addPair, write2]
  · have half : o / 2 = op := by omega
    obtain ⟨-, holds⟩ := macPair_holds (px i) (weight (op * 2) i)
      (weight (op * 2 + 1) i)
    rw [half, high, Nat.mul_comm 2 op]
    refine .of_add (fun sums => ?_) holds
    simp [addPair, write2]

variable (scratch cell weight) in
theorem addBlock_adds {ocPar : Nat} (even : 2 ∣ ocPar) (oIn : o < ocPar)
    (iIn : i < 8) :
    Adds (fun sums : Nat → Nat → Accum 32 => sums o i)
      (addBlock ocPar scratch cell weight) productSize
      ((cell i).toInt * (weight o i).toInt) := by
  have loaded : load1 8 cell scratch.px i = cell i := load1_apply iIn
  have adds := addPair_adds (load1 8 cell scratch.px) weight o i
  rw [loaded] at adds
  refine .forLoop_once (by omega : o / 2 < ocPar / 2) (fun op _ differs => ?_)
    (.forLoop_once iIn (fun lane _ differs => ?_) adds)
  · exact .forLoop fun lane _ => addPair_keeps (Or.inl differs)
  · exact addPair_keeps (Or.inr differs)

variable {ifmap : Fmap} {wLocal : Weights} {b : Nat → BitVec 32}
  {blocks size ocPar oy ox ocBase : Nat}

/-- The cell under one position of the window; outside the map it is zero. -/
def paddedCell (size : Nat) (ifmap : Fmap) (oy ox ky kx ic : Nat) : BitVec 8 :=
  let iy : Int := oy - 1 + ky
  let ix : Int := ox - 1 + kx
  if 0 ≤ iy ∧ iy < size ∧ 0 ≤ ix ∧ ix < size then
    ifmap iy.toNat ix.toNat ic
  else
    0

variable (scratch ifmap wLocal size oy ox ocBase) in
theorem partialSums_holds (even : 2 ∣ ocPar) (oIn : o < ocPar) (iIn : i < 8)
    (few : blocks ≤ 4) :
    (partialSums (blocks * 8) size ocPar scratch ifmap wLocal oy ox ocBase o
      i).Holds (3 * (3 * (blocks * productSize)))
      (∑ ky ∈ Finset.range 3, ∑ kx ∈ Finset.range 3,
        ∑ block ∈ Finset.range blocks,
          (paddedCell size ifmap oy ox ky kx (block * 8 + i)).toInt *
            (wLocal (ocBase + o) ky kx (block * 8 + i)).toInt) := by
  have adds : Adds (fun sums : Nat → Nat → Accum 32 => sums o i)
      (forLoop 3 fun ky => forLoop 3 fun kx => forLoop blocks fun block =>
        addBlock ocPar scratch
          (fun i => paddedCell size ifmap oy ox ky kx (block * 8 + i))
          (fun o i => wLocal (ocBase + o) ky kx (block * 8 + i)))
      (3 * (3 * (blocks * productSize)))
      (∑ ky ∈ Finset.range 3, ∑ kx ∈ Finset.range 3,
        ∑ block ∈ Finset.range blocks,
          (paddedCell size ifmap oy ox ky kx (block * 8 + i)).toInt *
            (wLocal (ocBase + o) ky kx (block * 8 + i)).toInt) :=
    .forLoop fun ky _ => .forLoop fun kx _ => .forLoop fun block _ =>
      addBlock_adds scratch _ _ even oIn iIn
  have start : (load2 ocPar 8 (fun _ _ => Accum.ofBits 0) scratch.partialSums
      o i).Holds 0 0 := by
    rw [load2_apply oIn iIn]
    exact ⟨rfl, by simp, rfl⟩
  have whole := adds _ 0 0 (by simp only [productSize]; omega) start
  simp only [zero_add] at whole
  simp only [partialSums, forStride_mul (by decide : 0 < 8)]
  exact whole

variable (scratch ifmap wLocal size oy ox) in
theorem convSameLanes_holds (even : 2 ∣ ocPar) (oIn : o < ocPar)
    (few : blocks ≤ 4) (small : |(b (ocBase + o)).toInt| ≤ 2 ^ 30) :
    (convSameLanes (blocks * 8) size ocPar scratch ifmap wLocal b oy ox ocBase
      o).Holds (2 ^ 30 + 8 * (3 * (3 * (blocks * productSize))))
      ((b (ocBase + o)).toInt + windowSum (blocks * 8)
        (fun ky kx ic => (paddedCell size ifmap oy ox ky kx ic).toInt)
        (fun ky kx ic => (wLocal (ocBase + o) ky kx ic).toInt)) := by
  have lanes := reduce8_holds
    (fun i iIn => partialSums_holds scratch ifmap wLocal size oy ox ocBase even
      oIn iIn few)
    (by simp only [productSize]; omega)
  rw [windowSum_lanes blocks
    (fun ky kx ic => (paddedCell size ifmap oy ox ky kx ic).toInt)
    (fun ky kx ic => (wLocal (ocBase + o) ky kx ic).toInt)] at lanes
  exact (Accum.holds_ofBits small).add lanes (by simp only [productSize]; omega)

end ConvSame

end Adas.ClassifierEngine
