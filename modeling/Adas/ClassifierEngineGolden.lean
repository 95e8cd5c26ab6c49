import Adas.ClassifierEngineRows
import Adas.ClassifierEngineSums

/-!
# The classifier engine computes the golden model

Layer by layer, whatever the buffers held before the call, the pooled map that
the engine writes is the one of the golden integer model, and no accumulator
overflows on the way.
-/

namespace Adas.ClassifierEngine

open BoundedLoop GoldenInt8

/-- The layer of the export whose weights are in the order output channel,
input channel, row, column. -/
def LayerParams.oihw (params : LayerParams) : Layer where
  weight oc ic ky kx := (params.w oc ic ky kx).toInt
  bias oc := (params.b oc).toInt
  multiplier := params.rq.multiplier.toInt
  shift := params.rq.shift.toNat

/-- The layer of the export whose weights are in the order output channel, row,
column, input channel. -/
def LayerParams.wpack (params : LayerParams) : Layer where
  weight oc ic ky kx := (params.w oc ky kx ic).toInt
  bias oc := (params.b oc).toInt
  multiplier := params.rq.multiplier.toInt
  shift := params.rq.shift.toNat

/-- The biases and the shift of a layer are in the range that the engine
supports. -/
structure LayerParams.Supported (params : LayerParams) (outCh : Nat) : Prop where
  bias : ∀ oc < outCh, |(params.b oc).toInt| ≤ 2 ^ 30
  shift_ge : 32 ≤ params.rq.shift.toNat
  shift_le : params.rq.shift.toNat ≤ 63

/-- A feature map of the engine has the values of a golden map. -/
def Agrees (size channels : Nat) (ifmap : Fmap) (x : Map) : Prop :=
  ∀ row < size, ∀ col < size, ∀ c < channels, (ifmap row col c).toInt = x row col c

section Layers

variable {size poolSize blocks ocPar : Nat}
  {lanes : Nat → Nat → Nat → Nat → Accum 32} {acc : Map} {bound : Nat}

/-- Accumulators that hold the golden sums give the golden pooled map. -/
theorem fuseRows_golden (rq : Requant) (stream : Stream)
    (positive : 0 < ocPar) (even : size = 2 * poolSize)
    (atLeast : 32 ≤ rq.shift.toNat)
    (holds : ∀ oy < size, ∀ ox < size, ∀ block < blocks, ∀ lane < ocPar,
      (lanes oy ox (block * ocPar) lane).Holds bound
        (acc oy ox (block * ocPar + lane))) :
    Agrees poolSize (blocks * ocPar)
        (fuseRows size poolSize (blocks * ocPar) ocPar lanes
          (fun bits => requantRelu bits rq) stream).pooledOut
        (maxpool2x2 fun row col oc =>
          requantReluClamp (acc row col oc) rq.multiplier.toInt
            rq.shift.toNat) ∧
      (fuseRows size poolSize (blocks * ocPar) ocPar lanes
        (fun bits => requantRelu bits rq) stream).overflowed =
        stream.overflowed := by
  constructor
  · intro row rowIn col colIn c cIn
    have laneIn : c % ocPar < ocPar := Nat.mod_lt c positive
    have blockIn : c / ocPar < blocks := by
      rwa [Nat.div_lt_iff_lt_mul positive]
    have channel : c = c / ocPar * ocPar + c % ocPar :=
      (Nat.div_add_mod' c ocPar).symm
    have cell : ∀ oy < size, ∀ ox < size,
        (requantRelu (lanes oy ox (c / ocPar * ocPar) (c % ocPar)).bits
          rq).toInt = requantReluClamp (acc oy ox c) rq.multiplier.toInt
            rq.shift.toNat := by
      intro oy oyIn ox oxIn
      have sum := holds oy oyIn ox oxIn _ blockIn _ laneIn
      rw [toInt_requantRelu _ _ atLeast, sum.exact, ← channel]
    have pooled := fuseRows_pooledOut lanes (fun bits => requantRelu bits rq)
      stream even rowIn colIn blockIn laneIn
    rw [← channel] at pooled
    rw [pooled, toInt_maxOfFour, cell _ (by omega) _ (by omega),
      cell _ (by omega) _ (by omega), cell _ (by omega) _ (by omega),
      cell _ (by omega) _ (by omega)]
    rfl
  · apply fuseRows_keeps_overflowed positive
    intro oy oyIn ox oxIn block blockIn lane laneIn
    exact (holds oy oyIn ox oxIn block blockIn lane laneIn).sound

variable {ifmap : Fmap} {x : Map} {params : LayerParams}

theorem conv0Lanes_golden (scratch : Scratch) (statics : Conv0Statics)
    (supported : params.Supported 16) (agrees : Agrees 98 3 ifmap x) :
    ∀ oy < 96, ∀ ox < 96, ∀ block < 8, ∀ lane < 2,
      (conv0Lanes scratch (load3 98 98 3 ifmap statics.ifmapLocal)
        (load4 16 3 3 3 params.w statics.wLocal) params.b oy ox (block * 2)
        lane).Holds (2 ^ 30 + 27 * productSize)
        (int8Conv3x3 98 3 0 x params.oihw oy ox (block * 2 + lane)) := by
  intro oy oyIn ox oxIn block blockIn lane laneIn
  have holds := conv0Lanes_holds scratch
    (load3 98 98 3 ifmap statics.ifmapLocal)
    (load4 16 3 3 3 params.w statics.wLocal) oy ox
    (supported.bias (block * 2 + lane) (by omega))
  rw [add_comm (BitVec.toInt _), windowSum_congr
    (fun ky kyIn kx kxIn ic icIn => ?_) (fun ky kyIn kx kxIn ic icIn => ?_)] at holds
  · exact holds
  · rw [load3_apply (by omega) (by omega) icIn]
    exact agrees _ (by omega) _ (by omega) _ icIn
  · rw [load4_apply (by omega) icIn kyIn kxIn]
    rfl

theorem conv0_golden (scratch : Scratch) (statics : Conv0Statics)
    (pooledOut : Fmap) (overflowed : Bool) (supported : params.Supported 16)
    (agrees : Agrees 98 3 ifmap x) :
    Agrees 48 16
        (conv0Pool0Fused scratch statics ifmap params.w params.b params.rq
          pooledOut overflowed).2.1 (runLayer 98 3 0 params.oihw x) ∧
      (conv0Pool0Fused scratch statics ifmap params.w params.b params.rq
        pooledOut overflowed).2.2 = overflowed := by
  have layer := fuseRows_golden params.rq
    ⟨statics.rowBuf, pooledOut, overflowed⟩ (by decide) (by decide : 96 = 2 * 48)
    supported.shift_ge (conv0Lanes_golden scratch statics supported agrees)
  simp only [conv0Pool0Fused, requantReluC0]
  exact layer

/-- The window over the padded map. -/
theorem toInt_paddedCell {channels oy ox ky kx ic : Nat}
    (agrees : Agrees size channels ifmap x) (icIn : ic < channels) :
    (paddedCell size ifmap oy ox ky kx ic).toInt =
      pad size 1 x (oy + ky) (ox + kx) ic := by
  simp only [paddedCell, pad]
  split_ifs with inside inside' inside'
  · rw [agrees _ (by omega) _ (by omega) _ icIn]
    congr 1 <;> omega
  · omega
  · omega
  · rfl

theorem convSameLanes_golden {icBlocks : Nat} (scratch : Scratch)
    (wStatic : Weights) (pairs : 2 ∣ ocPar) (few : icBlocks ≤ 4)
    (supported : params.Supported (blocks * ocPar))
    (agrees : Agrees size (icBlocks * 8) ifmap x) :
    ∀ oy < size, ∀ ox < size, ∀ block < blocks, ∀ lane < ocPar,
      (convSameLanes (icBlocks * 8) size ocPar scratch ifmap
        (load4 (blocks * ocPar) 3 3 (icBlocks * 8) params.w wStatic) params.b
        oy ox (block * ocPar) lane).Holds
        (2 ^ 30 + 8 * (3 * (3 * (icBlocks * productSize))))
        (int8Conv3x3 size (icBlocks * 8) 1 x params.wpack oy ox
          (block * ocPar + lane)) := by
  intro oy oyIn ox oxIn block blockIn lane laneIn
  have channelIn := block_lane_lt blockIn laneIn
  have holds := convSameLanes_holds scratch ifmap
    (load4 (blocks * ocPar) 3 3 (icBlocks * 8) params.w wStatic) size oy ox
    pairs laneIn few (supported.bias (block * ocPar + lane) channelIn)
  rw [add_comm (BitVec.toInt _), windowSum_congr
    (fun ky kyIn kx kxIn ic icIn => toInt_paddedCell agrees icIn)
    (fun ky kyIn kx kxIn ic icIn => ?_)] at holds
  · exact holds
  · rw [load4_apply channelIn kyIn kxIn icIn]
    rfl

variable (size poolSize blocks ocPar) in
theorem convPoolFused_golden (icBlocks : Nat) (scratch : Scratch)
    (statics : ConvSameStatics) (pooledOut : Fmap) (overflowed : Bool)
    (positive : 0 < ocPar) (pairs : 2 ∣ ocPar) (even : size = 2 * poolSize)
    (few : icBlocks ≤ 4) (supported : params.Supported (blocks * ocPar))
    (agrees : Agrees size (icBlocks * 8) ifmap x) :
    Agrees poolSize (blocks * ocPar)
        (convPoolFused (icBlocks * 8) (blocks * ocPar) size poolSize ocPar
          requantRelu scratch statics ifmap params.w params.b params.rq
          pooledOut overflowed).2.1
        (runLayer size (icBlocks * 8) 1 params.wpack x) ∧
      (convPoolFused (icBlocks * 8) (blocks * ocPar) size poolSize ocPar
        requantRelu scratch statics ifmap params.w params.b params.rq
        pooledOut overflowed).2.2 = overflowed := by
  have layer := fuseRows_golden params.rq
    ⟨statics.rowBuf, pooledOut, overflowed⟩ positive even supported.shift_ge
    (convSameLanes_golden scratch statics.wLocal pairs few supported agrees)
  exact layer

theorem conv1_golden (scratch : Scratch) (statics : ConvSameStatics)
    (pooledOut : Fmap) (overflowed : Bool) (supported : params.Supported 32)
    (agrees : Agrees 48 16 ifmap x) :
    Agrees 24 32
        (conv1Pool1Fused scratch statics ifmap params.w params.b params.rq
          pooledOut overflowed).2.1 (runLayer 48 16 1 params.wpack x) ∧
      (conv1Pool1Fused scratch statics ifmap params.w params.b params.rq
        pooledOut overflowed).2.2 = overflowed := by
  have layer := convPoolFused_golden 48 24 2 16 2 scratch statics pooledOut overflowed
    (by decide) (by decide) rfl (by decide) supported agrees
  simp only [conv1Pool1Fused, requantReluC1]
  exact layer

theorem conv2_golden (scratch : Scratch) (statics : ConvSameStatics)
    (pooledOut : Fmap) (overflowed : Bool) (supported : params.Supported 64)
    (agrees : Agrees 24 32 ifmap x) :
    Agrees 12 64
        (conv2Pool2Fused scratch statics ifmap params.w params.b params.rq
          pooledOut overflowed).2.1 (runLayer 24 32 1 params.wpack x) ∧
      (conv2Pool2Fused scratch statics ifmap params.w params.b params.rq
        pooledOut overflowed).2.2 = overflowed := by
  have layer := convPoolFused_golden 24 12 4 16 4 scratch statics pooledOut overflowed
    (by decide) (by decide) rfl (by decide) supported agrees
  simp only [conv2Pool2Fused, requantReluC2]
  exact layer

end Layers

/-- Whatever the static buffers, the local arrays and the output held before
the call, the engine writes the map of the golden model, and none of its 32-bit
accumulators overflows. -/
theorem classifierTop_golden (scratch : Scratch) (statics : EngineStatics)
    (ifmapPadded : Fmap) (conv0 conv1 conv2 : LayerParams) (out : Fmap)
    (supported0 : conv0.Supported c0OutCh) (supported1 : conv1.Supported c1OutCh)
    (supported2 : conv2.Supported c2OutCh) :
    (∀ row < p2OutSize, ∀ col < p2OutSize, ∀ c < c2OutCh,
      ((classifierTop scratch statics ifmapPadded conv0 conv1 conv2 out).out
        row col c).toInt =
        runGolden conv0.oihw conv1.wpack conv2.wpack
          (fun row col c => (ifmapPadded row col c).toInt) row col c) ∧
      (classifierTop scratch statics ifmapPadded conv0 conv1 conv2
        out).overflowed = false := by
  have input : Agrees 98 3 ifmapPadded
      fun row col c => (ifmapPadded row col c).toInt :=
    fun _ _ _ _ _ _ => rfl
  obtain ⟨map0, sound0⟩ := conv0_golden scratch statics.conv0 statics.fmap0p
    false supported0 input
  obtain ⟨map1, sound1⟩ := conv1_golden scratch statics.conv1 statics.fmap1p
    false supported1 map0
  obtain ⟨map2, sound2⟩ := conv2_golden scratch statics.conv2 out false
    supported2 map1
  simp only [classifierTop, sound0, sound1]
  exact ⟨map2, sound2⟩

/-- Storage full of leftovers, with the flags raised. -/
def usedScratch : Scratch where
  window _ _ _ := 90
  wr _ _ _ := 91
  p _ := ⟨92, true⟩
  s1 _ := ⟨93, true⟩
  s2 _ := ⟨94, true⟩
  s3 _ := ⟨95, true⟩
  s4 _ := ⟨96, true⟩
  px _ := 97
  partialSums _ _ := ⟨98, true⟩

def usedStatics : EngineStatics where
  conv0 := ⟨fun _ _ _ => 80, fun _ _ _ _ => 81, fun _ _ _ => 82⟩
  conv1 := ⟨fun _ _ _ _ => 83, fun _ _ _ => 84⟩
  conv2 := ⟨fun _ _ _ _ => 85, fun _ _ _ => 86⟩
  fmap0p _ _ _ := 87
  fmap1p _ _ _ := 88

/-- Adds all 27 cells of a window and divides by four. -/
def boxLayer : LayerParams where
  w _ _ _ _ := 1
  b _ := 10
  rq := ⟨0x40000000, 32⟩

/-- Takes the cell in the middle of a window from the first channel, and
subtracts the number of the output channel. -/
def middleLayer : LayerParams where
  w _ ky kx ic := if ky = 1 ∧ kx = 1 ∧ ic = 0 then 2 else 0
  b oc := -BitVec.ofNat 32 oc
  rq := ⟨0x40000000, 32⟩

theorem int8Conv3x3_middleLayer {size channels row col : Nat} (x : Map) (oc : Nat)
    (rowIn : row < size) (colIn : col < size) (positive : 0 < channels) :
    int8Conv3x3 size channels 1 x middleLayer.wpack row col oc =
      x row col 0 * 2 + (middleLayer.b oc).toInt := by
  have weights : ∀ ky kx ic : Nat,
      middleLayer.wpack.weight oc ic ky kx =
        if ky = 1 then if kx = 1 then if ic = 0 then 2 else 0 else 0 else 0 := by
    intro ky kx ic
    simp only [LayerParams.wpack, middleLayer]
    split_ifs <;> first | rfl | omega
  have cell : pad size 1 x (row + 1) (col + 1) 0 = x row col 0 := by
    rw [pad, if_pos (by omega), Nat.add_sub_cancel, Nat.add_sub_cancel]
  simp only [int8Conv3x3, one_ne_zero, if_false, weights, mul_ite, mul_zero,
    Finset.sum_ite_irrel, Finset.sum_ite_eq', Finset.sum_const_zero,
    Finset.mem_range, if_pos positive, cell]
  rfl

/-- A call on storage in use: 64 in each window of the first layer gives 16, and
the other two layers give 8 in channel 0 and 3 in channel 1. -/
theorem classifierTop_golden_boxMiddle :
    ((classifierTop usedScratch usedStatics (fun _ _ _ => 2) boxLayer middleLayer
      middleLayer fun _ _ _ => 89).out 5 5 1).toInt = 3 ∧
      (classifierTop usedScratch usedStatics (fun _ _ _ => 2) boxLayer middleLayer
        middleLayer fun _ _ _ => 89).overflowed = false := by
  obtain ⟨map, sound⟩ := classifierTop_golden usedScratch usedStatics
    (fun _ _ _ => 2) boxLayer middleLayer middleLayer (fun _ _ _ => 89)
    ⟨by decide, by decide, by decide⟩ ⟨by decide, by decide, by decide⟩
    ⟨by decide, by decide, by decide⟩
  refine ⟨(map 5 (by decide) 5 (by decide) 1 (by decide)).trans ?_, sound⟩
  have box : runLayer 98 3 0 boxLayer.oihw (fun _ _ _ => 2) =
      fun _ _ _ => 16 := by
    funext row col c
    simp only [runLayer, maxpool2x2, int8Conv3x3, LayerParams.oihw, boxLayer]
    rfl
  have middle : ∀ row < 24, ∀ col < 24,
      runLayer 48 16 1 middleLayer.wpack (fun _ _ _ => 16) row col 0 = 8 := by
    intro row rowIn col colIn
    simp (disch := omega) only [runLayer, maxpool2x2, int8Conv3x3_middleLayer]
    rfl
  have input : (fun _ _ _ => (2 : BitVec 8).toInt : Map) = fun _ _ _ => 2 := rfl
  rw [runGolden, input, box, runLayer]
  simp (disch := omega) only [maxpool2x2, int8Conv3x3_middleLayer, middle]
  rfl

end Adas.ClassifierEngine
