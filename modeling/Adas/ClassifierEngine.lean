import Adas.MacPair

/-!
# The classifier engine

Three convolutions with requantization, each followed by a 2x2 maximum pool.
The loops, the tiling over output and input channels and the order of the sums
are those of the hardware description.  A convolution keeps two rows and pools
them as soon as a pair is complete.  Static buffers keep their contents between
calls, and local arrays start with whatever their storage holds; both are
arguments here.  Accumulators carry a ghost flag for overflow, and a call
reports whether any flag was raised.
-/

namespace Adas.ClassifierEngine

open BoundedLoop

abbrev K : Nat := 3
abbrev c0PadSize : Nat := 98
abbrev c0InCh : Nat := 3
abbrev c0OutCh : Nat := 16
abbrev c0OutSize : Nat := 96
abbrev p0OutSize : Nat := 48
abbrev c1InCh : Nat := 16
abbrev c1OutCh : Nat := 32
abbrev c1Size : Nat := 48
abbrev p1OutSize : Nat := 24
abbrev c2InCh : Nat := 32
abbrev c2OutCh : Nat := 64
abbrev c2Size : Nat := 24
abbrev p2OutSize : Nat := 12

abbrev c0OcPar : Nat := 2
abbrev csIcPar : Nat := 8
abbrev c1OcPar : Nat := 16
abbrev c2OcPar : Nat := 16

/-- A feature map by row, column and channel. -/
abbrev Fmap := Nat → Nat → Nat → BitVec 8

/-- Weights by their four indices, in the order of the layer. -/
abbrev Weights := Nat → Nat → Nat → Nat → BitVec 8

structure Requant where
  multiplier : BitVec 32
  shift : BitVec 8
  deriving DecidableEq, Repr

/-- What the storage of the local arrays holds. -/
structure Scratch where
  window : Fmap
  wr : Fmap
  p : Nat → Accum 32
  s1 : Nat → Accum 32
  s2 : Nat → Accum 32
  s3 : Nat → Accum 32
  s4 : Nat → Accum 32
  px : Nat → BitVec 8
  partialSums : Nat → Nat → Accum 32

section Sums

def reduce8 (v : Nat → Accum 32) : Accum 32 :=
  let s01 := v 0 + v 1
  let s23 := v 2 + v 3
  let s45 := v 4 + v 5
  let s67 := v 6 + v 7
  let s0123 := s01 + s23
  let s4567 := s45 + s67
  s0123 + s4567

def reduce27 (scratch : Scratch) (p : Nat → Accum 32) : Accum 32 :=
  let s1 := write1 (load1 13 (fun i => p (2 * i) + p (2 * i + 1)) scratch.s1)
    13 (p 26)
  let s2 := load1 7 (fun i => s1 (2 * i) + s1 (2 * i + 1)) scratch.s2
  let s3 := write1 (load1 3 (fun i => s2 (2 * i) + s2 (2 * i + 1)) scratch.s3)
    3 (s2 6)
  let s4 := write1 (write1 scratch.s4 0 (s3 0 + s3 1)) 1 (s3 2 + s3 3)
  s4 0 + s4 1

def dot27 (scratch : Scratch) (px w : Fmap) : Accum 32 :=
  let p := forLoop K (fun ky => forLoop K fun kx => forLoop c0InCh fun ic p =>
    let idx := (ky * K + kx) * c0InCh + ic
    write1 p idx
      (.ofBits ((px ky kx ic).signExtend 32 * (w ky kx ic).signExtend 32)))
    scratch.p
  reduce27 scratch p

end Sums

section Requantization

/-- The two comparisons and the final cast. -/
def clampRelu (requantized : BitVec 32) : BitVec 8 :=
  let rectified := if requantized.slt 0 then 0 else requantized
  let clamped := if BitVec.slt 127 rectified then 127 else rectified
  clamped.setWidth 8

/-- Multiply, shift right, then clamp.  The three layers use one formula with
multipliers of different latency. -/
def requantRelu (acc : BitVec 32) (rq : Requant) : BitVec 8 :=
  let scaled : BitVec 64 := acc.signExtend 64 * rq.multiplier.signExtend 64
  clampRelu ((scaled.sshiftRight rq.shift.toNat).setWidth 32)

def requantReluC0 : BitVec 32 → Requant → BitVec 8 := requantRelu

def requantReluC1 : BitVec 32 → Requant → BitVec 8 := requantRelu

def requantReluC2 : BitVec 32 → Requant → BitVec 8 := requantRelu

end Requantization

section RowPairs

/-- The buffer of two rows, the pooled map written so far, and whether an
accumulator has overflowed. -/
structure Stream where
  rowBuf : Fmap
  pooledOut : Fmap
  overflowed : Bool

/-- The maximum of four cells of the two rows. -/
def maxOfFour (rowBuf : Fmap) (outCol c : Nat) : BitVec 8 :=
  let v00 := rowBuf 0 (outCol * 2) c
  let v01 := rowBuf 0 (outCol * 2 + 1) c
  let v10 := rowBuf 1 (outCol * 2) c
  let v11 := rowBuf 1 (outCol * 2 + 1) c
  let m := v00
  let m := if m.slt v01 then v01 else m
  let m := if m.slt v10 then v10 else m
  if m.slt v11 then v11 else m

def poolRow (poolSize channels outRow : Nat) (rowBuf : Fmap) : Fmap → Fmap :=
  forLoop poolSize fun outCol => forLoop channels fun c pooledOut =>
    write3 pooledOut outRow outCol c (maxOfFour rowBuf outCol c)

/-- One row of a convolution: `lanes` computes the accumulators of a block of
output channels at one position. -/
def computeRow (size outCh ocPar oy : Nat)
    (lanes : Nat → Nat → Nat → Nat → Accum 32)
    (requant : BitVec 32 → BitVec 8) : Stream → Stream :=
  forLoop size fun ox => forStride outCh ocPar fun ocBase =>
    let accs := lanes oy ox ocBase
    forLoop ocPar fun lane stream =>
      { stream with
        rowBuf := write3 stream.rowBuf (oy % 2) ox (ocBase + lane)
          (requant (accs lane).bits)
        overflowed := stream.overflowed || (accs lane).overflowed }

/-- One row, and the pool of the pair that a row with an odd number completes. -/
def fuseRow (size poolSize outCh ocPar : Nat)
    (lanes : Nat → Nat → Nat → Nat → Accum 32)
    (requant : BitVec 32 → BitVec 8) (oy : Nat) (stream : Stream) : Stream :=
  let computed := computeRow size outCh ocPar oy lanes requant stream
  if oy % 2 = 1 then
    { computed with
      pooledOut := poolRow poolSize outCh (oy / 2) computed.rowBuf
        computed.pooledOut }
  else
    computed

def fuseRows (size poolSize outCh ocPar : Nat)
    (lanes : Nat → Nat → Nat → Nat → Accum 32)
    (requant : BitVec 32 → BitVec 8) : Stream → Stream :=
  forLoop size (fuseRow size poolSize outCh ocPar lanes requant)

end RowPairs

section Conv0

structure Conv0Statics where
  ifmapLocal : Fmap
  wLocal : Weights
  rowBuf : Fmap

/-- The accumulators of the output channels from `ocBase` on.  The weights are
in the order output channel, input channel, row, column. -/
def conv0Lanes (scratch : Scratch) (ifmapLocal : Fmap) (wLocal : Weights)
    (b : Nat → BitVec 32) (oy ox ocBase : Nat) : Nat → Accum 32 :=
  let px := load3 K K c0InCh
    (fun ky kx ic => ifmapLocal (oy + ky) (ox + kx) ic) scratch.window
  fun lane =>
    let wr := load3 K K c0InCh
      (fun ky kx ic => wLocal (ocBase + lane) ic ky kx) scratch.wr
    .ofBits (b (ocBase + lane)) + dot27 scratch px wr

def conv0Pool0Fused (scratch : Scratch) (statics : Conv0Statics) (ifmap : Fmap)
    (w : Weights) (b : Nat → BitVec 32) (rq : Requant) (pooledOut : Fmap)
    (overflowed : Bool) : Conv0Statics × Fmap × Bool :=
  let ifmapLocal :=
    load3 c0PadSize c0PadSize c0InCh ifmap statics.ifmapLocal
  let wLocal := load4 c0OutCh c0InCh K K w statics.wLocal
  let stream := fuseRows c0OutSize p0OutSize c0OutCh c0OcPar
    (conv0Lanes scratch ifmapLocal wLocal b) (fun acc => requantReluC0 acc rq)
    ⟨statics.rowBuf, pooledOut, overflowed⟩
  (⟨ifmapLocal, wLocal, stream.rowBuf⟩, stream.pooledOut, stream.overflowed)

end Conv0

section ConvSame

structure ConvSameStatics where
  wLocal : Weights
  rowBuf : Fmap

/-- One multiplication reaches the sums of two output channels. -/
def addPair (px : Nat → BitVec 8) (weight : Nat → Nat → BitVec 8) (op i : Nat)
    (sums : Nat → Nat → Accum 32) : Nat → Nat → Accum 32 :=
  let oLo := op * 2
  let oHi := op * 2 + 1
  let products := macPair (px i) (weight oLo i) (weight oHi i)
  let sums := write2 sums oLo i (sums oLo i + .ofBits products.1)
  write2 sums oHi i (sums oHi i + .ofBits products.2)

/-- The lanes of a block of input channels: the cells are loaded once and used
for every output channel. -/
def addBlock (ocPar : Nat) (scratch : Scratch) (cell : Nat → BitVec 8)
    (weight : Nat → Nat → BitVec 8) :
    (Nat → Nat → Accum 32) → Nat → Nat → Accum 32 :=
  let px := load1 csIcPar cell scratch.px
  forLoop (ocPar / 2) fun op => forLoop csIcPar fun i => addPair px weight op i

/-- The sums of a block of output channels, one for each lane of the input
channels.  The weights are in the order output channel, row, column, input
channel, and cells outside the map count as zero. -/
def partialSums (inCh size ocPar : Nat) (scratch : Scratch) (ifmap : Fmap)
    (wLocal : Weights) (oy ox ocBase : Nat) : Nat → Nat → Accum 32 :=
  let zeroed := load2 ocPar csIcPar (fun _ _ => .ofBits 0) scratch.partialSums
  forLoop K (fun ky => forLoop K fun kx =>
    let iy : Int := oy - 1 + ky
    let ix : Int := ox - 1 + kx
    let inBounds := 0 ≤ iy ∧ iy < size ∧ 0 ≤ ix ∧ ix < size
    forStride inCh csIcPar fun icBase =>
      addBlock ocPar scratch
        (fun i => if inBounds then ifmap iy.toNat ix.toNat (icBase + i) else 0)
        (fun o i => wLocal (ocBase + o) ky kx (icBase + i))) zeroed

def convSameLanes (inCh size ocPar : Nat) (scratch : Scratch) (ifmap : Fmap)
    (wLocal : Weights) (b : Nat → BitVec 32) (oy ox ocBase : Nat) :
    Nat → Accum 32 :=
  let sums := partialSums inCh size ocPar scratch ifmap wLocal oy ox ocBase
  fun o => .ofBits (b (ocBase + o)) + reduce8 (sums o)

/-- A convolution that pads its input, streamed into its pool. -/
def convPoolFused (inCh outCh size poolSize ocPar : Nat)
    (requant : BitVec 32 → Requant → BitVec 8) (scratch : Scratch)
    (statics : ConvSameStatics) (ifmap : Fmap) (w : Weights)
    (b : Nat → BitVec 32) (rq : Requant) (pooledOut : Fmap)
    (overflowed : Bool) : ConvSameStatics × Fmap × Bool :=
  let wLocal := load4 outCh K K inCh w statics.wLocal
  let stream := fuseRows size poolSize outCh ocPar
    (convSameLanes inCh size ocPar scratch ifmap wLocal b)
    (fun acc => requant acc rq) ⟨statics.rowBuf, pooledOut, overflowed⟩
  (⟨wLocal, stream.rowBuf⟩, stream.pooledOut, stream.overflowed)

def conv1Pool1Fused : Scratch → ConvSameStatics → Fmap → Weights →
    (Nat → BitVec 32) → Requant → Fmap → Bool → ConvSameStatics × Fmap × Bool :=
  convPoolFused c1InCh c1OutCh c1Size p1OutSize c1OcPar requantReluC1

def conv2Pool2Fused : Scratch → ConvSameStatics → Fmap → Weights →
    (Nat → BitVec 32) → Requant → Fmap → Bool → ConvSameStatics × Fmap × Bool :=
  convPoolFused c2InCh c2OutCh c2Size p2OutSize c2OcPar requantReluC2

end ConvSame

/-- The weights, biases and requantization of one layer. -/
structure LayerParams where
  w : Weights
  b : Nat → BitVec 32
  rq : Requant

structure EngineStatics where
  conv0 : Conv0Statics
  conv1 : ConvSameStatics
  conv2 : ConvSameStatics
  fmap0p : Fmap
  fmap1p : Fmap

/-- What a call of the engine leaves behind. -/
structure EngineRun where
  statics : EngineStatics
  out : Fmap
  overflowed : Bool

def classifierTop (scratch : Scratch) (statics : EngineStatics)
    (ifmapPadded : Fmap) (conv0 conv1 conv2 : LayerParams) (out : Fmap) :
    EngineRun :=
  let run0 := conv0Pool0Fused scratch statics.conv0 ifmapPadded conv0.w conv0.b
    conv0.rq statics.fmap0p false
  let run1 := conv1Pool1Fused scratch statics.conv1 run0.2.1 conv1.w conv1.b
    conv1.rq statics.fmap1p run0.2.2
  let run2 := conv2Pool2Fused scratch statics.conv2 run1.2.1 conv2.w conv2.b
    conv2.rq out run1.2.2
  { statics := ⟨run0.1, run1.1, run2.1, run0.2.1, run1.2.1⟩
    out := run2.2.1
    overflowed := run2.2.2 }

end Adas.ClassifierEngine
