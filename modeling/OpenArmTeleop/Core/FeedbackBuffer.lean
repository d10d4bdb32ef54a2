import OpenArmTeleop.Net.Packet

/-!
# The feedback buffer of the leader

`feedback_state_buffer.cpp`. The receive thread stores each accepted packet, the control loop
reads the latest one and its age.
-/

open Num OpenArmTeleop.Net

namespace OpenArmTeleop.Core

structure Sample where
  recvTimeNs : UInt64
  lostBefore : UInt32
  rttNs : UInt64
  cmdHoldNs : UInt64
  deriving DecidableEq

structure FeedbackStateBuffer (F : Type) where
  windowNs : UInt64
  latest : FeedbackPacket F
  hasData : Bool
  lastReceiveTimeNs : UInt64
  lastSeq : UInt32
  receivedTotal : UInt32
  lostTotal : UInt32
  samples : List Sample

/-- What `snapshot` returns. -/
structure FeedbackStats where
  hasData : Bool := false
  ageMs : Double := -1.0
  rateHz : Double := 0.0
  lossPercent : Double := 0.0
  rttP50Ms : Double := -1.0
  rttP95Ms : Double := -1.0
  rttMaxMs : Double := -1.0
  cmdHoldP95Ms : Double := -1.0
  receivedTotal : UInt32 := 0
  lostTotal : UInt32 := 0
  deriving DecidableEq

namespace FeedbackStateBuffer

variable {F : Type}

def new [Zero F] (windowNs : UInt64) : FeedbackStateBuffer F :=
  ⟨windowNs, .zero, false, 0, 0, 0, 0, []⟩

def trim (windowNs nowNs : UInt64) (samples : List Sample) : List Sample :=
  samples.dropWhile fun sample => decide (nowNs - sample.recvTimeNs > windowNs)

/-- What `update` does with a packet that it takes. -/
def store (b : FeedbackStateBuffer F) (packet : FeedbackPacket F) (rttNs nowNs : UInt64)
    (lostBefore : UInt32) : FeedbackStateBuffer F :=
  { b with
    latest := packet
    lastSeq := packet.seq
    lastReceiveTimeNs := nowNs
    hasData := true
    receivedTotal := b.receivedTotal + 1
    samples := trim b.windowNs nowNs
      (b.samples ++ [⟨nowNs, lostBefore, rttNs, packet.cmdHoldNs⟩]) }

def update (b : FeedbackStateBuffer F) (packet : FeedbackPacket F) (rttNs nowNs : UInt64) :
    FeedbackStateBuffer F :=
  if b.hasData then
    let diff := packet.seq - b.lastSeq
    if diff > 0x7FFFFFFF then { b with samples := [] }.store packet rttNs nowNs 0
    else if diff = 0 then b
    else if diff > 1 then
      { b with lostTotal := b.lostTotal + (diff - 1) }.store packet rttNs nowNs (diff - 1)
    else b.store packet rttNs nowNs 0
  else b.store packet rttNs nowNs 0

def getLatest (b : FeedbackStateBuffer F) : Option (FeedbackPacket F) :=
  if b.hasData then some b.latest else none

def reset (b : FeedbackStateBuffer F) : FeedbackStateBuffer F :=
  { b with hasData := false, samples := [] }

/-! ## Statistics -/

/-- The samples that `snapshot` counts. -/
def counted (b : FeedbackStateBuffer F) (nowNs : UInt64) : List Sample :=
  b.samples.filter fun sample => decide ¬ nowNs - sample.recvTimeNs > b.windowNs

section Statistics

variable [Rounding]

def ageMs (b : FeedbackStateBuffer F) (nowNs : UInt64) : Double :=
  if b.hasData then Double.ofUnsigned (nowNs - b.lastReceiveTimeNs).toNat / 1e6 else -1.0

def percentile (v : List UInt64) (p : Double) : Double :=
  let v := v.mergeSort
  let idx := (p * Double.ofUnsigned (v.length - 1) + 0.5).truncate
  Double.ofUnsigned (v[min idx (v.length - 1)]?.getD 0).toNat / 1e6

/-- The statistics of some samples. -/
def statistics (b : FeedbackStateBuffer F) (nowNs : UInt64) (samples : List Sample) :
    FeedbackStats :=
  let received := UInt32.ofNat samples.length
  let lost := (samples.map (·.lostBefore)).sum
  let rtts := (samples.map (·.rttNs)).filter fun rtt => decide (rtt > 0)
  let holds := samples.map (·.cmdHoldNs)
  { hasData := b.hasData
    receivedTotal := b.receivedTotal
    lostTotal := b.lostTotal
    ageMs := b.ageMs nowNs
    rateHz := Double.ofUnsigned received.toNat / (Double.ofUnsigned b.windowNs.toNat / 1e9)
    lossPercent :=
      if received + lost > 0 then
        100.0 * Double.ofUnsigned lost.toNat / Double.ofUnsigned (received + lost).toNat
      else 0.0
    rttP50Ms := if rtts.isEmpty then -1.0 else percentile rtts 0.50
    rttP95Ms := if rtts.isEmpty then -1.0 else percentile rtts 0.95
    rttMaxMs :=
      if rtts.isEmpty then -1.0
      else Double.ofUnsigned (rtts.mergeSort.getLast?.getD 0).toNat / 1e6
    cmdHoldP95Ms := if holds.isEmpty then -1.0 else percentile holds 0.95 }

def snapshot (b : FeedbackStateBuffer F) (nowNs : UInt64) : FeedbackStats :=
  if b.hasData then b.statistics nowNs (b.counted nowNs)
  else { hasData := false, receivedTotal := b.receivedTotal, lostTotal := b.lostTotal }

end Statistics

/-! ## What one packet does -/

/-- The packet is the first one, a jump backwards, a duplicate, or newer than the stored one. -/
theorem update_cases (b : FeedbackStateBuffer F) (packet : FeedbackPacket F) (rttNs nowNs : UInt64) :
    (b.hasData = false ∧ b.update packet rttNs nowNs = b.store packet rttNs nowNs 0) ∨
    (b.hasData = true ∧ packet.seq - b.lastSeq > 0x7FFFFFFF ∧
      b.update packet rttNs nowNs = { b with samples := [] }.store packet rttNs nowNs 0) ∨
    (b.hasData = true ∧ packet.seq = b.lastSeq ∧ b.update packet rttNs nowNs = b) ∨
    (b.hasData = true ∧ packet.seq ≠ b.lastSeq ∧ ¬ packet.seq - b.lastSeq > 0x7FFFFFFF ∧
      b.update packet rttNs nowNs =
        { b with lostTotal := b.lostTotal + (packet.seq - b.lastSeq - 1) }.store packet rttNs nowNs
          (packet.seq - b.lastSeq - 1)) := by
  unfold update
  by_cases hdata : b.hasData = true
  swap
  · rw [if_neg hdata]
    exact .inl ⟨Bool.not_eq_true _ ▸ hdata, rfl⟩
  rw [if_pos hdata]
  dsimp only
  by_cases hjump : packet.seq - b.lastSeq > 0x7FFFFFFF
  · exact .inr (.inl ⟨hdata, hjump, if_pos hjump⟩)
  rw [if_neg hjump]
  by_cases hdup : packet.seq = b.lastSeq
  · exact .inr (.inr (.inl ⟨hdata, hdup, if_pos (sub_eq_zero.mpr hdup)⟩))
  rw [if_neg (sub_ne_zero.mpr hdup)]
  refine .inr (.inr (.inr ⟨hdata, hdup, hjump, ?_⟩))
  split
  · rfl
  · -- the difference is one, so nothing was lost
    rename_i hone
    have hzero : packet.seq - b.lastSeq - 1 = 0 := by
      have h0 : (packet.seq - b.lastSeq).toNat ≠ 0 := fun h0 =>
        hdup (sub_eq_zero.mp (UInt32.toNat_inj.mp h0))
      have h1 : ¬ 1 < (packet.seq - b.lastSeq).toNat := fun h1 =>
        hone (UInt32.lt_iff_toNat_lt.mpr h1)
      have hnat : (packet.seq - b.lastSeq).toNat = 1 := by omega
      exact sub_eq_zero.mpr (UInt32.toNat_inj.mp hnat)
    rw [hzero, UInt32.add_zero]

end FeedbackStateBuffer

end OpenArmTeleop.Core
