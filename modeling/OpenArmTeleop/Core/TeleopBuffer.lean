import OpenArmTeleop.Lib.Serial
import OpenArmTeleop.Net.Packet

/-!
# The command buffer of the follower

`teleop_state_buffer.cpp`. `packet_callback` stores each accepted packet, the control loop
reads the latest one.
-/

open Num Serial OpenArmTeleop.Net

namespace OpenArmTeleop.Core

structure TeleopStateBuffer (F : Type) where
  latestPacket : TeleopPacket F
  hasData : Bool
  lastReceiveTimeNs : UInt64
  lastSeq : UInt32
  lostPacketCount : UInt32
  averageReceivePeriodMs : Double
  maxReceiveGapMs : Double

namespace TeleopStateBuffer

variable {F : Type}

/-- The constructor leaves the packet uninitialised. -/
def new (uninitialised : TeleopPacket F) : TeleopStateBuffer F :=
  ⟨uninitialised, false, 0, 0, 0, 0, 0⟩

def getLatest (b : TeleopStateBuffer F) : Option (TeleopPacket F) :=
  if b.hasData then some b.latestPacket else none

section Update

variable [Rounding]

def alpha : Double := 0.1

def timed (b : TeleopStateBuffer F) (nowNs : UInt64) : TeleopStateBuffer F :=
  let gapMs := Double.ofUnsigned (nowNs - b.lastReceiveTimeNs).toNat / 1e6
  { b with
    maxReceiveGapMs := if b.maxReceiveGapMs < gapMs then gapMs else b.maxReceiveGapMs
    averageReceivePeriodMs :=
      if b.averageReceivePeriodMs = 0 then gapMs
      else alpha * gapMs + (1 - alpha) * b.averageReceivePeriodMs }

def update (b : TeleopStateBuffer F) (packet : TeleopPacket F) (nowNs : UInt64) :
    TeleopStateBuffer F :=
  let diff := packet.seq - b.lastSeq
  let b :=
    if b.hasData then
      if diff > 0x7FFFFFFF then
        { b with hasData := false, averageReceivePeriodMs := 0, maxReceiveGapMs := 0 }
      else
        let lost := if diff > 1 then b.lostPacketCount + (diff - 1) else b.lostPacketCount
        { b with lostPacketCount := lost }.timed nowNs
    else b
  { b with
    latestPacket := packet
    lastSeq := packet.seq
    lastReceiveTimeNs := nowNs
    hasData := true }

def deliver (b : TeleopStateBuffer F) (ds : List (TeleopPacket F × UInt64)) :
    TeleopStateBuffer F :=
  ds.foldl (fun b d => b.update d.1 d.2) b

/-! ## What one packet does -/

@[simp] theorem update_latestPacket (b : TeleopStateBuffer F) (p : TeleopPacket F) (now : UInt64) :
    (b.update p now).latestPacket = p := rfl

@[simp] theorem update_lastSeq (b : TeleopStateBuffer F) (p : TeleopPacket F) (now : UInt64) :
    (b.update p now).lastSeq = p.seq := rfl

@[simp] theorem update_lastReceiveTimeNs (b : TeleopStateBuffer F) (p : TeleopPacket F)
    (now : UInt64) : (b.update p now).lastReceiveTimeNs = now := rfl

@[simp] theorem update_hasData (b : TeleopStateBuffer F) (p : TeleopPacket F) (now : UInt64) :
    (b.update p now).hasData = true := rfl

theorem update_lostPacketCount (b : TeleopStateBuffer F) (p : TeleopPacket F) (now : UInt64)
    (hd : b.hasData = true) (hseq : p.seq = b.lastSeq) :
    (b.update p now).lostPacketCount = b.lostPacketCount := by
  have hdiff : p.seq - b.lastSeq = 0 := by rw [hseq, sub_self]
  simp only [update, hd, hdiff]
  rfl

theorem deliver_append (b : TeleopStateBuffer F) (ds es : List (TeleopPacket F × UInt64)) :
    b.deliver (ds ++ es) = (b.deliver ds).deliver es :=
  List.foldl_append

/-- The packet and its arrival time, as the control loop sees them. -/
def view (b : TeleopStateBuffer F) : Option (TeleopPacket F × UInt64) :=
  b.getLatest.map fun p => (p, b.lastReceiveTimeNs)

/-- Whatever was delivered before, the buffer holds the last delivery. -/
theorem view_deliver (junk : TeleopPacket F) (ds : List (TeleopPacket F × UInt64)) :
    ((new junk).deliver ds).view = ds.getLast? := by
  rcases ds.eq_nil_or_concat with rfl | ⟨ds, d, rfl⟩
  · rfl
  · rw [List.concat_eq_append, deliver_append, List.getLast?_append, List.getLast?_singleton]
    rfl

theorem deliver_lastSeq (junk : TeleopPacket F) (ds : List (TeleopPacket F × UInt64))
    (hd : ((new junk).deliver ds).hasData = true) :
    ((new junk).deliver ds).lastSeq = ((new junk).deliver ds).latestPacket.seq := by
  rcases ds.eq_nil_or_concat with rfl | ⟨ds, d, rfl⟩
  · simp [deliver, new] at hd
  · rw [List.concat_eq_append, deliver_append]
    rfl

/-- The packet, its sequence and receive time and the loss counter are the same. -/
def Unchanged (b b' : TeleopStateBuffer F) : Prop :=
  b'.latestPacket = b.latestPacket ∧ b'.lastSeq = b.lastSeq ∧
    b'.lastReceiveTimeNs = b.lastReceiveTimeNs ∧ b'.lostPacketCount = b.lostPacketCount

theorem unchanged_update_iff (b : TeleopStateBuffer F) (p : TeleopPacket F) (now : UInt64)
    (hd : b.hasData = true) (hseq : b.lastSeq = b.latestPacket.seq) :
    Unchanged b (b.update p now) ↔ p = b.latestPacket ∧ now = b.lastReceiveTimeNs := by
  constructor
  · rintro ⟨hp, -, ht, -⟩
    exact ⟨hp, ht⟩
  · rintro ⟨rfl, rfl⟩
    exact ⟨rfl, hseq.symm, rfl, update_lostPacketCount b _ _ hd hseq.symm⟩

end Update

/-! ## Stale packets -/

/-- Sequence `t` is not newer than `s` in 32-bit serial order. -/
def Stale (t s : UInt32) : Prop := t = s ∨ t - s > 0x7FFFFFFF

instance (t s : UInt32) : Decidable (Stale t s) :=
  inferInstanceAs (Decidable (t = s ∨ t - s > 0x7FFFFFFF))

theorem stale_iff (t s : UInt32) : Stale t s ↔ ¬ Newer t.toBitVec s.toBitVec := by
  unfold Stale Newer
  rw [not_and_or, not_not, ← UInt32.toBitVec_inj, not_lt]
  rw [gt_iff_lt, UInt32.lt_iff_toNat_lt]
  exact or_congr Iff.rfl Nat.lt_iff_add_one_le

/-- Packet `k` of a session carries the sequence number `start + k`. -/
def Session (start : UInt32) (sent : ℕ → TeleopPacket F) : Prop :=
  ∀ k < 2 ^ 31, (sent k).seq = start + UInt32.ofNat k

theorem Session.injective {start : UInt32} {sent : ℕ → TeleopPacket F} (hs : Session start sent)
    {j k : ℕ} (hj : j < 2 ^ 31) (hk : k < 2 ^ 31) (h : sent j = sent k) : j = k := by
  have hseq := congrArg TeleopPacket.seq h
  rw [hs j hj, hs k hk, ← UInt32.toBitVec_inj] at hseq
  exact (add_ofNat_inj start.toBitVec (by omega) (by omega)).mp hseq

theorem Session.stale_iff {start : UInt32} {sent : ℕ → TeleopPacket F} (hs : Session start sent)
    {j k : ℕ} (hj : j < 2 ^ 31) (hk : k < 2 ^ 31) :
    Stale (sent j).seq (sent k).seq ↔ j ≤ k := by
  rw [hs j hj, hs k hk, TeleopStateBuffer.stale_iff]
  exact (not_congr (newer_add_iff start.toBitVec hj hk)).trans not_lt

section Runs

variable [Rounding]

def Reachable (junk : TeleopPacket F) (b : TeleopStateBuffer F) : Prop :=
  ∃ ds, b = (new junk).deliver ds

def arrivals (sent : ℕ → TeleopPacket F) (ds : List (ℕ × UInt64)) :
    List (TeleopPacket F × UInt64) :=
  ds.map (Prod.map sent id)

theorem view_arrivals_iff {start : UInt32} {sent : ℕ → TeleopPacket F} (hs : Session start sent)
    (junk : TeleopPacket F) (ds : List (ℕ × UInt64)) (hds : ∀ d ∈ ds, d.1 < 2 ^ 31) :
    ((new junk).deliver (arrivals sent ds)).view = (highest ds).map (Prod.map sent id) ↔
      ds.getLast? = highest ds := by
  rw [view_deliver, arrivals, List.getLast?_map]
  cases hl : ds.getLast? with
  | none => rw [List.getLast?_eq_none_iff.mp hl]; simp
  | some last =>
    cases hm : highest ds with
    | none => simp
    | some m =>
      have hlast := hds last (List.mem_of_getLast? hl)
      have hmax := hds m (highest_spec ds m hm).1
      simp only [Option.map_some, Option.some.injEq]
      constructor
      · intro h
        obtain ⟨hp, ht⟩ := Prod.mk.inj h
        exact Prod.ext (hs.injective hlast hmax hp) ht
      · rintro rfl
        rfl

/-- **When stale packets are dropped.** A packet leaves the buffer alone only if it is the
stored one at the same clock reading; a session shows its highest packet only in order. -/
theorem stale_unchanged_iff (junk : TeleopPacket F) :
    (∀ b, Reachable junk b → b.hasData = true → ∀ p now,
      ((Stale p.seq b.lastSeq → Unchanged b (b.update p now)) ↔
        ¬ Stale p.seq b.lastSeq ∨ p = b.latestPacket ∧ now = b.lastReceiveTimeNs)) ∧
    ∀ start (sent : ℕ → TeleopPacket F), Session start sent →
      ∀ ds : List (ℕ × UInt64), (∀ d ∈ ds, d.1 < 2 ^ 31) →
        ((∀ i, ((new junk).deliver (arrivals sent (ds.take i))).view =
          (highest (ds.take i)).map (Prod.map sent id)) ↔ InOrder ds) := by
  refine ⟨?_, fun start sent hs ds hds => ?_⟩
  · rintro b ⟨ds, rfl⟩ hd p now
    rw [unchanged_update_iff _ p now hd (deliver_lastSeq junk ds hd)]
    exact imp_iff_not_or
  · rw [← last_highest_iff]
    refine forall_congr' fun i => ?_
    exact view_arrivals_iff hs junk _ fun d hd => hds d (List.mem_of_mem_take hd)

end Runs

/-! ## A late packet -/

def numbered (seq : UInt32) (enable : UInt8) : TeleopPacket UInt64 :=
  { TeleopPacket.zero with seq := seq, enable := enable }

/-- A session from 0 in which packet 1 clears the enable flag. -/
def releasing (k : ℕ) : TeleopPacket UInt64 :=
  numbered (UInt32.ofNat k) (if k = 1 then 0 else 1)

theorem session_releasing : Session 0 releasing := by
  intro k _
  simp [releasing, numbered]

/-- Packet 0 of a session, packet 1, packet 1 again at the same reading of the clock. -/
theorem stale_unchanged_releasing :
    letI := Rounding.exact
    ((new TeleopPacket.zero).deliver (arrivals releasing [(0, 5), (1, 7), (1, 7)])).view =
      some (releasing 1, 7) := by
  let := Rounding.exact
  have hrun := (stale_unchanged_iff (F := UInt64) TeleopPacket.zero).2 0 releasing
    session_releasing [(0, 5), (1, 7), (1, 7)] (by simp)
  exact hrun.mpr (by simp [InOrder]) 3

/-- Packet 0 (`enable = 1`) arrives after packet 1 (`enable = 0`) and replaces it, and a
replay of packet 1 refreshes its receive time. -/
theorem late_packet_replaces :
    letI := Rounding.exact
    let b := (new TeleopPacket.zero).deliver (arrivals releasing [(1, 5)])
    (Reachable TeleopPacket.zero b ∧ b.hasData = true ∧ Stale (releasing 0).seq b.lastSeq ∧
      ¬ Unchanged b (b.update (releasing 0) 7) ∧
      (b.update (releasing 0) 7).view = some (releasing 0, 7) ∧
      (releasing 0).enable = 1 ∧ (releasing 1).enable = 0) ∧
    Stale (releasing 1).seq b.lastSeq ∧ ¬ Unchanged b (b.update (releasing 1) 9) ∧
      (b.update (releasing 1) 9).lastReceiveTimeNs = 9 := by
  let := Rounding.exact
  refine ⟨⟨⟨_, rfl⟩, rfl, by decide, ?_, rfl, rfl, rfl⟩, by decide, ?_, rfl⟩
  · rintro ⟨hp, -⟩
    exact absurd (congrArg TeleopPacket.seq hp) (by decide)
  · rintro ⟨-, -, ht, -⟩
    exact absurd ht (by decide)

end TeleopStateBuffer

end OpenArmTeleop.Core
