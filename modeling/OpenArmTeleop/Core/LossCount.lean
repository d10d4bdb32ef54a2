import OpenArmTeleop.Core.TeleopBuffer

/-!
# The loss counter of the command buffer

What `lost_packet_count_` holds after packets that never jump backwards.
-/

open Num Serial OpenArmTeleop.Net

namespace OpenArmTeleop.Core

namespace TeleopStateBuffer

variable {F : Type}

/-- The sequence numbers of some deliveries. -/
def seqs (ds : List (TeleopPacket F × UInt64)) : List (BitVec 32) := ds.map (·.1.seq.toBitVec)

section Runs

variable [Rounding]

/-- A packet that does not jump backwards counts the numbers that it leaves out. -/
theorem update_forward (b : TeleopStateBuffer F) (p : TeleopPacket F) (now : UInt64)
    (hd : b.hasData = true) (hforward : (p.seq - b.lastSeq).toNat < 2 ^ 31) :
    (b.update p now).lostPacketCount =
      b.lostPacketCount + if p.seq = b.lastSeq then 0 else p.seq - b.lastSeq - 1 := by
  have hjump : ¬ p.seq - b.lastSeq > 0x7FFFFFFF := by
    rw [gt_iff_lt, UInt32.lt_iff_toNat_lt]
    exact not_lt.mpr (Nat.le_of_lt_succ hforward)
  simp only [update, timed, hd, if_true, if_neg hjump]
  by_cases hseq : p.seq = b.lastSeq
  · rw [if_pos hseq, hseq, sub_self, if_neg (by decide), UInt32.add_zero]
  rw [if_neg hseq]
  split
  · rfl
  · -- the next number leaves nothing out
    rename_i hone
    rw [gt_iff_lt, UInt32.lt_iff_toNat_lt] at hone
    have hne : (p.seq - b.lastSeq).toNat ≠ 0 := fun h => hseq (sub_eq_zero.mp (UInt32.toNat_inj.mp h))
    have hnext : p.seq - b.lastSeq = 1 := by
      apply UInt32.toNat_inj.mp
      change ¬ 1 < _ at hone
      change _ = 1
      omega
    rw [hnext, sub_self, UInt32.add_zero]

theorem deliver_forward (b : TeleopStateBuffer F) (ds : List (TeleopPacket F × UInt64))
    (hd : b.hasData = true) (hf : Forward (b.lastSeq.toBitVec :: seqs ds)) :
    (b.deliver ds).lostPacketCount.toBitVec = b.lostPacketCount.toBitVec +
      BitVec.ofNat 32 (distance (b.lastSeq.toBitVec :: seqs ds) -
        advances (b.lastSeq.toBitVec :: seqs ds)) := by
  induction ds generalizing b with
  | nil => simp [deliver, seqs, distance, advances]
  | cons d ds ih =>
    obtain ⟨hfirst, hrest⟩ := List.isChain_cons_cons.mp hf
    have hle := advances_le_distance (d.1.seq.toBitVec :: seqs ds)
    change ((b.update d.1 d.2).deliver ds).lostPacketCount.toBitVec = _
    rw [ih _ (update_hasData b d.1 d.2) hrest, update_forward b d.1 d.2 hd hfirst, update_lastSeq]
    change _ = _ + BitVec.ofNat 32 (distance (_ :: d.1.seq.toBitVec :: seqs ds) -
      advances (_ :: d.1.seq.toBitVec :: seqs ds))
    rw [distance, advances]
    by_cases hseq : d.1.seq = b.lastSeq
    · rw [if_pos hseq, if_pos (congrArg _ hseq), hseq, sub_self]
      simp
    · have hne : d.1.seq.toBitVec ≠ b.lastSeq.toBitVec := fun h => hseq (UInt32.toBitVec_inj.mp h)
      have hpos := toNat_sub_ne_zero hne
      have hsplit : (d.1.seq.toBitVec - b.lastSeq.toBitVec).toNat +
          distance (d.1.seq.toBitVec :: seqs ds) - (1 + advances (d.1.seq.toBitVec :: seqs ds)) =
          ((d.1.seq.toBitVec - b.lastSeq.toBitVec).toNat - 1) +
            (distance (d.1.seq.toBitVec :: seqs ds) - advances (d.1.seq.toBitVec :: seqs ds)) := by
        omega
      rw [if_neg hseq, if_neg hne, hsplit, BitVec.ofNat_add, ofNat_pred hne, ← add_assoc]
      rfl

/-- What the counter holds after some deliveries. -/
theorem new_deliver_forward (junk : TeleopPacket F) (ds : List (TeleopPacket F × UInt64))
    (hf : Forward (seqs ds)) :
    ((new junk).deliver ds).lostPacketCount.toBitVec =
      BitVec.ofNat 32 (distance (seqs ds) - advances (seqs ds)) := by
  cases ds with
  | nil => rfl
  | cons d ds =>
    have hfirst : (new junk).deliver (d :: ds) = ((new junk).update d.1 d.2).deliver ds := rfl
    rw [hfirst, deliver_forward _ ds (update_hasData _ _ _) hf]
    exact BitVec.zero_add _

/-- **The loss counter is exact across wrap-arounds.** After packets that never jump backwards it is
the way from the first to the last number less the packets that advanced, wherever the gaps and the
wrap-arounds lie. -/
theorem loss_exact (junk : TeleopPacket F) (ds : List (TeleopPacket F × UInt64))
    (hf : Forward (seqs ds)) :
    ((new junk).deliver ds).lostPacketCount.toNat =
        (distance (seqs ds) - advances (seqs ds)) % 2 ^ 32 ∧
      advances (seqs ds) ≤ distance (seqs ds) ∧
      (∀ first last, (seqs ds).head? = some first → (seqs ds).getLast? = some last →
        distance (seqs ds) % 2 ^ 32 = (last - first).toNat) ∧
      ∀ junk' (es : List (TeleopPacket F × UInt64)), Forward (seqs es) →
        distance (seqs es) % 2 ^ 32 = distance (seqs ds) % 2 ^ 32 →
        advances (seqs es) = advances (seqs ds) →
        ((new junk').deliver es).lostPacketCount = ((new junk).deliver ds).lostPacketCount := by
  have hds := new_deliver_forward junk ds hf
  refine ⟨?_, advances_le_distance _, fun first last hfirst hlast => ?_, ?_⟩
  · have hnat := congrArg BitVec.toNat hds
    rwa [BitVec.toNat_ofNat] at hnat
  · cases hseqs : seqs ds with
    | nil => rw [hseqs] at hfirst; cases hfirst
    | cons a ns =>
      rw [hseqs] at hfirst hlast
      obtain rfl : a = first := Option.some.inj hfirst
      rw [List.getLast?_eq_some_getLast (List.cons_ne_nil a ns)] at hlast
      rw [← Option.some.inj hlast, ← ofNat_distance a ns, BitVec.toNat_ofNat]
  · intro junk' es hes hdistance hadvances
    have hle := advances_le_distance (seqs ds)
    have hle' := advances_le_distance (seqs es)
    rw [← UInt32.toBitVec_inj, hds, new_deliver_forward junk' es hes]
    apply BitVec.eq_of_toNat_eq
    rw [BitVec.toNat_ofNat, BitVec.toNat_ofNat]
    omega

end Runs

/-- Packets 0xFFFFFFFE, 0xFFFFFFFE and 3: the numbers 0xFFFFFFFF, 0, 1 and 2 are lost. -/
theorem loss_exact_wrap :
    letI := Rounding.exact
    ((new TeleopPacket.zero).deliver
      [(numbered 0xFFFFFFFE 1, 5), (numbered 0xFFFFFFFE 1, 6), (numbered 3 1, 8)]).lostPacketCount.toNat =
        (5 - 1) % 2 ^ 32 := by
  let := Rounding.exact
  exact (loss_exact TeleopPacket.zero
    [(numbered 0xFFFFFFFE 1, 5), (numbered 0xFFFFFFFE 1, 6), (numbered 3 1, 8)] (by decide)).1

end TeleopStateBuffer

end OpenArmTeleop.Core
