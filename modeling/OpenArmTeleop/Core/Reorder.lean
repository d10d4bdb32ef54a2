import OpenArmTeleop.Core.Window
import OpenArmTeleop.Lib.Serial

/-!
# Feedback that arrives out of order

What the feedback buffer makes of the packets of one session of the follower, delivered in any
order, repeated or lost.
-/

open Num Serial OpenArmTeleop.Net

namespace OpenArmTeleop.Core

namespace FeedbackStateBuffer

variable {F : Type}

/-! ## What an update counts as lost -/

/-- The sequence numbers between the stored packet and a newer one. -/
def missing (b : FeedbackStateBuffer F) (packet : FeedbackPacket F) : List UInt32 :=
  let diff := packet.seq - b.lastSeq
  if b.hasData = true ∧ ¬ diff > 0x7FFFFFFF then
    (List.range (diff.toNat - 1)).map fun j => b.lastSeq + UInt32.ofNat (j + 1)
  else []

theorem missing_eq_nil {b : FeedbackStateBuffer F} {packet : FeedbackPacket F}
    (h : b.hasData = false ∨ packet.seq - b.lastSeq > 0x7FFFFFFF) : b.missing packet = [] := by
  refine if_neg ?_
  rintro ⟨hdata, hjump⟩
  rcases h with h | h
  · exact Bool.false_ne_true (h.symm.trans hdata)
  · exact hjump h

theorem length_missing {b : FeedbackStateBuffer F} {packet : FeedbackPacket F}
    (hdata : b.hasData = true) (hjump : ¬ packet.seq - b.lastSeq > 0x7FFFFFFF) :
    (b.missing packet).length = (packet.seq - b.lastSeq).toNat - 1 := by
  simp only [missing]
  rw [if_pos ⟨hdata, hjump⟩, List.length_map, List.length_range]

theorem mem_store {b : FeedbackStateBuffer F} {packet : FeedbackPacket F} {rttNs nowNs : UInt64}
    {lost : UInt32} {x : Sample} (hx : x ∈ (b.store packet rttNs nowNs lost).samples) :
    x ∈ b.samples ∨ x.lostBefore = lost := by
  have hmem := (List.dropWhile_sublist _).subset hx
  rcases List.mem_append.mp hmem with hx | hx
  · exact .inl hx
  · exact .inr (congrArg Sample.lostBefore (List.mem_singleton.mp hx))

/-- The lost packets of an update, in the total and in the new sample, are the missing numbers. -/
theorem update_lost (b : FeedbackStateBuffer F) (packet : FeedbackPacket F) (rttNs nowNs : UInt64) :
    (b.update packet rttNs nowNs).lostTotal =
        b.lostTotal + UInt32.ofNat (b.missing packet).length ∧
      ∀ x ∈ (b.update packet rttNs nowNs).samples,
        x ∈ b.samples ∨ x.lostBefore = UInt32.ofNat (b.missing packet).length := by
  rcases b.update_cases packet rttNs nowNs with ⟨hdata, hupdate⟩ | ⟨hdata, hjump, hupdate⟩ |
    ⟨hdata, hdup, hupdate⟩ | ⟨hdata, hne, hjump, hupdate⟩
  · rw [hupdate, missing_eq_nil (.inl hdata)]
    exact ⟨(UInt32.add_zero _).symm, fun x => mem_store⟩
  · rw [hupdate, missing_eq_nil (.inr hjump)]
    refine ⟨(UInt32.add_zero _).symm, fun x hx => (mem_store hx).imp_left fun hnil => ?_⟩
    cases hnil
  · have hzero : packet.seq - b.lastSeq = 0 := sub_eq_zero.mpr hdup
    rw [hupdate, length_missing hdata (by rw [hzero]; decide), hzero]
    exact ⟨(UInt32.add_zero _).symm, fun x => .inl⟩
  · have hlost : UInt32.ofNat (b.missing packet).length = packet.seq - b.lastSeq - 1 := by
      have h0 : (packet.seq - b.lastSeq).toNat ≠ 0 := fun h0 =>
        hne (sub_eq_zero.mp (UInt32.toNat_inj.mp h0))
      rw [length_missing hdata hjump, UInt32.ofNat_sub (by omega), UInt32.ofNat_toNat]
      rfl
    rw [hupdate, hlost]
    exact ⟨rfl, fun x => mem_store⟩

/-! ## Sessions -/

/-- Packet `k` of a session carries the sequence number `start + k`. -/
def Session (start : UInt32) (sent : ℕ → FeedbackPacket F) : Prop :=
  ∀ k < 2 ^ 31, (sent k).seq = start + UInt32.ofNat k

section Session

variable {start : UInt32} {sent : ℕ → FeedbackPacket F} (hs : Session start sent) {j k : ℕ}

include hs

theorem Session.seq_injective (hj : j < 2 ^ 31) (hk : k < 2 ^ 31)
    (h : (sent j).seq = (sent k).seq) : j = k := by
  rw [hs j hj, hs k hk, ← UInt32.toBitVec_inj] at h
  exact (add_ofNat_inj start.toBitVec (by omega) (by omega)).mp h

theorem Session.seq_sub (hj : j < 2 ^ 31) (hk : k ≤ j) :
    ((sent j).seq - (sent k).seq).toNat = j - k := by
  rw [hs j hj, hs k (by omega)]
  exact toNat_sub_of_le start.toBitVec hk (by omega)

/-- Exactly the packets that were sent earlier look like a jump backwards. -/
theorem Session.backward_iff (hj : j < 2 ^ 31) (hk : k < 2 ^ 31) :
    (sent j).seq - (sent k).seq > 0x7FFFFFFF ↔ j < k := by
  rw [gt_iff_lt, UInt32.lt_iff_toNat_lt]
  change 0x7FFFFFFF < _ ↔ _
  rcases Nat.lt_or_ge j k with h | h
  · have hforth := hs.seq_sub hk h.le
    have hneg : ((sent j).seq - (sent k).seq).toNat = 2 ^ 32 - (k - j) := by
      rw [← neg_sub, ← hforth]
      change (-((sent k).seq - (sent j).seq).toBitVec).toNat = _
      rw [BitVec.toNat_neg]
      change (2 ^ 32 - ((sent k).seq - (sent j).seq).toNat) % 2 ^ 32 = _
      rw [hforth, Nat.mod_eq_of_lt (by omega)]
    rw [hneg]
    exact iff_of_true (by omega) h
  · rw [hs.seq_sub hj h]
    exact iff_of_false (by omega) (by omega)

end Session

/-- A packet by its number, its round trip and the time of its arrival. -/
abbrev Delivery := ℕ × UInt64 × UInt64

def receive (sent : ℕ → FeedbackPacket F) (b : FeedbackStateBuffer F) (d : Delivery) :
    FeedbackStateBuffer F :=
  b.update (sent d.1) d.2.1 d.2.2

def deliver (b : FeedbackStateBuffer F) (sent : ℕ → FeedbackPacket F) (ds : List Delivery) :
    FeedbackStateBuffer F :=
  ds.foldl (receive sent) b

theorem deliver_concat (b : FeedbackStateBuffer F) (sent : ℕ → FeedbackPacket F) (ds : List Delivery)
    (d : Delivery) : b.deliver sent (ds ++ [d]) = receive sent (b.deliver sent ds) d := by
  simp [deliver, List.foldl_append]

/-! ## Statistics that survive reordering -/

/-- What the arrival of `d` after `ds` must not spoil. -/
structure Survives (sent : ℕ → FeedbackPacket F) (b : FeedbackStateBuffer F) (ds : List Delivery)
    (d : Delivery) : Prop where
  latest : (receive sent b d).getLatest = (highest (ds ++ [d])).map fun m => sent m.1
  counted : ∀ e ∈ ds, (sent e.1).seq ∉ b.missing (sent d.1)
  samples : (∃ e ∈ ds, d.1 < e.1) → ∀ x ∈ b.samples, expired b.windowNs d.2.2 x = false →
    x ∈ (receive sent b d).samples

/-- The packets arrive in the order in which they were sent, each any number of times. -/
def Ordered (ds : List Delivery) : Prop := ds.Pairwise fun m d => m.1 ≤ d.1

instance (ds : List Delivery) : Decidable (Ordered ds) := inferInstanceAs (Decidable (List.Pairwise _ _))

theorem ordered_concat (ds : List Delivery) (d : Delivery) :
    Ordered (ds ++ [d]) ↔ Ordered ds ∧ ∀ e ∈ ds, e.1 ≤ d.1 := by
  simp [Ordered, List.pairwise_append]

theorem highest_ordered {ds : List Delivery} (h : Ordered ds) :
    (highest ds).map Prod.fst = ds.getLast?.map Prod.fst := by
  rcases ds.eq_nil_or_concat with rfl | ⟨ds, d, rfl⟩
  · rfl
  · rw [List.concat_eq_append] at h ⊢
    obtain ⟨-, hle⟩ := (ordered_concat ds d).mp h
    rw [List.getLast?_append, List.getLast?_singleton, highest_concat]
    cases hm : highest ds with
    | none => rfl
    | some m =>
      have hmd := hle m (highest_spec ds m hm).1
      simp only [keep]
      split
      · rfl
      · rename_i hlt
        exact congrArg some (le_antisymm hmd (not_lt.mp hlt))

/-- The buffer holds packet `k`. -/
structure Holds (sent : ℕ → FeedbackPacket F) (b : FeedbackStateBuffer F) (k : ℕ) : Prop where
  hasData : b.hasData = true
  latest : b.latest = sent k
  lastSeq : b.lastSeq = (sent k).seq

section Ordered

variable {start : UInt32} {sent : ℕ → FeedbackPacket F} (hs : Session start sent)

include hs

/-- A packet that was sent earlier replaces the stored one. -/
theorem Holds.backward {b : FeedbackStateBuffer F} {k : ℕ} (hb : Holds sent b k) (hk : k < 2 ^ 31)
    {d : Delivery} (hd : d.1 < k) : (receive sent b d).latest = sent d.1 := by
  have hjump : (sent d.1).seq - b.lastSeq > 0x7FFFFFFF := by
    rw [hb.lastSeq]
    exact (hs.backward_iff (hd.trans hk) hk).mpr hd
  rcases b.update_cases (sent d.1) d.2.1 d.2.2 with ⟨hdata, -⟩ | ⟨-, -, hupdate⟩ |
    ⟨-, hdup, -⟩ | ⟨-, -, hnot, -⟩
  · exact absurd (hdata.symm.trans hb.hasData) Bool.false_ne_true
  · rw [receive, hupdate]
    rfl
  · rw [hdup, sub_self] at hjump
    exact absurd hjump (by decide)
  · exact absurd hjump hnot

theorem Holds.forward {b : FeedbackStateBuffer F} {k : ℕ} (hb : Holds sent b k) {d : Delivery}
    (hkd : k ≤ d.1) (hd : d.1 < 2 ^ 31) : Holds sent (receive sent b d) d.1 := by
  rcases b.update_cases (sent d.1) d.2.1 d.2.2 with ⟨hdata, -⟩ | ⟨-, hjump, -⟩ |
    ⟨-, hdup, hupdate⟩ | ⟨-, -, -, hupdate⟩
  · exact absurd (hdata.symm.trans hb.hasData) Bool.false_ne_true
  · rw [hb.lastSeq, hs.backward_iff hd (by omega)] at hjump
    omega
  · rw [hb.lastSeq] at hdup
    obtain rfl := hs.seq_injective hd (by omega) hdup
    rw [receive, hupdate]
    exact hb
  · rw [receive, hupdate]
    exact ⟨rfl, rfl, rfl⟩

theorem deliver_ordered (windowNs : UInt64) [Zero F] (ds : List Delivery)
    (hds : ∀ d ∈ ds, d.1 < 2 ^ 31) (ho : Ordered ds) :
    ∀ l, ds.getLast? = some l → Holds sent ((new windowNs).deliver sent ds) l.1 := by
  induction ds using List.reverseRecOn with
  | nil => exact nofun
  | append_singleton ds d ih =>
    intro l hl
    rw [List.getLast?_append, List.getLast?_singleton] at hl
    obtain rfl := Option.some.inj hl
    obtain ⟨hpre, hle⟩ := (ordered_concat ds d).mp ho
    have hbound : ∀ e ∈ ds, e.1 < 2 ^ 31 := fun e he => hds e (List.mem_append_left _ he)
    rw [deliver_concat]
    cases hm : ds.getLast? with
    | none =>
      rw [List.getLast?_eq_none_iff.mp hm]
      exact ⟨rfl, rfl, rfl⟩
    | some m =>
      have hb := ih hbound hpre m hm
      exact hb.forward hs (hle m (List.mem_of_getLast? hm)) (hds d (by simp))

/-- No number that was delivered lies between the stored packet and a newer one. -/
theorem Holds.not_missing {b : FeedbackStateBuffer F} {k : ℕ} (hb : Holds sent b k) {d : Delivery}
    (hkd : k ≤ d.1) (hd : d.1 < 2 ^ 31) {j : ℕ} (hj : j ≤ k) :
    (sent j).seq ∉ b.missing (sent d.1) := by
  intro hmem
  unfold missing at hmem
  dsimp only at hmem
  split at hmem
  · obtain ⟨i, hi, heq⟩ := List.mem_map.mp hmem
    rw [List.mem_range, hb.lastSeq, hs.seq_sub hd hkd] at hi
    have hseq : (sent (k + (i + 1))).seq = (sent j).seq := by
      rw [← heq, hb.lastSeq, hs k (by omega), hs (k + (i + 1)) (by omega), UInt32.ofNat_add, add_assoc]
    have := hs.seq_injective (by omega) (by omega) hseq
    omega
  · cases hmem

theorem survives_of_ordered (windowNs : UInt64) [Zero F] (ds : List Delivery) (d : Delivery)
    (hds : ∀ e ∈ ds ++ [d], e.1 < 2 ^ 31) (ho : Ordered (ds ++ [d])) :
    Survives sent ((new windowNs).deliver sent ds) ds d := by
  obtain ⟨hpre, hle⟩ := (ordered_concat ds d).mp ho
  have hlast : (ds ++ [d]).getLast? = some d := by simp
  have hd := hds d (by simp)
  refine ⟨?_, fun e he => ?_, fun ⟨e, he, hlate⟩ => ?_⟩
  · have hb := deliver_ordered hs windowNs (ds ++ [d]) hds ho d hlast
    have hhigh := highest_ordered ho
    rw [deliver_concat] at hb
    rw [hlast, Option.map_some] at hhigh
    obtain ⟨m, hm, hmd⟩ := Option.map_eq_some_iff.mp hhigh
    rw [getLatest, if_pos hb.hasData, hb.latest, hm, Option.map_some, hmd]
  · cases hm : ds.getLast? with
    | none =>
      rw [List.getLast?_eq_none_iff.mp hm] at he
      cases he
    | some m =>
      have hbound : ∀ e ∈ ds, e.1 < 2 ^ 31 := fun e he => hds e (List.mem_append_left _ he)
      have hb := deliver_ordered hs windowNs ds hbound hpre m hm
      refine hb.not_missing hs (hle m (List.mem_of_getLast? hm)) hd ?_
      obtain ⟨init, rfl⟩ := List.getLast?_eq_some_iff.mp hm
      rcases List.mem_append.mp he with he | he
      · exact ((ordered_concat init m).mp hpre).2 e he
      · rw [List.mem_singleton.mp he]
  · exact absurd (hle e he) (not_le.mpr hlate)

end Ordered

/-- **When the statistics survive reordering.** A session is shown by its highest packet, counts no
delivered number as lost and keeps its samples, exactly when its packets arrive in order. -/
theorem statistics_survive_iff [Zero F] :
    (∀ (b : FeedbackStateBuffer F) packet rttNs nowNs,
      (b.update packet rttNs nowNs).lostTotal =
          b.lostTotal + UInt32.ofNat (b.missing packet).length ∧
        ∀ x ∈ (b.update packet rttNs nowNs).samples,
          x ∈ b.samples ∨ x.lostBefore = UInt32.ofNat (b.missing packet).length) ∧
    ∀ windowNs start (sent : ℕ → FeedbackPacket F), Session start sent →
      ∀ ds : List Delivery, (∀ d ∈ ds, d.1 < 2 ^ 31) →
        ((∀ pre d, pre ++ [d] <+: ds → Survives sent ((new windowNs).deliver sent pre) pre d) ↔
          Ordered ds) := by
  refine ⟨update_lost, fun windowNs start sent hs ds hds => ⟨fun h => ?_, fun ho pre d hpre => ?_⟩⟩
  · induction ds using List.reverseRecOn with
    | nil => exact .nil
    | append_singleton ds d ih =>
      have hbound : ∀ e ∈ ds, e.1 < 2 ^ 31 := fun e he => hds e (List.mem_append_left _ he)
      have ho := ih hbound fun pre e hpre => h pre e (hpre.trans (List.prefix_append _ _))
      refine (ordered_concat ds d).mpr ⟨ho, fun e he => ?_⟩
      by_contra hlate
      -- the packet that replaces the stored one is not the highest
      obtain ⟨l, hl⟩ := Option.isSome_iff_exists.mp
        (List.getLast?_isSome.mpr (List.ne_nil_of_mem he))
      have hb := deliver_ordered hs windowNs ds hbound ho l hl
      have hlbound := hbound l (List.mem_of_getLast? hl)
      have hhigh := highest_ordered ho
      rw [hl, Option.map_some] at hhigh
      obtain ⟨m, hm, hml⟩ := Option.map_eq_some_iff.mp hhigh
      have hdl : d.1 < l.1 := by
        have hem := (highest_spec ds m hm).2 e he
        omega
      have hlatest := (h ds d (List.prefix_refl _)).latest
      rw [highest_concat, hm, keep, if_neg (by omega), Option.map_some, hml, getLatest] at hlatest
      split at hlatest
      · have hback := Option.some.inj hlatest
        rw [hb.backward hs hlbound hdl] at hback
        have := hs.seq_injective (hdl.trans hlbound) hlbound (congrArg _ hback)
        omega
      · cases hlatest
  · have hsub : (pre ++ [d]).Sublist ds := hpre.sublist
    exact survives_of_ordered hs windowNs pre d (fun e he => hds e (hsub.subset he)) (ho.sublist hsub)

/-- A session from 0. -/
def counting (k : ℕ) : FeedbackPacket UInt64 := numbered (UInt32.ofNat k)

theorem session_counting : Session 0 counting := by
  intro k _
  simp [counting, numbered]

/-- Packet 0, packet 2 twice and packet 5. -/
theorem statistics_survive_loss :
    ((new 100).deliver counting [(0, 3, 10), (2, 3, 11), (2, 3, 12), (5, 3, 13)]).getLatest =
        some (counting 5) ∧
      ((new 100).deliver counting [(0, 3, 10), (2, 3, 11), (2, 3, 12), (5, 3, 13)]).lostTotal = 3 := by
  have hiff := (statistics_survive_iff (F := UInt64)).2 100 0 counting session_counting
    [(0, 3, 10), (2, 3, 11), (2, 3, 12), (5, 3, 13)] (by simp)
  have hlast := hiff.mpr (by decide) [(0, 3, 10), (2, 3, 11), (2, 3, 12)] (5, 3, 13)
    (List.prefix_refl _)
  exact ⟨hlast.latest, by decide⟩

/-- Packet 1 arrives after packet 3 and replaces it, throws its sample away, and has packet 4 count
packet 3 as lost. -/
theorem late_packet_resets :
    let b := (new 100).deliver counting [(0, 3, 10), (3, 3, 11)]
    let late := receive counting b (1, 3, 12)
    (b.getLatest = some (counting 3) ∧ late.getLatest = some (counting 1) ∧
      ¬ Survives counting b [(0, 3, 10), (3, 3, 11)] (1, 3, 12)) ∧
    (∃ x ∈ b.samples, expired 100 12 x = false ∧ x ∉ late.samples) ∧
    (counting 3).seq ∈ late.missing (counting 4) ∧
      (receive counting late (4, 3, 13)).lostTotal = late.lostTotal + 2 := by
  refine ⟨⟨by decide, by decide, fun h => ?_⟩, ⟨⟨11, 2, 3, 0⟩, ?_, ?_, ?_⟩, by decide, by decide⟩
  · exact absurd h.latest (by decide)
  · decide
  · decide
  · decide

end FeedbackStateBuffer

end OpenArmTeleop.Core
