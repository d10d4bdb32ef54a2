import OpenArmTeleop.Core.LossCount
import OpenArmTeleop.Core.Reorder
import OpenArmTeleop.Leader.Bounds
import OpenArmTeleop.Lib.Gaps
import OpenArmTeleop.System.Authentic

/-!
# What the counters of lost packets say

Both programs number the datagrams of each arm without gaps, so what a receiver counts as lost is
what the network lost.
-/

open Num Run Clock Gaps OpenArmTeleop.Net OpenArmTeleop.Core

namespace OpenArmTeleop.System

variable (cfg : Config)

/-! ## A round of sending -/

/-- The packet of the arm has its number, and is still to be sent. -/
def Stage.pending (a : ArmSide) : Stage → Bool
  | .encode _ => true
  | .send b => decide (a = .left ∨ b = .right)
  | _ => false

/-- It is encoded as well. -/
def Stage.encoded (a : ArmSide) : Stage → Bool
  | .encode b => decide (a = .right ∧ b = .left)
  | .send b => decide (a = .left ∨ b = .right)
  | _ => false

/-- No packet is under way. -/
def Stage.resting : Stage → Bool
  | .encode _ | .send _ => false
  | _ => true

/-- The numbers of a sender: the next one, the ones in its packets, and how many were sent. -/
structure Numbering (stage : Stage) (seq : UInt32) (sent : ArmSide → ℕ) (pkt : ArmSide → UInt32)
    (wire : ArmSide → Option UInt32) : Prop where
  next : ∀ a, seq = UInt32.ofNat (sent a + if stage.pending a then 1 else 0)
  filled : ∀ a b, stage = .encode b → pkt a = UInt32.ofNat (sent a)
  onWire : ∀ a x, wire a = some x → x = UInt32.ofNat (sent a)
  encoded : ∀ a, stage.encoded a = true → (wire a).isSome = true

section Numbering

variable {stage : Stage} {seq : UInt32} {sent : ArmSide → ℕ} {pkt : ArmSide → UInt32}
  {wire : ArmSide → Option UInt32}

theorem Stage.resting_pending (h : stage.resting = true) (a : ArmSide) :
    stage.pending a = false ∧ stage.encoded a = false := by
  cases stage <;> first | exact ⟨rfl, rfl⟩ | cases h

/-- Between two rounds only the next number counts. -/
theorem Numbering.rest (hn : Numbering stage seq sent pkt wire) (hrest : stage.resting = true)
    {stage' : Stage} (hrest' : stage'.resting = true) (pkt' : ArmSide → UInt32) :
    Numbering stage' seq sent pkt' wire where
  next a := by
    rw [(Stage.resting_pending hrest' a).1, hn.next a, (Stage.resting_pending hrest a).1]
  filled a b hb := by
    rw [hb] at hrest'
    cases hrest'
  onWire := hn.onWire
  encoded a ha := by
    rw [(Stage.resting_pending hrest' a).2] at ha
    cases ha

/-- A round begins with the next number in both packets. -/
theorem Numbering.begin (hn : Numbering stage seq sent pkt wire) (hrest : stage.resting = true)
    {pkt' : ArmSide → UInt32} (hpkt : ∀ a, pkt' a = seq) :
    Numbering (.encode .right) (seq + 1) sent pkt' wire where
  next a := by
    have hseq := hn.next a
    rw [(Stage.resting_pending hrest a).1] at hseq
    rw [hseq]
    exact (UInt32.ofNat_add _ _).symm
  filled a b _ := by
    have hseq := hn.next a
    rw [(Stage.resting_pending hrest a).1] at hseq
    rw [hpkt, hseq]
    rfl
  onWire := hn.onWire
  encoded a ha := by cases a <;> cases ha

theorem Numbering.encode (a : ArmSide) (hn : Numbering (.encode a) seq sent pkt wire) :
    Numbering (.afterEncode a) seq sent pkt (Function.update wire a (some (pkt a))) where
  next b := by
    rw [hn.next b]
    cases a <;> cases b <;> rfl
  filled b _ _ := hn.filled b a rfl
  onWire b x hx := by
    rcases eq_or_ne b a with rfl | hab
    · rw [Function.update_self] at hx
      rw [← Option.some.inj hx]
      exact hn.filled b b rfl
    · rw [Function.update_of_ne hab] at hx
      exact hn.onWire b x hx
  encoded b hb := by
    rcases eq_or_ne b a with rfl | hab
    · rw [Function.update_self]
      rfl
    · rw [Function.update_of_ne hab]
      refine hn.encoded b ?_
      cases a <;> cases b <;> simp_all [Stage.afterEncode, Stage.encoded]

theorem Numbering.send (a : ArmSide) (hn : Numbering (.send a) seq sent pkt wire) :
    Numbering (.afterSend a) seq (Function.update sent a (sent a + 1)) pkt
      (Function.update wire a none) where
  next b := by
    rcases eq_or_ne b a with rfl | hab
    · have hseq := hn.next b
      have hpending : (Stage.send b).pending b = true := by cases b <;> rfl
      have hafter : (Stage.afterSend b).pending b = false := by cases b <;> rfl
      rw [hpending] at hseq
      rw [Function.update_self, hafter]
      exact hseq
    · rw [Function.update_of_ne hab, hn.next b]
      cases a <;> cases b <;> first | rfl | exact absurd rfl hab
  filled b c hc := by cases a <;> cases hc
  onWire b x hx := by
    rcases eq_or_ne b a with rfl | hab
    · rw [Function.update_self] at hx
      cases hx
    · rw [Function.update_of_ne hab] at hx ⊢
      exact hn.onWire b x hx
  encoded b hb := by
    rcases eq_or_ne b a with rfl | hab
    · cases b <;> cases hb
    · rw [Function.update_of_ne hab]
      refine hn.encoded b ?_
      cases a <;> cases b <;> simp_all [Stage.afterSend, Stage.encoded]

end Numbering

/-! ## Both senders -/

structure NumberedInv (s : State) : Prop where
  leader : Numbering s.leader.stage s.leader.seq (fun a => (s.commands a).length)
    (fun a => (s.leader.pkt a).seq) (fun a => (s.leader.wire a).map (·.seq))
  header : s.leader.stage = .header .left → (s.leader.pkt .right).seq = s.leader.seq
  follower : Numbering s.follower.stage s.follower.state.loop.fbSeq
    (fun a => (s.feedback a).length) (fun a => (s.follower.fb a).seq)
    (fun a => (s.follower.wire a).map (·.seq))
  filled : s.follower.state.loop.pc = .fbReceiveTime .left ∨ s.follower.state.loop.pc = .fbFill .left →
    (s.follower.fb .right).seq = s.follower.state.loop.fbSeq

/-- A datagram carries the number that it was sent with. -/
def NumberedEvent : Event → Prop
  | .commandSent _ i _ p => p.seq = UInt32.ofNat i
  | .feedbackSent _ i _ fb => fb.seq = UInt32.ofNat i
  | _ => True

theorem map_update {α β : Type} (f : α → β) (g : ArmSide → α) (a : ArmSide) (x : α) :
    (fun b => f (Function.update g a x b)) = Function.update (fun b => f (g b)) a (f x) :=
  Function.comp_update f g a x

section NumberedInv

variable {cfg} {s s' : State} {e : Option Event}

theorem NumberedInv.command (hI : NumberedInv s) {a : ArmSide} {p : TeleopPacket UInt64}
    (hp : s.leader.wire a = some p) : p.seq = UInt32.ofNat (s.commands a).length :=
  hI.leader.onWire a p.seq (by simp [hp])

theorem NumberedInv.report (hI : NumberedInv s) {a : ArmSide} {fb : FeedbackPacket UInt64}
    (hfb : s.follower.wire a = some fb) : fb.seq = UInt32.ofNat (s.feedback a).length :=
  hI.follower.onWire a fb.seq (by simp [hfb])

variable [Rounding]

theorem numberedInv_start : NumberedInv (State.start cfg) := by
  refine ⟨⟨fun _ => rfl, nofun, nofun, nofun⟩, nofun, ⟨fun _ => rfl, nofun, nofun, nofun⟩, ?_⟩
  rintro (h | h) <;> cases h

/-- Feedback is filled with the number of its iteration, which ends with the left arm. -/
theorem loopStep_report (fcfg : Follower.Config) (st : Follower.State) (env : Follower.Env) :
    (∃ a fb, st.loop.pc = .fbFill a ∧ (Follower.loopStep fcfg st env).2 = some (.feedback a fb) ∧
        fb.seq = st.loop.fbSeq) ∨
      (∀ a fb, (Follower.loopStep fcfg st env).2 ≠ some (.feedback a fb)) ∧
        (∀ a, st.loop.pc ≠ .fbFill a) ∧
        (Follower.loopStep fcfg st env).1.loop.fbSeq = st.loop.fbSeq := by
  by_cases hfill : ∃ a, st.loop.pc = .fbFill a
  · obtain ⟨a, hpc⟩ := hfill
    left
    cases a <;> exact ⟨_, _, hpc, by simp only [Follower.loopStep, hpc]; rfl, rfl⟩
  · right
    have hfill' : ∀ a, st.loop.pc ≠ .fbFill a := fun a ha => hfill ⟨a, ha⟩
    refine ⟨fun a fb he => ?_, hfill', ?_⟩
    · cases Follower.loopStep_records fcfg st env he with
      | feedback a hpc => exact hfill' a hpc
    · cases hpc : st.loop.pc with
      | fbFill a => exact absurd hpc (hfill' a)
      | exited => simp only [Follower.loopStep, hpc]
      | _ =>
        simp only [Follower.loopStep, hpc]
        (repeat' split) <;> rfl

omit [Rounding] in
theorem next_fbReceiveTimeLeft (fcfg : Follower.Config) (st : Follower.State)
    (h : Follower.next fcfg st = .fbReceiveTime .left) : st.loop.pc = .fbFill .right := by
  have hflow := Follower.next_flow (P := fun _ pc pc' => pc' = .fbReceiveTime .left →
    pc = .fbFill .right) (by decide +kernel)
  exact hflow fcfg st h

theorem NumberedInv.loop (hI : NumberedInv s) (hstage : s.follower.stage = .loop)
    (env : Follower.Env) :
    NumberedInv { s with
      follower := { s.follower.record (Follower.loopStep cfg.follower s.follower.state env).2 with
        state := (Follower.loopStep cfg.follower s.follower.state env).1 } } := by
  have hn := hI.follower
  have hrest : s.follower.stage.resting = true := by rw [hstage]; rfl
  rcases loopStep_report cfg.follower s.follower.state env with
    ⟨a, fb, hpc, he, hseq⟩ | ⟨hno, hfill, hseq⟩
  · cases a with
    | right =>
      have hstate : (Follower.loopStep cfg.follower s.follower.state env).1 =
          s.follower.state.goto (.fbReceiveTime .left) := by
        simp only [Follower.loopStep, hpc]
      rw [he, hstate]
      refine ⟨hI.leader, hI.header, hn.rest hrest hrest _, fun _ => ?_⟩
      simpa [FollowerNode.record, Follower.State.goto] using hseq
    | left =>
      have hstate : (Follower.loopStep cfg.follower s.follower.state env).1 =
          { s.follower.state with
            loop := { s.follower.state.loop with
              fbSeq := s.follower.state.loop.fbSeq + 1 } }.goto .head := by
        simp only [Follower.loopStep, hpc]
      rw [he, hstate]
      refine ⟨hI.leader, hI.header, hn.begin hrest fun b => ?_, ?_⟩
      · cases b with
        | right => simpa [FollowerNode.record] using hI.filled (.inr hpc)
        | left => simpa [FollowerNode.record] using hseq
      · rintro (h | h) <;> cases h
  · have hrecord : s.follower.record (Follower.loopStep cfg.follower s.follower.state env).2 =
        s.follower := by
      unfold FollowerNode.record
      split
      · rename_i b fb he
        exact absurd he (hno b fb)
      · rfl
    rw [hrecord]
    refine ⟨hI.leader, hI.header, by simpa only [hseq] using hn, fun hpc => ?_⟩
    simp only [hseq, Follower.loopStep_pc] at hpc ⊢
    rcases hpc with hpc | hpc
    · exact absurd (next_fbReceiveTimeLeft _ _ hpc) (hfill .right)
    · exact hI.filled (.inl (Follower.next_fbFill _ _ _ hpc))

theorem NumberedInv.step (hI : NumberedInv s) (hs : Step cfg s s' e) : NumberedInv s' := by
  cases hs with
  | leader x st e stage _ _ hstage =>
    rcases hstage with rfl | ⟨hloop, rfl⟩
    · exact ⟨hI.leader, hI.header, hI.follower, hI.filled⟩
    · refine ⟨hI.leader.rest (by rw [hloop]; rfl) rfl _, nofun, hI.follower, hI.filled⟩
  | assemble systemNowNs hstage =>
    exact ⟨hI.leader.rest (by rw [hstage]; rfl) rfl _, nofun, hI.follower, hI.filled⟩
  | header a hstage =>
    cases a with
    | right =>
      refine ⟨hI.leader.rest (by rw [hstage]; rfl) rfl _, fun _ => ?_, hI.follower, hI.filled⟩
      simp [LeaderNode.fillHeader]
    | left =>
      refine ⟨hI.leader.begin (by rw [hstage]; rfl) fun a => ?_, nofun, hI.follower, hI.filled⟩
      cases a with
      | right =>
        simp only [LeaderNode.fillHeader]
        exact hI.header hstage
      | left => simp [LeaderNode.fillHeader]
  | encodeCommand a bits hstage hbits =>
    have hn := hI.leader
    rw [hstage] at hn
    refine ⟨?_, (fun h => by cases a <;> cases h), hI.follower, hI.filled⟩
    have hwire := map_update (Option.map fun p : TeleopPacket UInt64 => p.seq) s.leader.wire a
      (some (bits.encode (reading cfg.clocks.leaderSystemNs s.nowNs)))
    have hseq : bits.seq = (s.leader.pkt a).seq := by rw [← hbits]; rfl
    change Numbering _ _ _ _ (fun b => (Function.update s.leader.wire a _ b).map (·.seq))
    rw [hwire]
    have hnext := hn.encode a
    rw [← hseq] at hnext
    exact hnext
  | sendCommand a p hstage hp =>
    have hn := hI.leader
    rw [hstage] at hn
    refine ⟨?_, (fun h => by cases a <;> cases h), hI.follower, hI.filled⟩
    have hwire := map_update (Option.map fun p : TeleopPacket UInt64 => p.seq) s.leader.wire a none
    have hsent := map_update List.length s.commands a
      (s.commands a ++ [TeleopPacket.layout.put p])
    rw [List.length_append] at hsent
    change Numbering _ _ (fun b => (Function.update s.commands a _ b).length) _
      (fun b => (Function.update s.leader.wire a _ b).map (·.seq))
    rw [hwire, hsent]
    exact hn.send a
  | skipCommand a hstage hp =>
    have hn := hI.leader.encoded a (by rw [hstage]; cases a <;> rfl)
    simp [hp] at hn
  | follower x st e _ hloop hstep =>
    have hcases := Follower.step_cases cfg.follower _ _ _ _ hstep
    by_cases hx : ∃ env, x = .loop env
    · obtain ⟨env, rfl⟩ := hx
      cases hcases with
      | loop => exact hI.loop (hloop env rfl).1 env
    · have hsame := (Follower.step_still hcases fun env henv => hx ⟨env, henv⟩).1
      have hrecord : s.follower.record e = s.follower := by
        cases e with
        | none => rfl
        | some y =>
          cases y with
          | feedback a fb =>
            rcases Follower.step_recorded cfg.follower _ hcases with hout | ⟨env, henv, -⟩
            · cases hout
            · exact absurd ⟨env, henv⟩ hx
          | _ => rfl
      rw [hrecord]
      exact ⟨hI.leader, hI.header, by simpa only [hsame] using hI.follower,
        by simpa only [hsame] using hI.filled⟩
  | encodeFeedback a bits hstage hbits =>
    have hn := hI.follower
    rw [hstage] at hn
    refine ⟨hI.leader, hI.header, ?_, hI.filled⟩
    have hwire := map_update (Option.map fun fb : FeedbackPacket UInt64 => fb.seq) s.follower.wire a
      (some (bits.encode (reading cfg.clocks.followerSystemNs s.nowNs)))
    have hseq : bits.seq = (s.follower.fb a).seq := by rw [← hbits]; rfl
    change Numbering _ _ _ _ (fun b => (Function.update s.follower.wire a _ b).map (·.seq))
    rw [hwire]
    have hnext := hn.encode a
    rw [← hseq] at hnext
    exact hnext
  | sendFeedback a fb hstage hfb =>
    have hn := hI.follower
    rw [hstage] at hn
    refine ⟨hI.leader, hI.header, ?_, hI.filled⟩
    have hwire := map_update (Option.map fun fb : FeedbackPacket UInt64 => fb.seq) s.follower.wire a
      none
    have hsent := map_update List.length s.feedback a (s.feedback a ++ [FeedbackPacket.layout.put fb])
    rw [List.length_append] at hsent
    change Numbering _ _ (fun b => (Function.update s.feedback a _ b).length) _
      (fun b => (Function.update s.follower.wire a _ b).map (·.seq))
    rw [hwire, hsent]
    exact hn.send a
  | skipFeedback a hstage hfb =>
    have hn := hI.follower.encoded a (by rw [hstage]; cases a <;> rfl)
    simp [hfb] at hn
  | commandReceived => exact ⟨hI.leader, hI.header, hI.follower, hI.filled⟩
  | feedbackReceived => exact ⟨hI.leader, hI.header, hI.follower, hI.filled⟩
  | dropped => exact hI

theorem NumberedInv.event (hI : NumberedInv s) (hs : Step cfg s s' e) :
    ∀ x, e = some x → NumberedEvent x := by
  rintro x rfl
  generalize he : some x = e at hs
  cases hs with
  | leader _ _ e => cases e <;> cases he; trivial
  | follower _ _ e => cases e <;> cases he; trivial
  | sendCommand a p _ hp => cases he; exact hI.command hp
  | sendFeedback a fb _ hfb => cases he; exact hI.report hfb
  | _ => cases he <;> trivial

end NumberedInv

/-! ## The counters -/

/-- The numbers of the commands that came in for the arm, the newest one first. -/
def commandIndices (a : ArmSide) (h : List Event) : List ℕ :=
  h.filterMap fun e =>
    match e with
    | .commandReceived b i _ _ => if b = a then some i else none
    | _ => none

def feedbackIndices (a : ArmSide) (h : List Event) : List ℕ :=
  h.filterMap fun e =>
    match e with
    | .feedbackReceived b i _ _ _ => if b = a then some i else none
    | _ => none

/-- The datagrams came in in the order of sending, each any number of times, and were not too many
for half the range of the numbers. -/
def Orderly (l : List ℕ) : Prop := l.Pairwise (· ≥ ·) ∧ ∀ i ∈ l, i < 2 ^ 31

theorem Orderly.tail {i : ℕ} {l : List ℕ} (hl : Orderly (i :: l)) : Orderly l :=
  ⟨(List.pairwise_cons.mp hl.1).2, fun j hj => hl.2 j (List.mem_cons_of_mem _ hj)⟩

/-- The command buffer after these numbers. -/
def Counts {F : Type} (b : TeleopStateBuffer F) : List ℕ → Prop
  | [] => b.hasData = false ∧ b.lostPacketCount = 0
  | j :: l => b.hasData = true ∧ b.lastSeq = UInt32.ofNat j ∧
      b.lostPacketCount = UInt32.ofNat (skipped (j :: l))

/-- The feedback buffer after these numbers. -/
def FeedbackCounts {F : Type} (b : FeedbackStateBuffer F) : List ℕ → Prop
  | [] => b.hasData = false ∧ b.lostTotal = 0 ∧ b.receivedTotal = 0
  | j :: l => b.hasData = true ∧ b.lastSeq = UInt32.ofNat j ∧
      b.lostTotal = UInt32.ofNat (skipped (j :: l)) ∧
      b.receivedTotal = UInt32.ofNat (j :: l).toFinset.card

section Counters

variable {F : Type} {i j : ℕ} {l : List ℕ}

theorem toNat_index (hi : i < 2 ^ 31) : (UInt32.ofNat i).toNat = i :=
  UInt32.toNat_ofNat_of_lt' (hi.trans (by decide))

theorem ofNat_inj (hi : i < 2 ^ 31) (hj : j < 2 ^ 31) : UInt32.ofNat i = UInt32.ofNat j ↔ i = j := by
  rw [← UInt32.toNat_inj, toNat_index hi, toNat_index hj]

theorem toNat_ofNat_sub (hji : j ≤ i) (hi : i < 2 ^ 31) :
    (UInt32.ofNat i - UInt32.ofNat j).toNat = i - j := by
  rw [← UInt32.ofNat_sub hji, toNat_index (by omega)]

/-- The next number adds what its step goes over. -/
theorem skipped_step (hji : j < i) :
    UInt32.ofNat (skipped (j :: l)) + (UInt32.ofNat i - UInt32.ofNat j - 1) =
      UInt32.ofNat (skipped (i :: j :: l)) := by
  have hone : UInt32.ofNat i - UInt32.ofNat j - 1 = UInt32.ofNat (i - j - 1) := by
    rw [UInt32.ofNat_sub (by omega), UInt32.ofNat_sub hji.le]
    rfl
  rw [hone, ← UInt32.ofNat_add, skipped, Nat.add_comm]

theorem Counts.update [Rounding] {b : TeleopStateBuffer F} (hb : Counts b l) (hl : Orderly (i :: l))
    {p : TeleopPacket F} (hp : p.seq = UInt32.ofNat i) (nowNs : UInt64) :
    Counts (b.update p nowNs) (i :: l) := by
  cases l with
  | nil =>
    obtain ⟨hdata, hlost⟩ := hb
    refine ⟨rfl, hp, ?_⟩
    simp only [TeleopStateBuffer.update, hdata]
    exact hlost
  | cons j l =>
    obtain ⟨hdata, hlast, hlost⟩ := hb
    have hji : j ≤ i := (List.pairwise_cons.mp hl.1).1 j List.mem_cons_self
    have hi : i < 2 ^ 31 := hl.2 i List.mem_cons_self
    refine ⟨rfl, hp, ?_⟩
    rw [b.update_forward p nowNs hdata (by rw [hp, hlast, toNat_ofNat_sub hji hi]; omega), hp, hlast,
      hlost]
    by_cases heq : i = j
    · subst heq
      rw [if_pos rfl, UInt32.add_zero, skipped, Nat.sub_self, Nat.zero_sub, Nat.zero_add]
    · rw [if_neg fun h => heq ((ofNat_inj hi (by omega)).mp h)]
      exact skipped_step (by omega)

theorem FeedbackCounts.update {b : FeedbackStateBuffer F} (hb : FeedbackCounts b l)
    (hl : Orderly (i :: l)) {p : FeedbackPacket F} (hp : p.seq = UInt32.ofNat i)
    (rttNs nowNs : UInt64) : FeedbackCounts (b.update p rttNs nowNs) (i :: l) := by
  cases l with
  | nil =>
    obtain ⟨hdata, hlost, hreceived⟩ := hb
    rcases b.update_cases p rttNs nowNs with ⟨-, h⟩ | ⟨h, -⟩ | ⟨h, -⟩ | ⟨h, -⟩
    · rw [h]
      refine ⟨rfl, hp, hlost, ?_⟩
      simp [FeedbackStateBuffer.store, hreceived]
    all_goals exact absurd (h.symm.trans hdata) (by decide)
  | cons j l =>
    obtain ⟨hdata, hlast, hlost, hreceived⟩ := hb
    have hj : ∀ k ∈ j :: l, k ≤ i := (List.pairwise_cons.mp hl.1).1
    have hji := hj j List.mem_cons_self
    have hi : i < 2 ^ 31 := hl.2 i List.mem_cons_self
    rcases b.update_cases p rttNs nowNs with ⟨h, -⟩ | ⟨-, hjump, -⟩ | ⟨-, hdup, h⟩ | ⟨-, hne, -, h⟩
    · exact absurd (h.symm.trans hdata) (by decide)
    · rw [hp, hlast, gt_iff_lt, UInt32.lt_iff_toNat_lt, toNat_ofNat_sub hji hi] at hjump
      change 2 ^ 31 - 1 < i - j at hjump
      omega
    · rw [hp, hlast, ofNat_inj hi (by omega)] at hdup
      subst hdup
      rw [h]
      refine ⟨hdata, hlast, ?_, ?_⟩
      · rw [hlost, skipped, Nat.sub_self, Nat.zero_sub, Nat.zero_add]
      · rw [hreceived, List.toFinset_cons (a := i) (l := i :: l), Finset.insert_eq_of_mem (by simp)]
    · rw [hp, hlast, ne_eq, ofNat_inj hi (by omega)] at hne
      have hnew : i ∉ j :: l := by
        intro hmem
        rcases List.mem_cons.mp hmem with rfl | hmem
        · exact hne rfl
        · have := (List.pairwise_cons.mp (List.pairwise_cons.mp hl.1).2).1 i hmem
          omega
      rw [h]
      refine ⟨rfl, hp, ?_, ?_⟩
      · change b.lostTotal + (p.seq - b.lastSeq - 1) = _
        rw [hlost, hp, hlast]
        exact skipped_step (by omega)
      · change b.receivedTotal + 1 = _
        rw [hreceived, List.toFinset_cons (a := i), Finset.card_insert_of_notMem (by simpa using hnew),
          UInt32.ofNat_add]
        rfl

end Counters

/-! ## What is counted along a run -/

section Counted

variable [Rounding] {cfg} {s s' : State} {e : Option Event} {h : List Event}

/-- Only a command that came in changes a command buffer. -/
theorem Step.commandBuffer (hs : Step cfg s s' e) :
    (s'.follower.state.buffer = s.follower.state.buffer ∧
        ∀ a, commandIndices a (e.toList ++ h) = commandIndices a h) ∨
      ∃ a i t p, e = some (.commandReceived a i t p) ∧
        ∃ nowNs, s'.follower.state = storeCommand s.follower.state a p nowNs := by
  cases hs with
  | commandReceived a i _ _ _ p => exact .inr ⟨a, i, s.nowNs, p, rfl, _, rfl⟩
  | leader _ _ e => exact .inl ⟨rfl, fun a => by cases e <;> rfl⟩
  | follower x st e hpacket _ hstep =>
    refine .inl ⟨?_, fun a => by cases e <;> rfl⟩
    have hcases := Follower.step_cases cfg.follower _ _ _ _ hstep
    by_cases hx : ∃ env, x = .loop env
    · obtain ⟨env, rfl⟩ := hx
      cases hcases with
      | loop => exact Follower.loopStep_buffer cfg.follower _ env
    · exact (Follower.step_still hcases fun env henv => hx ⟨env, henv⟩).2 hpacket
  | _ => exact .inl ⟨rfl, fun a => rfl⟩

theorem Step.feedbackBuffer (hs : Step cfg s s' e) :
    (s'.leader.state.buffer = s.leader.state.buffer ∧
        ∀ a, feedbackIndices a (e.toList ++ h) = feedbackIndices a h) ∨
      ∃ a i t fb rttNs, e = some (.feedbackReceived a i t fb rttNs) ∧
        ∃ systemNowNs nowNs,
          s'.leader.state = storeFeedback s.leader.state a fb systemNowNs nowNs := by
  cases hs with
  | feedbackReceived a i _ _ _ fb => exact .inr ⟨a, i, s.nowNs, fb, _, rfl, _, _, rfl⟩
  | follower _ _ e => exact .inl ⟨rfl, fun a => by cases e <;> rfl⟩
  | leader x st e _ hfeedback _ _ hstep =>
    refine .inl ⟨?_, fun a => by cases e <;> rfl⟩
    change (Leader.machine cfg.leader).step s.leader.state x = some (st, e) at hstep
    by_cases hx : ∃ env, x = .loop env
    · obtain ⟨env, rfl⟩ := hx
      cases Leader.step_cases cfg.leader _ hstep with
      | loop => exact Leader.loopStep_stored cfg.leader _ env
    · rcases Leader.step_stored cfg.leader _ hstep fun env henv => hx ⟨env, henv⟩ with
        ⟨hbuffer, -⟩ | ⟨a, p, _, _, hstored, -⟩
      · exact hbuffer
      · cases x with
        | feedback b fb systemNowNs nowNs => exact absurd rfl (hfeedback b fb systemNowNs nowNs)
        | loop env => exact absurd ⟨env, rfl⟩ hx
        | _ => cases hstored
  | _ => exact .inl ⟨rfl, fun a => rfl⟩

omit [Rounding] in
theorem commandIndices_received {a b : ArmSide} {i t : ℕ} {p : TeleopPacket UInt64} :
    commandIndices b (.commandReceived a i t p :: h) =
      if a = b then i :: commandIndices b h else commandIndices b h := by
  unfold commandIndices
  rw [List.filterMap_cons]
  dsimp only
  split_ifs <;> rfl

omit [Rounding] in
theorem feedbackIndices_received {a b : ArmSide} {i t : ℕ} {fb : FeedbackPacket UInt64}
    {rttNs : UInt64} :
    feedbackIndices b (.feedbackReceived a i t fb rttNs :: h) =
      if a = b then i :: feedbackIndices b h else feedbackIndices b h := by
  unfold feedbackIndices
  rw [List.filterMap_cons]
  dsimp only
  split_ifs <;> rfl

/-- The numbers of the datagrams on the way are below how many were sent. -/
def SentInv (s : State) (h : List Event) : Prop :=
  (∀ a i t p, .commandSent a i t p ∈ h → i < (s.commands a).length) ∧
    ∀ a i t fb, .feedbackSent a i t fb ∈ h → i < (s.feedback a).length

theorem SentInv.step (hI : SentInv s h) (hs : Step cfg s s' e) : SentInv s' (e.toList ++ h) := by
  obtain ⟨hcommand, hfeedback⟩ := hI
  cases hs with
  | leader _ _ e | follower _ _ e => cases e <;> simpa [SentInv] using ⟨hcommand, hfeedback⟩
  | sendCommand b p =>
    refine ⟨fun a i t q hmem => ?_, by simpa using hfeedback⟩
    dsimp only
    rcases List.mem_cons.mp hmem with heq | hmem
    · cases heq
      simp
    · have := hcommand a i t q hmem
      rcases eq_or_ne a b with rfl | hab
      · simp only [Function.update_self, List.length_append]
        omega
      · rwa [Function.update_of_ne hab]
  | sendFeedback b fb =>
    refine ⟨by simpa using hcommand, fun a i t q hmem => ?_⟩
    dsimp only
    rcases List.mem_cons.mp hmem with heq | hmem
    · cases heq
      simp
    · have := hfeedback a i t q hmem
      rcases eq_or_ne a b with rfl | hab
      · simp only [Function.update_self, List.length_append]
        omega
      · rwa [Function.update_of_ne hab]
  | _ => simpa [SentInv] using ⟨hcommand, hfeedback⟩

variable (cfg) in
/-- The buffers count what came in. -/
structure CountedInv (s : State) (h : List Event) : Prop where
  honest : SystemInv cfg s h
  numbered : NumberedInv s
  events : ∀ e ∈ h, NumberedEvent e
  sent : SentInv s h
  command : ∀ a, Orderly (commandIndices a h) →
    Counts (s.follower.state.buffer a) (commandIndices a h)
  feedback : ∀ a, Orderly (feedbackIndices a h) →
    FeedbackCounts (s.leader.state.buffer a) (feedbackIndices a h)

theorem countedInv_start : CountedInv cfg (State.start cfg) [] where
  honest := systemInv_start
  numbered := numberedInv_start
  events := by simp
  sent := by simp [SentInv]
  command _ _ := ⟨rfl, rfl⟩
  feedback _ _ := ⟨rfl, rfl, rfl⟩

theorem CountedInv.step (hI : CountedInv cfg s h) (hs : Step cfg s s' e) :
    CountedInv cfg s' (e.toList ++ h) where
  honest := hI.honest.step hs
  numbered := hI.numbered.step hs
  events x hx := by
    rcases List.mem_append.mp hx with hx | hx
    · exact hI.numbered.event hs x (Option.mem_toList.mp hx)
    · exact hI.events x hx
  sent := hI.sent.step hs
  command b horder := by
    rcases hs.commandBuffer (h := h) with ⟨hbuffer, hindices⟩ | ⟨a, i, t, p, rfl, nowNs, hstate⟩
    · rw [hindices] at horder ⊢
      rw [hbuffer]
      exact hI.command b horder
    · rw [Option.toList_some, List.singleton_append, commandIndices_received] at horder ⊢
      rw [hstate, storeCommand]
      rcases eq_or_ne a b with rfl | hab
      · rw [if_pos rfl] at horder ⊢
        obtain ⟨u, -, hsent⟩ := hI.honest.honest hs
        have hseq : (p.map Double.ofBits).seq = UInt32.ofNat i := hI.events _ hsent
        dsimp only
        rw [Function.update_self]
        exact (hI.command a horder.tail).update horder hseq nowNs
      · rw [if_neg hab] at horder ⊢
        dsimp only
        rw [Function.update_of_ne hab.symm]
        exact hI.command b horder
  feedback b horder := by
    rcases hs.feedbackBuffer (h := h) with ⟨hbuffer, hindices⟩ |
      ⟨a, i, t, fb, rttNs, rfl, systemNowNs, nowNs, hstate⟩
    · rw [hindices] at horder ⊢
      rw [hbuffer]
      exact hI.feedback b horder
    · rw [Option.toList_some, List.singleton_append, feedbackIndices_received] at horder ⊢
      rw [hstate, storeFeedback]
      rcases eq_or_ne a b with rfl | hab
      · rw [if_pos rfl] at horder ⊢
        obtain ⟨⟨u, -, hsent⟩, -⟩ := hI.honest.honest hs
        have hseq : (fb.map Double.ofBits).seq = UInt32.ofNat i := hI.events _ hsent
        dsimp only
        rw [Function.update_self]
        exact (hI.feedback a horder.tail).update horder hseq _ nowNs
      · rw [if_neg hab] at horder ⊢
        dsimp only
        rw [Function.update_of_ne hab.symm]
        exact hI.feedback b horder

variable (cfg) in
theorem counted_runs (hr : (machine cfg).Runs s h) : CountedInv cfg s h := by
  refine hr.invariant (I := CountedInv cfg) countedInv_start ?_
  intro s h x s' e hI _ hs
  obtain ⟨hle, hstep⟩ := step_cases cfg hs
  have hI' : CountedInv cfg { s with nowNs := x.timeNs } h :=
    ⟨hI.honest.later hle, ⟨hI.numbered.leader, hI.numbered.header, hI.numbered.follower,
      hI.numbered.filled⟩, hI.events, hI.sent, hI.command, hI.feedback⟩
  exact hI'.step hstep

end Counted

/-- The counters of an arm say how many datagrams between those that came in never did. -/
structure LossesCounted (s : State) (h : List Event) (a : ArmSide) : Prop where
  command : Orderly (commandIndices a h) →
    (s.follower.state.buffer a).lostPacketCount.toNat = (leftOut (commandIndices a h)).ncard
  commandSent : ∀ i ∈ leftOut (commandIndices a h), ∃ t p, .commandSent a i t p ∈ h
  feedback : Orderly (feedbackIndices a h) →
    (s.leader.state.buffer a).lostTotal.toNat = (leftOut (feedbackIndices a h)).ncard ∧
      (s.leader.state.buffer a).receivedTotal.toNat = (feedbackIndices a h).toFinset.card
  feedbackSent : ∀ i ∈ leftOut (feedbackIndices a h), ∃ t fb, .feedbackSent a i t fb ∈ h

section Losses

variable {a : ArmSide} {i : ℕ} {l : List ℕ} {h : List Event}

theorem Counts.toNat {F : Type} {b : TeleopStateBuffer F} (hb : Counts b l) (hl : Orderly l) :
    b.lostPacketCount.toNat = (leftOut l).ncard := by
  rw [ncard_leftOut hl.1]
  cases l with
  | nil =>
    rw [hb.2]
    rfl
  | cons j l =>
    have := skipped_le j l hl.1
    have := hl.2 j List.mem_cons_self
    rw [hb.2.2, toNat_index (by omega)]

theorem FeedbackCounts.toNat {F : Type} {b : FeedbackStateBuffer F} (hb : FeedbackCounts b l)
    (hl : Orderly l) :
    b.lostTotal.toNat = (leftOut l).ncard ∧ b.receivedTotal.toNat = l.toFinset.card := by
  rw [ncard_leftOut hl.1]
  cases l with
  | nil =>
    rw [hb.2.1, hb.2.2]
    exact ⟨rfl, rfl⟩
  | cons j l =>
    obtain ⟨-, -, hlost, hreceived⟩ := hb
    have := skipped_le j l hl.1
    have := hl.2 j List.mem_cons_self
    have hcard : (j :: l).toFinset.card ≤ 2 ^ 31 := by
      rw [← Finset.card_range (2 ^ 31)]
      exact Finset.card_le_card fun i hi => Finset.mem_range.mpr (hl.2 i (List.mem_toFinset.mp hi))
    rw [hlost, hreceived, toNat_index (by omega),
      UInt32.toNat_ofNat_of_lt' (lt_of_le_of_lt hcard (by decide))]
    exact ⟨rfl, rfl⟩

theorem mem_commandIndices (hi : i ∈ commandIndices a h) : ∃ t p, .commandReceived a i t p ∈ h := by
  obtain ⟨e, he, hsome⟩ := List.mem_filterMap.mp hi
  cases e with
  | commandReceived b j t p =>
    dsimp only at hsome
    split at hsome <;> cases hsome
    rename_i hab
    exact ⟨t, p, hab ▸ he⟩
  | _ => cases hsome

theorem mem_feedbackIndices (hi : i ∈ feedbackIndices a h) :
    ∃ t fb rttNs, .feedbackReceived a i t fb rttNs ∈ h := by
  obtain ⟨e, he, hsome⟩ := List.mem_filterMap.mp hi
  cases e with
  | feedbackReceived b j t fb rttNs =>
    dsimp only at hsome
    split at hsome <;> cases hsome
    rename_i hab
    exact ⟨t, fb, rttNs, hab ▸ he⟩
  | _ => cases hsome

/-- **What is counted as lost was lost.** While the datagrams of an arm come in in order, each
any number of times, the counters of both receivers are exactly the datagrams that were sent
between the first and the last one and did not come in. -/
theorem losses_counted [Rounding] {s : State} (hr : (machine cfg).Runs s h) (a : ArmSide) :
    LossesCounted s h a := by
  have hI := counted_runs cfg hr
  have ha := (honest_runs cfg hr).2
  refine ⟨fun horder => (hI.command a horder).toNat horder, ?_,
    fun horder => (hI.feedback a horder).toNat horder, ?_⟩
  · rintro i ⟨-, -, k, hk, hik⟩
    obtain ⟨v, w, hreceived⟩ := mem_commandIndices hk
    obtain ⟨u, -, hsub⟩ := sent_before cfg ha hreceived
    have hlt := hik.trans (hI.sent.1 a k u w (hsub.subset (by simp)))
    obtain ⟨t, p, hmem, -⟩ := hI.honest.commands a i _ (List.getElem?_eq_getElem hlt)
    exact ⟨t, p, hmem⟩
  · rintro i ⟨-, -, k, hk, hik⟩
    obtain ⟨v, fb, rttNs, hreceived⟩ := mem_feedbackIndices hk
    obtain ⟨h', ⟨⟨u, -, hsent⟩, -⟩, -, hsuffix⟩ := ha.before hreceived
    have hmem : .feedbackSent a k u fb ∈ h :=
      hsuffix.subset (List.mem_cons_of_mem _ hsent)
    have hlt := hik.trans (hI.sent.2 a k u fb hmem)
    obtain ⟨t, p, hmem, -⟩ := hI.honest.feedback a i _ (List.getElem?_eq_getElem hlt)
    exact ⟨t, p, hmem⟩

end Losses

section Runs

attribute [local instance] Rounding.exact

/-- Each program sends three times, and the second datagrams get lost. -/
def lossy : List Timed :=
  during 5 (leaderLoops 5 ++ sendCommands 0 ++ leaderLoops 4 ++ sendCommands 1 ++ leaderLoops 4 ++
    sendCommands 2) ++
    during 6 (followerLoops 17 ++ sendBoth (waiting .right) (waiting .left)) ++
    during 7 (followerLoops 16 ++
      sendBoth { waiting .right with seq := 1 } { waiting .left with seq := 1 }) ++
    during 8 (followerLoops 16 ++
      sendBoth { waiting .right with seq := 2 } { waiting .left with seq := 2 }) ++
    during 9 [.deliverCommand .right 0 0 [], .deliverCommand .right 0 0 [],
      .deliverCommand .right 2 0 [], .deliverFeedback .right 0 0 [], .deliverFeedback .right 2 0 []]

theorem losses_counted_lossy :
    ∃ s h, (machine simulated).Runs s h ∧ commandIndices .right h = [2, 0, 0] ∧
      feedbackIndices .right h = [2, 0] ∧ LossesCounted s h .right := by
  obtain ⟨s, h, hr, hcommands, hfeedback⟩ := (machine simulated).exists_runWhere
    (fun _ _ _ => True) lossy
    (fun _ h => commandIndices .right h = [2, 0, 0] ∧ feedbackIndices .right h = [2, 0])
    (by decide +kernel)
  exact ⟨s, h, hr, hcommands, hfeedback, losses_counted simulated hr .right⟩

end Runs

end OpenArmTeleop.System
