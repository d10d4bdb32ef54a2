import OpenArmTeleop.System.Authentic

/-!
# What a round trip measures

The leader compares the send time that comes back with its own clock. The clocks of the follower
have no part in it.
-/

open Num Run Clock OpenArmTeleop.Net

namespace OpenArmTeleop.System

variable (cfg : Config)

/-- The times of a command and of the feedback to it, as they were, and what was measured. -/
structure Measures (h : List Event) (a : ArmSide) (i t : ℕ) (fb : FeedbackPacket UInt64)
    (rttNs : UInt64) (j encoded sent received replied : ℕ) (w : TeleopPacket UInt64) : Prop where
  order : [.feedbackReceived a i t fb rttNs, .feedbackSent a i replied fb,
    .commandReceived a j received w, .commandSent a j sent w].Sublist h
  encodedSent : encoded ≤ sent
  sentReceived : sent ≤ received
  receivedReplied : received ≤ replied
  repliedBack : replied ≤ t
  seq : fb.echoCmdSeq = w.seq
  stamp : w.sendTimeNs = reading cfg.clocks.leaderSystemNs encoded
  rtt : rttNs.toNat = t - encoded
  hold : fb.cmdHoldNs.toNat ≤ replied - received

/-- What the history says about the packet that carries a report. -/
theorem Carries.echoes {h : List Event} {t : ℕ} {a : ArmSide} {w : FeedbackPacket UInt64}
    (hc : Carries cfg h t a w) (ha : Always (Honest cfg) h) (hecho : w.echoCmdSendTimeNs ≠ 0) :
    ∃ i u v x, .commandReceived a i u x ∈ h ∧ u ≤ v ∧ v ≤ t ∧ w.echoCmdSeq = x.seq ∧
      w.echoCmdSendTimeNs = x.sendTimeNs ∧
      (cfg.clocks.followerSteadyNs + v < 2 ^ 64 → w.cmdHoldNs.toNat ≤ v - u) := by
  obtain ⟨bits, u, -, hreport, rfl⟩ := hc
  rcases hreport with hzero | ⟨v, hv, hmem⟩
  · have hnone : (bits.map Double.ofBits).echoCmdSendTimeNs = 0 := by
      rw [hzero]
      rfl
    exact absurd hnone hecho
  · obtain ⟨h', hechoes, -, hsuffix⟩ := ha.before hmem
    rcases hechoes with ⟨-, hnone, -⟩ | ⟨i, u, y, x, hx, huy, hy, hseq, hsend, hhold⟩
    · exact absurd hnone hecho
    · exact ⟨i, u, y, x, hsuffix.subset (List.mem_cons_of_mem _ hx), huy, hy.trans hv, hseq, hsend,
        hhold⟩

theorem roundTripNs_ne_zero {fb : FeedbackPacket UInt64} {systemNowNs : UInt64}
    (h : Leader.roundTripNs fb systemNowNs ≠ 0) :
    fb.echoCmdSendTimeNs ≠ 0 ∧
      Leader.roundTripNs fb systemNowNs = systemNowNs - fb.echoCmdSendTimeNs := by
  unfold Leader.roundTripNs at h ⊢
  split at h
  · rename_i hecho
    exact ⟨hecho.1, if_pos hecho⟩
  · exact absurd rfl h

/-- **What a round trip measures.** Each sample that counts is the time on one clock, the leader's,
since it encoded the command that comes back, whatever the clocks of the follower show. The
command had been sent and received, and was held no longer than it had been there. -/
theorem round_trip [Rounding] {s : State} {h : List Event} (hr : (machine cfg).Runs s h)
    (hleader : cfg.clocks.leaderSystemNs + s.nowNs < 2 ^ 64)
    (hfollower : cfg.clocks.followerSteadyNs + s.nowNs < 2 ^ 64) {a : ArmSide} {i t : ℕ}
    {fb : FeedbackPacket UInt64} {rttNs : UInt64} (he : .feedbackReceived a i t fb rttNs ∈ h)
    (hrtt : rttNs ≠ 0) :
    ∃ j encoded sent received replied w,
      Measures cfg h a i t fb rttNs j encoded sent received replied w := by
  obtain ⟨hI, ha⟩ := honest_runs cfg hr
  have ht : t ≤ s.nowNs := hI.time _ he
  obtain ⟨h', ⟨⟨replied, hreplied, hsent⟩, rfl⟩, ha', hback⟩ := ha.before he
  obtain ⟨hecho, hdiff⟩ := roundTripNs_ne_zero hrtt
  obtain ⟨h'', hcarries, ha'', hreply⟩ := ha'.before hsent
  obtain ⟨j, received, v, w, hw, hrv, hv, hseq, hsend, hhold⟩ := hcarries.echoes cfg ha'' hecho
  obtain ⟨h₃, ⟨sent, hsr, hcommand⟩, ha₃, hreceive⟩ := ha''.before hw
  obtain ⟨h₄, ⟨-, encoded, hes, hstamp⟩, -, -⟩ := ha₃.before hcommand
  have horder := (((List.singleton_sublist.mpr hcommand).cons_cons _).trans
    hreceive.sublist).cons_cons _ |>.trans hreply.sublist |>.cons_cons _ |>.trans hback.sublist
  refine ⟨j, encoded, sent, received, replied, w, horder, hes, hsr, hrv.trans hv, hreplied, hseq,
    hstamp, ?_, ?_⟩
  · rw [hdiff, hsend, hstamp, toNat_reading_sub (by omega) (by omega)]
  · have := hhold (by omega)
    omega

section Runs

attribute [local instance] Rounding.exact

/-- The feedback of the exchange, 9 ns after the command was encoded. -/
theorem round_trip_exchange :
    ∃ s h fb, (machine simulated).Runs s h ∧ .feedbackReceived .right 0 14 fb 9 ∈ h ∧
      ∃ j encoded sent received replied w,
        Measures simulated h .right 0 14 fb 9 j encoded sent received replied w := by
  obtain ⟨s, h, hr, hnow, he⟩ := (machine simulated).exists_runWhere (fun _ _ _ => True) exchange
    (fun s h => s.nowNs = 14 ∧
      .feedbackReceived .right 0 14 ((following .right 1005 1).encode 311) 9 ∈ h)
    (by decide +kernel)
  exact ⟨s, h, _, hr, he, round_trip simulated hr (by rw [hnow]; decide) (by rw [hnow]; decide) he
    (by decide)⟩

end Runs

end OpenArmTeleop.System
