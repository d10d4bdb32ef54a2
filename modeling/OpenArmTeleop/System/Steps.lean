import OpenArmTeleop.Lib.Trace
import OpenArmTeleop.System.Machine

/-!
# What one step of the system can do

The steps of the system by kind, and the two programs as its parts.
-/

open Num Run Clock OpenArmTeleop.Net

namespace OpenArmTeleop.System

/-! ## What an arrival leaves behind -/

section Arrival

variable [Rounding]

/-- The receive thread of the follower stores a packet. -/
def storeCommand (st : Follower.State) (a : ArmSide) (p : TeleopPacket UInt64) (nowNs : UInt64) :
    Follower.State :=
  { st with
    buffer := Function.update st.buffer a ((st.buffer a).update (p.map Double.ofBits) nowNs) }

/-- The receive thread of the leader stores feedback with its round trip. -/
def storeFeedback (st : Leader.State) (a : ArmSide) (fb : FeedbackPacket UInt64)
    (systemNowNs nowNs : UInt64) : Leader.State :=
  { st with
    buffer := Function.update st.buffer a
      ((st.buffer a).update (fb.map Double.ofBits) (Leader.roundTripNs fb systemNowNs) nowNs) }

theorem step_packet (cfg : Follower.Config) (st : Follower.State) {datagram : List UInt8}
    {p : TeleopPacket UInt64} (hp : receiveTeleop datagram = some p) (a : ArmSide)
    (nowNs : UInt64) :
    Follower.step cfg st (.packet a p nowNs) = some (storeCommand st a p nowNs, none) :=
  if_pos ((receiveTeleop_iff datagram p).mp hp).2

theorem step_feedback (cfg : Leader.Config) (st : Leader.State) {datagram : List UInt8}
    {fb : FeedbackPacket UInt64} (hfb : receiveFeedback datagram = some fb) (a : ArmSide)
    (systemNowNs nowNs : UInt64) :
    Leader.step cfg st (.feedback a fb systemNowNs nowNs) =
      if !cfg.bi.feedbackEnabled then none
      else some (storeFeedback st a fb systemNowNs nowNs, none) := by
  simp only [Leader.step]
  rw [if_pos ((receiveFeedback_iff datagram fb).mp hfb).2]
  rfl

end Arrival

theorem arrival_eq_some {sent : List (List UInt8)} {i position : ℕ} {burst d' : List UInt8}
    (h : arrival sent i position burst = some d') :
    ∃ d, sent[i]? = some d ∧ burst.length ≤ 4 ∧ position + burst.length ≤ d.length ∧
      d' = overwrite d position burst := by
  unfold arrival at h
  split at h
  · rename_i d hd
    split at h
    · rename_i hburst
      exact ⟨d, hd, hburst.1, hburst.2, (Option.some.inj h).symm⟩
    · cases h
  · cases h

theorem leaderAt_eq_some {cfg : Config} {nowNs : ℕ} {x y : Leader.Action}
    (h : cfg.leaderAt nowNs x = some y) :
    ∀ a fb systemNowNs now, y ≠ .feedback a fb systemNowNs now := by
  rintro a fb systemNowNs now rfl
  cases x <;> cases h

theorem followerAt_eq_some {cfg : Config} {nowNs : ℕ} {x y : Follower.Action}
    (h : cfg.followerAt nowNs x = some y) :
    (∀ a p now, y ≠ .packet a p now) ∧
      ∀ env, y = .loop env → env.nowNs = reading cfg.clocks.followerSteadyNs nowNs := by
  constructor
  · rintro a p now rfl
    cases x <;> cases h
  · rintro env rfl
    cases x <;> cases h
    rfl

section Steps

variable [Rounding] (cfg : Config)

/-- The steps at the time of the state. -/
inductive Step (s : State) : State → Option Event → Prop
  | leader (x : Leader.Action) (st : Leader.State) (e : Option Leader.Event) (stage : Stage) :
      (∀ a fb systemNowNs nowNs, x ≠ .feedback a fb systemNowNs nowNs) →
      (isLoop x = true → s.leader.stage = .loop) →
      stage = s.leader.stage ∨ s.leader.stage = .loop ∧ stage = .assemble →
      Leader.step cfg.leader s.leader.state x = some (st, e) →
      Step s { s with leader := { s.leader with state := st, stage := stage } }
        (e.map (.leader s.nowNs))
  | assemble (systemNowNs : UInt64) : s.leader.stage = .assemble →
      Step s
        { s with
          leader := { s.leader with
            stage := .header .right
            cmdMode := if s.leader.state.bilateralRequested then .bilateral else .unilateral
            pkt := fun a => joints cfg (s.leader.state.robot a) systemNowNs a } } none
  | header (a : ArmSide) : s.leader.stage = .header a →
      Step s { s with leader := s.leader.fillHeader a } none
  | encodeCommand (a : ArmSide) (bits : TeleopPacket UInt64) : s.leader.stage = .encode a →
      bits.map Double.ofBits = s.leader.pkt a →
      Step s
        { s with
          leader := { s.leader with
            stage := .afterEncode a
            wire := Function.update s.leader.wire a
              (some (bits.encode (reading cfg.clocks.leaderSystemNs s.nowNs))) } } none
  | sendCommand (a : ArmSide) (p : TeleopPacket UInt64) : s.leader.stage = .send a →
      s.leader.wire a = some p →
      Step s
        { s with
          leader := { s.leader with
            stage := .afterSend a
            wire := Function.update s.leader.wire a none }
          commands := Function.update s.commands a (s.commands a ++ [TeleopPacket.layout.put p]) }
        (some (.commandSent a (s.commands a).length s.nowNs p))
  | skipCommand (a : ArmSide) : s.leader.stage = .send a → s.leader.wire a = none →
      Step s
        { s with
          leader := { s.leader with
            stage := .afterSend a
            wire := Function.update s.leader.wire a none } } none
  | follower (x : Follower.Action) (st : Follower.State) (e : Option Follower.Event) :
      (∀ a p nowNs, x ≠ .packet a p nowNs) →
      (∀ env, x = .loop env → s.follower.stage = .loop ∧
        env.nowNs = reading cfg.clocks.followerSteadyNs s.nowNs) →
      Follower.step cfg.follower s.follower.state x = some (st, e) →
      Step s { s with follower := { s.follower.record e with state := st } }
        (e.map (.follower s.nowNs))
  | encodeFeedback (a : ArmSide) (bits : FeedbackPacket UInt64) : s.follower.stage = .encode a →
      bits.map Double.ofBits = s.follower.fb a →
      Step s
        { s with
          follower := { s.follower with
            stage := .afterEncode a
            wire := Function.update s.follower.wire a
              (some (bits.encode (reading cfg.clocks.followerSystemNs s.nowNs))) } } none
  | sendFeedback (a : ArmSide) (fb : FeedbackPacket UInt64) : s.follower.stage = .send a →
      s.follower.wire a = some fb →
      Step s
        { s with
          follower := { s.follower with
            stage := .afterSend a
            wire := Function.update s.follower.wire a none }
          feedback := Function.update s.feedback a (s.feedback a ++ [FeedbackPacket.layout.put fb]) }
        (some (.feedbackSent a (s.feedback a).length s.nowNs fb))
  | skipFeedback (a : ArmSide) : s.follower.stage = .send a → s.follower.wire a = none →
      Step s
        { s with
          follower := { s.follower with
            stage := .afterSend a
            wire := Function.update s.follower.wire a none } } none
  | commandReceived (a : ArmSide) (i position : ℕ) (d burst : List UInt8)
      (p : TeleopPacket UInt64) :
      (s.commands a)[i]? = some d → burst.length ≤ 4 → position + burst.length ≤ d.length →
      receiveTeleop (overwrite d position burst) = some p →
      Step s
        { s with
          follower := { s.follower with
            state := storeCommand s.follower.state a p
              (reading cfg.clocks.followerSteadyNs s.nowNs) } }
        (some (.commandReceived a i s.nowNs p))
  | feedbackReceived (a : ArmSide) (i position : ℕ) (d burst : List UInt8)
      (fb : FeedbackPacket UInt64) : cfg.leader.bi.feedbackEnabled = true →
      (s.feedback a)[i]? = some d → burst.length ≤ 4 → position + burst.length ≤ d.length →
      receiveFeedback (overwrite d position burst) = some fb →
      Step s
        { s with
          leader := { s.leader with
            state := storeFeedback s.leader.state a fb (reading cfg.clocks.leaderSystemNs s.nowNs)
              (reading cfg.clocks.leaderSteadyNs s.nowNs) } }
        (some (.feedbackReceived a i s.nowNs fb
          (Leader.roundTripNs fb (reading cfg.clocks.leaderSystemNs s.nowNs))))
  | dropped : Step s s none

theorem act_cases {s : State} {x : Action} {s' : State} {e : Option Event}
    (h : act cfg s x = some (s', e)) : Step cfg s s' e := by
  cases x with
  | leader x =>
    obtain ⟨y, hy, h⟩ := Option.bind_eq_some_iff.mp h
    unfold stepLeader at h
    split at h
    · cases h
    · rename_i hready
      obtain ⟨⟨st, e⟩, hstep, heq⟩ := Option.map_eq_some_iff.mp h
      obtain ⟨rfl, rfl⟩ := Prod.mk.inj heq
      have hloop : isLoop y = true → s.leader.stage = .loop := by
        intro hy
        by_contra hstage
        exact hready (by simp [hy, hstage])
      refine .leader y st e _ (leaderAt_eq_some hy) hloop ?_ hstep
      split
      · rename_i hround
        exact .inr ⟨hloop (Bool.and_eq_true_iff.mp hround).1, rfl⟩
      · exact .inl rfl
  | assemble systemNowNs =>
    obtain ⟨n, hn, heq⟩ := Option.map_eq_some_iff.mp h
    obtain ⟨rfl, rfl⟩ := Prod.mk.inj heq
    unfold assemble at hn
    split at hn <;> cases hn
    exact .assemble systemNowNs (by assumption)
  | header =>
    obtain ⟨n, hn, heq⟩ := Option.map_eq_some_iff.mp h
    obtain ⟨rfl, rfl⟩ := Prod.mk.inj heq
    unfold header at hn
    split at hn <;> cases hn
    exact .header _ (by assumption)
  | encodeCommand bits =>
    obtain ⟨n, hn, heq⟩ := Option.map_eq_some_iff.mp h
    obtain ⟨rfl, rfl⟩ := Prod.mk.inj heq
    unfold encodeCommand at hn
    split at hn
    · rename_i a hstage
      split at hn <;> cases hn
      exact .encodeCommand a bits hstage (by assumption)
    · cases hn
  | sendCommand =>
    simp only [act, sendCommand] at h
    split at h
    · rename_i a hstage
      split at h <;> cases h
      · exact .sendCommand a _ hstage (by assumption)
      · exact .skipCommand a hstage (by assumption)
    · cases h
  | follower x =>
    obtain ⟨y, hy, h⟩ := Option.bind_eq_some_iff.mp h
    unfold stepFollower at h
    split at h
    · cases h
    · rename_i hready
      obtain ⟨⟨st, e⟩, hstep, heq⟩ := Option.map_eq_some_iff.mp h
      obtain ⟨rfl, rfl⟩ := Prod.mk.inj heq
      obtain ⟨hpacket, hclock⟩ := followerAt_eq_some hy
      refine .follower y st e hpacket (fun env henv => ⟨?_, hclock env henv⟩) hstep
      by_contra hstage
      exact hready (by simp [henv, isControlLoop, hstage])
  | encodeFeedback bits =>
    obtain ⟨n, hn, heq⟩ := Option.map_eq_some_iff.mp h
    obtain ⟨rfl, rfl⟩ := Prod.mk.inj heq
    unfold encodeFeedback at hn
    split at hn
    · rename_i a hstage
      split at hn <;> cases hn
      exact .encodeFeedback a bits hstage (by assumption)
    · cases hn
  | sendFeedback =>
    simp only [act, sendFeedback] at h
    split at h
    · rename_i a hstage
      split at h <;> cases h
      · exact .sendFeedback a _ hstage (by assumption)
      · exact .skipFeedback a hstage (by assumption)
    · cases h
  | deliverCommand a i position burst =>
    obtain ⟨d', hd', h⟩ := Option.bind_eq_some_iff.mp h
    obtain ⟨d, hd, hburst, hin, rfl⟩ := arrival_eq_some hd'
    unfold deliverCommand at h
    split at h
    · rename_i p hp
      rw [step_packet cfg.follower s.follower.state hp] at h
      cases h
      exact .commandReceived a i position d burst p hd hburst hin hp
    · cases h
      exact .dropped
  | deliverFeedback a i position burst =>
    obtain ⟨d', hd', h⟩ := Option.bind_eq_some_iff.mp h
    obtain ⟨d, hd, hburst, hin, rfl⟩ := arrival_eq_some hd'
    unfold deliverFeedback at h
    split at h
    · rename_i fb hfb
      dsimp only at h
      rw [step_feedback cfg.leader s.leader.state hfb] at h
      split at h
      · cases h
      · rename_i henabled
        cases h
        exact .feedbackReceived a i position d burst fb (by simpa using henabled) hd hburst hin hfb
    · cases h
      exact .dropped

theorem step_cases {s : State} {x : Timed} {s' : State} {e : Option Event}
    (h : (machine cfg).step s x = some (s', e)) :
    s.nowNs ≤ x.timeNs ∧ Step cfg { s with nowNs := x.timeNs } s' e := by
  change step cfg s x = some (s', e) at h
  unfold step at h
  split at h
  · cases h
  · rename_i hle
    exact ⟨not_lt.mp hle, act_cases cfg h⟩

/-! ## The two programs -/

def Event.leader? : Event → Option Leader.Event
  | .leader _ e => some e
  | _ => none

def Event.follower? : Event → Option Follower.Event
  | .follower _ e => some e
  | _ => none

theorem Step.follower_part {s s' : State} {e : Option Event} (h : Step cfg s s' e) :
    (∃ b, Follower.step cfg.follower s.follower.state b =
        some (s'.follower.state, e.bind Event.follower?)) ∨
      s'.follower.state = s.follower.state ∧ e.bind Event.follower? = none := by
  cases h with
  | follower y st e _ _ hstep =>
    refine .inl ⟨y, ?_⟩
    cases e <;> exact hstep
  | commandReceived a i position d burst p _ _ _ hp =>
    exact .inl ⟨.packet a p (reading cfg.clocks.followerSteadyNs s.nowNs), step_packet _ _ hp _ _⟩
  | leader _ _ e => cases e <;> exact .inr ⟨rfl, rfl⟩
  | _ => exact .inr ⟨rfl, rfl⟩

theorem Step.leader_part {s s' : State} {e : Option Event} (h : Step cfg s s' e) :
    (∃ b, Leader.step cfg.leader s.leader.state b =
        some (s'.leader.state, e.bind Event.leader?)) ∨
      s'.leader.state = s.leader.state ∧ e.bind Event.leader? = none := by
  cases h with
  | leader y st e _ _ _ _ hstep =>
    refine .inl ⟨y, ?_⟩
    cases e <;> exact hstep
  | feedbackReceived a i position d burst fb henabled _ _ _ hfb =>
    refine .inl ⟨.feedback a fb (reading cfg.clocks.leaderSystemNs s.nowNs)
      (reading cfg.clocks.leaderSteadyNs s.nowNs), ?_⟩
    rw [step_feedback _ _ hfb, henabled]
    rfl
  | follower _ _ e => cases e <;> exact .inr ⟨rfl, rfl⟩
  | _ => exact .inr ⟨rfl, rfl⟩

/-- The follower program runs as if it were alone, with the packets that the network brings. -/
theorem part_follower :
    Part (machine cfg) (Follower.machine cfg.follower) (·.follower.state) Event.follower? where
  init := rfl
  step _ _ _ _ hs := (step_cases cfg hs).2.follower_part cfg

/-- The leader program runs as if it were alone, with the feedback that the network brings. -/
theorem part_leader :
    Part (machine cfg) (Leader.machine cfg.leader) (·.leader.state) Event.leader? where
  init := rfl
  step _ _ _ _ hs := (step_cases cfg hs).2.leader_part cfg

end Steps

end OpenArmTeleop.System
