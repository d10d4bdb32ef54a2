import OpenArmTeleop.Follower.Bounds
import OpenArmTeleop.Leader.Bounds
import OpenArmTeleop.System.Authentic

/-!
# The packets that the two programs send each other

What a command of the leader states, what feedback of the follower states, and what either program
holds of the other one. Between the two of them no read goes behind an array.
-/

open Num Run Clock OpenArmTeleop.Net OpenArmTeleop.Core OpenArmTeleop.Control
open OpenArmTeleop.Controller

namespace OpenArmTeleop.System

variable (cfg : Config)

/-! ## What a packet states -/

/-- The leader was started with its commands enabled, or told to enable them. -/
def Enabled (h : List Event) : Prop :=
  cfg.leader.initialEnable = true ∨ ∃ t, .leader t (.received .enable) ∈ h

structure Formed {F : Type} (h : List Event) (a : ArmSide) (p : TeleopPacket F) : Prop where
  armSide : p.armSide = a.toUInt8
  armDof : p.armDof = 7
  handDof : p.handDof = 1
  estop : p.estop = 0
  enable : p.enable = 0 ∨ p.enable = 1
  enabled : p.enable ≠ 0 → Enabled cfg h

/-- Seven arm joints and one gripper. -/
structure Joined {F : Type} (p : TeleopPacket F) : Prop where
  armDof : p.armDof = 7
  handDof : p.handDof = 1

section Mono

variable {cfg} {h h' : List Event}

theorem Enabled.mono (he : Enabled cfg h) (hsub : h ⊆ h') : Enabled cfg h' := by
  refine he.imp_right ?_
  rintro ⟨t, hmem⟩
  exact ⟨t, hsub hmem⟩

theorem Formed.mono {F : Type} {a : ArmSide} {p : TeleopPacket F} (hp : Formed cfg h a p)
    (hsub : h ⊆ h') : Formed cfg h' a p :=
  ⟨hp.armSide, hp.armDof, hp.handDof, hp.estop, hp.enable, fun he => (hp.enabled he).mono hsub⟩

end Mono

/-! ## The leader -/

section Leader

variable [Rounding] {cfg}

theorem joined_joints {robot : RobotSystemState Double} (hs : Leader.Sized robot)
    (systemNowNs : UInt64) (a : ArmSide) : Joined (joints cfg robot systemNowNs a) := by
  unfold joints
  split
  · exact ⟨rfl, rfl⟩
  · exact ⟨by simp [hs.arm], by simp [hs.hand]⟩

theorem loopStep_commandEnabled (lcfg : Leader.Config) (st : Leader.State) (env : Leader.Env) :
    (Leader.loopStep lcfg st env).1.commandEnabled = st.commandEnabled ∧
      (Leader.loopStep lcfg st env).1.control = st.control := by
  cases hpc : st.loop.pc with
  | exited => simp [Leader.loopStep, hpc]
  | _ =>
    simp only [Leader.loopStep, hpc]
    (repeat' split) <;> exact ⟨rfl, rfl⟩

theorem motionStep_commandEnabled {st st' : Leader.State} {a : ArmSide} {measured : Measured Double}
    {e : Option Leader.Event} (h : st.motionStep a measured = some (st', e)) :
    st'.commandEnabled = st.commandEnabled ∧ st'.control = st.control := by
  simp only [Leader.State.motionStep] at h
  (repeat' split at h) <;> cases h <;> exact ⟨rfl, rfl⟩

/-- The leader enables its commands, or is about to. -/
def Enabling (st : Leader.State) : Prop :=
  st.commandEnabled = true ∨ .setEnabled true ∈ st.control

theorem enabling_step {lcfg : Leader.Config} {st st' : Leader.State} {x : Leader.Action}
    {e : Option Leader.Event} (hs : Leader.Step lcfg st x st' e) (h : Enabling st') :
    Enabling st ∨ e = some (.received .enable) := by
  cases hs with
  | receive c =>
    rcases h with h | h
    · exact .inl (.inl h)
    · cases c with
      | enable => exact .inr rfl
      | gotoPose values =>
        simp only [Leader.handler] at h
        split at h <;> simp at h
      | _ => simp [Leader.handler] at h
  | control gateOk y rest hc =>
    left
    cases y with
    | setEnabled b =>
      rcases h with h | h
      · cases b with
        | true => exact .inr (hc ▸ List.mem_cons_self)
        | false => cases h
      · exact .inr (hc ▸ List.mem_cons_of_mem _ h)
    | checkEnabled | checkGate =>
      simp only [Leader.State.access] at h
      split at h
      · exact h.imp_right fun h => hc ▸ List.mem_cons_of_mem _ h
      · exact h.imp_right fun hmem => absurd hmem List.not_mem_nil
    | _ => exact h.imp_right fun h => hc ▸ List.mem_cons_of_mem _ h
  | motion a measured _ _ hm =>
    obtain ⟨henabled, hcontrol⟩ := motionStep_commandEnabled hm
    exact .inl (by rwa [Enabling, henabled, hcontrol] at h)
  | loop env =>
    obtain ⟨henabled, hcontrol⟩ := loopStep_commandEnabled lcfg st env
    exact .inl (by rwa [Enabling, henabled, hcontrol] at h)
  | _ => exact .inl h

end Leader

/-! ## The invariant of the commands -/

/-- The packet of the arm has its joints, and then its header. -/
def Stage.hasJoints : Stage → Bool
  | .header _ | .encode _ => true
  | _ => false

def Stage.hasHeader (a : ArmSide) : Stage → Bool
  | .header b => decide (a = .right ∧ b = .left)
  | .encode _ => true
  | _ => false

structure FormedInv (s : State) (h : List Event) : Prop where
  sized : ∀ a, Leader.Sized (s.leader.state.robot a)
  enabling : Enabling s.leader.state → Enabled cfg h
  joints : s.leader.stage.hasJoints = true → ∀ a, Joined (s.leader.pkt a)
  header : ∀ a, s.leader.stage.hasHeader a = true → Formed cfg h a (s.leader.pkt a)
  wire : ∀ a p, s.leader.wire a = some p → Formed cfg h a p

section FormedInv

variable [Rounding] {cfg} {s : State} {h : List Event}

theorem formedInv_start : FormedInv cfg (State.start cfg) [] where
  sized _ := ⟨rfl, rfl⟩
  enabling he := by
    rcases he with he | he
    · exact .inl he
    · cases he
  joints := nofun
  header _ := nofun
  wire _ _ := nofun

omit [Rounding] in
theorem FormedInv.grow (hI : FormedInv cfg s h) (e : Option Event) :
    FormedInv cfg s (e.toList ++ h) := by
  have hsub : h ⊆ e.toList ++ h := List.subset_append_right _ _
  exact ⟨hI.sized, fun he => (hI.enabling he).mono hsub, hI.joints,
    fun a ha => (hI.header a ha).mono hsub, fun a p hp => (hI.wire a p hp).mono hsub⟩

omit [Rounding] in
theorem FormedInv.fillHeader (hI : FormedInv cfg s h) {a : ArmSide}
    (hstage : s.leader.stage = .header a) :
    FormedInv cfg { s with leader := s.leader.fillHeader a } h := by
  have hjoints := hI.joints (by rw [hstage]; rfl)
  have hself : Formed cfg h a ((s.leader.fillHeader a).pkt a) := by
    simp only [LeaderNode.fillHeader, Function.update_self]
    refine ⟨rfl, (hjoints a).armDof, (hjoints a).handDof, rfl, ?_, fun he => ?_⟩
    · split
      · exact .inr rfl
      · exact .inl rfl
    · split at he
      · exact hI.enabling (.inl (by assumption))
      · exact absurd rfl he
  refine ⟨hI.sized, hI.enabling, fun _ b => ?_, fun b hb => ?_, hI.wire⟩
  · rcases eq_or_ne b a with rfl | hab
    · exact ⟨hself.armDof, hself.handDof⟩
    · simp only [LeaderNode.fillHeader, Function.update_of_ne hab]
      exact hjoints b
  · rcases eq_or_ne b a with rfl | hab
    · exact hself
    -- the other arm has its header once the left one has
    · simp only [LeaderNode.fillHeader, Function.update_of_ne hab]
      refine hI.header b ?_
      cases a <;> cases b <;> simp_all [LeaderNode.fillHeader, Stage.hasHeader]

theorem FormedInv.step (hI : FormedInv cfg s h) {s' : State} {e : Option Event}
    (hs : Step cfg s s' e) : FormedInv cfg s' (e.toList ++ h) := by
  have hgrown := hI.grow e
  cases hs with
  | leader x st e stage hx hloop hstage hstep =>
    have hcases := Leader.step_cases cfg.leader _ hstep
    refine ⟨Leader.sized_step cfg.leader _ hstep hI.sized, fun he => ?_, fun hj => ?_, fun a ha => ?_,
      hgrown.wire⟩
    · rcases enabling_step hcases he with he | rfl
      · exact hgrown.enabling he
      · exact .inr ⟨s.nowNs, List.mem_cons_self⟩
    · rcases hstage with rfl | ⟨-, rfl⟩
      · exact hI.joints hj
      · cases hj
    · rcases hstage with rfl | ⟨-, rfl⟩
      · exact hgrown.header a ha
      · cases ha
  | assemble systemNowNs =>
    refine ⟨hI.sized, hI.enabling, fun _ a => joined_joints (hI.sized a) systemNowNs a,
      fun a ha => ?_, hI.wire⟩
    cases a <;> cases ha
  | header a hstage => exact hI.fillHeader hstage
  | encodeCommand a bits hstage hbits =>
    have hheader : ∀ b, Formed cfg h b (s.leader.pkt b) :=
      fun b => hI.header b (by rw [hstage]; rfl)
    have hjoints := hI.joints (by rw [hstage]; rfl)
    refine ⟨hI.sized, hI.enabling, fun _ => hjoints, fun b _ => hheader b, fun b p hp => ?_⟩
    rcases of_update_some hp with ⟨rfl, rfl⟩ | hp
    · have hb := hheader b
      rw [← hbits] at hb
      exact ⟨hb.armSide, hb.armDof, hb.handDof, hb.estop, hb.enable, hb.enabled⟩
    · exact hI.wire b p hp
  | sendCommand a p _ hp =>
    refine ⟨hI.sized, hgrown.enabling, fun hj => ?_, fun b hb => ?_,
      fun b q hq => hgrown.wire b q (of_update_none hq)⟩
    · cases a <;> cases hj
    · cases a <;> cases hb
  | skipCommand a =>
    refine ⟨hI.sized, hI.enabling, fun hj => ?_, fun b hb => ?_,
      fun b q hq => hI.wire b q (of_update_none hq)⟩
    · cases a <;> cases hj
    · cases a <;> cases hb
  | feedbackReceived a i position d burst fb =>
    exact ⟨hI.sized, hgrown.enabling, hI.joints, hgrown.header, hgrown.wire⟩
  | _ => exact ⟨hI.sized, hgrown.enabling, hI.joints, hgrown.header, hgrown.wire⟩

end FormedInv

/-! ## What the follower reports -/

theorem fillFeedback_fits (side : ArmSide) (mode : UInt8) (st : Safety.SafetyState) (linkOk : Bool)
    (cmd : Option (TeleopPacket Double)) (cmdRecvTimeNs nowNs : UInt64)
    (arm hand : List (JointState Double)) (seq : UInt32) :
    Leader.CountsFit
      (Follower.fillFeedback side mode st linkOk cmd cmdRecvTimeNs nowNs arm hand seq) := by
  constructor
  · simp only [Follower.fillFeedback, UInt8.toNat_ofNat']
    omega
  · simp only [Follower.fillFeedback, UInt8.toNat_ofNat']
    omega

def ReportFits : Follower.Event → List Follower.Event → Prop
  | .feedback a fb, _ => fb.armSide = a.toUInt8 ∧ Leader.CountsFit fb
  | _, _ => True

theorem report_fits [Rounding] (fcfg : Follower.Config) {st : Follower.State} {h : List Follower.Event}
    (hr : (Follower.machine fcfg).Runs st h) : Always ReportFits h := by
  refine (hr.always (I := fun _ _ => True) trivial (fun _ _ _ _ _ _ _ _ => trivial) ?_).2
  intro st h x st' e _ _ hs
  have hstep := Follower.step_cases fcfg st x st' _ hs
  cases e with
  | feedback a fb =>
    rcases Follower.step_recorded fcfg st hstep with hout | ⟨env, -, hrecord⟩
    · cases hout
    · cases hrecord with
      | feedback a hpc => exact ⟨rfl, fillFeedback_fits _ _ _ _ _ _ _ _ _ _⟩
  | _ => trivial

/-! ## What the leader holds -/

/-- The leader has received this feedback for the arm. -/
def Fed (h : List Event) (a : ArmSide) (fb : FeedbackPacket Double) : Prop :=
  ∃ i t w rttNs, .feedbackReceived a i t w rttNs ∈ h ∧ fb = w.map Double.ofBits

structure LeaderInv (st : Leader.State) (h : List Event) : Prop where
  buffer : ∀ a fb, (st.buffer a).getLatest = some fb → Fed h a fb
  loop : ∀ a fb, st.loop.pc = .snapshot a ∨ st.loop.pc = .want a → st.loop.fb = some fb → Fed h a fb
  command : ∀ a, Leader.NoReferences (st.bcmd a) ∨
    ∃ fb, Fed h a fb ∧ Leader.Renders fb (st.bcmd a)

section LeaderInv

theorem Fed.mono {h h' : List Event} {a : ArmSide} {fb : FeedbackPacket Double} (hf : Fed h a fb)
    (hsub : h ⊆ h') : Fed h' a fb := by
  obtain ⟨i, t, w, rttNs, hmem, hfb⟩ := hf
  exact ⟨i, t, w, rttNs, hsub hmem, hfb⟩

theorem LeaderInv.mono {st : Leader.State} {h h' : List Event} (hI : LeaderInv st h)
    (hsub : h ⊆ h') : LeaderInv st h' := by
  refine ⟨fun a fb hfb => (hI.buffer a fb hfb).mono hsub,
    fun a fb hpc hfb => (hI.loop a fb hpc hfb).mono hsub, fun a => (hI.command a).imp_right ?_⟩
  rintro ⟨fb, hfed, hrenders⟩
  exact ⟨fb, hfed.mono hsub, hrenders⟩

theorem scaled_command {h : List Event} {a : ArmSide} {cmd : LeaderBilateralCommand}
    (hc : Leader.NoReferences cmd ∨ ∃ fb, Fed h a fb ∧ Leader.Renders fb cmd) (scale : Double) :
    Leader.NoReferences { cmd with scale := scale } ∨
      ∃ fb, Fed h a fb ∧ Leader.Renders fb { cmd with scale := scale } := by
  rcases hc with hc | ⟨fb, hfed, hc⟩
  · exact .inl ⟨hc.armPosRef, hc.handPosRef, hc.armTauF, hc.handTauF⟩
  · exact .inr ⟨fb, hfed, ⟨hc.armPosRef, hc.handPosRef, hc.armTauF, hc.handTauF⟩⟩

variable {st : Leader.State} {h : List Event}

theorem LeaderInv.store (hI : LeaderInv st h) (b : ArmSide) (i t : ℕ) (w : FeedbackPacket UInt64)
    (systemNowNs nowNs : UInt64) :
    LeaderInv (storeFeedback st b w systemNowNs nowNs)
      (.feedbackReceived b i t w (Leader.roundTripNs w systemNowNs) :: h) := by
  have hI' := hI.mono (List.subset_cons_self
    (.feedbackReceived b i t w (Leader.roundTripNs w systemNowNs)) h)
  refine ⟨fun a fb hfb => ?_, hI'.loop, hI'.command⟩
  rcases eq_or_ne a b with rfl | hab
  · simp only [storeFeedback, Function.update_self] at hfb
    rcases Leader.getLatest_update (st.buffer a) (w.map Double.ofBits)
      (Leader.roundTripNs w systemNowNs) nowNs with hnew | hold
    · rw [hnew] at hfb
      exact ⟨i, t, w, _, List.mem_cons_self, (Option.some.inj hfb).symm⟩
    · exact hI'.buffer a fb (hold ▸ hfb)
  · simp only [storeFeedback, Function.update_of_ne hab] at hfb
    exact hI'.buffer a fb hfb

variable [Rounding] {lcfg : Leader.Config}

theorem leaderInv_start : LeaderInv (Leader.State.start lcfg) [] :=
  ⟨fun _ _ => nofun, fun _ _ _ => nofun, fun _ => .inl ⟨rfl, rfl, rfl, rfl⟩⟩

theorem loopStep_want (env : Leader.Env) {a : ArmSide}
    (hpc : (Leader.loopStep lcfg st env).1.loop.pc = .want a) :
    st.loop.pc = .snapshot a ∧ (Leader.loopStep lcfg st env).1.loop.fb = st.loop.fb := by
  cases hold : st.loop.pc with
  | snapshot b =>
    simp only [Leader.loopStep, hold] at hpc ⊢
    split at hpc <;> simp_all [Leader.State.goto]
  | leaderStep b => cases b <;> simp [Leader.loopStep, hold, Leader.State.goto] at hpc
  | _ =>
    simp only [Leader.loopStep, hold, Leader.afterGoto] at hpc
    (repeat' split at hpc) <;> simp_all [Leader.State.goto]

theorem LeaderInv.rendering (hI : LeaderInv st h) {nowNs : UInt64} {a : ArmSide}
    {fb : FeedbackPacket Double} (hr : st.rendering lcfg nowNs = some (a, fb)) : Fed h a fb := by
  unfold Leader.State.rendering at hr
  split at hr
  · rename_i b hpc
    obtain ⟨x, hx, heq⟩ := Option.map_eq_some_iff.mp hr
    obtain ⟨rfl, rfl⟩ := Prod.mk.inj heq
    exact hI.loop _ _ (.inl hpc) (Option.filter_eq_some_iff.mp hx).1
  · cases hr

theorem LeaderInv.loopStep (hI : LeaderInv st h) (hfit : ∀ a fb, Fed h a fb → Leader.CountsFit fb)
    (env : Leader.Env) : LeaderInv (Leader.loopStep lcfg st env).1 h := by
  refine ⟨fun a fb hfb => ?_, fun a fb hpc hfb => ?_, fun a => ?_⟩
  · rw [Leader.loopStep_stored] at hfb
    exact hI.buffer a fb hfb
  · rcases hpc with hpc | hpc
    · rw [Leader.loopStep_snapshot lcfg st env hpc] at hfb
      exact hI.buffer a fb hfb
    · obtain ⟨hold, hsame⟩ := loopStep_want env hpc
      exact hI.loop a fb (.inl hold) (hsame ▸ hfb)
  · have hbcmd := Leader.loopStep_bcmd lcfg st env
    cases hr : st.rendering lcfg env.nowNs with
    | none =>
      rw [hr] at hbcmd
      obtain ⟨scale, hscale⟩ := hbcmd a
      rw [hscale]
      exact scaled_command (hI.command a) scale
    | some x =>
      obtain ⟨b, fb⟩ := x
      rw [hr] at hbcmd
      rw [hbcmd.1]
      rcases eq_or_ne a b with rfl | hab
      · have hfed := hI.rendering hr
        rw [Function.update_self]
        exact .inr ⟨fb, hfed, Leader.renders_render _ (hfit a fb hfed) _⟩
      · rw [Function.update_of_ne hab]
        exact hI.command a

theorem LeaderInv.step (hI : LeaderInv st h) (hfit : ∀ a fb, Fed h a fb → Leader.CountsFit fb)
    {x : Leader.Action} {st' : Leader.State} {e : Option Leader.Event}
    (hx : ∀ a fb systemNowNs nowNs, x ≠ .feedback a fb systemNowNs nowNs)
    (hs : Leader.step lcfg st x = some (st', e)) : LeaderInv st' h := by
  by_cases hloop : ∃ env, x = .loop env
  · obtain ⟨env, rfl⟩ := hloop
    obtain ⟨rfl, -⟩ := Leader.step_loop lcfg st hs
    exact hI.loopStep hfit env
  · obtain ⟨⟨-, hbcmd, hl⟩, -⟩ := Leader.step_outside lcfg st hs fun env henv => hloop ⟨env, henv⟩
    rcases Leader.step_stored lcfg st hs fun env henv => hloop ⟨env, henv⟩ with
      ⟨hbuffer, -⟩ | ⟨a, p, rttNs, nowNs, hstored, -⟩
    · exact ⟨hbuffer ▸ hI.buffer, hl ▸ hI.loop, hbcmd ▸ hI.command⟩
    · cases x with
      | feedback b fb systemNowNs now => exact absurd rfl (hx b fb systemNowNs now)
      | loop env => exact absurd ⟨env, rfl⟩ hloop
      | _ => cases hstored

end LeaderInv

/-! ## Whole runs -/

def SentFormed : Event → List Event → Prop
  | .commandSent a _ _ p, h => Formed cfg h a p
  | _, _ => True

section Runs

variable [Rounding] {s : State} {h : List Event}

theorem formed_runs (hr : (machine cfg).Runs s h) : FormedInv cfg s h ∧ Always (SentFormed cfg) h := by
  have hlater : ∀ {s : State} {h : List Event}, FormedInv cfg s h → ∀ t,
      FormedInv cfg { s with nowNs := t } h :=
    fun hI _ => ⟨hI.sized, hI.enabling, hI.joints, hI.header, hI.wire⟩
  refine hr.always (I := FormedInv cfg) formedInv_start ?_ ?_
  · intro s h x s' e hI _ hs
    exact (hlater hI x.timeNs).step (step_cases cfg hs).2
  · intro s h x s' e hI _ hs
    obtain ⟨-, hstep⟩ := step_cases cfg hs
    generalize he : some e = e' at hstep
    cases hstep with
    | sendCommand a p _ hp => cases he; exact hI.wire a p hp
    | leader _ _ e' => cases e' <;> cases he; trivial
    | follower _ _ e' => cases e' <;> cases he; trivial
    | _ => cases he <;> trivial

theorem command_formed (hr : (machine cfg).Runs s h) {a : ArmSide} {i t : ℕ}
    {w : TeleopPacket UInt64} (he : .commandReceived a i t w ∈ h) : Formed cfg h a w := by
  obtain ⟨u, -, hsub⟩ := sent_before cfg (honest_runs cfg hr).2 he
  have hsent : .commandSent a i u w ∈ h := hsub.subset (by simp)
  obtain ⟨h', hformed, -, hsuffix⟩ := (formed_runs cfg hr).2.before hsent
  exact hformed.mono fun x hx => hsuffix.subset (List.mem_cons_of_mem _ hx)

theorem report_mem (hr : (machine cfg).Runs s h) {t : ℕ} {a : ArmSide} {fb : FeedbackPacket Double}
    (he : .follower t (.feedback a fb) ∈ h) : fb.armSide = a.toUInt8 ∧ Leader.CountsFit fb := by
  have hmem : .feedback a fb ∈ h.filterMap Event.follower? := List.mem_filterMap.mpr ⟨_, he, rfl⟩
  obtain ⟨_, hfits, -⟩ := (report_fits cfg.follower ((part_follower cfg).runs hr)).before hmem
  exact hfits

omit [Rounding] in
/-- Feedback that was received carries a report of the loop of the follower. -/
theorem received_reported (ha : Always (Honest cfg) h) {a : ArmSide} {i t : ℕ}
    {w : FeedbackPacket UInt64} {rttNs : UInt64} (he : .feedbackReceived a i t w rttNs ∈ h) :
    ∃ bits : FeedbackPacket UInt64, ∃ sendTimeNs, w = bits.encode sendTimeNs ∧
      (bits.map Double.ofBits = .zero ∨
        ∃ u v h', ([.feedbackReceived a i t w rttNs, .feedbackSent a i u w,
            .follower v (.feedback a (bits.map Double.ofBits))] ++ h').Sublist h ∧
          (.follower v (.feedback a (bits.map Double.ofBits)) :: h') <:+ h) := by
  obtain ⟨h', ⟨⟨u, -, hsent⟩, -⟩, ha', hback⟩ := ha.before he
  obtain ⟨h'', ⟨bits, x, -, hreport, hw⟩, ha'', hreply⟩ := ha'.before hsent
  refine ⟨bits, _, hw, hreport.imp_right ?_⟩
  rintro ⟨v, -, hv⟩
  obtain ⟨h₃, -, -, hfill⟩ := ha''.before hv
  refine ⟨u, v, h₃, ?_, ?_⟩
  · exact ((hfill.sublist.cons_cons _).trans hreply.sublist).cons_cons _ |>.trans hback.sublist
  · exact hfill.trans ((List.suffix_cons _ _).trans (hreply.trans ((List.suffix_cons _ _).trans hback)))

theorem fed_fits (hr : (machine cfg).Runs s h) {a : ArmSide} {fb : FeedbackPacket Double}
    (hf : Fed h a fb) : Leader.CountsFit fb := by
  obtain ⟨i, t, w, rttNs, hmem, rfl⟩ := hf
  obtain ⟨bits, _, rfl, hreport⟩ := received_reported cfg (honest_runs cfg hr).2 hmem
  have hfits : Leader.CountsFit (bits.map Double.ofBits) := by
    rcases hreport with hzero | ⟨u, v, h', hsub, -⟩
    · rw [hzero]
      exact ⟨by decide, by decide⟩
    · have hv : .follower v (.feedback a (bits.map Double.ofBits)) ∈ h := hsub.subset (by simp)
      exact (report_mem cfg hr hv).2
  exact hfits

theorem leader_runs (hr : (machine cfg).Runs s h) : LeaderInv s.leader.state h := by
  induction hr with
  | start => exact leaderInv_start
  | @next s h x s' e hr _ hs ih =>
    have hsub : h ⊆ e.toList ++ h := List.subset_append_right _ _
    cases (step_cases cfg hs).2 with
    | leader y st e stage hy _ _ hstep =>
      exact (ih.step (fun a fb => fed_fits cfg hr) hy hstep).mono hsub
    | feedbackReceived a i position d burst fb => exact ih.store a i _ fb _ _
    | _ => exact ih.mono hsub

/-! ### Reads inside the arrays -/

theorem follower_target_fits (hr : (machine cfg).Runs s h) {a : ArmSide} {p : TeleopPacket Double}
    (hp : s.follower.state.loop.target a = some p) : Follower.CountsFit p := by
  obtain ⟨i, t, u, w, hmem, rfl, -⟩ := (honest_runs cfg hr).1.follower.target a p hp
  have hformed := command_formed cfg hr hmem
  constructor
  · rw [TeleopPacket.map_armDof, hformed.armDof]
    decide
  · rw [TeleopPacket.map_handDof, hformed.handDof]
    decide

theorem follower_behind (hr : (machine cfg).Runs s h) (env : Follower.Env)
    (behind : Follower.Overread Double) :
    Follower.loopStep cfg.follower s.follower.state { env with behind := behind } =
      Follower.loopStep cfg.follower s.follower.state env := by
  have hsized := Follower.sized_runs cfg.follower ((part_follower cfg).runs hr)
  cases hpc : s.follower.state.loop.pc with
  | stream a =>
    simp only [Follower.loopStep, hpc]
    split
    · cases ht : s.follower.state.loop.target a with
      | none => rfl
      | some p =>
        have hchecked := ((hsized a).checked cfg.follower.rateLimiter p).2
        have hfits := follower_target_fits cfg hr ht
        have heq := Option.some.inj ((hchecked env.behind hfits).symm.trans (hchecked behind hfits))
        dsimp only
        rw [heq]
    · rfl
  | _ => simp only [Follower.loopStep, hpc]

theorem leader_behind (hr : (machine cfg).Runs s h) (env : Leader.Env) (behind : Leader.Overread) :
    Leader.loopStep cfg.leader s.leader.state { env with behind := behind } =
      Leader.loopStep cfg.leader s.leader.state env := by
  have hI := leader_runs cfg hr
  have hsized := (formed_runs cfg hr).1.sized
  cases hpc : s.leader.state.loop.pc with
  | snapshot a =>
    simp only [Leader.loopStep, hpc]
    split
    · rename_i fb hfb
      have hfed := hI.loop a fb (.inl hpc) (Option.filter_eq_some_iff.mp hfb).1
      have heq : ∀ behind, Leader.snapshot? cfg.leader.bi (s.leader.state.robot a)
          (s.leader.state.bcmd a) fb =
          some (Leader.aligned cfg.leader.bi (s.leader.state.robot a) fb behind,
            Leader.render (s.leader.state.bcmd a) fb behind) := fun behind => by
        rw [Leader.snapshot?_eq cfg.leader.bi (hsized a), if_pos (fed_fits cfg hr hfed)]
      obtain ⟨haligned, hrender⟩ :=
        Prod.mk.inj (Option.some.inj ((heq env.behind).symm.trans (heq behind)))
      rw [haligned, hrender]
    · rfl
  | _ => simp only [Leader.loopStep, hpc]

/-- What the two programs exchange, and what their next steps read. -/
structure InBounds (s : State) (h : List Event) : Prop where
  command : ∀ a i t w, .commandReceived a i t w ∈ h → Formed cfg h a w
  feedback : ∀ a i t w rttNs, .feedbackReceived a i t w rttNs ∈ h →
    w.armDof.toNat ≤ 8 ∧ w.handDof.toNat ≤ 4
  follower : ∀ env behind,
    Follower.loopStep cfg.follower s.follower.state { env with behind := behind } =
      Follower.loopStep cfg.follower s.follower.state env
  leader : ∀ env behind, Leader.loopStep cfg.leader s.leader.state { env with behind := behind } =
    Leader.loopStep cfg.leader s.leader.state env

/-- **Between leader and follower all reads are in bounds.** Every command that arrives is for the
arm, states seven arm joints and one gripper, and neither stops the follower nor enables it unless
the leader was enabled. All feedback states what its arrays hold. So whatever memory holds behind
the arrays of a packet, the next step of either loop is the same. -/
theorem closed_in_bounds (hr : (machine cfg).Runs s h) : InBounds cfg s h where
  command _ _ _ _ he := command_formed cfg hr he
  feedback a i t w rttNs he := fed_fits cfg hr (a := a) ⟨i, t, w, rttNs, he, rfl⟩
  follower := follower_behind cfg hr
  leader := leader_behind cfg hr

end Runs

section Exchange

attribute [local instance] Rounding.exact

def isCommand : Event → Bool
  | .commandReceived .. => true
  | _ => false

/-- An exchange in both directions. -/
theorem closed_in_bounds_exchange :
    ∃ s h, (machine simulated).Runs s h ∧ h.any isCommand = true ∧ h.any isFeedback = true ∧
      InBounds simulated s h := by
  obtain ⟨s, h, hr, hcommand, hfeedback⟩ := (machine simulated).exists_runWhere
    (fun _ _ _ => True) exchange (fun _ h => h.any isCommand = true ∧ h.any isFeedback = true)
    (by decide +kernel)
  exact ⟨s, h, hr, hcommand, hfeedback, closed_in_bounds simulated hr⟩

end Exchange

end OpenArmTeleop.System
