import OpenArmTeleop.Follower.Age
import OpenArmTeleop.System.Steps

/-!
# What arrives was sent

Over a network that loses, repeats, delays, reorders and damages datagrams, each program takes in
only packets of the other one, for the arm they were sent for.
-/

open Num Run Clock OpenArmTeleop.Net OpenArmTeleop.Core

namespace OpenArmTeleop.System

def Event.timeNs : Event → ℕ
  | .leader t _ | .follower t _ | .commandSent _ _ t _ | .commandReceived _ _ t _
  | .feedbackSent _ _ t _ | .feedbackReceived _ _ t _ _ => t

/-! ## What a packet says about the history -/

variable (cfg : Config)

/-- The encoder accepts its own packet, and has stamped it with the clock of the leader. -/
def Stamped (nowNs : ℕ) (p : TeleopPacket UInt64) : Prop :=
  p.decodeAndValidate = true ∧
    ∃ t ≤ nowNs, p.sendTimeNs = reading cfg.clocks.leaderSystemNs t

/-- The command has arrived for the arm, not later than the one that came in at the time on the
follower's clock. -/
def Held (h : List Event) (nowNs : ℕ) (a : ArmSide) (p : TeleopPacket Double)
    (receiveTimeNs : UInt64) : Prop :=
  ∃ i t u w, .commandReceived a i t w ∈ h ∧ p = w.map Double.ofBits ∧ t ≤ u ∧ u ≤ nowNs ∧
    receiveTimeNs = reading cfg.clocks.followerSteadyNs u ∧ ∃ j x, .commandReceived a j u x ∈ h

/-- The feedback echoes a command that has arrived for the arm, or none, and the command was held
no longer than since its arrival. -/
def Echoes (h : List Event) (nowNs : ℕ) (a : ArmSide) (fb : FeedbackPacket Double) : Prop :=
  fb.echoCmdSeq = 0 ∧ fb.echoCmdSendTimeNs = 0 ∧ fb.cmdHoldNs = 0 ∨
    ∃ i t u w, .commandReceived a i t w ∈ h ∧ t ≤ u ∧ u ≤ nowNs ∧ fb.echoCmdSeq = w.seq ∧
      fb.echoCmdSendTimeNs = w.sendTimeNs ∧
      (cfg.clocks.followerSteadyNs + u < 2 ^ 64 → fb.cmdHoldNs.toNat ≤ u - t)

/-- What the loop has filled in for the arm, or nothing yet. -/
def Reported (h : List Event) (nowNs : ℕ) (a : ArmSide) (fb : FeedbackPacket Double) : Prop :=
  fb = .zero ∨ ∃ t ≤ nowNs, .follower t (.feedback a fb) ∈ h

/-- The datagram carries such a report. -/
def Carries (h : List Event) (nowNs : ℕ) (a : ArmSide) (w : FeedbackPacket UInt64) : Prop :=
  ∃ bits : FeedbackPacket UInt64, ∃ t ≤ nowNs, Reported h nowNs a (bits.map Double.ofBits) ∧
    w = bits.encode (reading cfg.clocks.followerSystemNs t)

section Mono

variable {cfg} {h h' : List Event} {nowNs nowNs' : ℕ} {a : ArmSide}

theorem Stamped.mono {p : TeleopPacket UInt64} (hs : Stamped cfg nowNs p) (hle : nowNs ≤ nowNs') :
    Stamped cfg nowNs' p := by
  obtain ⟨hvalid, t, ht, hsend⟩ := hs
  exact ⟨hvalid, t, ht.trans hle, hsend⟩

theorem Held.mono {p : TeleopPacket Double} {receiveTimeNs : UInt64}
    (hh : Held cfg h nowNs a p receiveTimeNs) (hsub : h ⊆ h') (hle : nowNs ≤ nowNs') :
    Held cfg h' nowNs' a p receiveTimeNs := by
  obtain ⟨i, t, u, w, hmem, hp, htu, hu, hr, j, x, hlast⟩ := hh
  exact ⟨i, t, u, w, hsub hmem, hp, htu, hu.trans hle, hr, j, x, hsub hlast⟩

theorem Echoes.mono {fb : FeedbackPacket Double} (he : Echoes cfg h nowNs a fb)
    (hsub : h ⊆ h') (hle : nowNs ≤ nowNs') : Echoes cfg h' nowNs' a fb := by
  refine he.imp_right ?_
  rintro ⟨i, t, u, w, hmem, htu, hu, hrest⟩
  exact ⟨i, t, u, w, hsub hmem, htu, hu.trans hle, hrest⟩

theorem Reported.mono {fb : FeedbackPacket Double} (hr : Reported h nowNs a fb) (hsub : h ⊆ h')
    (hle : nowNs ≤ nowNs') : Reported h' nowNs' a fb := by
  refine hr.imp_right ?_
  rintro ⟨t, ht, hmem⟩
  exact ⟨t, ht.trans hle, hsub hmem⟩

theorem Carries.mono {w : FeedbackPacket UInt64} (hc : Carries cfg h nowNs a w) (hsub : h ⊆ h')
    (hle : nowNs ≤ nowNs') : Carries cfg h' nowNs' a w := by
  obtain ⟨bits, t, ht, hr, hw⟩ := hc
  exact ⟨bits, t, ht.trans hle, hr.mono hsub hle, hw⟩

end Mono

/-! ## The follower -/

section Follower

/-- What the follower works with has arrived. -/
structure FollowerInv (st : Follower.State) (h : List Event) (nowNs : ℕ) : Prop where
  buffer : ∀ a p, (st.buffer a).getLatest = some p →
    Held cfg h nowNs a p (st.buffer a).lastReceiveTimeNs
  target : ∀ a p, st.loop.target a = some p → Held cfg h nowNs a p (st.buffer a).lastReceiveTimeNs
  fbTime : ∀ a p, st.loop.pc = .fbFill a → st.loop.target a = some p →
    Held cfg h nowNs a p st.loop.fbReceiveTimeNs

variable {cfg} {st : Follower.State} {h h' : List Event} {nowNs nowNs' : ℕ}

theorem FollowerInv.mono (hI : FollowerInv cfg st h nowNs) (hsub : h ⊆ h') (hle : nowNs ≤ nowNs') :
    FollowerInv cfg st h' nowNs' :=
  ⟨fun a p hp => (hI.buffer a p hp).mono hsub hle, fun a p hp => (hI.target a p hp).mono hsub hle,
    fun a p hpc hp => (hI.fbTime a p hpc hp).mono hsub hle⟩

variable [Rounding]

theorem followerInv_start : FollowerInv cfg (Follower.State.start cfg.follower) [] 0 := by
  refine ⟨fun a p hp => ?_, fun a p hp => ?_, fun a p _ hp => ?_⟩
  · simp [Follower.State.start, TeleopStateBuffer.getLatest, TeleopStateBuffer.new] at hp
  · simp [Follower.State.start] at hp
  · simp [Follower.State.start] at hp

/-- A new arrival is the newest one, and the older ones stay what they were. -/
theorem FollowerInv.store (hI : FollowerInv cfg st h nowNs) (b : ArmSide) (i : ℕ)
    (w : TeleopPacket UInt64) :
    FollowerInv cfg (storeCommand st b w (reading cfg.clocks.followerSteadyNs nowNs))
      (.commandReceived b i nowNs w :: h) nowNs := by
  have hsub : h ⊆ .commandReceived b i nowNs w :: h := List.subset_cons_self _ _
  refine ⟨fun a p hp => ?_, fun a p hp => ?_, fun a p hpc hp => ?_⟩
  · by_cases hab : a = b
    · subst hab
      simp only [storeCommand, Function.update_self] at hp ⊢
      obtain rfl := Option.some.inj hp
      exact ⟨i, nowNs, nowNs, w, List.mem_cons_self, rfl, le_refl _, le_refl _, rfl, i, w,
        List.mem_cons_self⟩
    · simp only [storeCommand, Function.update_of_ne hab] at hp ⊢
      exact (hI.buffer a p hp).mono hsub (le_refl _)
  · obtain ⟨j, t, u, x, hmem, hx, htu, hu, hr, k, y, hlast⟩ := hI.target a p hp
    by_cases hab : a = b
    · subst hab
      simp only [storeCommand, Function.update_self]
      exact ⟨j, t, nowNs, x, hsub hmem, hx, htu.trans hu, le_refl _, rfl, i, w,
        List.mem_cons_self⟩
    · simp only [storeCommand, Function.update_of_ne hab]
      exact ⟨j, t, u, x, hsub hmem, hx, htu, hu, hr, k, y, hsub hlast⟩
  · exact (hI.fbTime a p hpc hp).mono hsub (le_refl _)

theorem FollowerInv.loop (hI : FollowerInv cfg st h nowNs) (env : Follower.Env) :
    FollowerInv cfg (Follower.loopStep cfg.follower st env).1 h nowNs := by
  have htarget : ∀ a p, (Follower.loopStep cfg.follower st env).1.loop.target a = some p →
      Held cfg h nowNs a p (st.buffer a).lastReceiveTimeNs := by
    intro a p hp
    rw [Follower.loopStep_target] at hp
    split at hp
    · exact hI.buffer a p hp
    · exact hI.target a p hp
  refine ⟨fun a p hp => ?_, fun a p hp => ?_, fun a p hpc hp => ?_⟩
  · rw [Follower.loopStep_buffer] at hp ⊢
    exact hI.buffer a p hp
  · rw [Follower.loopStep_buffer]
    exact htarget a p hp
  · rw [Follower.loopStep_pc] at hpc
    have hfb := Follower.next_fbFill cfg.follower st a hpc
    rw [Follower.loopStep_fbReceiveTimeNs, hfb]
    exact htarget a p hp

theorem FollowerInv.step (hI : FollowerInv cfg st h nowNs) {x : Follower.Action}
    {st' : Follower.State} {e : Option Follower.Event}
    (hpacket : ∀ a p now, x ≠ .packet a p now)
    (hs : Follower.step cfg.follower st x = some (st', e)) : FollowerInv cfg st' h nowNs := by
  have hstep := Follower.step_cases cfg.follower st x st' e hs
  by_cases hloop : ∃ env, x = .loop env
  · obtain ⟨env, rfl⟩ := hloop
    cases hstep with
    | loop => exact hI.loop env
  · obtain ⟨hl, hb⟩ := Follower.step_still hstep fun env hx => hloop ⟨env, hx⟩
    have hb := hb hpacket
    refine ⟨fun a p hp => ?_, fun a p hp => ?_, fun a p hpc hp => ?_⟩
    · rw [hb] at hp ⊢
      exact hI.buffer a p hp
    · rw [hl] at hp
      rw [hb]
      exact hI.target a p hp
    · rw [hl] at hpc hp ⊢
      exact hI.fbTime a p hpc hp

/-- What is filled in echoes the command of the iteration. -/
theorem FollowerInv.fill (hI : FollowerInv cfg st h nowNs) {x : Follower.Action}
    {st' : Follower.State} {a : ArmSide} {fb : FeedbackPacket Double}
    (hclock : ∀ env, x = .loop env → env.nowNs = reading cfg.clocks.followerSteadyNs nowNs)
    (hs : Follower.step cfg.follower st x = some (st', some (.feedback a fb))) :
    Echoes cfg h nowNs a fb := by
  have hstep := Follower.step_cases cfg.follower st x st' _ hs
  rcases Follower.step_recorded cfg.follower st hstep with hout | ⟨env, rfl, hrecord⟩
  · cases hout
  · cases hrecord with
    | feedback a hpc =>
      cases ht : st.loop.target a with
      | none => exact .inl ⟨rfl, rfl, rfl⟩
      | some p =>
        obtain ⟨i, t, u, w, hmem, hp, htu, hu, hr, -⟩ := hI.fbTime a p hpc ht
        refine .inr ⟨i, t, nowNs, w, hmem, htu.trans hu, le_refl _, ?_, ?_, fun hclk => ?_⟩
        · simp [Follower.fillFeedback, hp]
        · simp [Follower.fillFeedback, hp, TeleopPacket.map]
        · simp only [Follower.fillFeedback, Option.isSome_some, if_true, hr, hclock env rfl]
          rw [if_pos ((reading_le_iff (by omega) hclk).mpr hu), toNat_reading_sub hu hclk]
          omega

end Follower

/-! ## Every step -/

/-- What an event says was so before it. -/
def Honest : Event → List Event → Prop
  | .follower t (.safetyUpdate a p _ _), h =>
    ∃ i, ∃ u ≤ t, ∃ w, .commandReceived a i u w ∈ h ∧ p = w.map Double.ofBits
  | .commandSent _ _ t p, _ => Stamped cfg t p
  | .commandReceived a i t p, h => ∃ u ≤ t, .commandSent a i u p ∈ h
  | .follower t (.feedback a fb), h => Echoes cfg h t a fb
  | .feedbackSent a _ t fb, h => Carries cfg h t a fb
  | .feedbackReceived a i t fb rtt, h =>
    (∃ u ≤ t, .feedbackSent a i u fb ∈ h) ∧
      rtt = Leader.roundTripNs fb (reading cfg.clocks.leaderSystemNs t)
  | .follower _ _, _ | .leader _ _, _ => True

/-! ## The whole system -/

section System

/-- Everything on the way was sent, and what was sent says the truth. -/
structure SystemInv (s : State) (h : List Event) : Prop where
  time : ∀ e ∈ h, e.timeNs ≤ s.nowNs
  follower : FollowerInv cfg s.follower.state h s.nowNs
  fb : ∀ a, Reported h s.nowNs a (s.follower.fb a)
  commandWire : ∀ a p, s.leader.wire a = some p → Stamped cfg s.nowNs p
  feedbackWire : ∀ a w, s.follower.wire a = some w → Carries cfg h s.nowNs a w
  commands : ∀ a i d, (s.commands a)[i]? = some d →
    ∃ t p, .commandSent a i t p ∈ h ∧ d = TeleopPacket.layout.put p ∧ p.decodeAndValidate = true
  feedback : ∀ a i d, (s.feedback a)[i]? = some d →
    ∃ t fb, .feedbackSent a i t fb ∈ h ∧ d = FeedbackPacket.layout.put fb ∧
      fb.decodeAndValidate = true

variable {cfg} {s : State} {h : List Event}

theorem SystemInv.later (hI : SystemInv cfg s h) {nowNs : ℕ} (hle : s.nowNs ≤ nowNs) :
    SystemInv cfg { s with nowNs := nowNs } h where
  time e he := (hI.time e he).trans hle
  follower := hI.follower.mono (List.Subset.refl h) hle
  fb a := (hI.fb a).mono (List.Subset.refl h) hle
  commandWire a p hp := (hI.commandWire a p hp).mono hle
  feedbackWire a w hw := (hI.feedbackWire a w hw).mono (List.Subset.refl h) hle
  commands := hI.commands
  feedback := hI.feedback

/-- What stays true when the history grows. -/
theorem SystemInv.grow (hI : SystemInv cfg s h) (e : Option Event)
    (he : ∀ x, e = some x → x.timeNs ≤ s.nowNs) : SystemInv cfg s (e.toList ++ h) := by
  have hsub : h ⊆ e.toList ++ h := List.subset_append_right _ _
  refine ⟨fun x hx => ?_, hI.follower.mono hsub (le_refl _), fun a => (hI.fb a).mono hsub (le_refl _),
    hI.commandWire, fun a w hw => (hI.feedbackWire a w hw).mono hsub (le_refl _),
    fun a i d hd => ?_, fun a i d hd => ?_⟩
  · rcases List.mem_append.mp hx with hx | hx
    · exact he x (Option.mem_toList.mp hx)
    · exact hI.time x hx
  · obtain ⟨t, p, hmem, hrest⟩ := hI.commands a i d hd
    exact ⟨t, p, hsub hmem, hrest⟩
  · obtain ⟨t, fb, hmem, hrest⟩ := hI.feedback a i d hd
    exact ⟨t, fb, hsub hmem, hrest⟩

/-! ### Changes of one part -/

theorem SystemInv.withLeader (hI : SystemInv cfg s h) (n : LeaderNode)
    (hwire : ∀ a p, n.wire a = some p → Stamped cfg s.nowNs p) :
    SystemInv cfg { s with leader := n } h :=
  ⟨hI.time, hI.follower, hI.fb, hwire, hI.feedbackWire, hI.commands, hI.feedback⟩

theorem SystemInv.withFollower (hI : SystemInv cfg s h) (n : FollowerNode)
    (hstate : FollowerInv cfg n.state h s.nowNs) (hfb : ∀ a, Reported h s.nowNs a (n.fb a))
    (hwire : ∀ a w, n.wire a = some w → Carries cfg h s.nowNs a w) :
    SystemInv cfg { s with follower := n } h :=
  ⟨hI.time, hstate, hfb, hI.commandWire, hwire, hI.commands, hI.feedback⟩

/-- Where an arm is sent, its packet is no longer there. -/
theorem of_update_none {α : Type} {wire : ArmSide → Option α} {a b : ArmSide} {x : α}
    (hx : Function.update wire b none a = some x) : wire a = some x := by
  by_cases hab : a = b
  · subst hab
    rw [Function.update_self] at hx
    cases hx
  · rwa [Function.update_of_ne hab] at hx

theorem of_update_some {α : Type} {wire : ArmSide → Option α} {a b : ArmSide} {x y : α}
    (hx : Function.update wire b (some y) a = some x) : a = b ∧ x = y ∨ wire a = some x := by
  by_cases hab : a = b
  · subst hab
    rw [Function.update_self] at hx
    exact .inl ⟨rfl, (Option.some.inj hx).symm⟩
  · rw [Function.update_of_ne hab] at hx
    exact .inr hx

theorem record_wire (n : FollowerNode) (e : Option Follower.Event) : (n.record e).wire = n.wire := by
  unfold FollowerNode.record
  split <;> rfl

theorem record_fb (n : FollowerNode) (e : Option Follower.Event) (a : ArmSide) :
    (n.record e).fb a = n.fb a ∨ ∃ fb, e = some (.feedback a fb) ∧ (n.record e).fb a = fb := by
  unfold FollowerNode.record
  split
  · rename_i b fb
    by_cases hab : a = b
    · subst hab
      exact .inr ⟨fb, rfl, Function.update_self _ _ _⟩
    · exact .inl (Function.update_of_ne hab _ _)
  · exact .inl rfl

theorem sent_append {sent : List (List UInt8)} {i : ℕ} {d d' : List UInt8}
    (h : (sent ++ [d'])[i]? = some d) : sent[i]? = some d ∨ i = sent.length ∧ d = d' := by
  rcases lt_trichotomy i sent.length with hlt | heq | hgt
  · rw [List.getElem?_append_left hlt] at h
    exact .inl h
  · subst heq
    rw [List.getElem?_append_right (le_refl _), Nat.sub_self, List.getElem?_cons_zero] at h
    exact .inr ⟨rfl, (Option.some.inj h).symm⟩
  · rw [List.getElem?_eq_none (by simp; omega)] at h
    cases h

theorem SystemInv.commandSent (hI : SystemInv cfg s h) {a : ArmSide} {p : TeleopPacket UInt64}
    (hp : s.leader.wire a = some p)
    (hmem : .commandSent a (s.commands a).length s.nowNs p ∈ h) :
    SystemInv cfg
      { s with
        commands := Function.update s.commands a (s.commands a ++ [TeleopPacket.layout.put p]) }
      h := by
  refine ⟨hI.time, hI.follower, hI.fb, hI.commandWire, hI.feedbackWire, fun b i d hd => ?_,
    hI.feedback⟩
  by_cases hab : b = a
  · subst hab
    simp only [Function.update_self] at hd
    rcases sent_append hd with hd | ⟨rfl, rfl⟩
    · exact hI.commands b i d hd
    · exact ⟨s.nowNs, p, hmem, rfl, (hI.commandWire b p hp).1⟩
  · simp only [Function.update_of_ne hab] at hd
    exact hI.commands b i d hd

theorem SystemInv.feedbackSent (hI : SystemInv cfg s h) {a : ArmSide} {fb : FeedbackPacket UInt64}
    (hfb : s.follower.wire a = some fb)
    (hmem : .feedbackSent a (s.feedback a).length s.nowNs fb ∈ h) :
    SystemInv cfg
      { s with
        feedback := Function.update s.feedback a (s.feedback a ++ [FeedbackPacket.layout.put fb]) }
      h := by
  refine ⟨hI.time, hI.follower, hI.fb, hI.commandWire, hI.feedbackWire, hI.commands,
    fun b i d hd => ?_⟩
  by_cases hab : b = a
  · subst hab
    simp only [Function.update_self] at hd
    rcases sent_append hd with hd | ⟨rfl, rfl⟩
    · exact hI.feedback b i d hd
    · obtain ⟨bits, t, -, -, hfb⟩ := hI.feedbackWire b fb hfb
      exact ⟨s.nowNs, fb, hmem, rfl, hfb ▸ bits.decode_encode _⟩
  · simp only [Function.update_of_ne hab] at hd
    exact hI.feedback b i d hd

/-! ### Arrivals -/

/-- Whatever the network does to a datagram, only the packet that was sent comes out. -/
theorem SystemInv.commandArrived (hI : SystemInv cfg s h) {a : ArmSide} {i position : ℕ}
    {d burst : List UInt8} {p : TeleopPacket UInt64} (hd : (s.commands a)[i]? = some d)
    (hburst : burst.length ≤ 4) (hin : position + burst.length ≤ d.length)
    (hp : receiveTeleop (overwrite d position burst) = some p) :
    ∃ u ≤ s.nowNs, .commandSent a i u p ∈ h := by
  obtain ⟨u, q, hmem, rfl, hvalid⟩ := hI.commands a i d hd
  obtain rfl := receiveTeleop_overwrite hburst hin hvalid hp
  exact ⟨u, hI.time _ hmem, hmem⟩

theorem SystemInv.feedbackArrived (hI : SystemInv cfg s h) {a : ArmSide} {i position : ℕ}
    {d burst : List UInt8} {fb : FeedbackPacket UInt64} (hd : (s.feedback a)[i]? = some d)
    (hburst : burst.length ≤ 4) (hin : position + burst.length ≤ d.length)
    (hfb : receiveFeedback (overwrite d position burst) = some fb) :
    ∃ u ≤ s.nowNs, .feedbackSent a i u fb ∈ h := by
  obtain ⟨u, q, hmem, rfl, hvalid⟩ := hI.feedback a i d hd
  obtain rfl := receiveFeedback_overwrite hburst hin hvalid hfb
  exact ⟨u, hI.time _ hmem, hmem⟩

variable [Rounding]

theorem systemInv_start : SystemInv cfg (State.start cfg) [] where
  time := by simp
  follower := followerInv_start
  fb a := .inl rfl
  commandWire := by simp [State.start]
  feedbackWire := by simp [State.start]
  commands := by simp [State.start]
  feedback := by simp [State.start]

theorem Step.time {s' : State} {e : Option Event} (hs : Step cfg s s' e) :
    ∀ x, e = some x → x.timeNs ≤ s.nowNs := by
  rintro x rfl
  generalize he : some x = e at hs
  cases hs with
  | leader _ _ e => cases e <;> cases he; exact le_refl _
  | follower _ _ e => cases e <;> cases he; exact le_refl _
  | _ => cases he <;> exact le_refl _

theorem SystemInv.step (hI : SystemInv cfg s h) {s' : State} {e : Option Event}
    (hs : Step cfg s s' e) : SystemInv cfg s' (e.toList ++ h) := by
  have hgrown := hI.grow e hs.time
  cases hs with
  | leader x st e stage => exact hgrown.withLeader _ hgrown.commandWire
  | assemble | dropped => exact hI.withLeader _ hI.commandWire
  | header a => exact hI.withLeader _ hI.commandWire
  | encodeCommand a bits =>
    refine hI.withLeader _ fun b p hp => ?_
    rcases of_update_some hp with ⟨rfl, rfl⟩ | hp
    · exact ⟨bits.decode_encode _, s.nowNs, le_refl _, rfl⟩
    · exact hI.commandWire b p hp
  | sendCommand a p _ hp =>
    exact (hgrown.commandSent hp List.mem_cons_self).withLeader _
      fun b q hq => hI.commandWire b q (of_update_none hq)
  | skipCommand a => exact hI.withLeader _ fun b q hq => hI.commandWire b q (of_update_none hq)
  | follower x st e hpacket hclock hstep =>
    refine hgrown.withFollower _ (hgrown.follower.step hpacket hstep) (fun b => ?_) ?_
    · rcases record_fb s.follower e b with heq | ⟨fb, rfl, heq⟩
      · exact heq ▸ hgrown.fb b
      · change Reported _ _ b ((s.follower.record (some (.feedback b fb))).fb b)
        rw [heq]
        exact .inr ⟨s.nowNs, le_refl _, List.mem_cons_self⟩
    · exact record_wire s.follower e ▸ hgrown.feedbackWire
  | encodeFeedback a bits _ hbits =>
    refine hI.withFollower _ hI.follower hI.fb fun b fb hfb => ?_
    rcases of_update_some hfb with ⟨rfl, rfl⟩ | hfb
    · exact ⟨bits, s.nowNs, le_refl _, hbits ▸ hI.fb b, rfl⟩
    · exact hI.feedbackWire b fb hfb
  | sendFeedback a fb _ hfb =>
    exact (hgrown.feedbackSent hfb List.mem_cons_self).withFollower _ hgrown.follower hgrown.fb
      fun b q hq => hgrown.feedbackWire b q (of_update_none hq)
  | skipFeedback a =>
    exact hI.withFollower _ hI.follower hI.fb fun b q hq => hI.feedbackWire b q (of_update_none hq)
  | commandReceived a i position d burst p =>
    exact hgrown.withFollower _ (hI.follower.store a i p) hgrown.fb hgrown.feedbackWire
  | feedbackReceived a i position d burst fb => exact hgrown.withLeader _ hgrown.commandWire

theorem SystemInv.honest (hI : SystemInv cfg s h) {s' : State} {x : Event}
    (hs : Step cfg s s' (some x)) : Honest cfg x h := by
  generalize he : some x = e at hs
  cases hs with
  | leader _ _ e => cases e <;> cases he; trivial
  | follower y st e hpacket hclock hstep =>
    cases e with
    | none => cases he
    | some e =>
      cases he
      cases e with
      | safetyUpdate a p ageMs latched =>
        have hstep := Follower.step_cases cfg.follower _ _ _ _ hstep
        obtain ⟨-, ht, -⟩ := Follower.step_safetyUpdate cfg.follower _ hstep
        obtain ⟨i, t, u, w, hmem, hp, htu, hu, -⟩ := hI.follower.target a p ht
        exact ⟨i, t, htu.trans hu, w, hmem, hp⟩
      | feedback a fb => exact hI.follower.fill (fun env henv => (hclock env henv).2) hstep
      | _ => trivial
  | sendCommand a p _ hp => cases he; exact hI.commandWire a p hp
  | sendFeedback a fb _ hfb => cases he; exact hI.feedbackWire a fb hfb
  | commandReceived a i position d burst p hd hburst hin hp =>
    cases he
    exact hI.commandArrived hd hburst hin hp
  | feedbackReceived a i position d burst fb _ hd hburst hin hfb =>
    cases he
    exact ⟨hI.feedbackArrived hd hburst hin hfb, rfl⟩
  | _ => cases he

variable (cfg)

theorem honest_runs (hr : (machine cfg).Runs s h) : SystemInv cfg s h ∧ Always (Honest cfg) h := by
  refine hr.always (I := SystemInv cfg) systemInv_start ?_ ?_
  · intro s h x s' e hI _ hs
    obtain ⟨hle, hstep⟩ := step_cases cfg hs
    exact (hI.later hle).step hstep
  · intro s h x s' e hI _ hs
    obtain ⟨hle, hstep⟩ := step_cases cfg hs
    exact (hI.later hle).honest hstep

end System

/-! ## Whole runs -/

/-- What is used came over the network, and what comes over the network was sent. -/
structure Authentic (h : List Event) : Prop where
  command : ∀ t a p ageMs latched, .follower t (.safetyUpdate a p ageMs latched) ∈ h →
    ∃ i u v w, p = w.map Double.ofBits ∧ u ≤ v ∧ v ≤ t ∧
      [.follower t (.safetyUpdate a p ageMs latched), .commandReceived a i v w,
        .commandSent a i u w].Sublist h
  feedback : ∀ a i t fb rttNs, .feedbackReceived a i t fb rttNs ∈ h →
    ∃ u ≤ t, [.feedbackReceived a i t fb rttNs, .feedbackSent a i u fb].Sublist h

variable {s : State} {h : List Event}

theorem sent_before (ha : Always (Honest cfg) h) {a : ArmSide} {i v : ℕ} {w : TeleopPacket UInt64}
    (he : .commandReceived a i v w ∈ h) :
    ∃ u ≤ v, [.commandReceived a i v w, .commandSent a i u w].Sublist h := by
  obtain ⟨h', ⟨u, hu, hmem⟩, -, hsuffix⟩ := ha.before he
  exact ⟨u, hu, ((List.singleton_sublist.mpr hmem).cons_cons _).trans hsuffix.sublist⟩

/-- **What arrives was sent.** Whatever the network loses, repeats, delays, reorders or damages,
each command that the follower gives to a safety manager was received for this arm and, before
that, sent for it by the leader, and all feedback that the leader takes in was sent by the
follower for this arm. -/
theorem arrivals_authentic [Rounding] (hr : (machine cfg).Runs s h) : Authentic h := by
  have ha := (honest_runs cfg hr).2
  constructor
  · intro t a p ageMs latched he
    obtain ⟨h', ⟨i, v, hv, w, hmem, hp⟩, ha', hsuffix⟩ := ha.before he
    obtain ⟨u, hu, hsub⟩ := sent_before cfg ha' hmem
    exact ⟨i, u, v, w, hp, hu, hv, (hsub.cons_cons _).trans hsuffix.sublist⟩
  · intro a i t fb rttNs he
    obtain ⟨h', ⟨⟨u, hu, hmem⟩, -⟩, -, hsuffix⟩ := ha.before he
    exact ⟨u, hu, ((List.singleton_sublist.mpr hmem).cons_cons _).trans hsuffix.sublist⟩

section Runs

attribute [local instance] Rounding.exact

def isUpdate : Event → Bool
  | .follower _ (.safetyUpdate ..) => true
  | _ => false

def isFeedback : Event → Bool
  | .feedbackReceived .. => true
  | _ => false

/-- An exchange in both directions. -/
theorem arrivals_authentic_exchange :
    ∃ s h, (machine simulated).Runs s h ∧ h.any isUpdate = true ∧ h.any isFeedback = true ∧
      Authentic h := by
  obtain ⟨s, h, hr, hupdate, hfeedback⟩ := (machine simulated).exists_runWhere
    (fun _ _ _ => True) exchange (fun _ h => h.any isUpdate = true ∧ h.any isFeedback = true)
    (by decide +kernel)
  exact ⟨s, h, hr, hupdate, hfeedback, arrivals_authentic simulated hr⟩

end Runs

end OpenArmTeleop.System
