import OpenArmTeleop.VrLeader.Start

/-!
# The slew of the VR leader

The target of an arm moves by a limited step while its grip is held. It jumps to the measured joints
only in a cycle whose packet is not enabled.
-/

open Num Run OpenArmTeleop.Net

namespace OpenArmTeleop.VrLeader

attribute [local instance] Rounding.exact

/-! ## Two packets in a row -/

/-- What the solver has answered for the arm in the newest cycle. -/
def answer (a : ArmSide) : List Event → Option Attempt
  | [] | .cycle _ :: _ => none
  | .attempt b m :: h => if b = a then some m else answer a h
  | _ :: h => answer a h

/-- The joint moves within its step, and to the result of the solver where that is as near. -/
structure JointMoves (maxStep : Double) (answer : Option Attempt) (i : Fin 7)
    (previous target : Double) : Prop where
  within : WithinStep maxStep previous target
  reached : ∀ m ∈ answer, m.solved = true → (m.qIk.get i - previous).abs ≤ maxStep →
    target = m.qIk.get i

/-- The joints move so between two packets of an arm in a row that are both enabled. -/
def SlewLimited (cfg : Config) : Event → List Event → Prop
  | .sent a _ pkt, h => pkt.enable = 1 → ∀ previous ∈ lastSent a h, previous.enable = 1 → ∀ i,
      JointMoves (cfg.maxStep a i) (answer a h) i (previous.armPos.get i.castSucc)
        (pkt.armPos.get i.castSucc)
  | _, _ => True

/-! ## One joint -/

theorem add_sub_near {target qIk maxStep : Double} (hnear : (qIk - target).abs ≤ maxStep) :
    target + (qIk - target) = .nan ∨ target + (qIk - target) = qIk := by
  cases target with
  | nan => exact .inl (Double.nan_add _)
  | inf n => exact .inl (Double.inf_add_sub_inf n qIk)
  | fin x =>
    cases qIk with
    | nan | inf => exact .inr rfl
    | fin y =>
      refine .inr ?_
      rw [Double.exact_sub, Double.exact_add, add_sub_cancel]

/-- A result within the limit is reached at once. -/
theorem limitStep_near {target qIk maxStep : Double} (hnear : (qIk - target).abs ≤ maxStep) :
    limitStep true maxStep target qIk = .nan ∨ limitStep true maxStep target qIk = qIk := by
  have hlimit : ¬ maxStep < (qIk - target).abs := fun hlt => Double.lt_asymm hlt hnear
  unfold limitStep
  simp only [true_and, if_neg hlimit]
  exact add_sub_near hnear

variable {cfg : Config} {s s' : State} {h : List Event} {a : ArmSide}

/-- A joint that stays where it is, while the solver has not succeeded. -/
theorem jointMoves_stay {maxStep : Double} {answer : Option Attempt}
    (hanswer : ∀ m ∈ answer, m.solved = false) (i : Fin 7) (target : Double) :
    JointMoves maxStep answer i target target := by
  refine ⟨.inl rfl, fun m hm hsolved => ?_⟩
  rw [hanswer m hm] at hsolved
  cases hsolved

theorem jointMoves_limit {target : Joints} {m : Attempt} (hlimited : cfg.rateLimited = true)
    (hstep : ∀ i, 0 ≤ cfg.maxStep a i)
    (hnan : (limitTarget cfg a target m.qIk).any Double.isNan = false) (i : Fin 7) :
    JointMoves (cfg.maxStep a i) (some m) i (target.get i)
      ((limitTarget cfg a target m.qIk).get i) := by
  refine ⟨limitTarget_within hlimited hstep hnan i, ?_⟩
  rintro m' hm - hnear
  obtain rfl := Option.mem_some_iff.mp hm
  have hno : (limitTarget cfg a target m.qIk).get i ≠ .nan := fun hi =>
    Bool.false_ne_true (hnan.symm.trans ((any_isNan_iff _).mpr ⟨i, hi⟩))
  rw [limitTarget_get, hlimited] at hno ⊢
  exact (limitStep_near hnear).resolve_left hno

/-! ## The invariant -/

/-- Where an arm is between its packets. -/
structure ArmSlew (cfg : Config) (s : State) (h : List Event) (a : ArmSide) : Prop where
  waiting : s.loop.pc.waiting a = true → answer a h = none
  sent : s.loop.pc.processed a = false → ∀ previous ∈ lastSent a h, ∀ i : Fin 7,
    previous.armPos.get i.castSucc = (s.targetQ a).get i
  moved : s.loop.pc.processed a = true → s.loop.stale = false → s.held a = true →
    (s.targetQ a).any Double.isNan = false → ∀ previous ∈ lastSent a h, ∀ i : Fin 7,
      JointMoves (cfg.maxStep a i) (answer a h) i (previous.armPos.get i.castSucc)
        ((s.targetQ a).get i)

theorem armSlew_start (cfg : Config) (a : ArmSide) : ArmSlew cfg .start [] a := by
  refine ⟨fun _ => rfl, fun _ _ hsent => ?_, fun hp => ?_⟩
  · cases hsent
  · rw [Pc.processed_idle rfl a] at hp
    cases hp

/-- An arm that is left alone keeps what it has. -/
theorem ArmSlew.append (hA : ArmSlew cfg s h a) (e : Option Event)
    (hanswer : answer a (e.toList ++ h) = answer a h) (hsent : ∀ x, e = some x → x.sent? a = none)
    (hwaiting : s'.loop.pc.waiting a = s.loop.pc.waiting a)
    (hprocessed : s'.loop.pc.processed a = s.loop.pc.processed a)
    (htarget : s'.targetQ a = s.targetQ a) (hvr : s'.loop.vrPkt = s.loop.vrPkt)
    (hstale : s'.loop.stale = s.loop.stale) : ArmSlew cfg s' (e.toList ++ h) a := by
  have hlast : lastSent a (e.toList ++ h) = lastSent a h := lastSent_append a e h hsent
  have hheld : s'.held a = s.held a := by simp only [State.held, hvr]
  refine ⟨?_, ?_, ?_⟩
  · rw [hwaiting, hanswer]
    exact hA.waiting
  · rw [hprocessed, hlast, htarget]
    exact hA.sent
  · rw [hprocessed, hlast, htarget, hanswer, hstale, hheld]
    exact hA.moved

/-- Between its packet and the next cycle an arm has the target of the packet. -/
theorem ArmSlew.idle (hA : ArmSlew cfg s h a) (hbusy : s.loop.pc.working = false)
    (hpc : s'.loop.pc.working = false) (htarget : s'.targetQ a = s.targetQ a) :
    ArmSlew cfg s' h a := by
  refine ⟨fun hw => ?_, fun _ => ?_, fun hp => ?_⟩
  · rw [Pc.waiting_idle hpc] at hw
    cases hw
  · rw [htarget]
    exact hA.sent (Pc.processed_idle hbusy a)
  · rw [Pc.processed_idle hpc] at hp
    cases hp

theorem ArmSlew.snapshotTel (hA : ArmSlew cfg s h a) (hpc : s.loop.pc = .snapshotTel) (env : Env) :
    ArmSlew cfg ((snapshotTel cfg s env.timeNs).goto (.process .right))
      (.cycle ((VrLeader.snapshotTel cfg s env.timeNs).cycle env.timeNs) :: h) a := by
  have hprocessed : s.loop.pc.processed a = false := Pc.processed_idle (by rw [hpc]; rfl) a
  refine ⟨fun _ => rfl, fun _ => hA.sent hprocessed, fun hp => ?_⟩
  simp at hp

theorem armSlew_send (cfg : Config) (s : State) (h : List Event) (a : ArmSide) (timeNs : ℕ) :
    ArmSlew cfg (s.goto (.afterSend a)) (.sent a timeNs (s.sendPkt cfg a) :: h) a := by
  have hlast : lastSent a (.sent a timeNs (s.sendPkt cfg a) :: h) = some (s.sendPkt cfg a) := by
    simp [lastSent, Event.sent?]
  refine ⟨fun hw => ?_, fun _ previous hprevious i => ?_, fun hp => ?_⟩
  · simp at hw
  · rw [hlast] at hprevious
    obtain rfl := Option.mem_some_iff.mp hprevious
    exact s.sendPkt_armPos cfg a i
  · simp at hp

/-! ### The solver -/

variable (lib : Library) (solved : Bool) (qIk : Joints)

/-- The solver answers for an arm that follows. -/
theorem answer_follows (hfollows : s.follows cfg a = true) (h : List Event) :
    ∃ m, answer a ((s.process cfg lib a solved qIk).2.toList ++ h) = some m ∧
      m.solved = solved ∧ m.qIk = qIk := by
  rw [State.process_event, if_pos hfollows]
  exact ⟨_, if_pos rfl, rfl, rfl⟩

theorem answer_rests (hfollows : s.follows cfg a = false) (h : List Event) :
    answer a ((s.process cfg lib a solved qIk).2.toList ++ h) = answer a h := by
  rw [State.process_event, hfollows]
  rfl

theorem answer_other {b : ArmSide} (hb : b ≠ a) (h : List Event) :
    answer b ((s.process cfg lib a solved qIk).2.toList ++ h) = answer b h := by
  rw [State.process_event]
  split
  · exact if_neg hb.symm
  · rfl

variable {lib solved qIk}

/-- An arm whose grip is held moves by a limited step, or stays where it is. -/
theorem process_moves (hlimited : cfg.rateLimited = true) (hstep : ∀ i, 0 ≤ cfg.maxStep a i)
    (hnone : answer a h = none) (hstale : s.loop.stale = false) (hheld : s.held a = true)
    (hnan : ((s.process cfg lib a solved qIk).1.targetQ a).any Double.isNan = false) (i : Fin 7) :
    JointMoves (cfg.maxStep a i) (answer a ((s.process cfg lib a solved qIk).2.toList ++ h)) i
      ((s.targetQ a).get i) (((s.process cfg lib a solved qIk).1.targetQ a).get i) := by
  rw [State.process_targetQ, hstale, if_neg Bool.false_ne_true] at hnan ⊢
  cases havailable : s.telConnected || cfg.dryRun with
  | true =>
    have hfollows : s.follows cfg a = true := by simp [State.follows, hstale, hheld, havailable]
    obtain ⟨m, hm, rfl, rfl⟩ := answer_follows lib solved qIk hfollows h
    rw [if_pos hfollows] at hnan ⊢
    rw [hm]
    cases hsolved : m.solved with
    | true =>
      rw [hsolved, if_pos rfl] at hnan
      exact jointMoves_limit hlimited hstep hnan i
    | false => exact jointMoves_stay (by simpa using hsolved) i _
  | false =>
    -- no telemetry has come: the target is left alone
    have hfollows : s.follows cfg a = false := by simp [State.follows, havailable]
    rw [answer_rests lib solved qIk hfollows, hnone, if_neg (by simp [hfollows]), if_neg Bool.false_ne_true]
    exact jointMoves_stay (by simp) i _

theorem ArmSlew.process (hlimited : cfg.rateLimited = true) (hstep : ∀ i, 0 ≤ cfg.maxStep a i)
    (hA : ArmSlew cfg s h a) (hpc : s.loop.pc = .process a) :
    ArmSlew cfg ((s.process cfg lib a solved qIk).1.goto (.afterProcess a))
      ((s.process cfg lib a solved qIk).2.toList ++ h) a := by
  have hk := s.process_kept cfg lib a solved qIk
  have hlast : lastSent a ((s.process cfg lib a solved qIk).2.toList ++ h) = lastSent a h :=
    lastSent_append a _ h (s.process_sent? cfg lib a solved qIk a)
  refine ⟨fun hw => ?_, fun hp => ?_, fun _ hstale hheld hnan previous hprevious i => ?_⟩
  · simp at hw
  · simp at hp
  · simp only [State.goto, State.held, hk.stale, hk.vrPkt] at hstale hheld
    rw [hlast] at hprevious
    rw [hA.sent (by simp [hpc]) previous hprevious i]
    exact process_moves hlimited hstep (hA.waiting (by simp [hpc])) hstale hheld hnan i

/-! ### Steps -/

theorem ArmSlew.loop (hlimited : cfg.rateLimited = true) (hstep : ∀ a i, 0 ≤ cfg.maxStep a i)
    (hA : ArmSlew cfg s h a) (env : Env) :
    ArmSlew cfg (loopStep cfg lib s env).1 ((loopStep cfg lib s env).2.toList ++ h) a := by
  unfold loopStep
  cases hpc : s.loop.pc with
  | head =>
    refine hA.idle (by rw [hpc]; rfl) ?_ rfl
    cases s.keepRunning <;> simp [Pc.working]
  | snapshotVr => exact hA.idle (by rw [hpc]; rfl) rfl rfl
  | snapshotTel => exact hA.snapshotTel hpc env
  | process b =>
    by_cases hab : a = b
    · subst hab
      exact hA.process hlimited (hstep a) hpc
    · have hk := s.process_kept cfg lib b env.solved env.q
      refine hA.append _ (answer_other lib _ _ hab h) (s.process_sent? cfg lib b env.solved env.q a) ?_ ?_
        (hk.targetQ a hab) hk.vrPkt hk.stale
      · rw [hpc]
        exact Pc.waiting_afterProcess_of_ne hab
      · rw [hpc]
        exact Pc.processed_afterProcess_of_ne hab
  | send b =>
    by_cases hab : a = b
    · subst hab
      exact armSlew_send cfg s h a env.timeNs
    · refine hA.append (some _) rfl ?_ ?_ ?_ rfl rfl rfl
      · rintro x hx
        obtain rfl := Option.some.inj hx
        exact if_neg (Ne.symm hab)
      · simp [hpc]
      · rw [hpc]
        exact Pc.processed_afterSend_of_ne hab
  | tail => exact hA.idle (by rw [hpc]; rfl) rfl rfl
  | exited => exact hA.idle (by rw [hpc]; rfl) (by rw [hpc]; rfl) rfl

theorem ArmSlew.vr (hA : ArmSlew cfg s h a) (timeNs : ℕ) (p : VrRelativeTeleopPacketV2) :
    ArmSlew cfg (receiveVr cfg { s with nowNs := timeNs } timeNs p).1
      ((receiveVr cfg { s with nowNs := timeNs } timeNs p).2.toList ++ h) a := by
  unfold receiveVr
  split
  · exact hA.append (some _) rfl (sent?_some (fun _ => rfl) a) rfl rfl rfl rfl rfl
  · exact hA.append none rfl (sent?_none a) rfl rfl rfl rfl rfl

theorem ArmSlew.telemetry (hA : ArmSlew cfg s h a) (timeNs : ℕ) (p : OpenArmTelemetryPacketV1) :
    ArmSlew cfg (receiveTelemetry { s with nowNs := timeNs } timeNs p).1
      ((receiveTelemetry { s with nowNs := timeNs } timeNs p).2.toList ++ h) a := by
  unfold receiveTelemetry
  split
  · exact hA.append (some _) rfl (sent?_some (fun _ => rfl) a) rfl rfl rfl rfl rfl
  · exact hA.append none rfl (sent?_none a) rfl rfl rfl rfl rfl

theorem ArmSlew.step (hlimited : cfg.rateLimited = true) (hstep : ∀ a i, 0 ≤ cfg.maxStep a i)
    (hA : ArmSlew cfg s h a) {act : Action} {e : Option Event}
    (hs : (machine cfg lib).step s act = some (s', e)) : ArmSlew cfg s' (e.toList ++ h) a := by
  rcases step_cases cfg lib hs with ⟨timeNs, p, rfl, -, heq⟩ | ⟨timeNs, p, rfl, -, heq⟩ |
    ⟨rfl, rfl, rfl⟩ | ⟨env, rfl, -, heq⟩
  · obtain ⟨rfl, rfl⟩ := Prod.mk.inj heq
    exact hA.vr timeNs p
  · obtain ⟨rfl, rfl⟩ := Prod.mk.inj heq
    exact hA.telemetry timeNs p
  · exact hA.append none rfl (sent?_none a) rfl rfl rfl rfl rfl
  · obtain ⟨rfl, rfl⟩ := Prod.mk.inj heq
    have hadvanced : ArmSlew cfg { s with nowNs := env.timeNs } h a :=
      hA.append none rfl (sent?_none a) rfl rfl rfl rfl rfl
    exact hadvanced.loop hlimited hstep env

end OpenArmTeleop.VrLeader
