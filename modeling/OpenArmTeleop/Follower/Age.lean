import OpenArmTeleop.Follower.Steps

/-!
# A packet and its age

The bimanual loop fetches a packet and the time of the last arrival one after the other. They
belong together as long as no packet comes in between.
-/

open Num Run OpenArmTeleop.Net OpenArmTeleop.Core OpenArmTeleop.Control OpenArmTeleop.Safety

namespace OpenArmTeleop.Follower

/-! ## What the history says about the packet of an arm -/

inductive AgeEvent
  /-- A packet is stored. -/
  | packet (a : ArmSide) (p : TeleopPacket Double) (nowNs : UInt64)
  | getLatest (a : ArmSide)
  | safetyUpdate (a : ArmSide) (p : TeleopPacket Double) (nowNs : UInt64) (age : Double)
      (after : SafetyState)
  | feedback (a : ArmSide) (nowNs : UInt64) (fb : FeedbackPacket Double)
  deriving DecidableEq

/-- The newest stored packet of an arm, and when it came in. -/
def arrival (a : ArmSide) : List AgeEvent → Option (TeleopPacket Double × UInt64)
  | [] => none
  | .packet b p nowNs :: h => if b = a then some (p, nowNs) else arrival a h
  | _ :: h => arrival a h

/-- What `get_latest` found for the arm the last time. -/
def held (a : ArmSide) : List AgeEvent → Option (TeleopPacket Double × UInt64)
  | [] => none
  | .getLatest b :: h => if b = a then arrival a h else held a h
  | _ :: h => held a h

theorem held_append (a : ArmSide) (e : Option AgeEvent) (h : List AgeEvent)
    (he : e ≠ some (.getLatest a)) : held a (e.toList ++ h) = held a h := by
  refine append_eq_of_cons e fun x hx => ?_
  cases x with
  | getLatest b => exact if_neg fun hab => he (by rw [hx, hab])
  | _ => rfl

theorem arrival_append (a : ArmSide) (e : Option AgeEvent) (h : List AgeEvent)
    (he : ∀ p nowNs, e ≠ some (.packet a p nowNs)) : arrival a (e.toList ++ h) = arrival a h := by
  refine append_eq_of_cons e fun x hx => ?_
  cases x with
  | packet b p nowNs => exact if_neg fun hab => he p nowNs (by rw [hx, hab])
  | _ => rfl

/-! ## The windows -/

/-- The loop has the packet of the arm, and will read its arrival time for the update. -/
def Pc.beforeAge : ArmSide → Pc → Bool
  | .right, .getLatest .left => true
  | _, .nowNs .right | _, .receiveTime .right => true
  | .left, .update .right | .left, .nowNs .left | .left, .receiveTime .left => true
  | _, _ => false

/-- The loop has the packet of the arm, and will read its arrival time for the feedback. -/
def Pc.beforeHold : ArmSide → Pc → Bool
  | .right, .getLatest .left => true
  | _, .nowNs _ | _, .receiveTime _ | _, .update _ | _, .getState _ => true
  | _, .guardInit | _, .guardRecover | _, .stream _ | _, .unilateralStep _ | _, .disableAll _ => true
  | _, .linkCheck | _, .fbReceiveTime .right => true
  | .left, .fbFill .right | .left, .fbReceiveTime .left => true
  | _, _ => false

/-- A window opens with `get_latest`. -/
def Opens (window : ArmSide → Pc → Bool) : Prop :=
  ∀ (mock : Bool) (a : ArmSide) (pc : Pc), ∀ pc' ∈ pc.succs mock, window a pc' = true →
    pc = .getLatest a ∨ window a pc = true

theorem opens_beforeAge : Opens Pc.beforeAge := by
  have hflow := succs_flow (P := fun _ pc pc' => ∀ a, pc'.beforeAge a = true →
    pc = .getLatest a ∨ pc.beforeAge a = true) (by decide +kernel)
  exact fun mock a pc pc' hmem => hflow mock pc pc' hmem a

theorem opens_beforeHold (enabled : Bool) : Opens fun a pc => enabled && pc.beforeHold a := by
  have hflow := succs_flow (P := fun _ pc pc' => ∀ a enabled, (enabled && pc'.beforeHold a) = true →
    pc = .getLatest a ∨ (enabled && pc.beforeHold a) = true) (by decide +kernel)
  exact fun mock a pc pc' hmem => hflow mock pc pc' hmem a enabled

theorem next_update (cfg : Config) (s : State) (a : ArmSide) (h : next cfg s = .update a) :
    s.loop.pc = .receiveTime a := by
  have hflow := next_flow (P := fun _ pc pc' => ∀ a, pc' = .update a → pc = .receiveTime a)
    (by decide +kernel)
  exact hflow cfg s a h

theorem next_fbFill (cfg : Config) (s : State) (a : ArmSide) (h : next cfg s = .fbFill a) :
    s.loop.pc = .fbReceiveTime a := by
  have hflow := next_flow (P := fun _ pc pc' => ∀ a, pc' = .fbFill a → pc = .fbReceiveTime a)
    (by decide +kernel)
  exact hflow cfg s a h

/-- The loop fills feedback only when that is enabled. -/
theorem next_fbReceiveTime (cfg : Config) (s : State) (a : ArmSide)
    (h : next cfg s = .fbReceiveTime a) :
    cfg.feedbackEnabled = true ∨ s.loop.pc = .fbFill .right := by
  have hflow := next_flow (P := fun _ pc pc' => ∀ a, pc' = .fbReceiveTime a →
    pc = .linkCheck ∨ pc = .fbFill .right) (by decide +kernel)
  rcases hflow cfg s a h with hpc | hpc
  · simp only [next, hpc] at h
    split at h
    · exact .inl (by assumption)
    · cases h
  · exact .inr hpc

/-- The loop holds the packets that the history says, and in the window each is as new as the
arrival time of its buffer. -/
structure HeldInv (window : ArmSide → Pc → Bool) (s : State) (h : List AgeEvent) : Prop where
  view : ∀ a, (s.buffer a).view = arrival a h
  target : ∀ a, s.loop.target a = (held a h).map (·.1)
  fresh : ∀ a, window a s.loop.pc = true → ∀ x ∈ held a h, (s.buffer a).lastReceiveTimeNs ≤ x.2

theorem HeldInv.congr {window : ArmSide → Pc → Bool} {s : State} {h : List AgeEvent}
    (hI : HeldInv window s h) {s' : State} (hbuffer : s'.buffer = s.buffer)
    (hloop : s'.loop = s.loop) : HeldInv window s' h := by
  refine ⟨?_, ?_, ?_⟩ <;> simp only [hbuffer, hloop]
  · exact hI.view
  · exact hI.target
  · exact hI.fresh

/-! ## Events -/

section Machine

variable [Rounding]

def ageEvent (cfg : Config) (s : State) : Action → Option AgeEvent
  | .packet a p nowNs =>
    if p.decodeAndValidate then some (.packet a (p.map Double.ofBits) nowNs) else none
  | .loop env =>
    match s.loop.pc with
    | .getLatest a => some (.getLatest a)
    | _ =>
      match (loopStep cfg s env).2 with
      | some (.safetyUpdate a p age _) =>
        some (.safetyUpdate a p s.loop.nowNs age ((loopStep cfg s env).1.safety a).state)
      | some (.feedback a fb) => some (.feedback a env.nowNs fb)
      | _ => none
  | _ => none

/-- The age that an update is given is at least that of its packet, and no arm runs on a packet
that is too old. -/
def AgeBelongs (cfg : Config) : AgeEvent → List AgeEvent → Prop
  | .safetyUpdate a p nowNs age after, h =>
    ∃ x ∈ held a h, x.1 = p ∧ ageMs nowNs x.2 ≤ age ∧
      (cfg.safety.watchdogDisableMs ≤ ageMs nowNs x.2 → SafetyManager.running after = false)
  | _, _ => True

instance (cfg : Config) : ∀ e h, Decidable (AgeBelongs cfg e h)
  | .safetyUpdate a .., h => inferInstanceAs (Decidable (∃ x ∈ held a h, _))
  | .packet .., _ | .getLatest _, _ | .feedback .., _ => isTrue trivial

/-- The hold time of an echoed packet is at least its age. -/
def HoldBelongs : AgeEvent → List AgeEvent → Prop
  | .feedback a nowNs fb, h =>
    ∀ x ∈ held a h, fb.echoCmdSeq = x.1.seq ∧ fb.echoCmdSendTimeNs = x.1.sendTimeNs ∧
      (x.2 ≤ nowNs → nowNs - x.2 ≤ fb.cmdHoldNs)
  | _, _ => True

instance : ∀ e h, Decidable (HoldBelongs e h)
  | .feedback a .., h => inferInstanceAs (Decidable (∀ x ∈ held a h, _))
  | .packet .., _ | .getLatest _, _ | .safetyUpdate .., _ => isTrue trivial

/-- While the loop is in the window, no packet of the arm comes in later than the one it has. -/
def QuietIn (window : ArmSide → Pc → Bool) (s : State) (h : List AgeEvent) : Action → Prop
  | .packet a p nowNs =>
    p.decodeAndValidate = true → window a s.loop.pc = true → ∀ x ∈ held a h, nowNs ≤ x.2
  | _ => True

instance (window : ArmSide → Pc → Bool) (s : State) (h : List AgeEvent) (act : Action) :
    Decidable (QuietIn window s h act) :=
  match act with
  | .packet .. => inferInstanceAs (Decidable (_ → _ → _))
  | .receive _ | .control | .sigint | .signal | .loop _ | .motion .. => isTrue trivial

/-! ## Steps -/

variable (cfg : Config) (s : State) (env : Env)

theorem loopStep_nowNs :
    (loopStep cfg s env).1.loop.nowNs =
      match s.loop.pc with
      | .nowNs a => if (s.loop.target a).isSome then env.nowNs else s.loop.nowNs
      | _ => s.loop.nowNs := by
  cases hpc : s.loop.pc <;> simp only [loopStep, hpc] <;> (repeat' split) <;> simp_all [State.goto] <;>
    rfl

theorem loopStep_fbReceiveTimeNs :
    (loopStep cfg s env).1.loop.fbReceiveTimeNs =
      match s.loop.pc with
      | .fbReceiveTime a => (s.buffer a).lastReceiveTimeNs
      | _ => s.loop.fbReceiveTimeNs := by
  cases hpc : s.loop.pc <;> simp only [loopStep, hpc] <;> (repeat' split) <;> simp_all [State.goto] <;>
    rfl

/-- The events that say something about the arms' packets. -/
theorem ageEvent_loop {x : AgeEvent} (h : ageEvent cfg s (.loop env) = some x) :
    (∃ a, s.loop.pc = .getLatest a ∧ x = .getLatest a) ∨
    (∃ a p, s.loop.pc = .update a ∧ s.loop.target a = some p ∧
      x = .safetyUpdate a p s.loop.nowNs (s.loop.gap a)
        ((s.safety a).update p (s.loop.gap a)).state) ∨
    ∃ a fb, s.loop.pc = .fbFill a ∧ (loopStep cfg s env).2 = some (.feedback a fb) ∧
      x = .feedback a env.nowNs fb := by
  simp only [ageEvent] at h
  split at h
  · rename_i a hpc
    exact .inl ⟨a, hpc, (Option.some.inj h).symm⟩
  split at h
  · rename_i a p age latched he
    cases loopStep_records cfg s env he with
    | safetyUpdate _ _ hpc htarget =>
      have hsafety := loopStep_safety cfg s env a
      rw [he] at hsafety
      simp only [Option.map_some, Option.getD_some, Event.safety, if_pos] at hsafety
      rw [hsafety] at h
      exact .inr (.inl ⟨a, p, hpc, htarget, (Option.some.inj h).symm⟩)
  · rename_i a fb he
    refine .inr (.inr ⟨a, fb, ?_, he, (Option.some.inj h).symm⟩)
    generalize heq : Event.feedback a fb = e at he
    cases loopStep_records cfg s env he <;> cases heq
    assumption
  · cases h

/-! ## What the loop holds -/

variable {cfg s} {window : ArmSide → Pc → Bool} {h : List AgeEvent}

theorem heldInv_start (hstart : ∀ a, window a .startup = false) :
    HeldInv window (State.start cfg) [] :=
  ⟨fun _ => rfl, fun _ => rfl, fun a hw => by simp [State.start, hstart a] at hw⟩

theorem heldInv_packet (hI : HeldInv window s h) (b : ArmSide) (p : TeleopPacket Double)
    (nowNs : UInt64) (hok : window b s.loop.pc = true → ∀ x ∈ held b h, nowNs ≤ x.2) :
    HeldInv window
      { s with buffer := Function.update s.buffer b ((s.buffer b).update p nowNs) }
      (.packet b p nowNs :: h) := by
  refine ⟨fun a => ?_, hI.target, fun a hw x hx => ?_⟩ <;> dsimp only
  · rcases eq_or_ne b a with rfl | hab
    · rw [Function.update_self, arrival, if_pos rfl]
      rfl
    · rw [Function.update_of_ne hab.symm, arrival, if_neg hab]
      exact hI.view a
  · rcases eq_or_ne b a with rfl | hab
    · rw [Function.update_self]
      exact hok hw x hx
    · rw [Function.update_of_ne hab.symm]
      exact hI.fresh a hw x hx

theorem heldInv_loop (hopens : Opens window) (hI : HeldInv window s h) (env : Env) :
    HeldInv window (loopStep cfg s env).1 ((ageEvent cfg s (.loop env)).toList ++ h) := by
  have hget : ∀ a, s.loop.pc = .getLatest a →
      ageEvent cfg s (.loop env) = some (.getLatest a) := by
    intro a hpc
    simp only [ageEvent, hpc]
  have hnot : ∀ a, s.loop.pc ≠ .getLatest a →
      ageEvent cfg s (.loop env) ≠ some (.getLatest a) := by
    intro a hpc he
    rcases ageEvent_loop cfg s env he with ⟨b, hb, heq⟩ | ⟨b, p, -, -, heq⟩ | ⟨b, fb, -, -, heq⟩
    · cases heq
      exact hpc hb
    · cases heq
    · cases heq
  have harrival : ∀ a, arrival a ((ageEvent cfg s (.loop env)).toList ++ h) = arrival a h := by
    refine fun a => arrival_append a _ h fun p nowNs he => ?_
    rcases ageEvent_loop cfg s env he with ⟨b, -, heq⟩ | ⟨b, p, -, -, heq⟩ | ⟨b, fb, -, -, heq⟩ <;>
      cases heq
  refine ⟨fun a => ?_, fun a => ?_, fun a hw x hx => ?_⟩
  · rw [loopStep_buffer, harrival]
    exact hI.view a
  · rw [loopStep_target]
    by_cases hpc : s.loop.pc = .getLatest a
    · rw [if_pos hpc, hget a hpc]
      have hview := congrArg (Option.map (·.1)) (hI.view a)
      simpa [TeleopStateBuffer.view, held, Option.map_map, Function.comp_def] using hview
    · rw [if_neg hpc, held_append a _ h (hnot a hpc)]
      exact hI.target a
  · rw [loopStep_pc] at hw
    rw [loopStep_buffer]
    by_cases hpc : s.loop.pc = .getLatest a
    · -- what was found is what came in last
      rw [hget a hpc] at hx
      have hlatest : arrival a h = some x := by simpa [held] using hx
      rw [← hI.view a, TeleopStateBuffer.view, Option.map_eq_some_iff] at hlatest
      obtain ⟨p, -, rfl⟩ := hlatest
      exact UInt64.le_refl _
    · rw [held_append a _ h (hnot a hpc)] at hx
      rcases hopens _ a _ _ (next_mem_succs cfg s) hw with hopen | hopen
      · exact absurd hopen hpc
      · exact hI.fresh a hopen x hx

theorem step_still {act : Action} {s' : State} {e : Option Event} (hs : Step cfg s act s' e)
    (hloop : ∀ env, act ≠ .loop env) :
    s'.loop = s.loop ∧ ((∀ a p nowNs, act ≠ .packet a p nowNs) → s'.buffer = s.buffer) := by
  cases hs with
  | receive | sigint | drop => exact ⟨rfl, fun _ => rfl⟩
  | packet => exact ⟨rfl, fun hpacket => absurd rfl (hpacket _ _ _)⟩
  | control x rest _ | signal x rest _ => exact ⟨access_loop _ x, fun _ => access_buffer _ x⟩
  | motion i b measured m s' e _ hm =>
    exact ⟨(motionStep_loop s hm).1, fun _ => (motionStep_loop s hm).2⟩
  | loop env => exact absurd rfl (hloop env)

theorem ageEvent_still {act : Action} (hloop : ∀ env, act ≠ .loop env) (a : ArmSide) :
    ageEvent cfg s act ≠ some (.getLatest a) := by
  cases act with
  | packet b p nowNs =>
    simp only [ageEvent]
    split <;> simp
  | loop env => exact absurd rfl (hloop env)
  | _ => simp [ageEvent]

theorem heldInv_step (hopens : Opens window) (hI : HeldInv window s h) {act : Action}
    (hok : QuietIn window s h act) {s' : State} {e : Option Event}
    (hs : (machine cfg).step s act = some (s', e)) :
    HeldInv window s' ((ageEvent cfg s act).toList ++ h) := by
  have hstep := step_cases cfg s act s' e hs
  cases act with
  | packet b p nowNs =>
    change step cfg s (.packet b p nowNs) = some (s', e) at hs
    simp only [step] at hs
    simp only [ageEvent]
    split at hs
    · rename_i hvalid
      obtain ⟨rfl, rfl⟩ := Prod.mk.inj (Option.some.inj hs)
      rw [if_pos hvalid]
      exact heldInv_packet hI b _ nowNs (hok hvalid)
    · rename_i hvalid
      obtain ⟨rfl, rfl⟩ := Prod.mk.inj (Option.some.inj hs)
      rw [if_neg hvalid]
      exact hI
  | loop env =>
    cases hstep with
    | loop => exact heldInv_loop hopens hI env
  | _ =>
    obtain ⟨hloop, hbuffer⟩ := step_still hstep (by simp)
    exact hI.congr (hbuffer (by simp)) hloop

/-! ## Ages -/

theorem zero_eq_ageMs [Double.Lawful] : (0.0 : Double) = Double.ofUnsigned 0 / 1e6 := by
  have hround : Double.ofUnsigned 0 = .fin 0 := by
    rw [Double.ofUnsigned, Nat.cast_zero, Double.Lawful.round_zero]
  rw [hround]
  change (Double.fin _ : Double) = Double.div (.fin 0) (.fin _)
  norm_num [Double.div, Double.Lawful.round_zero]

theorem ageMs_anti [Double.Lawful] {t last : UInt64} (h : last ≤ t) (nowNs : UInt64) :
    ageMs nowNs t ≤ ageMs nowNs last := by
  unfold ageMs
  by_cases htn : t ≤ nowNs
  · have hln := UInt64.le_trans h htn
    rw [if_pos htn, if_pos hln]
    refine Double.ofUnsigned_div_mono ?_ (by norm_num)
    rw [UInt64.toNat_sub_of_le _ _ htn, UInt64.toNat_sub_of_le _ _ hln]
    rw [UInt64.le_iff_toNat_le] at h
    omega
  · rw [if_neg htn, zero_eq_ageMs]
    split
    · exact Double.ofUnsigned_div_mono (Nat.zero_le _) (by norm_num)
    · exact Double.ofUnsigned_div_mono le_rfl (by norm_num)

theorem ageMs_mono [Double.Lawful] {t nowNs : UInt64} (h : t ≤ nowNs) (last : UInt64) :
    ageMs t last ≤ ageMs nowNs last := by
  unfold ageMs
  by_cases hlt : last ≤ t
  · have hln := UInt64.le_trans hlt h
    rw [if_pos hlt, if_pos hln]
    refine Double.ofUnsigned_div_mono ?_ (by norm_num)
    rw [UInt64.toNat_sub_of_le _ _ hlt, UInt64.toNat_sub_of_le _ _ hln]
    rw [UInt64.le_iff_toNat_le] at h
    omega
  · rw [if_neg hlt, zero_eq_ageMs]
    split
    · exact Double.ofUnsigned_div_mono (Nat.zero_le _) (by norm_num)
    · exact Double.ofUnsigned_div_mono le_rfl (by norm_num)

structure AgeInv (cfg : Config) (s : State) (h : List AgeEvent) : Prop where
  inWindow : HeldInv Pc.beforeAge s h
  config : ∀ a, (s.safety a).config = cfg.safety
  gap : ∀ a, s.loop.pc = .update a → ∀ x ∈ held a h, ageMs s.loop.nowNs x.2 ≤ s.loop.gap a

theorem ageInv_start : AgeInv cfg (State.start cfg) [] :=
  ⟨heldInv_start (by decide), fun _ => rfl, fun a hpc => by cases hpc⟩

theorem ageInv_step [Double.Lawful] (hI : AgeInv cfg s h) {act : Action}
    (hok : QuietIn Pc.beforeAge s h act) {s' : State} {e : Option Event}
    (hs : (machine cfg).step s act = some (s', e)) :
    AgeInv cfg s' ((ageEvent cfg s act).toList ++ h) := by
  have hstep := step_cases cfg s act s' e hs
  refine ⟨heldInv_step opens_beforeAge hI.inWindow hok hs, fun a => ?_, fun a hpc x hx => ?_⟩
  · rw [step_safety_config cfg s hstep a]
    exact hI.config a
  by_cases hloop : ∃ env, act = .loop env
  · obtain ⟨env, rfl⟩ := hloop
    cases hstep
    have hread : s.loop.pc = .receiveTime a := next_update cfg s a ((loopStep_pc cfg s env).symm.trans hpc)
    have hnone : ageEvent cfg s (.loop env) = none := by
      simp only [ageEvent, hread, loopStep]
    rw [hnone] at hx
    rw [loopStep_gap, if_pos hread, loopStep_nowNs, hread]
    refine ageMs_anti (hI.inWindow.fresh a ?_ x hx) _
    rw [hread]
    cases a <;> rfl
  · have hloop : ∀ env, act ≠ .loop env := fun env henv => hloop ⟨env, henv⟩
    rw [held_append a _ h (ageEvent_still hloop a)] at hx
    rw [(step_still hstep hloop).1] at hpc ⊢
    exact hI.gap a hpc x hx

structure HoldInv (cfg : Config) (s : State) (h : List AgeEvent) : Prop where
  inWindow : HeldInv (fun a pc => cfg.feedbackEnabled && pc.beforeHold a) s h
  receive : ∀ a, s.loop.pc = .fbReceiveTime a → cfg.feedbackEnabled = true
  fill : ∀ a, s.loop.pc = .fbFill a → cfg.feedbackEnabled = true ∧
    ∀ x ∈ held a h, s.loop.fbReceiveTimeNs ≤ x.2

theorem holdInv_start : HoldInv cfg (State.start cfg) [] := by
  refine ⟨heldInv_start (by simp [Pc.beforeHold]), ?_, ?_⟩
  · intro a hpc
    cases hpc
  · intro a hpc
    cases hpc

theorem holdInv_step (hI : HoldInv cfg s h) {act : Action}
    (hok : QuietIn (fun a pc => cfg.feedbackEnabled && pc.beforeHold a) s h act) {s' : State}
    {e : Option Event} (hs : (machine cfg).step s act = some (s', e)) :
    HoldInv cfg s' ((ageEvent cfg s act).toList ++ h) := by
  have hstep := step_cases cfg s act s' e hs
  have hwindow := heldInv_step (opens_beforeHold cfg.feedbackEnabled) hI.inWindow hok hs
  by_cases hloop : ∃ env, act = .loop env
  · obtain ⟨env, rfl⟩ := hloop
    cases hstep
    refine ⟨hwindow, fun a hpc => ?_, fun a hpc => ?_⟩
    · rw [loopStep_pc] at hpc
      rcases next_fbReceiveTime cfg s a hpc with henabled | hfill
      · exact henabled
      · exact (hI.fill .right hfill).1
    · rw [loopStep_pc] at hpc
      have hread := next_fbFill cfg s a hpc
      have henabled := hI.receive a hread
      refine ⟨henabled, fun x hx => ?_⟩
      have hnone : ageEvent cfg s (.loop env) = none := by
        simp only [ageEvent, hread, loopStep]
      rw [hnone] at hx
      rw [loopStep_fbReceiveTimeNs, hread]
      refine hI.inWindow.fresh a ?_ x hx
      rw [hread, henabled]
      cases a <;> rfl
  · have hloop : ∀ env, act ≠ .loop env := fun env henv => hloop ⟨env, henv⟩
    have hsame := (step_still hstep hloop).1
    refine ⟨hwindow, ?_, fun a hpc => ?_⟩
    · rw [hsame]
      exact hI.receive
    · rw [held_append a _ h (ageEvent_still hloop a)]
      rw [hsame] at hpc ⊢
      exact hI.fill a hpc

/-! ## Whole runs -/

theorem ageBelongs_event [Double.Lawful] (hI : AgeInv cfg s h) {act : Action} {x : AgeEvent}
    (hx : ageEvent cfg s act = some x) : AgeBelongs cfg x h := by
  cases x with
  | safetyUpdate a p nowNs age after =>
    cases act with
    | loop env =>
      rcases ageEvent_loop cfg s env hx with ⟨b, -, heq⟩ | ⟨b, q, hpc, htarget, heq⟩ | ⟨b, fb, -, -, heq⟩
      · cases heq
      · cases heq
        rw [hI.inWindow.target a, Option.map_eq_some_iff] at htarget
        obtain ⟨y, hy, rfl⟩ := htarget
        refine ⟨y, hy, rfl, hI.gap a hpc y hy, fun hold => ?_⟩
        by_contra hrunning
        have hage := (SafetyManager.update_running _ _ _ (Bool.not_eq_false _ ▸ hrunning)).2.2.2
        rw [hI.config a] at hage
        exact hage (Double.le_trans hold (hI.gap a hpc y hy))
      · cases heq
    | packet b q nowNs =>
      simp only [ageEvent] at hx
      split at hx <;> cases hx
    | _ => cases hx
  | _ => trivial

theorem holdBelongs_event (hI : HoldInv cfg s h) {act : Action} {x : AgeEvent}
    (hx : ageEvent cfg s act = some x) : HoldBelongs x h := by
  cases x with
  | feedback a nowNs fb =>
    cases act with
    | loop env =>
      rcases ageEvent_loop cfg s env hx with ⟨b, -, heq⟩ | ⟨b, q, -, -, heq⟩ | ⟨b, gb, hpc, he, heq⟩
      · cases heq
      · cases heq
      · cases heq
        intro y hy
        have htarget : s.loop.target a = some y.1 := by
          rw [hI.inWindow.target a, hy, Option.map_some]
        have hread := (hI.fill a hpc).2 y hy
        generalize hfb : Event.feedback a fb = e at he
        cases loopStep_records cfg s env he with
        | feedback =>
          cases hfb
          rw [htarget]
          refine ⟨rfl, rfl, fun hnow => ?_⟩
          have hle := UInt64.le_trans hread hnow
          simp only [fillFeedback, Option.isSome_some, if_true, if_pos hle]
          rw [UInt64.le_iff_toNat_le, UInt64.toNat_sub_of_le _ _ hnow,
            UInt64.toNat_sub_of_le _ _ hle]
          rw [UInt64.le_iff_toNat_le] at hread
          omega
        | _ => cases hfb
    | packet b q nowNs =>
      simp only [ageEvent] at hx
      split at hx <;> cases hx
    | _ => cases hx
  | _ => trivial

/-- **When a packet and its age belong together.** In a run where no packet of an arm comes in
between the fetch of one and the read of the arrival time, each update is given at least the age
of its packet. The same holds for the echoed packet and its hold time. -/
theorem age_belongs [Double.Lawful] (cfg : Config) (s : State) (h : List AgeEvent) :
    (((machine cfg).relabel (ageEvent cfg)).RunWhere (QuietIn Pc.beforeAge) s h →
      Always (AgeBelongs cfg) h) ∧
    (((machine cfg).relabel (ageEvent cfg)).RunWhere
        (QuietIn fun a pc => cfg.feedbackEnabled && pc.beforeHold a) s h →
      Always HoldBelongs h) := by
  constructor
  · intro hr
    refine (hr.always (I := AgeInv cfg) ageInv_start ?_ ?_).2
    · intro s h act s' x hI hok hs
      obtain ⟨⟨e, hstep⟩, rfl⟩ := Machine.relabel_step hs
      exact ageInv_step hI hok hstep
    · intro s h act s' x hI _ hs
      exact ageBelongs_event hI (Machine.relabel_step hs).2.symm
  · intro hr
    refine (hr.always (I := HoldInv cfg) holdInv_start ?_ ?_).2
    · intro s h act s' x hI hok hs
      obtain ⟨⟨e, hstep⟩, rfl⟩ := Machine.relabel_step hs
      exact holdInv_step hI hok hstep
    · intro s h act s' x hI _ hs
      exact holdBelongs_event hI (Machine.relabel_step hs).2.symm

end Machine

/-! ## Runs -/

section Exact

attribute [local instance] Rounding.exact

def ageMachine : Machine State Action AgeEvent :=
  (machine (follower {})).relabel (ageEvent (follower {}))

/-- A packet each 2 ms, and an iteration with feedback in between. -/
theorem age_belongs_tracking :
    ∃ s h, ageMachine.Runs s h ∧ (s.safety .right).state = .active ∧ s.loop.fbSeq = 1 ∧
      Always (AgeBelongs (follower {})) h ∧ Always HoldBelongs h := by
  obtain ⟨s, h, hr, hs, hseq⟩ := ageMachine.exists_runWhere
    (fun s h act => QuietIn Pc.beforeAge s h act ∧
      QuietIn (fun a pc => (follower {}).feedbackEnabled && pc.beforeHold a) s h act)
    (moveBoth 0 ++ .packet .right (datagram 0 1) 0 :: loops 23 1000000 ++
      .packet .right (datagram 1 1) 2000000 :: loops 8 3000000)
    (fun s _ => (s.safety .right).state = .active ∧ s.loop.fbSeq = 1) (by decide +kernel)
  have := Double.exact_lawful
  obtain ⟨hage, hhold⟩ := age_belongs (follower {}) s h
  exact ⟨s, h, hr.mono fun _ _ _ _ => trivial, hs, hseq, hage (hr.mono fun _ _ _ hok => hok.1),
    hhold (hr.mono fun _ _ _ hok => hok.2)⟩

/-- An enabled packet half a second old, and one that disables the arm right after the first was
fetched. -/
def mixed (n : ℕ) : List Action :=
  moveBoth 0 ++ .packet .right (datagram 0 1) 0 :: loops 6 500000000 ++
    .packet .right (datagram 1 0) 500000000 :: loops n 500000000

/-- The arm runs on the old packet, and the feedback says that it has just come in. -/
theorem age_mixed :
    (∃ s h, ageMachine.Runs s h ∧ (s.safety .right).state = .active ∧
      ¬ Always (AgeBelongs (follower {})) h) ∧
    ∃ s h, ageMachine.Runs s h ∧ s.loop.pc = .fbReceiveTime .left ∧ ¬ Always HoldBelongs h :=
  ⟨ageMachine.exists_violation (AgeBelongs (follower {})) (mixed 4)
      (fun s _ => (s.safety .right).state = .active) (by decide +kernel),
    ageMachine.exists_violation HoldBelongs (mixed 15)
      (fun s _ => s.loop.pc = .fbReceiveTime .left) (by decide +kernel)⟩

end Exact

end OpenArmTeleop.Follower
