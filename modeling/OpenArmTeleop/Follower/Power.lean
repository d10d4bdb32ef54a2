import OpenArmTeleop.Follower.Steps

/-!
# The follower streams to motors that are on

`disable_all` switches the motors of an arm off, and only the recovery switches them on again.
-/

open Num Run OpenArmTeleop.Net OpenArmTeleop.Core OpenArmTeleop.Control OpenArmTeleop.Safety

namespace OpenArmTeleop.Follower

/-! ## Motors -/

/-- No `disable_all` since the last `enable_all`. The motors start switched on. -/
def Powered (a : ArmSide) (h : List Event) : Prop :=
  ¬ Since (· = .disableAll a) (· = .enableAll a) h

instance (a : ArmSide) (h : List Event) : Decidable (Powered a h) :=
  inferInstanceAs (Decidable (¬ Since _ _ h))

/-- A command, and a feedback that tells of one, finds the motors on. -/
def StreamsPowered : Event → List Event → Prop
  | .unilateralStep a, h => Powered a h
  | .feedback a fb, h => fb.enabled = 1 → Powered a h
  | _, _ => True

instance : ∀ e h, Decidable (StreamsPowered e h)
  | .unilateralStep a, h => inferInstanceAs (Decidable (Powered a h))
  | .feedback a fb, h => inferInstanceAs (Decidable (fb.enabled = 1 → Powered a h))
  | .received _, _ | .requested _, _ | .taken _, _ | .estop _, _ | .commandReset _, _
  | .motionReset _, _ | .iteration, _ | .enableAll _, _ | .disableAll _, _ | .safetyUpdate .., _
  | .applied .., _ | .interpolate .., _ => isTrue trivial

theorem Powered.append {a : ArmSide} {h : List Event} (hp : Powered a h) (e : Option Event)
    (he : e ≠ some (.disableAll a)) : Powered a (e.toList ++ h) :=
  fun hs => hp (hs.of_append fun x hx hoff => he (by rw [hx, hoff]))

/-! ## Windows of the loop -/

/-- The loop has read the state of arm `a`, and has not switched its motors off yet. -/
def Pc.stopping : ArmSide → Pc → Bool
  | .right, .getState .left | _, .guardInit | _, .guardRecover => true
  | _, .stream .right | _, .disableAll .right => true
  | .left, .unilateralStep .right | .left, .stream .left | .left, .disableAll .left => true
  | _, _ => false

def Pc.ended : Pc → Bool
  | .finish _ | .exited => true
  | _ => false

theorem next_stopping (cfg : Config) (s : State) (a : ArmSide)
    (h : (next cfg s).stopping a = true) :
    s.loop.pc = .getState a ∨ s.loop.pc ≠ .getState a ∧ s.loop.pc.stopping a = true := by
  have hflow := next_flow (P := fun _ pc pc' => ∀ a, pc'.stopping a = true →
    pc = .getState a ∨ pc ≠ .getState a ∧ pc.stopping a = true) (by decide +kernel)
  exact hflow cfg s a h

theorem next_ended (cfg : Config) (s : State) (h : (next cfg s).ended = false) :
    s.loop.pc.ended = false := by
  have hflow := next_flow (P := fun _ pc pc' => pc'.ended = false → pc.ended = false)
    (by decide +kernel)
  exact hflow cfg s h

/-- No state both runs and switches the motors off. -/
theorem running_of_stops {st : SafetyState} (h : stops st = true) :
    SafetyManager.running st = false := by
  cases st <;> simp_all [stops, SafetyManager.running]

section Events

variable [Rounding] (cfg : Config) (s : State)

theorem step_disableAll {act : Action} {s' : State} {a : ArmSide}
    (h : Step cfg s act s' (some (.disableAll a))) :
    s.loop.pc = .disableAll a ∨ s.loop.pc = .finish a := by
  rcases step_recorded cfg s h with hout | ⟨env, -, hrecord⟩
  · cases hout
  · cases hrecord with
    | disableAll a hpc => exact .inl hpc
    | finish a hpc => exact .inr hpc

theorem step_feedback {act : Action} {s' : State} {a : ArmSide} {fb : FeedbackPacket Double}
    (h : Step cfg s act s' (some (.feedback a fb))) :
    s.loop.pc = .fbFill a ∧ (fb.enabled = 1 ↔ s.loop.st a = .active) := by
  rcases step_recorded cfg s h with hout | ⟨env, -, hrecord⟩
  · cases hout
  · cases hrecord with
    | feedback a hpc =>
      refine ⟨hpc, ?_⟩
      unfold fillFeedback
      split <;> simp_all

end Events

/-! ## The invariant -/

/-- A reset of arm `a` makes it wait, or finds its motors on and the loop about to leave them
so. -/
def MayReset (cfg : Config) (s : State) (h : List Event) (a : ArmSide) : Prop :=
  cfg.safety.requireEnable = true ∨
    Powered a h ∧ ¬ (s.loop.pc.stopping a = true ∧ stops (s.loop.st a) = true)

instance (cfg : Config) (s : State) (h : List Event) (a : ArmSide) :
    Decidable (MayReset cfg s h a) :=
  inferInstanceAs (Decidable (_ ∨ _ ∧ ¬ (_ ∧ _)))

def State.updating (s : State) (a : ArmSide) : Option (TeleopPacket Double) :=
  if s.loop.pc = .update a then s.loop.target a else none

/-- No enabled packet ends the wait of an arm whose motors are off. -/
def Recovered (cfg : Config) (s : State) (h : List Event) : Action → Prop
  | .loop _ => ∀ a,
    (∀ p ∈ s.updating a, (s.safety a).Rearms p (s.loop.gap a) → Powered a h) ∧
    ∀ k, s.loop.pc = .resetSafety k a → MayReset cfg s h a
  | .control => ∀ a, s.control.head? = some (.reset a) → MayReset cfg s h a
  | .motion i _ _ => ∀ m ∈ s.motions[i]?, ∀ a, m.phase = .resetting a → MayReset cfg s h a
  | _ => True

instance (cfg : Config) (s : State) (h : List Event) (act : Action) :
    Decidable (Recovered cfg s h act) :=
  match act with
  | .loop _ => inferInstanceAs (Decidable (∀ a,
      (∀ p ∈ s.updating a, (s.safety a).Rearms p (s.loop.gap a) → Powered a h) ∧
      ∀ k, s.loop.pc = .resetSafety k a → MayReset cfg s h a))
  | .control => inferInstanceAs (Decidable (∀ _, _ → _))
  | .motion i _ _ => inferInstanceAs (Decidable (∀ m ∈ s.motions[i]?, ∀ a,
      m.phase = .resetting a → MayReset cfg s h a))
  | .receive _ | .sigint | .signal | .packet .. => isTrue trivial

/-- An arm whose motors are off is not in a running state. -/
structure PowerInv (cfg : Config) (s : State) (h : List Event) : Prop where
  config : ∀ a, (s.safety a).config = cfg.safety
  signal : ∀ x ∈ s.signal, x ∈ signalHandler
  off : s.loop.pc.ended = false → ∀ a, ¬ Powered a h →
    SafetyManager.running (s.safety a).state = false
  stopping : ∀ a, s.loop.pc.stopping a = true → stops (s.loop.st a) = true →
    SafetyManager.running (s.safety a).state = false
  decided : ∀ a, s.loop.pc.decided a = true → SafetyManager.running (s.loop.st a) = true →
    Powered a h
  command : ∀ a, s.loop.pc = .unilateralStep a → SafetyManager.running (s.loop.st a) = true
  disable : ∀ a, s.loop.pc = .disableAll a → stops (s.loop.st a) = true

theorem powerInv_start [Rounding] (cfg : Config) : PowerInv cfg (State.start cfg) [] := by
  refine ⟨fun _ => rfl, nofun, fun _ _ hoff => absurd id hoff, ?_, ?_, nofun, nofun⟩
  · intro a
    cases a <;> nofun
  · intro a
    cases a <;> nofun

section Outside

variable {cfg : Config} {s : State} {h : List Event}

theorem PowerInv.reset (hI : PowerInv cfg s h) {a : ArmSide} (hmay : MayReset cfg s h a)
    (hneed : ¬ Powered a h ∨ s.loop.pc.stopping a = true ∧ stops (s.loop.st a) = true) :
    SafetyManager.running (s.safety a).reset.state = false := by
  rcases hmay with hreq | ⟨hpowered, hnot⟩
  · exact SafetyManager.reset_running _ (by rwa [hI.config])
  · exact absurd hneed (not_or.mpr ⟨not_not.mpr hpowered, hnot⟩)

theorem PowerInv.outside (hI : PowerInv cfg s h) {s' : State} {e : Option Event}
    (hloop : s'.loop = s.loop) (hsignal : ∀ x ∈ s'.signal, x ∈ signalHandler)
    (he : ∀ a, e ≠ some (.disableAll a))
    (hsafety : ∀ a, s'.safety a = s.safety a ∨ s'.safety a = (s.safety a).triggerEstop ∨
      s'.safety a = (s.safety a).reset ∧ MayReset cfg s h a) :
    PowerInv cfg s' (e.toList ++ h) := by
  have hstill : ∀ a, SafetyManager.running (s.safety a).state = false →
      (¬ Powered a h ∨ s.loop.pc.stopping a = true ∧ stops (s.loop.st a) = true) →
      SafetyManager.running (s'.safety a).state = false := by
    intro a hnot hneed
    rcases hsafety a with hs | hs | ⟨hs, hmay⟩ <;> rw [hs]
    · exact hnot
    · rfl
    · exact hI.reset hmay hneed
  refine ⟨fun a => ?_, hsignal, ?_, ?_, ?_, ?_, ?_⟩
  · rcases hsafety a with hs | hs | ⟨hs, -⟩ <;> rw [hs] <;> exact hI.config a
  all_goals rw [hloop]
  · intro hended a hoff
    have hoff' : ¬ Powered a h := fun hp => hoff (hp.append e (he a))
    exact hstill a (hI.off hended a hoff') (.inl hoff')
  · exact fun a hpc hst => hstill a (hI.stopping a hpc hst) (.inr ⟨hpc, hst⟩)
  · exact fun a hpc hst => (hI.decided a hpc hst).append e (he a)
  · exact hI.command
  · exact hI.disable

end Outside

section Steps

variable [Rounding] (cfg : Config) (s : State) {h : List Event}

theorem PowerInv.loop (hI : PowerInv cfg s h) (env : Env) (hok : Recovered cfg s h (.loop env))
    {a : ArmSide} (hnot : SafetyManager.running (s.safety a).state = false)
    (hneed : ¬ Powered a h ∨ s.loop.pc.stopping a = true ∧ stops (s.loop.st a) = true) :
    SafetyManager.running ((loopStep cfg s env).1.safety a).state = false := by
  rcases loopStep_safety_cases cfg s env a with hs | ⟨p, hpc, ht, hs⟩ | ⟨k, hpc, hs⟩ <;> rw [hs]
  · exact hnot
  · have hoff : ¬ Powered a h := hneed.resolve_right fun hstop => by
      rw [hpc] at hstop
      cases a <;> cases hstop.1
    rw [← Bool.not_eq_true]
    intro hrunning
    rcases SafetyManager.update_running_cases _ p _ hrunning with hr | hrearms
    · exact absurd (hnot.symm.trans hr) nofun
    · exact hoff ((hok a).1 p (by simp [State.updating, hpc, ht]) hrearms)
  · exact hI.reset ((hok a).2 k hpc) hneed

theorem loopStep_disableAll {env : Env} {a : ArmSide}
    (hs : Step cfg s (.loop env) (loopStep cfg s env).1 (loopStep cfg s env).2)
    (he : (loopStep cfg s env).2 = some (.disableAll a)) :
    s.loop.pc = .disableAll a ∨ s.loop.pc = .finish a :=
  step_disableAll cfg s (he ▸ hs)

theorem PowerInv.off_loop (hI : PowerInv cfg s h) (env : Env) (hok : Recovered cfg s h (.loop env))
    (hs : Step cfg s (.loop env) (loopStep cfg s env).1 (loopStep cfg s env).2)
    (hended : (next cfg s).ended = false) {a : ArmSide}
    (hoff : ¬ Powered a ((loopStep cfg s env).2.toList ++ h)) :
    SafetyManager.running ((loopStep cfg s env).1.safety a).state = false := by
  have hneed : ¬ Powered a h ∨ s.loop.pc.stopping a = true ∧ stops (s.loop.st a) = true := by
    by_cases he : (loopStep cfg s env).2 = some (.disableAll a)
    · rcases loopStep_disableAll cfg s hs he with hpc | hpc
      · exact .inr ⟨by rw [hpc]; cases a <;> rfl, hI.disable a hpc⟩
      · have hpcEnded := next_ended cfg s hended
        rw [hpc] at hpcEnded
        cases hpcEnded
    · exact .inl fun hp => hoff (hp.append _ he)
  refine hI.loop cfg s env hok ?_ hneed
  rcases hneed with hp | ⟨hpc, hst⟩
  · exact hI.off (next_ended cfg s hended) a hp
  · exact hI.stopping a hpc hst

theorem PowerInv.stopping_loop (hI : PowerInv cfg s h) (env : Env)
    (hok : Recovered cfg s h (.loop env)) {a : ArmSide} (hpc : (next cfg s).stopping a = true)
    (hst : stops ((loopStep cfg s env).1.loop.st a) = true) :
    SafetyManager.running ((loopStep cfg s env).1.safety a).state = false := by
  rw [loopStep_st] at hst
  rcases next_stopping cfg s a hpc with hread | ⟨hread, hpc⟩
  · rw [if_pos hread] at hst
    rcases loopStep_safety_cases cfg s env a with hsame | ⟨-, hpc, -⟩ | ⟨k, hpc, -⟩
    · rw [hsame]
      exact running_of_stops hst
    · simp [hread] at hpc
    · simp [hread] at hpc
  · rw [if_neg hread] at hst
    exact hI.loop cfg s env hok (hI.stopping a hpc hst) (.inr ⟨hpc, hst⟩)

theorem PowerInv.decided_loop (hI : PowerInv cfg s h) (env : Env)
    (hs : Step cfg s (.loop env) (loopStep cfg s env).1 (loopStep cfg s env).2) {a : ArmSide}
    (hpc : (next cfg s).decided a = true)
    (hst : SafetyManager.running ((loopStep cfg s env).1.loop.st a) = true) :
    Powered a ((loopStep cfg s env).2.toList ++ h) := by
  rw [loopStep_st] at hst
  rcases next_decided cfg s a hpc with hread | ⟨hread, hpc⟩
  · rw [if_pos hread] at hst
    have hpowered : Powered a h := by
      by_contra hoff
      cases hst.symm.trans (hI.off (by rw [hread]; rfl) a hoff)
    exact hpowered.append _ fun he => by simpa [hread] using loopStep_disableAll cfg s hs he
  · rw [if_neg hread] at hst
    refine (hI.decided a hpc hst).append _ fun he => ?_
    rcases loopStep_disableAll cfg s hs he with hdis | hfin
    · cases hst.symm.trans (running_of_stops (hI.disable a hdis))
    · rw [hfin] at hpc
      cases a <;> cases hpc

theorem powerInv_loop (hI : PowerInv cfg s h) (env : Env) (hok : Recovered cfg s h (.loop env))
    (hs : Step cfg s (.loop env) (loopStep cfg s env).1 (loopStep cfg s env).2) :
    PowerInv cfg (loopStep cfg s env).1 ((loopStep cfg s env).2.toList ++ h) := by
  refine ⟨fun a => ?_, step_signalHandler cfg s hs hI.signal, ?_, ?_, ?_, ?_, ?_⟩
  · exact (step_safety_config cfg s hs a).trans (hI.config a)
  · intro hended a hoff
    rw [loopStep_pc] at hended
    exact hI.off_loop cfg s env hok hs hended hoff
  · intro a hpc hst
    rw [loopStep_pc] at hpc
    exact hI.stopping_loop cfg s env hok hpc hst
  · intro a hpc hst
    rw [loopStep_pc] at hpc
    exact hI.decided_loop cfg s env hs hpc hst
  · intro a hpc
    rw [loopStep_pc] at hpc
    obtain ⟨hstream, hrunning⟩ := next_unilateralStep cfg s a hpc
    rwa [loopStep_st, if_neg (by simp [hstream])]
  · intro a hpc
    rw [loopStep_pc] at hpc
    obtain ⟨hstream, hstops⟩ := next_disableAll cfg s a hpc
    rwa [loopStep_st, if_neg (by simp [hstream])]

theorem powerInv_step (hI : PowerInv cfg s h) {act : Action} {s' : State} {e : Option Event}
    (hok : Recovered cfg s h act) (hs : Step cfg s act s' e) :
    PowerInv cfg s' (e.toList ++ h) := by
  have haccess : ∀ (s : State) x a, (State.access s x).2 ≠ some (.disableAll a) := by
    intro s x a
    cases x <;> simp [State.access]
  have hsignal := step_signalHandler cfg s hs hI.signal
  cases hs with
  | receive | sigint | packet | drop =>
    exact hI.outside rfl hsignal (fun _ => by simp) fun _ => .inl rfl
  | control x rest hx =>
    refine hI.outside (access_loop _ x) hsignal (haccess _ x) fun a => ?_
    cases x with
    | reset b =>
      by_cases hb : b = a
      · subst hb
        exact .inr (.inr ⟨by simp [State.access, setSafety_apply], hok b (by rw [hx]; rfl)⟩)
      · exact .inl (by simp [State.access, setSafety_apply, hb])
    | triggerEstop b =>
      by_cases hb : b = a
      · subst hb
        exact .inr (.inl (by simp [State.access, setSafety_apply]))
      · exact .inl (by simp [State.access, setSafety_apply, hb])
    | _ => exact .inl rfl
  | signal x rest hx =>
    refine hI.outside (access_loop _ x) hsignal (haccess _ x) fun a => ?_
    have hmem := hI.signal x (hx ▸ List.mem_cons_self)
    cases x with
    | triggerEstop b =>
      by_cases hb : b = a
      · subst hb
        exact .inr (.inl (by simp [State.access, setSafety_apply]))
      · exact .inl (by simp [State.access, setSafety_apply, hb])
    | stop => exact .inl rfl
    | _ => simp [signalHandler] at hmem
  | loop env hblocked => exact powerInv_loop cfg s hI env hok (.loop env hblocked)
  | motion i b measured m s' e hget hm =>
    refine hI.outside (motionStep_loop s hm).1 hsignal (fun a => by cases hm <;> simp) fun a => ?_
    cases hm with
    | reset c hphase =>
      by_cases hc : c = a
      · subst hc
        exact .inr (.inr ⟨by simp [setSafety_apply, State.setMotion], hok m hget c hphase⟩)
      · exact .inl (by simp [setSafety_apply, hc, State.setMotion])
    | clear => exact .inl (by rw [clearFlag_safety]; rfl)
    | _ => exact .inl rfl

end Steps

/-- **The follower streams to motors that are on.** When no enabled packet ends the wait of an
arm whose motors are off, each command of the loop and each feedback with `enabled = 1` comes
with no `disable_all` since the last `enable_all`. -/
theorem streams_powered [Rounding] (cfg : Config) (s : State) (h : List Event)
    (hr : (machine cfg).RunWhere (Recovered cfg) s h) : Always StreamsPowered h := by
  refine (hr.always (I := PowerInv cfg) (powerInv_start cfg) ?_ ?_).2
  · intro s h act s' e hI hok hs
    exact powerInv_step cfg s hI hok (step_cases cfg s act s' e hs)
  · intro s h act s' e hI hok hs
    have hs := step_cases cfg s act s' _ hs
    cases e with
    | unilateralStep a =>
      have hpc := step_unilateralStep cfg s hs
      exact hI.decided a (by rw [hpc]; cases a <;> rfl) (hI.command a hpc)
    | feedback a fb =>
      intro henabled
      obtain ⟨hpc, hactive⟩ := step_feedback cfg s hs
      exact hI.decided a (by rw [hpc]; cases a <;> rfl) (by rw [hactive.mp henabled]; rfl)
    | _ => trivial

section Runs

attribute [local instance] Rounding.exact

/-- The motors go off with a stop and on with the recovery, and the loop streams again. -/
theorem streams_powered_recovery :
    ∃ s h, (machine (follower {})).RunWhere (Recovered (follower {})) s h ∧
      (.disableAll .right ∈ h ∧ h.head? = some (.unilateralStep .right)) ∧
      Always StreamsPowered h := by
  obtain ⟨s, h, hr, hh⟩ := (machine (follower {})).exists_runWhere (Recovered (follower {}))
    (moveBoth 0 ++ .packet .right (datagram 0 1) 0 :: loops 23 5000000 ++
      [.receive .estop, .control, .control] ++ loops 23 5000000 ++
      [.receive .recoverEstop, .control] ++ loops 23 5000000 ++
      .motion 1 .right still :: moveBoth 1 ++ List.replicate 3 (.motion 1 .right still) ++
      loops 16 5000000)
    (fun _ h => .disableAll .right ∈ h ∧ h.head? = some (.unilateralStep .right))
    (by decide +kernel)
  exact ⟨s, h, hr, hh, streams_powered (follower {}) s h hr⟩

/-- The loop switches the motors off. After a `reset_safety`, or packets that clear the enable
flag and set it again, it streams to them without having switched them on. -/
theorem streams_unpowered :
    (∃ s h, (machine (follower {})).Runs s h ∧
      (.commandReset .right ∈ h ∧ .enableAll .right ∉ h) ∧ ¬ Always StreamsPowered h) ∧
    ∃ s h, (machine (follower {})).Runs s h ∧
      (.commandReset .right ∉ h ∧ .enableAll .right ∉ h) ∧ ¬ Always StreamsPowered h := by
  constructor
  · exact (machine (follower {})).exists_violation StreamsPowered
      (moveBoth 0 ++ .packet .right (datagram 0 1) 0 :: loops 23 5000000 ++
        [.receive .estop, .control, .control] ++ loops 23 5000000 ++
        [.receive .resetSafety, .control, .control] ++ loops 16 5000000)
      (fun _ h => .commandReset .right ∈ h ∧ .enableAll .right ∉ h) (by decide +kernel)
  · exact (machine (follower {})).exists_violation StreamsPowered
      (moveBoth 0 ++ .packet .right (datagram 0 1) 0 :: loops 23 5000000 ++
        loops 22 200000000 ++ .packet .right (datagram 1 0) 200000000 :: loops 21 200000000 ++
        .packet .right (datagram 2 1) 200000000 :: loops 16 200000000)
      (fun _ h => .commandReset .right ∉ h ∧ .enableAll .right ∉ h) (by decide +kernel)

end Runs

end OpenArmTeleop.Follower
