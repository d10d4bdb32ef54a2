import OpenArmTeleop.Follower.Steps

/-!
# The follower drives on a live command

Each `unilateral_step` of the control loop follows an update of the safety manager in the same
iteration, with an enabled packet and an age below the watchdog limit.
-/

open Num Run OpenArmTeleop.Net OpenArmTeleop.Core OpenArmTeleop.Control OpenArmTeleop.Safety

namespace OpenArmTeleop.Follower

/-! ## Updates that keep an arm running -/

/-- An update of arm `a` with an enabled packet of such an age, without a latched stop. -/
def LiveUpdate (fresh : Double → Prop) (a : ArmSide) : Event → Prop
  | .safetyUpdate b p ageMs latched =>
    b = a ∧ p.enable ≠ 0 ∧ p.estop ≠ 1 ∧ latched = false ∧ fresh ageMs
  | _ => False

instance (fresh : Double → Prop) [DecidablePred fresh] (a : ArmSide) :
    DecidablePred (LiveUpdate fresh a) := fun e =>
  match e with
  | .safetyUpdate b p ageMs latched =>
    inferInstanceAs (Decidable (b = a ∧ p.enable ≠ 0 ∧ p.estop ≠ 1 ∧ latched = false ∧ fresh ageMs))
  | .received _ | .requested _ | .taken _ | .estop _ | .commandReset _ | .motionReset _ => isFalse id
  | .iteration | .enableAll _ | .disableAll _ | .applied .. | .unilateralStep _ => isFalse id
  | .interpolate .. | .feedback .. => isFalse id

/-- There was such an update in the current iteration. -/
def Live (fresh : Double → Prop) (a : ArmSide) (h : List Event) : Prop :=
  Since (LiveUpdate fresh a) (· = .iteration) h

def DrivesOnLive (fresh : Double → Prop) : Event → List Event → Prop
  | .unilateralStep a, h => Live fresh a h
  | _, _ => True

instance (fresh : Double → Prop) [DecidablePred fresh] (e : Event) (h : List Event) :
    Decidable (DrivesOnLive fresh e h) :=
  match e with
  | .unilateralStep a =>
    inferInstanceAs (Decidable (Since (LiveUpdate fresh a) (· = .iteration) h))
  | .received _ | .requested _ | .taken _ | .estop _ | .commandReset _ | .motionReset _ =>
    isTrue trivial
  | .iteration | .enableAll _ | .disableAll _ | .applied .. | .safetyUpdate .. => isTrue trivial
  | .interpolate .. | .feedback .. => isTrue trivial

/-- Strictly below the limit of the watchdog. A limit that is a NaN does not count. -/
def Below (config : SafetyConfig) (ageMs : Double) : Prop :=
  config.watchdogDisableMs ≠ .nan → ageMs < config.watchdogDisableMs

theorem live_step {fresh : Double → Prop} {a : ArmSide} {h : List Event} (hl : Live fresh a h)
    (e : Option Event) (he : e ≠ some .iteration) : Live fresh a (e.toList ++ h) :=
  Since.append hl e fun x hx hi => he (by rw [hx, hi])

theorem ageMs_ne_nan [Rounding] (nowNs lastNs : UInt64) : ageMs nowNs lastNs ≠ .nan := by
  unfold ageMs
  split
  · exact Double.ofUnsigned_div_ne_nan _ 1e6 (by norm_num)
  · nofun

theorem event_running {a : ArmSide} {m : SafetyManager} {e : Event}
    (hreq : m.config.requireEnable = true)
    (h : SafetyManager.running (e.safety a m).state = true) :
    SafetyManager.running m.state = true ∧ e.safety a m = m ∨
      ∃ p ms latched, e = .safetyUpdate a p ms latched := by
  cases e with
  | estop b =>
    simp only [Event.safety] at h ⊢
    split at h
    · simp [SafetyManager.running] at h
    · exact .inl ⟨h, if_neg ‹_›⟩
  | commandReset b | motionReset b =>
    simp only [Event.safety] at h ⊢
    split at h
    · simp [SafetyManager.reset, hreq, SafetyManager.running] at h
    · exact .inl ⟨h, if_neg ‹_›⟩
  | safetyUpdate b p ms latched =>
    simp only [Event.safety] at h ⊢
    split at h
    · rename_i hb
      exact .inr ⟨p, ms, latched, by rw [hb]⟩
    · exact .inl ⟨h, if_neg ‹_›⟩
  | _ => exact .inl ⟨h, rfl⟩

section Invariant

variable [Rounding] (cfg : Config) (s : State)

/-- What the loop knows about arm `a` at each point of an iteration. -/
structure DriveInv (s : State) (h : List Event) : Prop where
  config : ∀ a, (s.safety a).config = cfg.safety
  gap : ∀ a, s.loop.gap a ≠ .nan
  hasData : ∀ a, s.loop.target a ≠ none → (s.buffer a).hasData = true
  target : ∀ a, SafetyManager.running (s.safety a).state = true → s.loop.target a ≠ none
  updated : ∀ a, s.loop.pc.updated a = true →
    SafetyManager.running (s.safety a).state = true → Live (Below cfg.safety) a h
  decided : ∀ a, s.loop.pc.decided a = true →
    SafetyManager.running (s.loop.st a) = true → Live (Below cfg.safety) a h
  command : ∀ a, s.loop.pc = .unilateralStep a → SafetyManager.running (s.loop.st a) = true

theorem driveInv_start (hreq : cfg.safety.requireEnable = true) :
    DriveInv cfg (State.start cfg) [] := by
  have hwait : (SafetyManager.new cfg.safety).state = .waitingForEnable := by
    simp [SafetyManager.new, hreq]
  refine ⟨fun _ => rfl, fun _ => nofun, ?_, ?_, ?_, ?_, ?_⟩
  · simp [State.start]
  · intro a hr
    simp [State.start, hwait, SafetyManager.running] at hr
  · simp [State.start, Pc.updated]
  · simp [State.start, Pc.decided]
  · simp [State.start]

theorem live_safetyUpdate {h : List Event} (hI : DriveInv cfg s h)
    (hreq : cfg.safety.requireEnable = true) {act : Action} {s' : State} {a : ArmSide}
    {p : TeleopPacket Double} {ms : Double} {latched : Bool}
    (hs : Step cfg s act s' (some (.safetyUpdate a p ms latched)))
    (hr : SafetyManager.running (s'.safety a).state = true) :
    Live (Below cfg.safety) a (.safetyUpdate a p ms latched :: h) := by
  obtain ⟨-, -, hms, hlatched⟩ := step_safetyUpdate cfg s hs
  rw [step_safety cfg s hs a] at hr
  simp only [Option.map_some, Option.getD_some, Event.safety] at hr
  obtain ⟨hl, hestop, henable, hage⟩ := SafetyManager.update_running _ p ms hr
  rw [hI.config a] at henable hage
  refine .inl ⟨rfl, henable hreq, hestop, hlatched.trans hl, fun hnan => ?_⟩
  exact Double.lt_of_not_le (hms ▸ hI.gap a) hnan hage

/-- A manager that runs after a step ran before it, or the step was its update. -/
theorem running_before {h : List Event} (hI : DriveInv cfg s h)
    (hreq : cfg.safety.requireEnable = true) {act : Action} {s' : State} {e : Option Event}
    (hs : Step cfg s act s' e) {a : ArmSide}
    (hr : SafetyManager.running (s'.safety a).state = true) :
    SafetyManager.running (s.safety a).state = true ∨
      ∃ p ms latched, e = some (.safetyUpdate a p ms latched) := by
  rw [step_safety cfg s hs a] at hr
  cases e with
  | none => exact .inl hr
  | some x =>
    rcases event_running ((hI.config a).symm ▸ hreq) hr with ⟨hr, -⟩ | ⟨p, ms, latched, rfl⟩
    · exact .inl hr
    · exact .inr ⟨p, ms, latched, rfl⟩

theorem driveInv_outside {h : List Event} (hI : DriveInv cfg s h)
    (hreq : cfg.safety.requireEnable = true) {act : Action} {s' : State} {e : Option Event}
    (hs : Step cfg s act s' e) (hloop : s'.loop = s.loop)
    (he : ∀ x, e = some x → x.outside = true) : DriveInv cfg s' (e.toList ++ h) := by
  have hiter : e ≠ some .iteration := fun hx => absurd (he _ hx) (by simp [Event.outside])
  have hback : ∀ a, SafetyManager.running (s'.safety a).state = true →
      SafetyManager.running (s.safety a).state = true := by
    intro a hr
    refine (running_before cfg s hI hreq hs hr).resolve_right ?_
    rintro ⟨p, ms, latched, hx⟩
    exact absurd (he _ hx) (by simp [Event.outside])
  refine ⟨fun a => (step_safety_config cfg s hs a).trans (hI.config a), ?_, ?_, ?_, ?_, ?_, ?_⟩
  · rw [hloop]
    exact hI.gap
  · intro a ht
    exact step_hasData cfg s hs a (hI.hasData a (by rwa [hloop] at ht))
  · intro a hr
    rw [hloop]
    exact hI.target a (hback a hr)
  · intro a hu hr
    rw [hloop] at hu
    exact live_step (hI.updated a hu (hback a hr)) e hiter
  · intro a hd hr
    rw [hloop] at hd hr
    exact live_step (hI.decided a hd hr) e hiter
  · intro a hc
    rw [hloop] at hc ⊢
    exact hI.command a hc

section Loop

variable {h : List Event} {env : Env} {a : ArmSide}

/-- Within an iteration a live command stays so. -/
theorem live_loop {act : Action}
    (hs : Step cfg s act (loopStep cfg s env).1 (loopStep cfg s env).2) (hhead : s.loop.pc ≠ .head)
    (hl : Live (Below cfg.safety) a h) :
    Live (Below cfg.safety) a ((loopStep cfg s env).2.toList ++ h) := by
  refine live_step hl _ fun he => hhead ?_
  rw [he] at hs
  exact step_iteration cfg s hs

theorem DriveInv.target_loop (hI : DriveInv cfg s h) (hreq : cfg.safety.requireEnable = true)
    {act : Action} (hs : Step cfg s act (loopStep cfg s env).1 (loopStep cfg s env).2)
    (hr : SafetyManager.running ((loopStep cfg s env).1.safety a).state = true) :
    (loopStep cfg s env).1.loop.target a ≠ none := by
  rw [loopStep_target]
  rcases running_before cfg s hI hreq hs hr with hr | ⟨p, ms, latched, he⟩
  · have ht := hI.target a hr
    split
    · rw [TeleopStateBuffer.getLatest, if_pos (hI.hasData a ht)]
      nofun
    · exact ht
  · rw [he] at hs
    obtain ⟨hpc, ht, -⟩ := step_safetyUpdate cfg s hs
    simp [hpc, ht]

theorem DriveInv.updated_loop (hI : DriveInv cfg s h) (hreq : cfg.safety.requireEnable = true)
    {act : Action} (hs : Step cfg s act (loopStep cfg s env).1 (loopStep cfg s env).2)
    (hu : (next cfg s).updated a = true)
    (hr : SafetyManager.running ((loopStep cfg s env).1.safety a).state = true) :
    Live (Below cfg.safety) a ((loopStep cfg s env).2.toList ++ h) := by
  rcases running_before cfg s hI hreq hs hr with hbefore | ⟨p, ms, latched, he⟩
  swap
  · rw [he] at hs ⊢
    exact live_safetyUpdate cfg s hI hreq hs hr
  have ht := hI.target a hbefore
  obtain ⟨p, hp⟩ := Option.ne_none_iff_exists'.mp ht
  rcases next_updated cfg s a hu with hu | hpc | hpc
  · have hhead : s.loop.pc ≠ .head := fun hhead => by simp [hhead, Pc.updated] at hu
    exact live_loop cfg s hs hhead (hI.updated a hu hbefore)
  · have he : (loopStep cfg s env).2 =
        some (.safetyUpdate a p (s.loop.gap a) (s.safety a).estopTriggered) := by
      simp only [loopStep, hpc, hp]
    rw [he] at hs ⊢
    exact live_safetyUpdate cfg s hI hreq hs hr
  · -- with a target the loop goes on to read the receive time
    simp only [next, hpc, hp, Option.isSome_some, if_true] at hu
    cases a <;> simp [Pc.updated] at hu

theorem driveInv_loop (hI : DriveInv cfg s h) (hreq : cfg.safety.requireEnable = true)
    {act : Action} (hs : Step cfg s act (loopStep cfg s env).1 (loopStep cfg s env).2) :
    DriveInv cfg (loopStep cfg s env).1 ((loopStep cfg s env).2.toList ++ h) := by
  refine ⟨fun a => (step_safety_config cfg s hs a).trans (hI.config a), ?_, ?_,
    fun a => hI.target_loop cfg s hreq hs, ?_, ?_, ?_⟩
  · intro a
    rw [loopStep_gap]
    split
    · exact ageMs_ne_nan _ _
    · exact hI.gap a
  · intro a
    rw [loopStep_target, loopStep_buffer]
    split
    · intro ht
      by_contra hd
      exact ht (if_neg hd)
    · exact hI.hasData a
  · intro a hu hr
    rw [loopStep_pc] at hu
    exact hI.updated_loop cfg s hreq hs hu hr
  · intro a hd hr
    rw [loopStep_pc] at hd
    rw [loopStep_st] at hr
    rcases next_decided cfg s a hd with hpc | ⟨hpc, hd⟩
    · rw [if_pos hpc] at hr
      have hu : s.loop.pc.updated a = true := by
        rw [hpc]
        cases a <;> rfl
      exact live_loop cfg s hs (by simp [hpc]) (hI.updated a hu hr)
    · rw [if_neg hpc] at hr
      have hhead : s.loop.pc ≠ .head := fun hhead => by simp [hhead, Pc.decided] at hd
      exact live_loop cfg s hs hhead (hI.decided a hd hr)
  · intro a hc
    rw [loopStep_pc] at hc
    obtain ⟨hpc, hr⟩ := next_unilateralStep cfg s a hc
    rwa [loopStep_st, if_neg (by simp [hpc])]

end Loop

theorem driveInv_step {h : List Event} (hI : DriveInv cfg s h)
    (hreq : cfg.safety.requireEnable = true) {act : Action} {s' : State} {e : Option Event}
    (hs : Step cfg s act s' e) : DriveInv cfg s' (e.toList ++ h) := by
  rcases step_split cfg s hs with ⟨hloop, he⟩ | ⟨env, rfl, rfl⟩
  · exact driveInv_outside cfg s hI hreq hs hloop he
  · exact driveInv_loop cfg s hI hreq hs

end Invariant

/-- **The follower drives on a live command.** In every run with `require_enable`, each command
of the control loop follows such an update in the same iteration. -/
theorem drives_on_live [Rounding] (cfg : Config) (hreq : cfg.safety.requireEnable = true)
    (s : State) (h : List Event) (hr : (machine cfg).Runs s h) :
    Always (DrivesOnLive (Below cfg.safety)) h := by
  refine (hr.always (I := DriveInv cfg) (driveInv_start cfg hreq) ?_ ?_).2
  · intro s h act s' e hI _ hs
    exact driveInv_step cfg s hI hreq (step_cases cfg s act s' e hs)
  · intro s h act s' e hI _ hs
    cases e with
    | unilateralStep a =>
      have hpc := step_unilateralStep cfg s (step_cases cfg s act s' _ hs)
      exact hI.decided a (by rw [hpc]; cases a <;> rfl) (hI.command a hpc)
    | _ => trivial

section Runs

attribute [local instance] Rounding.exact

/-- A packet for the right arm, and the loop up to its first command 5 ms later. -/
theorem drives_on_live_first :
    ∃ s h, (machine (follower {})).Runs s h ∧ .unilateralStep .right ∈ h ∧
      Always (DrivesOnLive (Below {})) h := by
  obtain ⟨s, h, hr, hh⟩ := (machine (follower {})).exists_runWhere (fun _ _ _ => True)
    (moveBoth 0 ++ .packet .right (datagram 0 1) 0 :: loops 17 5000000)
    (fun _ h => .unilateralStep .right ∈ h) (by decide +kernel)
  exact ⟨s, h, hr, hh, drives_on_live (follower {}) rfl s h hr⟩

/-- The follower of `--watchdog-disable-ms nan`. -/
def withoutLimit : SafetyConfig := { watchdogDisableMs := .nan }

/-- It holds the arm on a command that is an hour old, which is not below its limit. -/
theorem drives_without_limit :
    ∃ s h, (machine (follower withoutLimit)).Runs s h ∧
      ¬ Always (DrivesOnLive (· < withoutLimit.watchdogDisableMs)) h := by
  obtain ⟨s, h, hr, -, hv⟩ := (machine (follower withoutLimit)).exists_violation
    (DrivesOnLive (· < withoutLimit.watchdogDisableMs))
    (moveBoth 0 ++ .packet .right (datagram 0 1) 0 :: loops 17 3600000000000)
    (fun _ _ => True) (by decide +kernel)
  exact ⟨s, h, hr, hv⟩

end Runs

end OpenArmTeleop.Follower
