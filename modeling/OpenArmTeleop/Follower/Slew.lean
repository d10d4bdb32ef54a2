import OpenArmTeleop.Follower.Steps

/-!
# The slew limit over whole runs

Each update of the references, and their finiteness, as far as the commands let the limiter
work.
-/

open Num Run OpenArmTeleop.Net OpenArmTeleop.Core OpenArmTeleop.Control OpenArmTeleop.Safety

namespace OpenArmTeleop.Follower

def FinitePositions (r : RobotSystemState Double) : Prop :=
  ∀ c ∈ r.referencePositions, c.isFinite = true

instance (r : RobotSystemState Double) : Decidable (FinitePositions r) :=
  inferInstanceAs (Decidable (∀ c ∈ r.referencePositions, _))

def SlewLimited (δ : ℚ) : Event → List Event → Prop
  | .applied _ before after, _ => Slewed δ before after
  | _, _ => True

instance (δ : ℚ) (e : Event) (h : List Event) : Decidable (SlewLimited δ e h) :=
  match e with
  | .applied _ before after => inferInstanceAs (Decidable (Slewed δ before after))
  | .received _ | .requested _ | .taken _ | .estop _ | .commandReset _ | .motionReset _ =>
    isTrue trivial
  | .iteration | .enableAll _ | .disableAll _ | .unilateralStep _ | .safetyUpdate .. =>
    isTrue trivial
  | .interpolate .. | .feedback .. => isTrue trivial

/-- The arm and the packet whose target the next step of the loop applies. -/
def State.applying (s : State) : Option (ArmSide × TeleopPacket Double) :=
  match s.loop.pc with
  | .stream a => if tracks (s.loop.st a) then (s.loop.target a).map (a, ·) else none
  | _ => none

theorem State.applying_eq (s : State) (a : ArmSide) (p : TeleopPacket Double)
    (hpc : s.loop.pc = .stream a) (ht : tracks (s.loop.st a) = true)
    (hp : s.loop.target a = some p) : s.applying = some (a, p) := by
  simp [State.applying, hpc, ht, hp]

def FiniteMeasured (m : Measured Double) : Prop :=
  ∀ c ∈ RobotSystemState.positions m.arm.toList ++ RobotSystemState.positions m.hand.toList,
    c.isFinite = true

instance (m : Measured Double) : Decidable (FiniteMeasured m) :=
  inferInstanceAs (Decidable (∀ c ∈ _, _))

/-- Each command that is applied is within the limit or can be limited. -/
def Limitable (δ : ℚ) (s : State) (_ : List Event) : Action → Prop
  | .loop env =>
    ∀ x ∈ s.applying,
      WithinLimit δ (s.robot x.1).referencePositions (targetPositions x.2 env.behind)
  | .motion _ _ measured => FiniteMeasured measured
  | _ => True

instance (δ : ℚ) (s : State) (h : List Event) (act : Action) : Decidable (Limitable δ s h act) :=
  match act with
  | .loop _ => inferInstanceAs (Decidable (∀ x ∈ s.applying, _))
  | .motion _ _ measured => inferInstanceAs (Decidable (FiniteMeasured measured))
  | .receive _ | .control | .sigint | .signal | .packet .. => isTrue trivial

/-! ## Steps that move references -/

section Steps

variable [Rounding] (cfg : Config) (s : State)

/-- What a step can do to the joints of an arm. -/
inductive Moves (act : Action) (a : ArmSide) : RobotSystemState Double → Prop
  | stay : Moves act a (s.robot a)
  | respond (m : Measured Double) : Moves act a ((s.robot a).setAllResponses m)
  | settle (i : ℕ) (b : ArmSide) (m : Measured Double) : act = .motion i b m →
      Moves act a ((s.robot a).settle m)
  | apply (p : TeleopPacket Double) (env : Env) : act = .loop env → s.loop.pc = .stream a →
      tracks (s.loop.st a) = true → s.loop.target a = some p →
      Moves act a (applyTarget cfg.rateLimiter (s.robot a) p env.behind)

theorem loopStep_moves (env : Env) (a : ArmSide) :
    Moves cfg s (.loop env) a ((loopStep cfg s env).1.robot a) := by
  cases hpc : s.loop.pc with
  | stream b =>
    simp only [loopStep, hpc]
    split
    · rename_i htracks
      split
      · exact .stay
      · rename_i p hp
        rcases eq_or_ne a b with rfl | hab
        · simpa [State.goto, State.setRobot] using Moves.apply p env rfl hpc htracks hp
        · simpa [State.goto, State.setRobot, Function.update_of_ne hab] using Moves.stay
    · (repeat' split) <;> exact .stay
  | unilateralStep b =>
    simp only [loopStep, hpc]
    rcases eq_or_ne a b with rfl | hab
    · simpa [State.goto, State.setRobot] using Moves.respond env.measured
    · simpa [State.goto, State.setRobot, Function.update_of_ne hab] using Moves.stay
  | _ =>
    simp only [loopStep, hpc]
    (repeat' split) <;> exact .stay

theorem step_moves {act : Action} {s' : State} {e : Option Event} (h : Step cfg s act s' e)
    (a : ArmSide) : Moves cfg s act a (s'.robot a) := by
  cases h with
  | receive | sigint | packet | drop => exact .stay
  | control x rest _ | signal x rest _ => rw [access_robot]; exact .stay
  | loop env _ => exact loopStep_moves cfg s env a
  | motion i b measured m s' e _ hm =>
    cases hm with
    | issue =>
      rcases eq_or_ne a b with rfl | hab
      · simpa [State.setRobot] using Moves.respond measured.noEffort
      · simpa [State.setRobot, State.setMotion, Function.update_of_ne hab] using Moves.stay
    | arrive =>
      rcases eq_or_ne a b with rfl | hab
      · simpa [State.setRobot] using Moves.settle i a measured rfl
      · simpa [State.setRobot, State.setMotion, Function.update_of_ne hab] using Moves.stay
    | clear => rw [clearFlag_robot]; exact .stay
    | _ => exact .stay

theorem step_applied {act : Action} {s' : State} {a : ArmSide} {before after : List Double}
    (h : Step cfg s act s' (some (.applied a before after))) :
    ∃ p env, act = .loop env ∧ s.loop.pc = .stream a ∧ tracks (s.loop.st a) = true ∧
      s.loop.target a = some p ∧ before = (s.robot a).referencePositions ∧
      after = (applyTarget cfg.rateLimiter (s.robot a) p env.behind).referencePositions := by
  rcases step_recorded cfg s h with hout | ⟨env, hact, hrecord⟩
  · cases hout
  · cases hrecord with
    | applied a p hpc htracks hp => exact ⟨p, env, hact, hpc, htracks, hp, rfl, rfl⟩

end Steps

/-! ## Whole runs -/

section Exact

attribute [local instance] Rounding.exact

theorem rateLimiter_limit (cfg : Config) (d v rate : ℚ) (hrate : 0 < rate)
    (hd : cfg.safety.maxTargetDeltaRadPerCycle = .fin d)
    (hv : cfg.safety.maxJointVelocityRadS = .fin v) (hr : cfg.rateHz = .fin rate) :
    cfg.rateLimiter.effectiveMaxDelta = .fin (min d (v / rate)) := by
  rw [Config.rateLimiter, hd, hv, hr, Double.one_eq, Double.exact_div _ _ hrate.ne',
    RateLimiter.effectiveMaxDelta_fin, mul_one_div]

theorem finitePositions_start (cfg : Config) (a : ArmSide) :
    FinitePositions ((State.start cfg).robot a) := by
  intro c hc
  have hzero : ∀ c ∈ (RobotSystemState.new (K := Double)).referencePositions,
      c.isFinite = true := by decide
  exact hzero c hc

theorem finitePositions_step (cfg : Config) (δ : ℚ) (hδ : 0 ≤ δ)
    (hlimit : cfg.rateLimiter.effectiveMaxDelta = .fin δ) (s : State) (h : List Event)
    (act : Action) (s' : State) (e : Option Event) (hs : Step cfg s act s' e)
    (hok : Limitable δ s h act) (hI : ∀ a, FinitePositions (s.robot a)) (a : ArmSide) :
    FinitePositions (s'.robot a) := by
  have hmoves := step_moves cfg s hs a
  generalize s'.robot a = r at hmoves ⊢
  cases hmoves with
  | stay => exact hI a
  | respond => exact hI a
  | settle i b m hact =>
    subst hact
    intro c hc
    rw [RobotSystemState.referencePositions_settle] at hc
    exact hok c hc
  | apply p env hact hpc ht hp =>
    subst hact
    have hwithin := hok (a, p) (s.applying_eq a p hpc ht hp)
    exact ((slewed_applyTarget_iff _ δ hδ hlimit _ p env.behind (hI a)).mpr hwithin).finite

def oneRad (armDof handDof : UInt8) : TeleopPacket UInt64 :=
  { TeleopPacket.zero with
    enable := 1
    armDof := armDof
    handDof := handDof
    armPos := (Vector.replicate 8 (0 : UInt64)).set 0 0x3FF0000000000000 }.encode 0

def notANumber : TeleopPacket UInt64 :=
  { TeleopPacket.zero with
    enable := 1
    armDof := 7
    handDof := 1
    armPos := (Vector.replicate 8 (0 : UInt64)).set 0 0x7FF8000000000000 }.encode 0

end Exact

end OpenArmTeleop.Follower
