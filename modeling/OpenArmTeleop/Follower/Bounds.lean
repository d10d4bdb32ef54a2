import OpenArmTeleop.Follower.Checked
import OpenArmTeleop.Follower.Single
import OpenArmTeleop.Follower.Slew

/-!
# When the followers read inside a packet

The references keep their size in each run, so whether an update stays inside the arrays is up to
the counts of the packet.
-/

open Num Run OpenArmTeleop.Net OpenArmTeleop.Core OpenArmTeleop.Control OpenArmTeleop.Safety

namespace OpenArmTeleop.Follower

/-- References of seven arm joints and one gripper. -/
structure Sized (r : RobotSystemState Double) : Prop where
  arm : r.armState.reference.length = 7
  hand : r.handState.reference.length = 1

/-- What a packet states is not more than its arrays hold. -/
def CountsFit (p : TeleopPacket Double) : Prop := p.armDof.toNat ≤ 8 ∧ p.handDof.toNat ≤ 4

instance (p : TeleopPacket Double) : Decidable (CountsFit p) := inferInstanceAs (Decidable (_ ∧ _))

theorem inBounds_iff (p : TeleopPacket Double) : InBounds 7 1 p ↔ CountsFit p := by
  unfold InBounds CountsFit
  omega

theorem sized_new : Sized .new := ⟨rfl, rfl⟩

theorem Sized.respond {r : RobotSystemState Double} (h : Sized r) (m : Measured Double) :
    Sized (r.setAllResponses m) := ⟨h.arm, h.hand⟩

theorem sized_settle (r : RobotSystemState Double) (m : Measured Double) : Sized (r.settle m) := by
  constructor <;> simp [RobotSystemState.settle, RobotSystemState.setAllReferences,
    RobotSystemState.setAllResponses]

section Updates

variable [Rounding]

theorem Sized.apply {r : RobotSystemState Double} (h : Sized r) (limiter : RateLimiter Double)
    (p : TeleopPacket Double) (behind : Overread Double) :
    Sized (applyTarget limiter r p behind) := by
  constructor
  · simpa [applyTarget, overlay, RobotSystemState.setAllReferences] using h.arm
  · simpa [applyTarget, overlay, RobotSystemState.setAllReferences] using h.hand

/-- With checked reads the update fails, or it is the update of the code. -/
theorem Sized.checked {r : RobotSystemState Double} (h : Sized r) (limiter : RateLimiter Double)
    (p : TeleopPacket Double) :
    (applyTarget? limiter r p ≠ none ↔ CountsFit p) ∧
      ∀ behind, CountsFit p →
        applyTarget? limiter r p = some (applyTarget limiter r p behind) := by
  have heq : ∀ behind, applyTarget? limiter r p =
      if CountsFit p then some (applyTarget limiter r p behind) else none := by
    intro behind
    rw [applyTarget?_eq limiter r p behind]
    exact if_congr (by rw [h.arm, h.hand, inBounds_iff]) rfl rfl
  constructor
  · rw [heq ⟨fun _ => 0, fun _ => 0, fun _ => 0, fun _ => 0⟩]
    split <;> simp_all
  · intro behind hfit
    rw [heq behind, if_pos hfit]

/-! ## Both followers -/

theorem sized_runs (cfg : Config) {s : State} {h : List Event} (hr : (machine cfg).Runs s h)
    (a : ArmSide) : Sized (s.robot a) := by
  refine hr.invariant (I := fun s _ => ∀ a, Sized (s.robot a)) (fun _ => sized_new) ?_ a
  intro s h act s' e hI _ hs a
  have hmoves := step_moves cfg s (step_cases cfg s act s' e hs) a
  generalize s'.robot a = r at hmoves ⊢
  cases hmoves with
  | stay => exact hI a
  | respond m => exact (hI a).respond m
  | settle => exact sized_settle _ _
  | apply p env => exact (hI a).apply _ p env.behind

namespace Single

/-- The packet whose target the next step of the loop applies. -/
def State.applying (s : State) : Option (TeleopPacket Double) :=
  if s.loop.pc = .stream ∧ tracks s.loop.st = true then s.loop.target else none

theorem sized_loopStep (cfg : Config) (s : State) (env : Env) (h : Sized s.robot) :
    Sized (loopStep cfg s env).1.robot := by
  cases hpc : s.loop.pc with
  | startup =>
    simp only [loopStep, hpc, State.goto]
    split
    · exact h
    · exact sized_settle _ _
  | stream =>
    simp only [loopStep, hpc]
    split
    · split
      · exact h
      · exact h.apply _ _ _
    · (repeat' split) <;> exact h
  | unilateralStep =>
    simp only [loopStep, hpc]
    exact h.respond _
  | _ =>
    simp only [loopStep, hpc]
    (repeat' split) <;> exact h

theorem sized_runs (cfg : Config) {s : State} {h : List Event} (hr : (machine cfg).Runs s h) :
    Sized s.robot := by
  refine hr.invariant (I := fun s _ => Sized s.robot) sized_new ?_
  intro s h act s' e hI _ hs
  cases step_cases cfg s act s' e hs with
  | packet | drop | sigint => exact hI
  | signal x rest _ => rwa [access_robot]
  | loop env _ => exact sized_loopStep cfg _ env hI

end Single

/-- **When the command path stays in bounds.** In each state that a run reaches, the update by the
packet of the loop reads inside the arrays exactly if the packet states at most eight arm and four
hand joints. -/
theorem reads_in_bounds_iff (cfg : Config) (single : Single.Config) :
    (∀ s h, (machine cfg).Runs s h → ∀ a p, s.applying = some (a, p) →
      (applyTarget? cfg.rateLimiter (s.robot a) p ≠ none ↔ CountsFit p) ∧
        ∀ behind, CountsFit p → applyTarget? cfg.rateLimiter (s.robot a) p =
          some (applyTarget cfg.rateLimiter (s.robot a) p behind)) ∧
    ∀ s h, (Single.machine single).Runs s h → ∀ p, s.applying = some p →
      (applyTarget? single.rateLimiter s.robot p ≠ none ↔ CountsFit p) ∧
        ∀ behind, CountsFit p → applyTarget? single.rateLimiter s.robot p =
          some (applyTarget single.rateLimiter s.robot p behind) :=
  ⟨fun _ _ hr a p _ => (sized_runs cfg hr a).checked _ p,
    fun _ _ hr p _ => (Single.sized_runs single hr).checked _ p⟩

end Updates

/-! ## Runs -/

section Exact

attribute [local instance] Rounding.exact

/-- Both followers apply a command for 1 rad with the right counts, and read inside its arrays. -/
theorem reads_in_bounds_one_rad :
    (∃ s h, (machine (follower {})).Runs s h ∧
      s.applying = some (.right, (oneRad 7 1).map Double.ofBits) ∧
      applyTarget? (follower {}).rateLimiter (s.robot .right) ((oneRad 7 1).map Double.ofBits) ≠
        none) ∧
    ∃ s h, (Single.machine Single.follower).Runs s h ∧
      s.applying = some ((oneRad 7 1).map Double.ofBits) ∧
      applyTarget? Single.follower.rateLimiter s.robot ((oneRad 7 1).map Double.ofBits) ≠ none := by
  have hfit : CountsFit ((oneRad 7 1).map Double.ofBits) := by decide +kernel
  obtain ⟨hboth, hsingle⟩ := reads_in_bounds_iff (follower {}) Single.follower
  constructor
  · obtain ⟨s, h, hr, hs⟩ := (machine (follower {})).exists_runWhere (fun _ _ _ => True)
      (moveBoth 0 ++ .packet .right (oneRad 7 1) 0 :: loops 15 5000000)
      (fun s _ => s.applying = some (.right, (oneRad 7 1).map Double.ofBits)) (by decide +kernel)
    exact ⟨s, h, hr, hs, (hboth s h hr _ _ hs).1.mpr hfit⟩
  · obtain ⟨s, h, hr, hs⟩ := (Single.machine Single.follower).exists_runWhere (fun _ _ _ => True)
      (.packet (oneRad 7 1) 0 :: Single.loops 7 5000000)
      (fun s _ => s.applying = some ((oneRad 7 1).map Double.ofBits)) (by decide +kernel)
    exact ⟨s, h, hr, hs, (hsingle s h hr _ hs).1.mpr hfit⟩

/-- A command that states nine arm joints is accepted, and its update reads behind the array. -/
theorem reads_behind :
    (oneRad 9 0).decodeAndValidate = true ∧
    (∃ s h, (machine (follower {})).Runs s h ∧
      s.applying = some (.right, (oneRad 9 0).map Double.ofBits) ∧
      applyTarget? (follower {}).rateLimiter (s.robot .right) ((oneRad 9 0).map Double.ofBits) =
        none) ∧
    ∃ s h, (Single.machine Single.follower).Runs s h ∧
      s.applying = some ((oneRad 9 0).map Double.ofBits) ∧
      applyTarget? Single.follower.rateLimiter s.robot ((oneRad 9 0).map Double.ofBits) = none := by
  refine ⟨TeleopPacket.decode_encode _ _, ?_, ?_⟩
  · exact (machine (follower {})).exists_runWhere (fun _ _ _ => True)
      (moveBoth 0 ++ .packet .right (oneRad 9 0) 0 :: loops 15 5000000)
      (fun s _ => s.applying = some (.right, (oneRad 9 0).map Double.ofBits) ∧
        applyTarget? (follower {}).rateLimiter (s.robot .right) ((oneRad 9 0).map Double.ofBits) =
          none) (by decide +kernel)
  · exact (Single.machine Single.follower).exists_runWhere (fun _ _ _ => True)
      (.packet (oneRad 9 0) 0 :: Single.loops 7 5000000)
      (fun s _ => s.applying = some ((oneRad 9 0).map Double.ofBits) ∧
        applyTarget? Single.follower.rateLimiter s.robot ((oneRad 9 0).map Double.ofBits) = none)
      (by decide +kernel)

end Exact

end OpenArmTeleop.Follower
