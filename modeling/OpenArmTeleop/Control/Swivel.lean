import OpenArmTeleop.Lib.Damped
import OpenArmTeleop.Lib.Num

/-!
# The swivel estimator

`temporal_swivel_estimator.hpp`, over any type of numbers, and where its angle settles.
-/

open Num Toward

namespace OpenArmTeleop.Control

structure SwivelConfig (K : Type) where
  enabled : Bool
  neutralGain : K
  continuityGain : K
  maxSwivelRateRadS : K
  neutralSwivelRad : K

structure TemporalSwivelEstimator (K : Type) where
  cfg : SwivelConfig K
  currentSwivel : K

namespace TemporalSwivelEstimator

section Code

variable {K : Type} [Add K] [Sub K] [Mul K] [Neg K] [LT K] [DecidableLT K]

def new (cfg : SwivelConfig K) : TemporalSwivelEstimator K := ⟨cfg, cfg.neutralSwivelRad⟩

/-- Of its input `update` reads the time step only. -/
def update (e : TemporalSwivelEstimator K) (dt : K) : K × TemporalSwivelEstimator K :=
  if !e.cfg.enabled then (e.cfg.neutralSwivelRad, e)
  else
    let swivelDesired :=
      e.cfg.neutralGain * e.cfg.neutralSwivelRad + e.cfg.continuityGain * e.currentSwivel
    let maxDelta := e.cfg.maxSwivelRateRadS * dt
    let delta := swivelDesired - e.currentSwivel
    let delta := stdMax (-maxDelta) (stdMin maxDelta delta)
    let e := { e with currentSwivel := e.currentSwivel + delta }
    (e.currentSwivel, e)

def updates (e : TemporalSwivelEstimator K) (dts : List K) : TemporalSwivelEstimator K :=
  dts.foldl (fun e dt => (e.update dt).2) e

end Code

variable {K : Type} [Field K] [LinearOrder K]

/-- Where an update would leave the angle as it is. -/
def rest (cfg : SwivelConfig K) : K :=
  cfg.neutralGain * cfg.neutralSwivelRad / (1 - cfg.continuityGain)

variable (e : TemporalSwivelEstimator K)

theorem update_enabled (henabled : e.cfg.enabled = true) (dt : K) :
    (e.update dt).2 = { e with
      currentSwivel := toward (e.cfg.maxSwivelRateRadS * dt)
        (e.cfg.neutralGain * e.cfg.neutralSwivelRad + e.cfg.continuityGain * e.currentSwivel)
        e.currentSwivel } := by
  simp [update, henabled, toward]

theorem updates_enabled (henabled : e.cfg.enabled = true) (dts : List K) :
    e.updates dts = { e with
      currentSwivel := damped (e.cfg.neutralGain * e.cfg.neutralSwivelRad) e.cfg.continuityGain
        (dts.map (e.cfg.maxSwivelRateRadS * ·)) e.currentSwivel } := by
  induction dts generalizing e with
  | nil => rfl
  | cons dt dts ih =>
    have hstep := update_enabled e henabled dt
    change updates (e.update dt).2 dts = _
    rw [hstep]
    exact ih _ henabled

variable [IsStrictOrderedRing K]

theorem rest_fixed {cfg : SwivelConfig K} (hc : cfg.continuityGain < 1) :
    cfg.neutralGain * cfg.neutralSwivelRad + cfg.continuityGain * rest cfg = rest cfg := by
  have hne : 1 - cfg.continuityGain ≠ 0 := (sub_pos.mpr hc).ne'
  unfold rest
  field_simp
  ring

/-- What an enabled estimator does with its angle, from `start` on. -/
structure Settles (e : TemporalSwivelEstimator K) : Prop where
  /-- No update moves faster than the rate. -/
  rate : ∀ dts, (∀ dt ∈ dts, 0 ≤ dt) → ∀ dt, 0 ≤ dt →
    |(e.updates (dts ++ [dt])).currentSwivel - (e.updates dts).currentSwivel| ≤
      e.cfg.maxSwivelRateRadS * dt
  /-- The angle never passes the one it settles at. -/
  between : ∀ dts, (∀ dt ∈ dts, 0 ≤ dt) →
    (e.updates dts).currentSwivel ∈ Set.uIcc e.currentSwivel (rest e.cfg)
  /-- Updates with time steps of at least `τ` come as close as is asked for, and stay there. -/
  arrives : ∀ τ ε, 0 < τ → 0 < ε → ∀ dts : List K, (∀ dt ∈ dts, τ ≤ dt) →
    |rest e.cfg - e.currentSwivel| ≤
      dts.length * min ((1 - e.cfg.continuityGain) * ε) (e.cfg.maxSwivelRateRadS * τ) + ε →
    |rest e.cfg - (e.updates dts).currentSwivel| ≤ ε

/-- **The swivel angle settles**, and at the neutral one only where the gains add up to one. -/
theorem swivel_settles (henabled : e.cfg.enabled = true) (hc : 0 ≤ e.cfg.continuityGain)
    (hc' : e.cfg.continuityGain < 1) (hrate : 0 ≤ e.cfg.maxSwivelRateRadS) :
    e.Settles ∧ (rest e.cfg = e.cfg.neutralSwivelRad ↔
      e.cfg.neutralSwivelRad = 0 ∨ e.cfg.neutralGain + e.cfg.continuityGain = 1) := by
  have hfixed := rest_fixed hc'
  have hbounds : ∀ dts : List K, (∀ dt ∈ dts, 0 ≤ dt) →
      ∀ d ∈ dts.map (e.cfg.maxSwivelRateRadS * ·), 0 ≤ d := by
    intro dts hdts d hd
    obtain ⟨dt, hdt, rfl⟩ := List.mem_map.mp hd
    exact mul_nonneg hrate (hdts dt hdt)
  refine ⟨⟨fun dts hdts dt hdt => ?_, fun dts hdts => ?_, fun τ ε hτ hε dts hdts hfar => ?_⟩, ?_⟩
  · have hlast : e.updates (dts ++ [dt]) = ((e.updates dts).update dt).2 := by
      simp [updates, List.foldl_append]
    have hcfg : (e.updates dts).cfg = e.cfg := by rw [updates_enabled e henabled]
    rw [hlast, update_enabled _ (hcfg ▸ henabled), hcfg]
    exact abs_toward_sub_le _ _ (mul_nonneg hrate hdt)
  · rw [updates_enabled e henabled]
    exact damped_mem_uIcc _ (hbounds dts hdts) hc hc' hfixed
  · have hsteps : ∀ d ∈ dts.map (e.cfg.maxSwivelRateRadS * ·), e.cfg.maxSwivelRateRadS * τ ≤ d := by
      intro d hd
      obtain ⟨dt, hdt, rfl⟩ := List.mem_map.mp hd
      exact mul_le_mul_of_nonneg_left (hdts dt hdt) hrate
    have hnear := abs_sub_damped e.currentSwivel (mul_nonneg hrate hτ.le) hε.le hsteps hc hc' hfixed
    rw [List.length_map] at hnear
    rw [updates_enabled e henabled]
    exact hnear.trans (max_le le_rfl (by linarith))
  · have hne : 1 - e.cfg.continuityGain ≠ 0 := (sub_pos.mpr hc').ne'
    rw [rest, div_eq_iff hne]
    constructor
    · intro h
      by_cases hzero : e.cfg.neutralSwivelRad = 0
      · exact .inl hzero
      · refine .inr ?_
        have hgain := mul_right_cancel₀ hzero (h.trans (mul_comm _ _))
        linarith
    · rintro (h | h)
      · rw [h]
        ring
      · rw [← h]
        ring

/-- The gains that the program has by default, with an angle other than zero. -/
def byDefault : TemporalSwivelEstimator ℚ := new ⟨true, 0.2, 0.7, 1.0, 0.3⟩

/-- By default the elbow does not stay where it is told to. -/
theorem swivel_settles_default : byDefault.Settles ∧ rest byDefault.cfg ≠ 0.3 := by
  obtain ⟨hsettles, hneutral⟩ := byDefault.swivel_settles rfl
    (by norm_num [byDefault, new]) (by norm_num [byDefault, new]) (by norm_num [byDefault, new])
  refine ⟨hsettles, fun hrest => ?_⟩
  rcases hneutral.mp hrest with h | h <;> norm_num [byDefault, new] at h

end TemporalSwivelEstimator

end OpenArmTeleop.Control
