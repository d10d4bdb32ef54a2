import OpenArmTeleop.Lib.Num
import OpenArmTeleop.Lib.Run

/-!
# The engage and release state machine of one leader arm

`include/openarm_wifi_teleop/control/bilateral_engager.hpp`, over any type of numbers.
-/

open Num Run

namespace OpenArmTeleop.Control

inductive EngageState
  | off
  | waitAlign
  | rampUp
  | engaged
  | rampDown
  deriving DecidableEq

structure EngagerConfig (K : Type) where
  rampUpS : K
  rampDownS : K
  deriving DecidableEq

structure BilateralEngager (K : Type) where
  config : EngagerConfig K
  state : EngageState
  scale : K
  deriving DecidableEq

inductive EngagerOp (K : Type)
  | update (want aligned : Bool) (dtS : K)
  | reset
  deriving DecidableEq

structure EngagerCall (K : Type) where
  before : BilateralEngager K
  op : EngagerOp K
  after : BilateralEngager K

namespace BilateralEngager

section Code

variable {K : Type} [Zero K] [One K] [Add K] [Sub K] [Div K] [OfScientific K]
  [LT K] [LE K] [DecidableLT K] [DecidableLE K]

def defaultConfig : EngagerConfig K := ⟨0.5, 0.1⟩

def new (config : EngagerConfig K) : BilateralEngager K := ⟨config, .off, 0⟩

def upStep (config : EngagerConfig K) (dtS : K) : K := dtS / stdMax config.rampUpS 1e-3

def downStep (config : EngagerConfig K) (dtS : K) : K := dtS / stdMax config.rampDownS 1e-3

def update (e : BilateralEngager K) (want aligned : Bool) (dtS : K) : BilateralEngager K :=
  match e.state with
  | .off => { e with scale := 0, state := if want then .waitAlign else .off }
  | .waitAlign =>
    { e with
      scale := 0
      state := if !want then .off else if aligned then .rampUp else .waitAlign }
  | .rampUp =>
    if !want then { e with state := .rampDown }
    else
      let scale := stdMin 1 (e.scale + upStep e.config dtS)
      { e with scale := scale, state := if 1 ≤ scale then .engaged else .rampUp }
  | .engaged => { e with scale := 1, state := if want then .engaged else .rampDown }
  | .rampDown =>
    let scale := stdMax 0 (e.scale - downStep e.config dtS)
    { e with
      scale := scale
      state := if scale ≤ 0 then if want then .waitAlign else .off else .rampDown }

/-- Immediate stop, without a ramp. -/
def reset (e : BilateralEngager K) : BilateralEngager K := { e with state := .off, scale := 0 }

def active (e : BilateralEngager K) : Bool := decide (0 < e.scale)

def apply (e : BilateralEngager K) : EngagerOp K → BilateralEngager K
  | .update want aligned dtS => e.update want aligned dtS
  | .reset => e.reset

def machine (config : EngagerConfig K) :
    Machine (BilateralEngager K) (EngagerOp K) (EngagerCall K) where
  init := new config
  step e op := some (e.apply op, some ⟨e, op, e.apply op⟩)

@[simp] theorem update_config (e : BilateralEngager K) (want aligned : Bool) (dtS : K) :
    (e.update want aligned dtS).config = e.config := by
  unfold update
  split <;> try rfl
  split <;> rfl

theorem apply_config (e : BilateralEngager K) (op : EngagerOp K) :
    (e.apply op).config = e.config := by
  cases op with
  | update want aligned dtS => exact update_config e want aligned dtS
  | reset => rfl

end Code

/-- Outside the ramps and the engagement the scale is zero. -/
theorem update_idle [Rounding] (e : BilateralEngager Double) (want aligned : Bool) (dtS : Double)
    (h : (e.update want aligned dtS).state = .off ∨ (e.update want aligned dtS).state = .waitAlign) :
    (e.update want aligned dtS).scale = 0 := by
  unfold update at h ⊢
  split at h
  · rfl
  · rfl
  · cases want with
    | false => simp at h
    | true =>
      simp only [Bool.not_true, Bool.false_eq_true, if_false] at h
      split at h <;> simp at h
  · cases want <;> simp at h
  · simp only at h ⊢
    split at h
    · rename_i hle
      exact (Double.stdMax_zero_cases _).resolve_right fun hlt => Double.lt_asymm hlt hle
    · simp at h

/-! ## The ramp, in exact arithmetic -/

section Exact

variable {K : Type} [Field K] [LinearOrder K] [IsStrictOrderedRing K]

/-- The scale is a fraction, and the states without a ramp fix it. -/
structure ScaleOk (e : BilateralEngager K) : Prop where
  nonneg : 0 ≤ e.scale
  le_one : e.scale ≤ 1
  off : e.state = .off → e.scale = 0
  waitAlign : e.state = .waitAlign → e.scale = 0
  engaged : e.state = .engaged → e.scale = 1

theorem ramp_pos (r : K) : 0 < stdMax r 1e-3 := by
  rw [stdMax_eq_max]
  exact lt_max_of_lt_right (by norm_num)

theorem upStep_nonneg (config : EngagerConfig K) (dtS : K) (h : 0 ≤ dtS) :
    0 ≤ upStep config dtS :=
  div_nonneg h (ramp_pos _).le

theorem downStep_nonneg (config : EngagerConfig K) (dtS : K) (h : 0 ≤ dtS) :
    0 ≤ downStep config dtS :=
  div_nonneg h (ramp_pos _).le

theorem scaleOk_new (config : EngagerConfig K) : ScaleOk (new config) :=
  ⟨le_refl _, zero_le_one, fun _ => rfl, fun _ => rfl, nofun⟩

theorem scaleOk_reset (e : BilateralEngager K) : ScaleOk e.reset :=
  ⟨le_refl _, zero_le_one, fun _ => rfl, fun _ => rfl, nofun⟩

theorem scaleOk_update (e : BilateralEngager K) (want aligned : Bool) (dtS : K) (hdt : 0 ≤ dtS)
    (h : ScaleOk e) : ScaleOk (e.update want aligned dtS) := by
  have hup := upStep_nonneg e.config dtS hdt
  have hdown := downStep_nonneg e.config dtS hdt
  have hlo := h.nonneg
  have hhi := h.le_one
  unfold update
  split
  · cases want <;> exact ⟨le_refl _, zero_le_one, fun _ => rfl, fun _ => rfl, nofun⟩
  · cases want <;> cases aligned <;>
      exact ⟨le_refl _, zero_le_one, fun _ => rfl, fun _ => rfl, nofun⟩
  · cases want
    · exact ⟨hlo, hhi, nofun, nofun, nofun⟩
    · simp only [stdMin_eq_min, Bool.not_true, Bool.false_eq_true, if_false]
      refine ⟨le_min zero_le_one (by linarith), min_le_left _ _, ?_, ?_, ?_⟩ <;>
        simp only <;> split <;> rename_i hfull
      -- the scale is 1 as soon as the ramp is complete
      all_goals first | (intro hs; cases hs; done) | skip
      exact fun _ => le_antisymm (min_le_left _ _) hfull
  · cases want <;> exact ⟨zero_le_one, le_refl _, nofun, nofun, fun _ => rfl⟩
  · simp only [stdMax_eq_max]
    have hz : max 0 (e.scale - downStep e.config dtS) ≤ 0 →
        max 0 (e.scale - downStep e.config dtS) = 0 :=
      fun hle => le_antisymm hle (le_max_left _ _)
    refine ⟨le_max_left _ _, max_le zero_le_one (by linarith), ?_, ?_, ?_⟩ <;>
      simp only <;> split <;> rename_i hempty
    all_goals first | (cases want <;> intro hs <;> cases hs; done) | skip
    · exact fun _ => hz hempty
    · exact fun _ => hz hempty

/-- What one call does to the scale: `update` moves it by at most one ramp step, and up only
in `rampUp` while the command is wanted. -/
def RampStep (c : EngagerCall K) : Prop :=
  match c.op with
  | .reset => c.after.scale = 0
  | .update want _ dtS =>
    c.after.scale - c.before.scale ≤ dtS / max c.before.config.rampUpS (1 / 1000) ∧
    c.before.scale - c.after.scale ≤ dtS / max c.before.config.rampDownS (1 / 1000) ∧
    (want = false ∨ c.before.state ≠ .rampUp → c.after.scale ≤ c.before.scale)

theorem ramp_floor (r : K) : stdMax r 1e-3 = max r (1 / 1000) := by
  rw [stdMax_eq_max]
  norm_num

theorem rampStep_update (e : BilateralEngager K) (want aligned : Bool) (dtS : K) (hdt : 0 ≤ dtS)
    (h : ScaleOk e) : RampStep ⟨e, .update want aligned dtS, e.update want aligned dtS⟩ := by
  have hup := upStep_nonneg e.config dtS hdt
  have hdown := downStep_nonneg e.config dtS hdt
  have hlo := h.nonneg
  have hhi := h.le_one
  simp only [RampStep, ← ramp_floor]
  change _ ≤ upStep e.config dtS ∧ _ ≤ downStep e.config dtS ∧ _
  unfold update
  split
  · rename_i hs
    have := h.off hs
    exact ⟨by simp only; linarith, by simp only; linarith, fun _ => by simp only; linarith⟩
  · rename_i hs
    have := h.waitAlign hs
    exact ⟨by simp only; linarith, by simp only; linarith, fun _ => by simp only; linarith⟩
  · rename_i hs
    cases want
    · exact ⟨by simpa using hup, by simpa using hdown, fun _ => le_refl _⟩
    · simp only [stdMin_eq_min, Bool.not_true, Bool.false_eq_true, if_false]
      have hmono : e.scale ≤ min 1 (e.scale + upStep e.config dtS) := le_min hhi (by linarith)
      have hle : min 1 (e.scale + upStep e.config dtS) ≤ e.scale + upStep e.config dtS :=
        min_le_right _ _
      exact ⟨by linarith, by linarith, fun hn => by simp [hs] at hn⟩
  · rename_i hs
    have := h.engaged hs
    exact ⟨by simp only; linarith, by simp only; linarith, fun _ => by simp only; linarith⟩
  · simp only [stdMax_eq_max]
    have hge : e.scale - downStep e.config dtS ≤ max 0 (e.scale - downStep e.config dtS) :=
      le_max_right _ _
    have hle : max 0 (e.scale - downStep e.config dtS) ≤ e.scale :=
      max_le hlo (by linarith)
    exact ⟨by linarith, by linarith, fun _ => hle⟩

/-- The calls the ramp is built for: time does not run backwards. -/
def forward (_ : BilateralEngager K) (_ : List (EngagerCall K)) : EngagerOp K → Prop
  | .update _ _ dtS => 0 ≤ dtS
  | .reset => True

theorem scaleOk_apply (e : BilateralEngager K) (op : EngagerOp K) (h : List (EngagerCall K))
    (hop : forward e h op) (he : ScaleOk e) :
    ScaleOk (e.apply op) ∧ RampStep ⟨e, op, e.apply op⟩ := by
  cases op with
  | update want aligned dtS =>
    exact ⟨scaleOk_update e want aligned dtS hop he, rampStep_update e want aligned dtS hop he⟩
  | reset => exact ⟨scaleOk_reset e, rfl⟩

/-- **The ramp never steps.** Over all calls with time going forward, the scale stays a
fraction that the state fixes, and each update moves it by at most one ramp step. -/
theorem ramp_invariant (config : EngagerConfig K) (e : BilateralEngager K)
    (h : List (EngagerCall K)) (hr : (machine config).RunWhere forward e h) :
    (e.config = config ∧ 0 ≤ e.scale ∧ e.scale ≤ 1 ∧
      (e.state = .off ∨ e.state = .waitAlign → e.scale = 0) ∧
      (e.state = .engaged → e.scale = 1)) ∧
    Always (fun c _ => c.before.config = config ∧ RampStep c) h := by
  have hrun := hr.always (I := fun e _ => e.config = config ∧ ScaleOk e)
    (P := fun c _ => c.before.config = config ∧ RampStep c) ⟨rfl, scaleOk_new config⟩ ?_ ?_
  · obtain ⟨⟨hc, hok⟩, hall⟩ := hrun
    refine ⟨⟨hc, hok.nonneg, hok.le_one, ?_, hok.engaged⟩, hall⟩
    rintro (hs | hs)
    · exact hok.off hs
    · exact hok.waitAlign hs
  · rintro s h op s' c ⟨hc, hok⟩ hop hs
    obtain ⟨rfl, rfl⟩ := Prod.mk.inj (Option.some.inj hs)
    exact ⟨(apply_config s op).trans hc, (scaleOk_apply s op h hop hok).1⟩
  · rintro s h op s' c ⟨hc, hok⟩ hop hs
    obtain ⟨rfl, hcall⟩ := Prod.mk.inj (Option.some.inj hs)
    obtain rfl := Option.some.inj hcall
    exact ⟨hc, (scaleOk_apply s op h hop hok).2⟩

instance (e : BilateralEngager K) (h : List (EngagerCall K)) (op : EngagerOp K) :
    Decidable (forward e h op) :=
  match op with
  | .update _ _ dtS => inferInstanceAs (Decidable (0 ≤ dtS))
  | .reset => inferInstanceAs (Decidable True)

/-- Request, alignment, one ramp step of 0.1 s, then release. -/
theorem ramp_invariant_release :
    ∃ e h, (machine (K := ℚ) defaultConfig).RunWhere forward e h ∧
      e.state = .rampDown ∧ e.scale = 1 / 5 ∧ 0 ≤ e.scale ∧ e.scale ≤ 1 ∧
      Always (fun c _ => c.before.config = defaultConfig ∧ RampStep c) h := by
  have hx : ((machine (K := ℚ) defaultConfig).exec forward
      [.update true false 0, .update true true 0, .update true false (1 / 10),
        .update false true (1 / 10)]).map (fun r => (r.1.state, r.1.scale)) =
      some (.rampDown, 1 / 5) := by decide +kernel
  obtain ⟨⟨e, h⟩, he, hr⟩ := Option.map_eq_some_iff.mp hx
  have hrun := Machine.exec_run _ _ he
  have hok := ramp_invariant defaultConfig e h hrun
  exact ⟨e, h, hrun, congrArg Prod.fst hr, congrArg Prod.snd hr, hok.1.2.1, hok.1.2.2.1, hok.2⟩

end Exact

end BilateralEngager

end OpenArmTeleop.Control
