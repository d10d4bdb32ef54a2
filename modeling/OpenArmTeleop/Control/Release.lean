import OpenArmTeleop.Control.Engager

/-!
# How long a release takes

The updates of one leader arm while the command is not wanted, in exact arithmetic.
-/

open Num Run

namespace OpenArmTeleop.Control

namespace BilateralEngager

variable {K : Type} [Field K] [LinearOrder K]

/-- Updates without a request, each with its alignment and its time step. -/
def release (e : BilateralEngager K) (calls : List (Bool × K)) : BilateralEngager K :=
  calls.foldl (fun e call => e.update false call.1 call.2) e

def Released (e : BilateralEngager K) : Prop := e.state = .off ∧ e.scale = 0

instance (e : BilateralEngager K) : Decidable e.Released := inferInstanceAs (Decidable (_ ∧ _))

theorem release_append (e : BilateralEngager K) (xs ys : List (Bool × K)) :
    e.release (xs ++ ys) = (e.release xs).release ys :=
  List.foldl_append

theorem released_release (e : BilateralEngager K) (he : e.Released) (calls : List (Bool × K)) :
    (e.release calls).Released := by
  induction calls generalizing e with
  | nil => exact he
  | cons call calls ih =>
    refine ih (e.update false call.1 call.2) ?_
    unfold update
    rw [he.1]
    exact ⟨rfl, rfl⟩

/-! ## The ramp -/

/-- On the ramp an update takes one step, or arrives. -/
theorem release_down (e : BilateralEngager K) (hs : e.state = .rampDown) (aligned : Bool) (dtS : K) :
    (e.update false aligned dtS).Released ∨
      (e.update false aligned dtS).state = .rampDown ∧ 0 < (e.update false aligned dtS).scale ∧
        (e.update false aligned dtS).scale = e.scale - downStep e.config dtS := by
  unfold update
  rw [hs]
  simp only [stdMax_eq_max, Released, Bool.false_eq_true, if_false]
  split
  · rename_i hempty
    exact .inl ⟨rfl, le_antisymm hempty (le_max_left _ _)⟩
  · rename_i hleft
    have hpos := not_le.mp hleft
    refine .inr ⟨rfl, hpos, max_eq_right ?_⟩
    by_contra hneg
    rw [max_eq_left (not_le.mp hneg).le] at hpos
    exact lt_irrefl 0 hpos

variable [IsStrictOrderedRing K]

/-- One update without a request ends the command, or leaves it on the ramp. -/
theorem release_first (e : BilateralEngager K) (he : ScaleOk e) (aligned : Bool) (dtS : K)
    (hdt : 0 ≤ dtS) :
    (e.update false aligned dtS).Released ∨
      (e.update false aligned dtS).state = .rampDown ∧ (e.update false aligned dtS).scale ≤ 1 := by
  have hle := (scaleOk_update e false aligned dtS hdt he).le_one
  cases hs : e.state with
  | off | waitAlign =>
    left
    unfold update
    rw [hs]
    exact ⟨rfl, rfl⟩
  | rampUp | engaged =>
    refine .inr ⟨?_, hle⟩
    unfold update
    rw [hs]
    rfl
  | rampDown =>
    unfold update at hle ⊢
    rw [hs] at hle ⊢
    simp only [stdMax_eq_max, Released, Bool.false_eq_true, if_false] at hle ⊢
    split
    · rename_i hempty
      exact .inl ⟨rfl, le_antisymm hempty (le_max_left _ _)⟩
    · exact .inr ⟨rfl, hle⟩

/-- What is left of the ramp after some updates, unless it is over. -/
theorem release_run (e : BilateralEngager K) (hs : e.state = .rampDown) (dtS : K) (aligned : List Bool)
    (hlen : aligned ≠ []) :
    (e.release (aligned.map (·, dtS))).Released ∨
      0 < e.scale - aligned.length * downStep e.config dtS := by
  induction aligned generalizing e with
  | nil => exact absurd rfl hlen
  | cons a rest ih =>
    change ((e.update false a dtS).release (rest.map (·, dtS))).Released ∨ _
    rcases release_down e hs a dtS with hdone | ⟨hdown, hpos, hscale⟩
    · exact .inl (released_release _ hdone _)
    · rw [hscale] at hpos
      cases rest with
      | nil => simpa using Or.inr hpos
      | cons b rest =>
        refine (ih _ hdown (List.cons_ne_nil b rest)).imp_right fun hleft => ?_
        rw [hscale, update_config] at hleft
        calc (0 : K) < e.scale - downStep e.config dtS -
              (b :: rest).length * downStep e.config dtS := hleft
          _ = e.scale - (a :: b :: rest).length * downStep e.config dtS := by
            push_cast [List.length_cons]
            ring

/-- **A release is over in bounded time.** From every state that updates reach, one update and as
many as the down ramp has steps, all without a request, switch the arm off, and it stays off. -/
theorem release_bounded [FloorSemiring K] (config : EngagerConfig K) (e : BilateralEngager K)
    (h : List (EngagerCall K)) (hr : (machine config).RunWhere forward e h) (dtS : K) (hdt : 0 < dtS)
    (aligned : List Bool)
    (hlen : aligned.length = 1 + ⌈max config.rampDownS (1 / 1000) / dtS⌉₊)
    (later : List (Bool × K)) :
    (e.release (aligned.map (·, dtS) ++ later)).Released := by
  obtain ⟨⟨hconfig, hnonneg, hle, hoff, hengaged⟩, -⟩ := ramp_invariant config e h hr
  have hok : ScaleOk e :=
    ⟨hnonneg, hle, fun hs => hoff (.inl hs), fun hs => hoff (.inr hs), hengaged⟩
  rw [release_append]
  refine released_release _ ?_ later
  obtain ⟨a, rest, rfl⟩ := List.exists_cons_of_length_pos (by omega : 0 < aligned.length)
  rw [List.length_cons, Nat.add_comm, Nat.add_left_cancel_iff] at hlen
  have hramp : 0 < max config.rampDownS (1 / 1000) := lt_max_of_lt_right (by norm_num)
  have hsteps : 0 < rest.length := by
    rw [hlen, Nat.ceil_pos]
    exact div_pos hramp hdt
  rcases release_first e hok a dtS hdt.le with hdone | ⟨hdown, hscale⟩
  · exact released_release _ hdone _
  · refine (release_run _ hdown dtS rest (List.length_pos_iff.mp hsteps)).resolve_right ?_
    rw [update_config, hconfig, downStep, ramp_floor, not_lt, sub_nonpos]
    -- as many steps as there are take away at least the whole scale
    calc (e.update false a dtS).scale ≤ 1 := hscale
      _ = max config.rampDownS (1 / 1000) / dtS * (dtS / max config.rampDownS (1 / 1000)) := by
        field_simp
      _ ≤ rest.length * (dtS / max config.rampDownS (1 / 1000)) := by
        refine mul_le_mul_of_nonneg_right ?_ (div_pos hdt hramp).le
        rw [hlen]
        exact Nat.le_ceil _

/-- Request, alignment and one ramp step of 0.1 s; the release takes at most four updates of
0.04 s. -/
theorem release_bounded_partial :
    ∃ e h, (machine (K := ℚ) defaultConfig).RunWhere forward e h ∧ e.state = .rampUp ∧
      e.scale = 1 / 5 ∧
      (e.release ([true, false, true, true].map (·, (1 / 25 : ℚ)) ++ [(true, 0)])).Released := by
  have hx : ((machine (K := ℚ) defaultConfig).exec forward
      [.update true false 0, .update true true 0, .update true false (1 / 10)]).map
        (fun r => (r.1.state, r.1.scale)) = some (.rampUp, 1 / 5) := by decide +kernel
  obtain ⟨⟨e, h⟩, he, hr⟩ := Option.map_eq_some_iff.mp hx
  have hrun := Machine.exec_run _ _ he
  have hlen : 4 = 1 + ⌈max (defaultConfig : EngagerConfig ℚ).rampDownS (1 / 1000) / (1 / 25)⌉₊ := by
    decide +kernel
  exact ⟨e, h, hrun, congrArg Prod.fst hr, congrArg Prod.snd hr,
    release_bounded defaultConfig e h hrun (1 / 25) (by norm_num) [true, false, true, true] hlen
      [(true, 0)]⟩

end BilateralEngager

end OpenArmTeleop.Control
