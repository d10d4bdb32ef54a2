import OpenArmTeleop.Lib.Toward

/-!
# Steps towards a damped target

A position that moves by bounded steps towards an affine image of itself, over any ordered field.
-/

namespace Toward

variable {K : Type} [Field K] [LinearOrder K] [IsStrictOrderedRing K] {b c d ρ : K} (x : K)

/-- Steps towards `b + c * x`, each with its own bound. -/
def damped (b c : K) (ds : List K) (x : K) : K := ds.foldl (fun x d => toward d (b + c * x) x) x

/-- The way that is left shrinks by the factor, or by the bound. -/
theorem abs_sub_damped_step (hd : 0 ≤ d) (hc : 0 ≤ c) (hc' : c < 1) (hρ : b + c * ρ = ρ) :
    |ρ - toward d (b + c * x) x| = max (c * |ρ - x|) (|ρ - x| - d) := by
  have hgap : b + c * x - x = (1 - c) * (ρ - x) := by linear_combination hρ
  have hpos : 0 < 1 - c := sub_pos.mpr hc'
  rcases toward_cases d (b + c * x) x with hnear | hup | hdown
  · have hleft : ρ - (b + c * x) = c * (ρ - x) := by linear_combination -hρ
    rw [hgap, abs_mul, abs_of_pos hpos] at hnear
    rw [toward_of_near _ x (by rw [hgap, abs_mul, abs_of_pos hpos]; exact hnear), hleft, abs_mul,
      abs_of_nonneg hc, max_eq_left (by linarith)]
  · rw [hgap] at hup
    have hρx : 0 ≤ ρ - x := nonneg_of_mul_nonneg_right (hd.trans hup) hpos
    have hc0 : 0 ≤ c * (ρ - x) := mul_nonneg hc hρx
    rw [toward_of_above _ x hd (hgap ▸ hup), abs_of_nonneg hρx, max_eq_right (by linarith),
      abs_of_nonneg (by linarith)]
    ring
  · rw [hgap] at hdown
    have hρx : ρ - x ≤ 0 := by
      by_contra hnot
      have hmul := mul_pos hpos (not_le.mp hnot)
      linarith
    have hc0 : c * (ρ - x) ≤ 0 := mul_nonpos_of_nonneg_of_nonpos hc hρx
    rw [toward_of_below _ x hd (hgap ▸ hdown), abs_of_nonpos hρx, max_eq_right (by linarith),
      abs_of_nonpos (by linarith)]
    ring

/-- No step goes past the fixed point. -/
theorem damped_step_mem_uIcc (hd : 0 ≤ d) (hc : 0 ≤ c) (hc' : c < 1) (hρ : b + c * ρ = ρ) :
    toward d (b + c * x) x ∈ Set.uIcc x ρ := by
  refine Set.uIcc_subset_uIcc_left ?_ (toward_mem_uIcc (b + c * x) x hd)
  have hgap : b + c * x = x + (1 - c) * (ρ - x) := by linear_combination hρ
  have hpos : 0 < 1 - c := sub_pos.mpr hc'
  rw [hgap]
  rcases le_total x ρ with hle | hle
  · have h0 : 0 ≤ (1 - c) * (ρ - x) := mul_nonneg hpos.le (sub_nonneg.mpr hle)
    have h1 : 0 ≤ c * (ρ - x) := mul_nonneg hc (sub_nonneg.mpr hle)
    exact Set.mem_uIcc.mpr (.inl ⟨by linarith, by linarith⟩)
  · have h0 : (1 - c) * (ρ - x) ≤ 0 :=
      mul_nonpos_of_nonneg_of_nonpos hpos.le (sub_nonpos.mpr hle)
    have h1 : c * (ρ - x) ≤ 0 := mul_nonpos_of_nonneg_of_nonpos hc (sub_nonpos.mpr hle)
    exact Set.mem_uIcc.mpr (.inr ⟨by linarith, by linarith⟩)

theorem damped_mem_uIcc {ds : List K} (hds : ∀ d ∈ ds, 0 ≤ d) (hc : 0 ≤ c) (hc' : c < 1)
    (hρ : b + c * ρ = ρ) : damped b c ds x ∈ Set.uIcc x ρ := by
  induction ds generalizing x with
  | nil => exact Set.left_mem_uIcc
  | cons d ds ih =>
    rw [List.forall_mem_cons] at hds
    have hstep := damped_step_mem_uIcc x hds.1 hc hc' hρ
    exact Set.uIcc_subset_uIcc_right hstep (ih _ hds.2)

/-- Steps of at least `δ` come within `ε` of the fixed point and stay there. -/
theorem abs_sub_damped {ds : List K} {δ ε : K} (hδ : 0 ≤ δ) (hε : 0 ≤ ε) (hds : ∀ d ∈ ds, δ ≤ d)
    (hc : 0 ≤ c) (hc' : c < 1) (hρ : b + c * ρ = ρ) :
    |ρ - damped b c ds x| ≤ max ε (|ρ - x| - ds.length * min ((1 - c) * ε) δ) := by
  induction ds generalizing x with
  | nil => simp [damped]
  | cons d ds ih =>
    rw [List.forall_mem_cons] at hds
    have hη : 0 ≤ min ((1 - c) * ε) δ := le_min (mul_nonneg (sub_pos.mpr hc').le hε) hδ
    have hn : (0 : K) ≤ ds.length * min ((1 - c) * ε) δ := mul_nonneg (Nat.cast_nonneg _) hη
    have hrest := ih (toward d (b + c * x) x) hds.2
    rw [abs_sub_damped_step x (hδ.trans hds.1) hc hc' hρ] at hrest
    refine hrest.trans (max_le (le_max_left _ _) ?_)
    have hlen : ((d :: ds).length : K) * min ((1 - c) * ε) δ =
        ds.length * min ((1 - c) * ε) δ + min ((1 - c) * ε) δ := by
      rw [List.length_cons]
      push_cast
      ring
    rw [hlen]
    rcases le_total |ρ - x| ε with hnear | hfar
    · -- already within `ε`
      refine le_max_of_le_left ?_
      have hshrink : c * |ρ - x| ≤ |ρ - x| := mul_le_of_le_one_left (abs_nonneg _) hc'.le
      have hmax : max (c * |ρ - x|) (|ρ - x| - d) ≤ ε :=
        max_le (hshrink.trans hnear) (by linarith [hds.1])
      linarith
    · refine le_max_of_le_right ?_
      have hfactor : (1 - c) * ε ≤ (1 - c) * |ρ - x| :=
        mul_le_mul_of_nonneg_left hfar (sub_pos.mpr hc').le
      have hmax : max (c * |ρ - x|) (|ρ - x| - d) ≤ |ρ - x| - min ((1 - c) * ε) δ := by
        refine max_le ?_ ?_
        · linarith [min_le_left ((1 - c) * ε) δ]
        · linarith [min_le_right ((1 - c) * ε) δ, hds.1]
      linarith

end Toward
