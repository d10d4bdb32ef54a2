import Mathlib

/-!
# Steps towards a target

A position that moves towards a target by at most a bound in each step, over any ordered field.
-/

namespace Toward

variable {K : Type} [Field K] [LinearOrder K] [IsStrictOrderedRing K]

/-- One step from `x` towards `t`. -/
def toward (d t x : K) : K := x + max (-d) (min d (t - x))

variable {d : K} (t x : K)

theorem toward_of_near (h : |t - x| ≤ d) : toward d t x = t := by
  obtain ⟨hlow, hup⟩ := abs_le.mp h
  rw [toward, min_eq_right hup, max_eq_right hlow, add_sub_cancel]

theorem toward_of_above (hd : 0 ≤ d) (h : d ≤ t - x) : toward d t x = x + d := by
  rw [toward, min_eq_left h, max_eq_right (by linarith)]

theorem toward_of_below (hd : 0 ≤ d) (h : t - x ≤ -d) : toward d t x = x - d := by
  rw [toward, min_eq_right (h.trans (by linarith)), max_eq_left h, sub_eq_add_neg]

/-- The target is near, above or below. -/
theorem toward_cases (d t x : K) : |t - x| ≤ d ∨ d ≤ t - x ∨ t - x ≤ -d := by
  by_cases h : |t - x| ≤ d
  · exact .inl h
  · rcases lt_abs.mp (not_le.mp h) with hup | hdown
    · exact .inr (.inl hup.le)
    · exact .inr (.inr (by linarith))

theorem abs_toward_sub_le (hd : 0 ≤ d) : |toward d t x - x| ≤ d := by
  rw [toward, add_sub_cancel_left, abs_le]
  exact ⟨le_max_left _ _, max_le (by linarith) (min_le_left _ _)⟩

/-- A step never goes past the target. -/
theorem toward_mem_uIcc (hd : 0 ≤ d) : toward d t x ∈ Set.uIcc x t := by
  rcases toward_cases d t x with hnear | hup | hdown
  · rw [toward_of_near t x hnear]
    exact Set.right_mem_uIcc
  · rw [toward_of_above t x hd hup]
    exact Set.mem_uIcc.mpr (.inl ⟨by linarith, by linarith⟩)
  · rw [toward_of_below t x hd hdown]
    exact Set.mem_uIcc.mpr (.inr ⟨by linarith, by linarith⟩)

theorem toward_above (hd : 0 ≤ d) (h : x ≤ t) : x ≤ toward d t x ∧ toward d t x ≤ t := by
  have hmem := toward_mem_uIcc t x hd
  rwa [Set.uIcc_of_le h] at hmem

theorem toward_below (hd : 0 ≤ d) (h : t ≤ x) : t ≤ toward d t x ∧ toward d t x ≤ x := by
  have hmem := toward_mem_uIcc t x hd
  rwa [Set.uIcc_of_ge h] at hmem

/-- A target that is already in reach is kept. -/
theorem toward_toward (hd : 0 ≤ d) : toward d (toward d t x) x = toward d t x :=
  toward_of_near _ x (abs_toward_sub_le t x hd)

theorem abs_sub_toward (hd : 0 ≤ d) : |t - toward d t x| = max 0 (|t - x| - d) := by
  rcases toward_cases d t x with hnear | hup | hdown
  · rw [toward_of_near t x hnear, sub_self, abs_zero, max_eq_left (by linarith)]
  · rw [toward_of_above t x hd hup, abs_of_nonneg (hd.trans hup), abs_of_nonneg (by linarith),
      max_eq_right (by linarith)]
    ring
  · have hneg : t - x ≤ 0 := hdown.trans (by linarith)
    rw [toward_of_below t x hd hdown, abs_of_nonpos hneg, abs_of_nonpos (by linarith),
      max_eq_right (by linarith)]
    ring

/-! ## Many steps -/

theorem iterate_above (hd : 0 ≤ d) (h : x ≤ t) (n : ℕ) : (toward d t)^[n] x ≤ t := by
  induction n with
  | zero => exact h
  | succ n ih =>
    rw [Function.iterate_succ_apply']
    exact (toward_above t _ hd ih).2

theorem iterate_below (hd : 0 ≤ d) (h : t ≤ x) (n : ℕ) : t ≤ (toward d t)^[n] x := by
  induction n with
  | zero => exact h
  | succ n ih =>
    rw [Function.iterate_succ_apply']
    exact (toward_below t _ hd ih).1

theorem iterate_monotone (hd : 0 ≤ d) (h : x ≤ t) : Monotone fun n => (toward d t)^[n] x := by
  refine monotone_nat_of_le_succ fun n => ?_
  rw [Function.iterate_succ_apply']
  exact (toward_above t _ hd (iterate_above t x hd h n)).1

theorem iterate_antitone (hd : 0 ≤ d) (h : t ≤ x) : Antitone fun n => (toward d t)^[n] x := by
  refine antitone_nat_of_succ_le fun n => ?_
  rw [Function.iterate_succ_apply']
  exact (toward_below t _ hd (iterate_below t x hd h n)).2

/-- What is left of the way after some steps. -/
theorem abs_sub_iterate (hd : 0 ≤ d) (n : ℕ) :
    |t - (toward d t)^[n] x| = max 0 (|t - x| - n * d) := by
  induction n with
  | zero => rw [Function.iterate_zero_apply, Nat.cast_zero, zero_mul, sub_zero,
      max_eq_right (abs_nonneg _)]
  | succ n ih =>
    have hsucc : ((n + 1 : ℕ) : K) * d = n * d + d := by push_cast; ring
    rw [Function.iterate_succ_apply', abs_sub_toward t _ hd, ih, hsucc]
    rcases le_total 0 (|t - x| - n * d) with hleft | hleft
    · rw [max_eq_right hleft, sub_add_eq_sub_sub]
    · rw [max_eq_left hleft, max_eq_left (by linarith), max_eq_left (by linarith)]

theorem iterate_eq (hd : 0 ≤ d) {n : ℕ} (h : |t - x| ≤ n * d) : (toward d t)^[n] x = t := by
  have habs := abs_sub_iterate t x hd n
  rw [max_eq_left (by linarith), abs_eq_zero, sub_eq_zero] at habs
  exact habs.symm

end Toward
