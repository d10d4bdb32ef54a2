import OpenArmTeleop.Lib.Toward
import OpenArmTeleop.Safety.RateLimiter

/-!
# The rate limiter over many cycles

The references follow a constant target through `limit`, in exact arithmetic.
-/

open Num Toward

namespace OpenArmTeleop.Safety

namespace RateLimiter

/-- The references after `n` cycles with the same target. -/
def cycles (r : RateLimiter ℚ) (target : List ℚ) (n : ℕ) (ref : List ℚ) : List ℚ :=
  (fun ref => r.limit ref target)^[n] ref

/-! ## One component -/

theorem limitJoint_eq_toward {d : ℚ} (hd : 0 ≤ d) (x t : ℚ) : limitJoint d x t = toward d t x := by
  unfold limitJoint
  dsimp only
  split_ifs with hup hdown
  · exact (toward_of_above t x hd hup.le).symm
  · exact (toward_of_below t x hd hdown.le).symm
  · exact (toward_of_near t x (abs_le.mpr ⟨not_lt.mp hdown, not_lt.mp hup⟩)).symm

/-- A way to `t` by steps of at most `d` that never turn back, never pass `t` and arrive. -/
structure Approaches (d start t : ℚ) (path : ℕ → ℚ) : Prop where
  begins : path 0 = start
  step : ∀ n, |path (n + 1) - path n| ≤ d
  up : start ≤ t → Monotone path ∧ ∀ n, path n ≤ t
  down : t ≤ start → Antitone path ∧ ∀ n, t ≤ path n
  arrives : ∀ n : ℕ, |t - start| / d ≤ n → path n = t

theorem approaches_toward {d : ℚ} (hd : 0 < d) (start t : ℚ) :
    Approaches d start t fun n => (toward d t)^[n] start where
  begins := rfl
  step n := by
    rw [Function.iterate_succ_apply']
    exact abs_toward_sub_le t _ hd.le
  up h := ⟨iterate_monotone t start hd.le h, iterate_above t start hd.le h⟩
  down h := ⟨iterate_antitone t start hd.le h, iterate_below t start hd.le h⟩
  arrives n h := iterate_eq t start hd.le ((div_le_iff₀ hd).mp h)

/-! ## The vectors -/

theorem limit_eq_zipWith (r : RateLimiter ℚ) (hd : 0 ≤ r.effectiveMaxDelta) (ref target : List ℚ)
    (hlen : ref.length = target.length) :
    r.limit ref target = List.zipWith (fun x t => toward r.effectiveMaxDelta t x) ref target := by
  rw [limit_of_length_eq r ref target hlen]
  congr 1
  funext x t
  exact limitJoint_eq_toward hd x t

theorem cycles_eq_zipWith (r : RateLimiter ℚ) (hd : 0 ≤ r.effectiveMaxDelta) (ref target : List ℚ)
    (hlen : ref.length = target.length) (n : ℕ) :
    r.cycles target n ref =
      List.zipWith (fun x t => (toward r.effectiveMaxDelta t)^[n] x) ref target := by
  induction n with
  | zero =>
    apply List.ext_getElem
    · simp [cycles, hlen]
    · intro i hi hi'
      simp [cycles]
  | succ n ih =>
    have hlast : r.cycles target (n + 1) ref = r.limit (r.cycles target n ref) target :=
      Function.iterate_succ_apply' _ n ref
    rw [hlast, ih, limit_eq_zipWith r hd _ target (by simp [hlen])]
    apply List.ext_getElem
    · simp
    · intro i hi hi'
      simp only [List.getElem_zipWith, Function.iterate_succ_apply']

theorem limit_limit (r : RateLimiter ℚ) (hd : 0 ≤ r.effectiveMaxDelta) (ref target : List ℚ) :
    r.limit ref (r.limit ref target) = r.limit ref target := by
  by_cases hlen : ref.length = target.length
  · have hstill : ref.length = (r.limit ref target).length := by
      rw [limit_eq_zipWith r hd ref target hlen, List.length_zipWith, hlen, min_self]
    rw [limit_eq_zipWith r hd ref _ hstill, limit_eq_zipWith r hd ref target hlen]
    apply List.ext_getElem
    · simp
    · intro i hi hi'
      simp only [List.getElem_zipWith, toward_toward _ _ hd]
  · rw [limit_of_length_ne r ref target hlen, limit_of_length_ne r ref target hlen]

/-- **The references converge without overshoot.** With a constant target each component approaches
its target by steps of at most the bound, and to limit a limited target changes nothing. -/
theorem limit_converges (r : RateLimiter ℚ) (d : ℚ)
    (heq : d = min r.maxDeltaPerCycle (r.maxVelocityRadS * r.cycleTimeS)) (hd : 0 < d)
    (ref target : List ℚ) (hlen : ref.length = target.length) :
    (∀ n, (r.cycles target n ref).length = target.length) ∧
      (∀ (i : ℕ) start t, ref[i]? = some start → target[i]? = some t →
        ∃ path, (∀ n, (r.cycles target n ref)[i]? = some (path n)) ∧ Approaches d start t path) ∧
      r.limit ref (r.limit ref target) = r.limit ref target := by
  obtain rfl : d = r.effectiveMaxDelta := by rw [heq, effectiveMaxDelta, stdMin_eq_min]
  refine ⟨fun n => ?_, fun i start t hstart ht => ?_, limit_limit r hd.le ref target⟩
  · rw [cycles_eq_zipWith r hd.le ref target hlen, List.length_zipWith, hlen, min_self]
  · refine ⟨_, fun n => ?_, approaches_toward hd start t⟩
    rw [cycles_eq_zipWith r hd.le ref target hlen]
    exact List.getElem?_zipWith_eq_some.mpr ⟨start, t, hstart, ht, rfl⟩

/-- The first joint needs ten cycles, the second one is there at once. -/
theorem limit_converges_far :
    let r : RateLimiter ℚ := ⟨1 / 50, 3 / 2, 1 / 500⟩
    r.cycles [3 / 100, -1 / 500] 10 [0, 0] = [3 / 100, -1 / 500] ∧
      ∃ path, (∀ n, (r.cycles [3 / 100, -1 / 500] n [0, 0])[0]? = some (path n)) ∧
        Approaches (3 / 1000) 0 (3 / 100) path := by
  intro r
  have h := limit_converges r (3 / 1000) (by norm_num [r]) (by norm_num) [0, 0]
    [3 / 100, -1 / 500] rfl
  exact ⟨by decide +kernel, h.2.1 0 0 (3 / 100) rfl rfl⟩

end RateLimiter

end OpenArmTeleop.Safety
