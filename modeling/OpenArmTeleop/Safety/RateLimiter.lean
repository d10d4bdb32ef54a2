import OpenArmTeleop.Lib.Num

/-!
# The limit on target steps

`rate_limiter.cpp`, over any type of numbers.
-/

open Num

namespace OpenArmTeleop.Safety

structure RateLimiter (K : Type) where
  maxDeltaPerCycle : K
  maxVelocityRadS : K
  cycleTimeS : K

namespace RateLimiter

section Code

variable {K : Type} [Add K] [Sub K] [Mul K] [Neg K] [LT K] [DecidableLT K]

def effectiveMaxDelta (r : RateLimiter K) : K :=
  stdMin r.maxDeltaPerCycle (r.maxVelocityRadS * r.cycleTimeS)

def limitJoint (effectiveMaxDelta current target : K) : K :=
  let delta := target - current
  if effectiveMaxDelta < delta then current + effectiveMaxDelta
  else if delta < -effectiveMaxDelta then current - effectiveMaxDelta
  else target

/-- The limited target. Vectors of different lengths are left as they are. -/
def limit (r : RateLimiter K) (currentPos targetPos : List K) : List K :=
  if currentPos.length ≠ targetPos.length then targetPos
  else List.zipWith (limitJoint r.effectiveMaxDelta) currentPos targetPos

theorem limit_of_length_ne (r : RateLimiter K) (current target : List K)
    (h : current.length ≠ target.length) : r.limit current target = target :=
  if_pos h

theorem limit_of_length_eq (r : RateLimiter K) (current target : List K)
    (h : current.length = target.length) :
    r.limit current target = List.zipWith (limitJoint r.effectiveMaxDelta) current target :=
  if_neg (not_not.mpr h)

end Code

/-! ## One joint, in exact arithmetic -/

/-- Both positions are finite, and at most `δ` apart. -/
def Near (δ : ℚ) (before after : Double) : Prop :=
  ∃ x y : ℚ, before = .fin x ∧ after = .fin y ∧ |y - x| ≤ δ

theorem near_fin (δ x y : ℚ) : Near δ (.fin x) (.fin y) ↔ |y - x| ≤ δ := by
  constructor
  · rintro ⟨x', y', hx, hy, h⟩
    obtain rfl := Double.fin.inj hx
    obtain rfl := Double.fin.inj hy
    exact h
  · exact fun h => ⟨x, y, rfl, rfl, h⟩

instance (δ : ℚ) : ∀ before after : Double, Decidable (Near δ before after)
  | .fin x, .fin y => decidable_of_iff _ (near_fin δ x y).symm
  | .fin _, .nan | .fin _, .inf _ => isFalse fun ⟨_, _, _, h, _⟩ => nomatch h
  | .nan, _ | .inf _, _ => isFalse fun ⟨_, _, h, _⟩ => nomatch h

theorem near_self (δ x : ℚ) (hδ : 0 ≤ δ) : Near δ (.fin x) (.fin x) := by
  rw [near_fin, sub_self, abs_zero]
  exact hδ

theorem Near.isFinite {δ : ℚ} {before after : Double} (h : Near δ before after) :
    after.isFinite = true := by
  obtain ⟨x, y, -, rfl, -⟩ := h
  rfl

theorem stdMin_fin (x y : ℚ) : stdMin (.fin x) (.fin y) = (.fin (min x y) : Double) := by
  simp only [stdMin, Double.fin_lt_fin]
  split
  · rename_i h
    rw [min_eq_right h.le]
  · rename_i h
    rw [min_eq_left (not_lt.mp h)]

section Exact

attribute [local instance] Rounding.exact

theorem effectiveMaxDelta_fin (d v c : ℚ) :
    effectiveMaxDelta ⟨.fin d, .fin v, .fin c⟩ = (.fin (min d (v * c)) : Double) := by
  simp only [effectiveMaxDelta, Double.exact_mul, stdMin_fin]

theorem limitJoint_fin (δ x y : ℚ) :
    limitJoint (.fin δ) (.fin x) (.fin y) =
      (.fin (if δ < y - x then x + δ else if y - x < -δ then x - δ else y) : Double) := by
  simp only [limitJoint, Double.exact_sub, Double.exact_add, Double.neg_fin, Double.fin_lt_fin]
  split_ifs <;> rfl

/-- An infinite target moves the joint by one full step, a NaN goes through. -/
theorem limitJoint_near_iff (δ x : ℚ) (hδ : 0 ≤ δ) (target : Double) :
    Near δ (.fin x) (limitJoint (.fin δ) (.fin x) target) ↔ target ≠ .nan := by
  cases target with
  | nan =>
    simp only [limitJoint, Double.nan_sub, Double.not_lt_nan, Double.not_nan_lt, if_false]
    refine ⟨?_, fun h => absurd rfl h⟩
    rintro ⟨_, y, -, hy, -⟩
    cases hy
  | inf negative =>
    refine iff_of_true ?_ (by simp)
    simp only [limitJoint, Double.inf_sub_fin, Double.neg_fin, Double.fin_lt_inf,
      Double.inf_lt_fin, Double.exact_add, Double.exact_sub]
    cases negative with
    | false => simp [near_fin, abs_of_nonneg hδ]
    | true => simp [near_fin, abs_of_nonneg hδ]
  | fin y =>
    refine iff_of_true ?_ (by simp)
    rw [limitJoint_fin, near_fin]
    split_ifs with hup hdown
    · rw [add_sub_cancel_left, abs_of_nonneg hδ]
    · rw [sub_sub_cancel_left, abs_neg, abs_of_nonneg hδ]
    · exact abs_le.mpr ⟨not_lt.mp hdown, not_lt.mp hup⟩

end Exact

end RateLimiter

end OpenArmTeleop.Safety
