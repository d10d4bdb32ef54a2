import Mathlib

/-!
# A percentage of two counters

The share of what is missing in a total, over the integers and with counters that wrap around.
-/

namespace Ratio

/-- What `lost` is of `received` and `lost` together; zero of nothing. -/
def percent (received lost : ℕ) : ℚ := 100 * lost / (received + lost)

variable {m received lost : ℕ}

theorem percent_nonneg (received lost : ℕ) : 0 ≤ percent received lost := by
  unfold percent
  positivity

theorem percent_le (received lost : ℕ) : percent received lost ≤ 100 := by
  unfold percent
  rcases (Nat.zero_le (received + lost)).eq_or_lt with h | h
  · have hsum : (received : ℚ) + lost = 0 := by exact_mod_cast h.symm
    rw [hsum, div_zero]
    norm_num
  · have hsum : (0 : ℚ) < received + lost := by exact_mod_cast h
    have hreceived : (0 : ℚ) ≤ received := Nat.cast_nonneg received
    rw [div_le_iff₀ hsum]
    linarith

theorem percent_zero (received : ℕ) : percent received 0 = 0 := by
  rw [percent, Nat.cast_zero, mul_zero, zero_div]

theorem percent_eq_zero_iff : percent received lost = 0 ↔ lost = 0 := by
  refine ⟨fun h => ?_, fun h => h ▸ percent_zero received⟩
  rcases div_eq_zero_iff.mp h with h | h
  · simpa using h
  · have hsum : received + lost = 0 := by exact_mod_cast h
    omega

/-- More is missing from as many. -/
theorem percent_mono (received : ℕ) {lost lost' : ℕ} (h : lost ≤ lost') :
    percent received lost ≤ percent received lost' := by
  rcases Nat.eq_zero_or_pos lost with rfl | hpos
  · rw [percent_zero]
    exact percent_nonneg received lost'
  · have hcast : (lost : ℚ) ≤ lost' := by exact_mod_cast h
    have hlost : (0 : ℚ) < lost := by exact_mod_cast hpos
    have hreceived : (0 : ℚ) ≤ received := Nat.cast_nonneg received
    rw [percent, percent, div_le_div_iff₀ (by linarith) (by linarith)]
    nlinarith

/-! ## Counters modulo `m` -/

/-- What wraps off `lost` and off the total has the ratio of the two. -/
def WrapsEvenly (m received lost : ℕ) : Prop :=
  ((received + lost) % m = 0 → lost = 0) ∧
    lost / m * (received + lost) = (received + lost) / m * lost

instance (m received lost : ℕ) : Decidable (WrapsEvenly m received lost) :=
  inferInstanceAs (Decidable (_ ∧ _))

/-- While `received` itself does not wrap, nothing may. -/
theorem wrapsEvenly_iff (hreceived : received < m) (hlost : received = 0 → lost = 0) :
    WrapsEvenly m received lost ↔ received + lost < m := by
  have hm : 0 < m := by omega
  constructor
  · rintro ⟨-, heven⟩
    by_contra hlarge
    have hpos : 0 < (received + lost) / m := Nat.div_pos (not_lt.mp hlarge) hm
    have hlow : lost / m ≤ (received + lost) / m := Nat.div_le_div_right (Nat.le_add_left _ _)
    have hup : (received + lost) / m ≤ lost / m + 1 := by
      rw [← Nat.add_div_left lost hm]
      exact Nat.div_le_div_right (by omega)
    have hmul := Nat.div_mul_le_self (received + lost) m
    generalize lost / m = b at *
    generalize (received + lost) / m = a at *
    rcases hlow.eq_or_lt with rfl | hlt
    · have hzero : received = 0 := by nlinarith
      have := hlost hzero
      omega
    · -- the total is a multiple of `received`, which is too small to wrap that often
      obtain rfl : a = b + 1 := by omega
      have hmany : lost = b * received := by nlinarith
      nlinarith
  · intro hsmall
    rw [WrapsEvenly, Nat.mod_eq_of_lt hsmall, Nat.div_eq_of_lt hsmall,
      Nat.div_eq_of_lt (by omega : lost < m)]
    exact ⟨fun h => by omega, by rw [zero_mul, zero_mul]⟩

/-- The ratio of the wrapped counters is the true one exactly when they wrap evenly. -/
theorem percent_mod_iff (hm : 0 < m) (hpos : (received + lost) % m ≠ 0) :
    100 * ((lost % m : ℕ) : ℚ) / ((received + lost) % m : ℕ) = percent received lost ↔
      lost / m * (received + lost) = (received + lost) / m * lost := by
  have hsum : (received + lost : ℚ) ≠ 0 := by
    intro h
    have hnat : received + lost = 0 := by exact_mod_cast h
    rw [hnat, Nat.zero_mod] at hpos
    exact hpos rfl
  have hmod : (((received + lost) % m : ℕ) : ℚ) ≠ 0 := by exact_mod_cast hpos
  have hcross : 100 * ((lost % m : ℕ) : ℚ) * (received + lost) =
      100 * lost * ((received + lost) % m : ℕ) ↔
      lost % m * (received + lost) = lost * ((received + lost) % m) := by
    rw [mul_assoc, mul_assoc, mul_right_inj' (by norm_num)]
    exact_mod_cast Iff.rfl
  rw [percent, div_eq_div_iff hmod hsum, hcross]
  -- both sides are parts of `lost * total`
  have hparts : m * (lost / m * (received + lost)) + lost % m * (received + lost) =
      m * ((received + lost) / m * lost) + lost * ((received + lost) % m) := by
    calc m * (lost / m * (received + lost)) + lost % m * (received + lost)
        = (m * (lost / m) + lost % m) * (received + lost) := by ring
      _ = lost * (m * ((received + lost) / m) + (received + lost) % m) := by
          rw [Nat.div_add_mod, Nat.div_add_mod]
      _ = m * ((received + lost) / m * lost) + lost * ((received + lost) % m) := by ring
  constructor
  · intro h
    rw [h] at hparts
    exact Nat.eq_of_mul_eq_mul_left hm (Nat.add_right_cancel hparts)
  · intro h
    rw [h] at hparts
    exact Nat.add_left_cancel hparts

end Ratio
