import Mathlib

/-!
# Clocks of 64 bits

What a clock shows that counts nanoseconds from some offset, and the way between two of its
readings.
-/

namespace Clock

/-- The reading at a time, on a clock that showed `offset` at time zero. -/
def reading (offset time : ℕ) : UInt64 := .ofNat (offset + time)

section Reading

variable {offset t u : ℕ}

theorem toNat_reading (ht : offset + t < 2 ^ 64) : (reading offset t).toNat = offset + t :=
  UInt64.toNat_ofNat_of_lt' ht

theorem reading_le_iff (ht : offset + t < 2 ^ 64) (hu : offset + u < 2 ^ 64) :
    reading offset t ≤ reading offset u ↔ t ≤ u := by
  rw [UInt64.le_iff_toNat_le, toNat_reading ht, toNat_reading hu]
  omega

theorem reading_lt_iff (ht : offset + t < 2 ^ 64) (hu : offset + u < 2 ^ 64) :
    reading offset t < reading offset u ↔ t < u := by
  rw [UInt64.lt_iff_toNat_lt, toNat_reading ht, toNat_reading hu]
  omega

/-- The difference of two readings is the time between them. -/
theorem toNat_reading_sub (htu : t ≤ u) (hu : offset + u < 2 ^ 64) :
    (reading offset u - reading offset t).toNat = u - t := by
  have ht : offset + t < 2 ^ 64 := by omega
  rw [UInt64.toNat_sub_of_le _ _ ((reading_le_iff ht hu).mpr htu), toNat_reading ht,
    toNat_reading hu]
  omega

end Reading

end Clock
