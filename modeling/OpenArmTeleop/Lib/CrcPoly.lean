import OpenArmTeleop.Lib.Crc

/-!
# The register of a check as a remainder

Polynomials over the field of two elements. The lowest bit of a reflected register is the
coefficient of its highest power.
-/

open Polynomial

namespace Crc

variable {w : ℕ}

noncomputable def ofBits (r : BitVec w) : (ZMod 2)[X] :=
  ∑ k ∈ Finset.range w, if r.getMsbD k then X ^ k else 0

/-- The generator whose lower coefficients a register constant holds. -/
noncomputable def generator (poly : BitVec w) : (ZMod 2)[X] := X ^ w + ofBits poly

/-- The message polynomial: the first byte has the highest powers, and the lowest bit of a byte
comes first. -/
noncomputable def message : List UInt8 → (ZMod 2)[X]
  | [] => 0
  | b :: bs => X ^ (8 * bs.length) * ofBits b.toBitVec + message bs

/-! ## Coefficients -/

@[simp] theorem coeff_ofBits (r : BitVec w) (k : ℕ) :
    (ofBits r).coeff k = if r.getMsbD k then 1 else 0 := by
  have hterm : ∀ j, (if r.getMsbD j then (X ^ j : (ZMod 2)[X]) else 0).coeff k =
      if k = j then (if r.getMsbD k then 1 else 0) else 0 := by
    intro j
    by_cases hj : k = j
    · subst hj
      split <;> simp
    · split <;> simp [hj, coeff_X_pow]
  rw [ofBits, finsetSum_coeff, Finset.sum_congr rfl fun j _ => hterm j, Finset.sum_ite_eq]
  by_cases hk : k < w
  · rw [if_pos (Finset.mem_range.mpr hk)]
  · rw [if_neg (by simpa using hk), BitVec.getMsbD_of_ge r k (not_lt.mp hk), if_neg Bool.false_ne_true]

theorem degree_ofBits_lt (r : BitVec w) : (ofBits r).degree < w := by
  rw [degree_lt_iff_coeff_zero]
  intro k hk
  rw [coeff_ofBits, BitVec.getMsbD_of_ge r k hk, if_neg Bool.false_ne_true]

theorem ofBits_xor (a b : BitVec w) : ofBits (a ^^^ b) = ofBits a + ofBits b := by
  ext k
  rw [coeff_add, coeff_ofBits, coeff_ofBits, coeff_ofBits, BitVec.getMsbD_xor]
  cases a.getMsbD k <;> cases b.getMsbD k <;> decide

theorem ofBits_zero : ofBits (0#w) = 0 := by
  ext k
  simp

/-- A shift multiplies by `X`, but for the coefficient that is shifted out. -/
theorem ofBits_shift (r : BitVec w) (hw : 0 < w) :
    ofBits (r >>> 1) + (if r.getLsbD 0 then X ^ w else 0) = X * ofBits r := by
  have hlast : r.getLsbD 0 = r.getMsbD (w - 1) := by
    rw [BitVec.getMsbD_eq_getLsbD, Nat.sub_self, decide_eq_true (by omega), Bool.true_and]
  have hcarry : ∀ k, k ≠ w →
      (if r.getMsbD (w - 1) then X ^ w else 0 : (ZMod 2)[X]).coeff k = 0 := by
    intro k hk
    split <;> simp [coeff_X_pow, hk]
  ext k
  rw [coeff_add, coeff_ofBits, hlast]
  cases k with
  | zero =>
    rw [coeff_X_mul_zero, hcarry 0 hw.ne]
    simp [BitVec.getMsbD_ushiftRight]
  | succ k =>
    have hshift : (r >>> 1).getMsbD (k + 1) = (decide (k + 1 < w) && r.getMsbD k) := by
      simp [BitVec.getMsbD_ushiftRight]
    rw [coeff_X_mul, coeff_ofBits, hshift]
    by_cases hk : k + 1 = w
    · subst hk
      rw [decide_eq_false (lt_irrefl _), Bool.false_and, Nat.add_sub_cancel, if_neg Bool.false_ne_true,
        zero_add]
      split
      · rw [coeff_X_pow_self]
      · rw [coeff_zero]
    · rw [hcarry _ hk, add_zero]
      by_cases hlt : k + 1 < w
      · rw [decide_eq_true hlt, Bool.true_and]
      · rw [decide_eq_false hlt, Bool.false_and, BitVec.getMsbD_of_ge r k (by omega)]

/-- A byte in the lowest bits of a register. -/
theorem ofBits_byte (b : UInt8) (hw : 8 ≤ w) :
    ofBits (BitVec.ofNat w b.toNat) = X ^ (w - 8) * ofBits b.toBitVec := by
  have hcast : BitVec.ofNat w b.toNat = b.toBitVec.setWidth w := by
    rw [← BitVec.ofNat_toNat]
    rfl
  ext k
  rw [hcast, coeff_ofBits, coeff_X_pow_mul', coeff_ofBits, BitVec.getMsbD_setWidth]
  by_cases hk : w - 8 ≤ k
  · rw [if_pos hk]
    rw [decide_eq_true (by omega), Bool.true_and, (by omega : k + 8 - w = k - (w - 8))]
  · rw [if_neg hk, decide_eq_false (by omega), Bool.false_and, if_neg Bool.false_ne_true]

/-! ## The generator -/

variable (poly : BitVec w)

theorem generator_monic : (generator poly).Monic := monic_X_pow_add (degree_ofBits_lt poly)

theorem degree_generator : (generator poly).degree = w := by
  rw [generator, degree_add_eq_left_of_degree_lt, degree_X_pow]
  rw [degree_X_pow]
  exact degree_ofBits_lt poly

/-! ## The register modulo the generator -/

theorem ofBits_bit (r : BitVec w) (hw : 0 < w) :
    ofBits (bit poly r) = X * ofBits r + if r.getLsbD 0 then generator poly else 0 := by
  rw [bit, ofBits_xor, ← ofBits_shift r hw]
  have htwo : (X ^ w + X ^ w : (ZMod 2)[X]) = 0 := CharTwo.add_self_eq_zero _
  by_cases hlow : r.getLsbD 0 = true
  · rw [if_pos hlow, if_pos hlow, if_pos hlow, generator]
    linear_combination -htwo
  · rw [if_neg hlow, if_neg hlow, if_neg hlow, ofBits_zero]
    ring

theorem mk_bits (r : BitVec w) (hw : 0 < w) (n : ℕ) :
    AdjoinRoot.mk (generator poly) (ofBits ((bit poly)^[n] r)) =
      AdjoinRoot.mk (generator poly) (X ^ n * ofBits r) := by
  induction n with
  | zero => rw [Function.iterate_zero_apply, pow_zero, one_mul]
  | succ n ih =>
    have hstep : AdjoinRoot.mk (generator poly)
        (if ((bit poly)^[n] r).getLsbD 0 then generator poly else 0) = 0 := by
      split
      · exact AdjoinRoot.mk_self
      · exact map_zero _
    rw [Function.iterate_succ_apply', ofBits_bit poly _ hw, map_add, hstep, add_zero, map_mul, ih,
      ← map_mul, pow_succ', mul_assoc]

theorem mk_byte (r : BitVec w) (b : UInt8) (hw : 8 ≤ w) :
    AdjoinRoot.mk (generator poly) (ofBits (byte poly r b)) =
      AdjoinRoot.mk (generator poly) (X ^ 8 * ofBits r + X ^ w * ofBits b.toBitVec) := by
  rw [byte, mk_bits poly _ (by omega), ofBits_xor, ofBits_byte b hw, mul_add, ← mul_assoc,
    ← pow_add, Nat.add_sub_cancel' hw]

theorem mk_feed (r : BitVec w) (bs : List UInt8) (hw : 8 ≤ w) :
    AdjoinRoot.mk (generator poly) (ofBits (feed poly r bs)) =
      AdjoinRoot.mk (generator poly) (X ^ (8 * bs.length) * ofBits r + X ^ w * message bs) := by
  induction bs generalizing r with
  | nil => simp [feed, message]
  | cons b bs ih =>
    have hrest : feed poly r (b :: bs) = feed poly (byte poly r b) bs := rfl
    have hsplit : X ^ (8 * (b :: bs).length) * ofBits r + X ^ w * message (b :: bs) =
        X ^ (8 * bs.length) * (X ^ 8 * ofBits r + X ^ w * ofBits b.toBitVec) + X ^ w * message bs := by
      rw [message, List.length_cons]
      ring
    rw [hrest, ih, hsplit, map_add, map_mul, mk_byte poly r b hw, ← map_mul, ← map_add]

/-- **The register is a remainder** of what it held and of the message, shifted as far as the
register is wide. -/
theorem ofBits_feed (r : BitVec w) (bs : List UInt8) (hw : 8 ≤ w) :
    ofBits (feed poly r bs) =
      (X ^ (8 * bs.length) * ofBits r + X ^ w * message bs) %ₘ generator poly := by
  have hdvd := AdjoinRoot.mk_eq_mk.mp (mk_feed poly r bs hw)
  rw [← modByMonic_eq_of_dvd_sub (generator_monic poly) hdvd, eq_comm,
    modByMonic_eq_self_iff (generator_monic poly), degree_generator]
  exact degree_ofBits_lt _

end Crc
