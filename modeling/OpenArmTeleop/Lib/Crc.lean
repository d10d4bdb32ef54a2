import OpenArmTeleop.Lib.Layout

/-!
# Cyclic redundancy checks

The register of a reflected check, fed one byte at a time. Its step is linear and injective, so
that a changed word of the input changes the register for good.
-/

open Bytes

namespace Crc

variable {w : ℕ} (poly : BitVec w)

def bit (crc : BitVec w) : BitVec w := (crc >>> 1) ^^^ (if crc.getLsbD 0 then poly else 0#w)

def byte (crc : BitVec w) (b : UInt8) : BitVec w := (bit poly)^[8] (crc ^^^ .ofNat w b.toNat)

def feed (crc : BitVec w) (bs : List UInt8) : BitVec w := bs.foldl (byte poly) crc

/-! ## One bit -/

theorem bit_xor (a b : BitVec w) : bit poly (a ^^^ b) = bit poly a ^^^ bit poly b := by
  have hmask : (if (a ^^^ b).getLsbD 0 then poly else 0#w) =
      (if a.getLsbD 0 then poly else 0#w) ^^^ (if b.getLsbD 0 then poly else 0#w) := by
    rw [BitVec.getLsbD_xor]
    cases a.getLsbD 0 <;> cases b.getLsbD 0 <;> simp
  unfold bit
  rw [BitVec.ushiftRight_xor_distrib, hmask]
  ac_rfl

/-- The shift clears the highest bit, which the polynomial sets, so that nothing is lost. -/
theorem bit_eq_zero (hpoly : poly.msb = true) {x : BitVec w} (h : bit poly x = 0#w) : x = 0#w := by
  have hw : 0 < w := by
    by_contra hw
    obtain rfl : w = 0 := by omega
    simp [BitVec.msb_eq_getLsbD_last] at hpoly
  unfold bit at h
  have hlow : x.getLsbD 0 = false := by
    by_contra hset
    rw [Bool.not_eq_false] at hset
    rw [if_pos hset] at h
    have heq : x >>> 1 = poly := BitVec.xor_eq_zero_iff.mp h
    have htop : (x >>> 1).msb = false := by
      rw [BitVec.msb_ushiftRight]
      simp
    rw [heq, hpoly] at htop
    cases htop
  rw [hlow, if_neg Bool.false_ne_true, BitVec.xor_zero] at h
  apply BitVec.eq_of_getLsbD_eq
  intro i hi
  cases i with
  | zero => simpa using hlow
  | succ i =>
    have hbit := congrArg (·.getLsbD i) h
    simpa [Nat.add_comm] using hbit

theorem bit_injective (hpoly : poly.msb = true) : Function.Injective (bit poly) := by
  intro a b h
  have hzero : bit poly (a ^^^ b) = 0#w := by rw [bit_xor, h, BitVec.xor_self]
  exact BitVec.xor_eq_zero_iff.mp (bit_eq_zero poly hpoly hzero)

theorem bits_xor (n : ℕ) (a b : BitVec w) :
    (bit poly)^[n] (a ^^^ b) = (bit poly)^[n] a ^^^ (bit poly)^[n] b := by
  induction n generalizing a b with
  | zero => rfl
  | succ n ih => rw [Function.iterate_succ_apply, bit_xor, ih]; rfl

theorem bit_double (x : ℕ) (hx : 2 * x < 2 ^ w) : bit poly (.ofNat w (2 * x)) = .ofNat w x := by
  have hlow : (BitVec.ofNat w (2 * x)).getLsbD 0 = false := by simp [BitVec.getLsbD_ofNat]
  unfold bit
  rw [hlow, if_neg Bool.false_ne_true, BitVec.xor_zero]
  apply BitVec.eq_of_toNat_eq
  rw [BitVec.toNat_ushiftRight, BitVec.toNat_ofNat, BitVec.toNat_ofNat, Nat.mod_eq_of_lt hx,
    Nat.mod_eq_of_lt (by omega), Nat.shiftRight_eq_div_pow]
  omega

/-- A number is shifted out of the low bits that it leaves clear. -/
theorem bits_shift (n x : ℕ) (hx : 2 ^ n * x < 2 ^ w) :
    (bit poly)^[n] (.ofNat w (2 ^ n * x)) = .ofNat w x := by
  induction n with
  | zero => simp
  | succ n ih =>
    have hdouble : 2 ^ (n + 1) * x = 2 * (2 ^ n * x) := by ring
    rw [hdouble] at hx ⊢
    rw [Function.iterate_succ_apply, bit_double poly _ hx, ih (by omega)]

/-! ## Words -/

theorem ofNat_cons (b : UInt8) (v : ℕ) :
    BitVec.ofNat w (b.toNat + 256 * v) = .ofNat w b.toNat ^^^ .ofNat w (2 ^ 8 * v) := by
  have hb : b.toNat < 2 ^ 8 := b.toNat_lt
  have hxor : b.toNat + 256 * v = b.toNat ^^^ 2 ^ 8 * v := by
    apply Nat.eq_of_testBit_eq
    intro i
    rw [Nat.testBit_xor, Nat.testBit_two_pow_mul, Nat.add_comm,
      Nat.testBit_two_pow_mul_add v hb i]
    by_cases hi : i < 8
    · simp [hi, not_le.mpr hi]
    · have hbit : b.toNat.testBit i = false :=
        Nat.testBit_lt_two_pow (hb.trans_le (Nat.pow_le_pow_right (by decide) (not_lt.mp hi)))
      simp [hi, hbit, not_lt.mp hi]
  apply BitVec.eq_of_toNat_eq
  rw [BitVec.toNat_xor, BitVec.toNat_ofNat, BitVec.toNat_ofNat, BitVec.toNat_ofNat, hxor,
    Nat.xor_mod_two_pow]

theorem value_lt_two_pow (bs : List UInt8) (hw : 8 * bs.length ≤ w) : value bs < 2 ^ w :=
  calc value bs < 256 ^ bs.length := value_lt bs
    _ = 2 ^ (8 * bs.length) := by rw [pow_mul]; rfl
    _ ≤ 2 ^ w := Nat.pow_le_pow_right (by decide) hw

theorem ofNat_value_inj {as bs : List UInt8} (ha : 8 * as.length ≤ w) (hb : 8 * bs.length ≤ w)
    (h : BitVec.ofNat w (value as) = .ofNat w (value bs)) : value as = value bs := by
  have hnat := congrArg BitVec.toNat h
  rwa [BitVec.toNat_ofNat, BitVec.toNat_ofNat, Nat.mod_eq_of_lt (value_lt_two_pow as ha),
    Nat.mod_eq_of_lt (value_lt_two_pow bs hb)] at hnat

/-- Some bytes at once: they go into the register as one number. -/
theorem feed_word (crc : BitVec w) (bs : List UInt8) (hw : 8 * bs.length ≤ w) :
    feed poly crc bs = (bit poly)^[8 * bs.length] (crc ^^^ .ofNat w (value bs)) := by
  induction bs generalizing crc with
  | nil => simp [feed, value]
  | cons b bs ih =>
    rw [List.length_cons] at hw ⊢
    have hsmall : 2 ^ 8 * value bs < 2 ^ w :=
      lt_of_le_of_lt (Nat.le_add_left _ b.toNat) (value_lt_two_pow (b :: bs) hw)
    have hrest : feed poly crc (b :: bs) = feed poly (byte poly crc b) bs := rfl
    rw [hrest, ih _ (by omega), value, ofNat_cons, ← BitVec.xor_assoc, Nat.mul_add, mul_one,
      Function.iterate_add_apply, bits_xor poly 8 (crc ^^^ _), bits_shift poly 8 _ hsmall]
    rfl

theorem feed_injective (hpoly : poly.msb = true) (bs : List UInt8) :
    Function.Injective fun crc => feed poly crc bs := by
  induction bs with
  | nil => exact fun _ _ h => h
  | cons b bs ih =>
    intro r s h
    have hbyte : byte poly r b = byte poly s b := ih h
    have hxor := (bit_injective poly hpoly).iterate 8 hbyte
    exact (BitVec.xor_left_inj _).mp hxor

/-! ## Checks -/

/-- Different words of the same length, at the same place, leave different registers. -/
theorem feed_burst (hpoly : poly.msb = true) (crc : BitVec w) (before after : List UInt8)
    {new old : List UInt8} (hlen : new.length = old.length) (hw : 8 * new.length ≤ w)
    (hne : new ≠ old) :
    feed poly crc (before ++ new ++ after) ≠ feed poly crc (before ++ old ++ after) := by
  intro h
  simp only [feed, List.foldl_append] at h
  have hword := feed_injective poly hpoly after h
  change feed poly _ new = feed poly _ old at hword
  rw [feed_word poly _ new hw, feed_word poly _ old (hlen ▸ hw), hlen] at hword
  have hvalue := (BitVec.xor_right_inj _).mp ((bit_injective poly hpoly).iterate _ hword)
  exact hne (value_inj hlen (ofNat_value_inj (hlen ▸ hw) hw hvalue.symm).symm)

/-- The complement of the register, appended to the input, leaves the same register always. -/
theorem feed_complement (hpoly : poly.msb = true) (crc : BitVec w) (body check : List UInt8)
    (hw : 8 * check.length = w) :
    feed poly crc (body ++ check) = (bit poly)^[w] (.allOnes w) ↔
      .ofNat w (value check) = ~~~ feed poly crc body := by
  have hfeed : feed poly crc (body ++ check) = feed poly (feed poly crc body) check := by
    simp only [feed, List.foldl_append]
  rw [hfeed, feed_word poly _ check hw.le, hw, ((bit_injective poly hpoly).iterate w).eq_iff]
  generalize feed poly crc body = r
  generalize BitVec.ofNat w (value check) = v
  constructor
  · intro h
    rw [← BitVec.xor_allOnes, ← h, ← BitVec.xor_assoc, BitVec.xor_self, BitVec.zero_xor]
  · rintro rfl
    rw [← BitVec.xor_allOnes, ← BitVec.xor_assoc, BitVec.xor_self, BitVec.zero_xor]

end Crc
