import OpenArmTeleop.Lib.CrcPoly
import OpenArmTeleop.Net.Wire

/-!
# The checksum and its standard

`calculate_crc32` of the codec and of `openarm_telemetry_publisher.cpp`, against CRC-32 as a
remainder of polynomials.
-/

open Polynomial

namespace OpenArmTeleop

/-! ## The telemetry publisher -/

namespace Telemetry

def crcBit (crc : UInt32) : UInt32 :=
  if crc &&& 1 ≠ 0 then (crc >>> 1) ^^^ 0xEDB88320 else crc >>> 1

def crcByte (crc : UInt32) (byte : UInt8) : UInt32 := crcBit^[8] (crc ^^^ byte.toUInt32)

def calculateCrc32 (data : List UInt8) : UInt32 := ~~~ (data.foldl crcByte 0xFFFFFFFF)

end Telemetry

namespace Net

/-- The masked update of the codec is the branch of the publisher. -/
theorem crcBit_eq (crc : UInt32) : crcBit crc = Telemetry.crcBit crc := by
  have hlow : crc &&& 1 = 0 ∨ crc &&& 1 = 1 := by
    have hnat : (crc &&& 1).toNat = crc.toNat % 2 := Nat.and_one_is_mod _
    rcases Nat.mod_two_eq_zero_or_one crc.toNat with h | h
    · exact .inl (UInt32.toNat_inj.mp (hnat.trans h))
    · exact .inr (UInt32.toNat_inj.mp (hnat.trans h))
  unfold crcBit Telemetry.crcBit
  rcases hlow with h | h
  · rw [h, if_neg (by decide)]
    exact UInt32.xor_zero
  · rw [h, if_pos (by decide)]
    rfl

theorem calculateCrc32_eq (data : List UInt8) :
    calculateCrc32 data = Telemetry.calculateCrc32 data := by
  have hbit : crcBit = Telemetry.crcBit := funext crcBit_eq
  have hbyte : crcByte = Telemetry.crcByte := by
    funext crc b
    rw [crcByte, Telemetry.crcByte, hbit]
  rw [calculateCrc32, Telemetry.calculateCrc32, hbyte]

/-! ## The standard -/

noncomputable def crc32Generator : (ZMod 2)[X] :=
  X ^ 32 + ∑ k ∈ Finset.range 32, if Nat.testBit 0x04C11DB7 k then X ^ k else 0

/-- The remainder of the message, behind a register that starts with ones. -/
noncomputable def crc32Remainder (data : List UInt8) : (ZMod 2)[X] :=
  (X ^ (8 * data.length) * ∑ k ∈ Finset.range 32, X ^ k + X ^ 32 * Crc.message data) %ₘ
    crc32Generator

/-- The remainder with its bits reflected and complemented. -/
def IsCrc32 (data : List UInt8) (crc : UInt32) : Prop :=
  ∀ i < 32, crc.toBitVec.getLsbD i = true ↔ (crc32Remainder data).coeff (31 - i) = 0

theorem generator_crcPolynomial : Crc.generator crcPolynomial = crc32Generator := by
  have hbits : ∀ k < 32, crcPolynomial.getMsbD k = Nat.testBit 0x04C11DB7 k := by decide
  have hsum : Crc.ofBits crcPolynomial =
      ∑ k ∈ Finset.range 32, if Nat.testBit 0x04C11DB7 k then (X ^ k : (ZMod 2)[X]) else 0 :=
    Finset.sum_congr rfl fun k hk => by rw [hbits k (Finset.mem_range.mp hk)]
  rw [Crc.generator, hsum, crc32Generator]

theorem ofBits_allOnes (w : ℕ) :
    Crc.ofBits (BitVec.allOnes w) = ∑ k ∈ Finset.range w, (X ^ k : (ZMod 2)[X]) := by
  refine Finset.sum_congr rfl fun k hk => ?_
  rw [BitVec.getMsbD_allOnes, decide_eq_true (Finset.mem_range.mp hk), if_pos rfl]

theorem crc32Remainder_eq (data : List UInt8) :
    crc32Remainder data = Crc.ofBits (Crc.feed crcPolynomial (.allOnes 32) data) := by
  rw [Crc.ofBits_feed _ _ data (by decide), generator_crcPolynomial, ofBits_allOnes]
  rfl

/-- **Both checksums are the standard one.** The two loops agree on every input, and their value is
the reflected remainder modulo 0x04C11DB7. -/
theorem crc_standard (data : List UInt8) :
    calculateCrc32 data = Telemetry.calculateCrc32 data ∧ IsCrc32 data (calculateCrc32 data) := by
  refine ⟨calculateCrc32_eq data, fun i hi => ?_⟩
  rw [crc32Remainder_eq, Crc.coeff_ofBits, calculateCrc32_toBitVec, BitVec.getLsbD_not,
    BitVec.getMsbD_eq_getLsbD, decide_eq_true hi, decide_eq_true (by omega : 31 - i < 32)]
  have hback : 32 - 1 - (31 - i) = i := by omega
  rw [hback]
  cases (Crc.feed crcPolynomial (.allOnes 32) data).getLsbD i <;> simp

/-- The check value of CRC-32: the digits from 1 to 9. -/
example : calculateCrc32 [49, 50, 51, 52, 53, 54, 55, 56, 57] = 0xCBF43926 := by decide +kernel

end Net

end OpenArmTeleop
