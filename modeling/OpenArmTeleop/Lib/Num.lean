import Mathlib

/-!
# Numbers of a control program

`double` with its special values, and `std::min` and `std::max`, which are written with `<`.
-/

namespace Num

/-! ## min and max -/

section MinMax

variable {K : Type} [LT K] [DecidableLT K]

/-- `std::max` returns its first argument unless the second is greater. -/
def stdMax (a b : K) : K := if a < b then b else a

def stdMin (a b : K) : K := if b < a then b else a

end MinMax

section Linear

variable {K : Type} [LinearOrder K]

@[simp] theorem stdMax_eq_max (a b : K) : stdMax a b = max a b := by
  unfold stdMax
  split
  · rename_i h; exact (max_eq_right h.le).symm
  · rename_i h; exact (max_eq_left (not_lt.mp h)).symm

@[simp] theorem stdMin_eq_min (a b : K) : stdMin a b = min a b := by
  unfold stdMin
  split
  · rename_i h; exact (min_eq_right h.le).symm
  · rename_i h; exact (min_eq_left (not_lt.mp h)).symm

end Linear

/-! ## `double` -/

/-- A finite value, an infinity or a NaN. The two zeros are one value. -/
inductive Double
  | nan
  | inf (negative : Bool)
  | fin (value : ℚ)
  deriving DecidableEq

/-- How the result of an operation on finite values is rounded. It may overflow to an
infinity, and it is never a NaN. -/
class Rounding where
  round : ℚ → Double
  round_ne_nan : ∀ q, round q ≠ .nan

@[reducible] def Rounding.exact : Rounding := ⟨.fin, fun _ => nofun⟩

namespace Double

instance : Inhabited Double := ⟨.fin 0⟩
instance : Zero Double := ⟨.fin 0⟩
instance : One Double := ⟨.fin 1⟩
instance : OfScientific Double := ⟨fun m s e => .fin (OfScientific.ofScientific m s e)⟩

def lt : Double → Double → Bool
  | .nan, _ | _, .nan => false
  | .inf n, .inf m => n && !m
  | .inf n, .fin _ => n
  | .fin _, .inf m => !m
  | .fin x, .fin y => decide (x < y)

def le : Double → Double → Bool
  | .nan, _ | _, .nan => false
  | .inf n, .inf m => n || !m
  | .inf n, .fin _ => n
  | .fin _, .inf m => !m
  | .fin x, .fin y => decide (x ≤ y)

instance : LT Double := ⟨fun a b => lt a b = true⟩
instance : LE Double := ⟨fun a b => le a b = true⟩
instance : DecidableLT Double := fun a b => inferInstanceAs (Decidable (lt a b = true))
instance : DecidableLE Double := fun a b => inferInstanceAs (Decidable (le a b = true))

def isFinite : Double → Bool
  | .fin _ => true
  | _ => false

def isNan : Double → Bool
  | .nan => true
  | _ => false

def neg : Double → Double
  | .nan => .nan
  | .inf n => .inf !n
  | .fin x => .fin (-x)

instance : Neg Double := ⟨neg⟩

def abs : Double → Double
  | .nan => .nan
  | .inf _ => .inf false
  | .fin x => .fin |x|

section Arithmetic

variable [Rounding]

def add : Double → Double → Double
  | .nan, _ | _, .nan => .nan
  | .inf n, .inf m => if n = m then .inf n else .nan
  | .inf n, .fin _ => .inf n
  | .fin _, .inf m => .inf m
  | .fin x, .fin y => Rounding.round (x + y)

def mul : Double → Double → Double
  | .nan, _ | _, .nan => .nan
  | .inf n, .inf m => .inf (n != m)
  | .inf n, .fin y => if y = 0 then .nan else .inf (n != decide (y < 0))
  | .fin x, .inf m => if x = 0 then .nan else .inf (m != decide (x < 0))
  | .fin x, .fin y => Rounding.round (x * y)

def div : Double → Double → Double
  | .nan, _ | _, .nan => .nan
  | .inf _, .inf _ => .nan
  | .inf n, .fin y => .inf (n != decide (y < 0))
  | .fin _, .inf _ => .fin 0
  | .fin x, .fin y =>
    if y = 0 then if x = 0 then .nan else .inf (decide (x < 0)) else Rounding.round (x / y)

instance : Add Double := ⟨add⟩
instance : Sub Double := ⟨fun a b => add a (-b)⟩
instance : Mul Double := ⟨mul⟩
instance : Div Double := ⟨div⟩

def ofUnsigned (n : ℕ) : Double := Rounding.round n

end Arithmetic

/-- A cast to an unsigned integer, for a value that is one when the fraction is cut off. -/
def truncate : Double → ℕ
  | .fin x => ⌊x⌋₊
  | _ => 0

/-- The value of a 64-bit pattern: sign, 11 exponent bits, 52 fraction bits. -/
def ofBits (bits : UInt64) : Double :=
  let exponent : ℕ := bits.toNat / 2 ^ 52 % 2 ^ 11
  let fraction : ℕ := bits.toNat % 2 ^ 52
  let negative := decide (2 ^ 63 ≤ bits.toNat)
  if exponent = 2 ^ 11 - 1 then if fraction = 0 then .inf negative else .nan
  else
    let magnitude : ℚ :=
      if exponent = 0 then (fraction : ℚ) / 2 ^ 1074
      else (2 ^ 52 + fraction : ℕ) * 2 ^ exponent / 2 ^ 1075
    .fin (if negative then -magnitude else magnitude)

/-- The value of a 32-bit pattern: sign, 8 exponent bits, 23 fraction bits. -/
def ofFloat (bits : UInt32) : Double :=
  let exponent : ℕ := bits.toNat / 2 ^ 23 % 2 ^ 8
  let fraction : ℕ := bits.toNat % 2 ^ 23
  let negative := decide (2 ^ 31 ≤ bits.toNat)
  if exponent = 2 ^ 8 - 1 then if fraction = 0 then .inf negative else .nan
  else
    let magnitude : ℚ :=
      if exponent = 0 then (fraction : ℚ) / 2 ^ 149
      else (2 ^ 23 + fraction : ℕ) * 2 ^ exponent / 2 ^ 150
    .fin (if negative then -magnitude else magnitude)

example : [ofFloat 0x3F800000, ofFloat 0xBE000000, ofFloat 0x7FC00000, ofFloat 0xFF800000] =
    [.fin 1, .fin (-1 / 8), .nan, .inf true] := by decide +kernel

/-! ## Comparison -/

theorem lt_def (a b : Double) : a < b ↔ lt a b = true := Iff.rfl
theorem le_def (a b : Double) : a ≤ b ↔ le a b = true := Iff.rfl

@[simp] theorem zero_eq : (0 : Double) = .fin 0 := rfl
@[simp] theorem one_eq : (1 : Double) = .fin 1 := rfl

@[simp] theorem fin_lt_fin (x y : ℚ) : (fin x : Double) < .fin y ↔ x < y := by simp [lt_def, lt]
@[simp] theorem fin_le_fin (x y : ℚ) : (fin x : Double) ≤ .fin y ↔ x ≤ y := by simp [le_def, le]
@[simp] theorem not_nan_lt (a : Double) : ¬ (nan : Double) < a := by cases a <;> simp [lt_def, lt]
@[simp] theorem not_lt_nan (a : Double) : ¬ a < .nan := by cases a <;> simp [lt_def, lt]
@[simp] theorem not_nan_le (a : Double) : ¬ (nan : Double) ≤ a := by cases a <;> simp [le_def, le]
@[simp] theorem not_le_nan (a : Double) : ¬ a ≤ .nan := by cases a <;> simp [le_def, le]

@[simp] theorem fin_lt_inf (x : ℚ) (m : Bool) : (fin x : Double) < .inf m ↔ m = false := by
  simp [lt_def, lt]
@[simp] theorem not_inf_lt (a : Double) : ¬ (inf false : Double) < a := by
  cases a <;> simp [lt_def, lt]
@[simp] theorem le_inf (a : Double) : a ≤ .inf false ↔ a ≠ .nan := by
  cases a <;> simp [le_def, le]
@[simp] theorem inf_lt_fin (x : ℚ) (m : Bool) : (inf m : Double) < .fin x ↔ m = true := by
  simp [lt_def, lt]

theorem lt_irrefl (a : Double) : ¬ a < a := by
  cases a <;> simp [lt_def, lt]

theorem lt_of_not_le {a b : Double} (ha : a ≠ .nan) (hb : b ≠ .nan) (h : ¬ b ≤ a) : a < b := by
  cases a <;> cases b <;> simp_all [lt_def, le_def, lt, le]

theorem lt_asymm {a b : Double} (h : a < b) : ¬ b ≤ a := by
  cases a <;> cases b <;> simp_all [lt_def, le_def, lt, le]

protected theorem le_refl {a : Double} (h : a ≠ .nan) : a ≤ a := by
  cases a <;> simp_all [le_def, le]

protected theorem le_of_lt {a b : Double} (h : a < b) : a ≤ b := by
  cases a <;> cases b <;> simp_all [lt_def, le_def, lt, le]
  exact h.le

protected theorem le_trans {a b c : Double} (hab : a ≤ b) (hbc : b ≤ c) : a ≤ c := by
  cases a with
  | nan => exact absurd hab (not_nan_le b)
  | inf n => cases b <;> cases c <;> cases n <;> simp_all [le_def, le]
  | fin x =>
    cases b with
    | nan => exact absurd hab (not_le_nan _)
    | inf m => cases c <;> cases m <;> simp_all [le_def, le]
    | fin y =>
      cases c with
      | nan => exact absurd hbc (not_le_nan _)
      | inf k => cases k <;> simp_all [le_def, le]
      | fin z => exact (fin_le_fin x z).mpr (((fin_le_fin x y).mp hab).trans ((fin_le_fin y z).mp hbc))

theorem nan_or_lt_of_not_lt {a b c : Double} (hab : a < b) (hcb : ¬ c < b) : c = .nan ∨ a < c := by
  cases a <;> cases b <;> cases c <;> simp_all [lt_def, lt]
  linarith

/-- A clamp to an interval, also of a NaN. -/
theorem stdMax_stdMin_mem {l u : Double} (h : l ≤ u) (a : Double) :
    l ≤ stdMax l (stdMin u a) ∧ stdMax l (stdMin u a) ≤ u := by
  have hl : l ≠ .nan := by
    rintro rfl
    exact not_nan_le u h
  have hu : u ≠ .nan := by
    rintro rfl
    exact not_le_nan l h
  have hmin : stdMin u a ≤ u ∧ stdMin u a ≠ .nan := by
    unfold stdMin
    split
    · rename_i hlt
      exact ⟨Double.le_of_lt hlt, fun hnan => not_nan_lt u (hnan ▸ hlt)⟩
    · exact ⟨Double.le_refl hu, hu⟩
  unfold stdMax
  split
  · rename_i hlt
    exact ⟨Double.le_of_lt hlt, hmin.1⟩
  · exact ⟨Double.le_refl hl, h⟩

/-- What a failed test for greater leaves: a NaN on either side passes it. -/
def AtMost (a b : Double) : Prop := a = .nan ∨ b = .nan ∨ a ≤ b

theorem atMost_iff (a b : Double) : AtMost a b ↔ ¬ b < a := by
  unfold AtMost
  constructor
  · rintro (rfl | rfl | h)
    · exact not_lt_nan b
    · exact not_nan_lt a
    · exact fun hlt => lt_asymm hlt h
  · intro h
    by_contra hnot
    simp only [not_or] at hnot
    obtain ⟨ha, hb, hle⟩ := hnot
    exact h (lt_of_not_le hb ha hle)

theorem not_stdMax_lt {a c : Double} (h : ¬ a < c) (b : Double) : ¬ stdMax a b < c := by
  unfold stdMax
  split
  · cases a <;> cases b <;> cases c <;> simp_all [lt_def, lt]
    linarith
  · exact h

theorem stdMax_zero_cases (x : Double) : stdMax 0 x = 0 ∨ 0 < stdMax 0 x := by
  unfold stdMax
  split
  · exact .inr (by assumption)
  · exact .inl rfl

/-! ## Finite values -/

@[simp] theorem isFinite_fin (x : ℚ) : isFinite (.fin x) = true := rfl
@[simp] theorem isFinite_nan : isFinite .nan = false := rfl
@[simp] theorem isFinite_inf (n : Bool) : isFinite (.inf n) = false := rfl
@[simp] theorem neg_fin (x : ℚ) : -(fin x : Double) = .fin (-x) := rfl
@[simp] theorem abs_fin (x : ℚ) : abs (.fin x) = .fin |x| := rfl

theorem stdMax_fin (x y : ℚ) : stdMax (fin x : Double) (.fin y) = .fin (max x y) := by
  rw [← stdMax_eq_max, stdMax, stdMax]
  simp only [fin_lt_fin]
  split <;> rfl

theorem stdMin_fin (x y : ℚ) : stdMin (fin x : Double) (.fin y) = .fin (min x y) := by
  rw [← stdMin_eq_min, stdMin, stdMin]
  simp only [fin_lt_fin]
  split <;> rfl

theorem nan_sub [Rounding] (a : Double) : nan - a = .nan := by
  cases a <;> rfl

theorem nan_add [Rounding] (a : Double) : nan + a = .nan := by
  cases a <;> rfl

theorem add_nan [Rounding] (a : Double) : a + nan = .nan := by
  cases a <;> rfl

theorem inf_add_sub_inf [Rounding] (n : Bool) (a : Double) : inf n + (a - .inf n) = .nan := by
  cases a with
  | nan => rfl
  | inf m => cases n <;> cases m <;> rfl
  | fin x => cases n <;> rfl

theorem inf_sub_fin [Rounding] (n : Bool) (x : ℚ) : (inf n : Double) - .fin x = .inf n := rfl

theorem inf_add_cases [Rounding] (n : Bool) (x : Double) : inf n + x = .nan ∨ inf n + x = .inf n := by
  cases x with
  | nan => exact .inl rfl
  | inf m => cases n <;> cases m <;> simp [HAdd.hAdd, Add.add, add]
  | fin x => exact .inr rfl

theorem isFinite_iff (a : Double) : isFinite a = true ↔ ∃ x, a = .fin x := by
  cases a <;> simp

section Overflow

variable [Rounding]

/-- The sum of finite numbers does not overflow. -/
def Adds (a b : Double) : Prop := a.isFinite = true ∧ b.isFinite = true ∧ (a + b).isFinite = true

def Multiplies (a b : Double) : Prop :=
  a.isFinite = true ∧ b.isFinite = true ∧ (a * b).isFinite = true

instance (a b : Double) : Decidable (Adds a b) := inferInstanceAs (Decidable (_ ∧ _ ∧ _))
instance (a b : Double) : Decidable (Multiplies a b) := inferInstanceAs (Decidable (_ ∧ _ ∧ _))

theorem isFinite_add (a b : Double) : (a + b).isFinite = true ↔ Adds a b := by
  refine ⟨fun h => ?_, fun h => h.2.2⟩
  cases a with
  | nan => cases h
  | inf n => rcases inf_add_cases n b with hb | hb <;> rw [hb] at h <;> cases h
  | fin x =>
    cases b with
    | nan | inf => cases h
    | fin y => exact ⟨rfl, rfl, h⟩

theorem isFinite_mul (a b : Double) : (a * b).isFinite = true ↔ Multiplies a b := by
  refine ⟨fun h => ?_, fun h => h.2.2⟩
  cases a with
  | nan => cases h
  | inf n =>
    cases b with
    | nan | inf => cases h
    | fin y => by_cases hy : y = 0 <;> simp [HMul.hMul, Mul.mul, mul, hy] at h
  | fin x =>
    cases b with
    | nan => cases h
    | inf n => by_cases hx : x = 0 <;> simp [HMul.hMul, Mul.mul, mul, hx] at h
    | fin y => exact ⟨rfl, rfl, h⟩

end Overflow

/-! ## Clamping -/

def Within (limit a : Double) : Prop := a.isFinite = true ∧ abs a ≤ limit

theorem within_zero (l : ℚ) (hl : 0 ≤ l) : Within (.fin l) 0 := by
  refine ⟨rfl, ?_⟩
  rw [zero_eq, abs_fin, abs_zero, fin_le_fin]
  exact hl

theorem within_clamp (l : ℚ) (hl : 0 ≤ l) (a : Double) (ha : a.isFinite = true) :
    Within (.fin l) (stdMax (-.fin l) (stdMin (.fin l) a)) := by
  obtain ⟨x, rfl⟩ := (isFinite_iff a).mp ha
  rw [stdMin_fin, neg_fin, stdMax_fin]
  refine ⟨rfl, ?_⟩
  rw [abs_fin, fin_le_fin, abs_le]
  exact ⟨le_max_left _ _, max_le (by linarith) (min_le_left _ _)⟩

/-! ## Arithmetic without rounding -/

section Exact

attribute [local instance] Rounding.exact

theorem exact_add (x y : ℚ) : (fin x : Double) + .fin y = .fin (x + y) := rfl

theorem exact_sub (x y : ℚ) : (fin x : Double) - .fin y = .fin (x - y) :=
  congrArg fin (sub_eq_add_neg x y).symm

theorem exact_mul (x y : ℚ) : (fin x : Double) * .fin y = .fin (x * y) := rfl

theorem exact_div (x y : ℚ) (hy : y ≠ 0) : (fin x : Double) / .fin y = .fin (x / y) :=
  if_neg hy

theorem exact_isFinite_sub {a b : Double} (ha : a.isFinite = true) (hb : b.isFinite = true) :
    (a - b).isFinite = true := by
  obtain ⟨x, rfl⟩ := (isFinite_iff a).mp ha
  obtain ⟨y, rfl⟩ := (isFinite_iff b).mp hb
  rfl

theorem exact_isFinite_mul {a b : Double} (ha : a.isFinite = true) (hb : b.isFinite = true) :
    (a * b).isFinite = true := by
  obtain ⟨x, rfl⟩ := (isFinite_iff a).mp ha
  obtain ⟨y, rfl⟩ := (isFinite_iff b).mp hb
  rfl

end Exact

theorem ofUnsigned_div_ne_nan [Rounding] (n : ℕ) (y : ℚ) (hy : y ≠ 0) :
    ofUnsigned n / .fin y ≠ .nan := by
  change div (ofUnsigned n) (.fin y) ≠ .nan
  cases h : ofUnsigned n with
  | nan => exact absurd h (Rounding.round_ne_nan _)
  | inf m => simp [div]
  | fin x =>
    simp only [div, if_neg hy]
    exact Rounding.round_ne_nan _

/-! ## Rounding that keeps the order -/

/-- Rounding is monotone, and leaves zero, one and each value that it returns alone. -/
class Lawful [Rounding] : Prop where
  round_mono : ∀ {q r : ℚ}, q ≤ r → Rounding.round q ≤ Rounding.round r
  round_zero : Rounding.round 0 = .fin 0
  round_one : Rounding.round 1 = .fin 1
  round_fin : ∀ {q x : ℚ}, Rounding.round q = .fin x → Rounding.round x = .fin x

theorem exact_lawful : @Lawful Rounding.exact :=
  let := Rounding.exact
  { round_mono := fun h => (fin_le_fin _ _).mpr h
    round_zero := rfl
    round_one := rfl
    round_fin := fun _ => rfl }

section Lawful

variable [Rounding]

/-- A finite value that is not negative, as an operation returns it. -/
def Magnitude (a : Double) : Prop := ∃ x, a = .fin x ∧ 0 ≤ x ∧ Rounding.round x = .fin x

theorem magnitude_of_lt_one {a : Double} (ha : ¬ a < 0) (hlt : a < 1)
    (hround : ∀ x, a = .fin x → Rounding.round x = .fin x) : Magnitude a := by
  cases a with
  | nan => exact absurd hlt (not_nan_lt 1)
  | inf n => cases n <;> simp_all
  | fin x => exact ⟨x, rfl, by simpa using ha, hround x rfl⟩

variable [Lawful]

theorem round_nonneg {q : ℚ} (hq : 0 ≤ q) : (0 : Double) ≤ Rounding.round q := by
  have h := Lawful.round_mono hq
  rwa [Lawful.round_zero] at h

/-- Division by a positive number keeps the order. -/
theorem ofUnsigned_div_mono {m n : ℕ} (h : m ≤ n) {y : ℚ} (hy : 0 < y) :
    ofUnsigned m / .fin y ≤ ofUnsigned n / .fin y := by
  have hle : ofUnsigned m ≤ ofUnsigned n := Lawful.round_mono (by exact_mod_cast h)
  have hpos : (0 : Double) ≤ ofUnsigned m := round_nonneg (Nat.cast_nonneg m)
  change div _ _ ≤ div _ _
  cases hm : ofUnsigned m with
  | nan => exact absurd hm (Rounding.round_ne_nan _)
  | inf k =>
    rw [hm] at hle hpos
    cases hn : ofUnsigned n with
    | nan => exact absurd hn (Rounding.round_ne_nan _)
    | inf l => rw [hn] at hle; cases k <;> cases l <;> simp_all [le_def, le, div]
    | fin z => rw [hn] at hle; cases k <;> simp_all [le_def, le]
  | fin x =>
    rw [hm] at hle
    cases hn : ofUnsigned n with
    | nan => exact absurd hn (Rounding.round_ne_nan _)
    | inf l =>
      rw [hn] at hle
      obtain rfl : l = false := by simpa [le_def, le] using hle
      simp only [div, if_neg hy.ne', not_lt.mpr hy.le, decide_false, bne_self_eq_false]
      exact (le_inf _).mpr (Rounding.round_ne_nan _)
    | fin z =>
      rw [hn] at hle
      simp only [div, if_neg hy.ne']
      exact Lawful.round_mono (by gcongr; exact (fin_le_fin x z).mp hle)

/-- A number that is positive, or no number, divides one that is not negative. -/
theorem not_div_lt_zero {a b : Double} (ha : ¬ a < 0) (hb : b = .nan ∨ 0 < b) : ¬ a / b < 0 := by
  change ¬ div a b < 0
  rcases hb with rfl | hb
  · cases a <;> exact not_nan_lt 0
  · cases a with
    | nan => exact not_nan_lt 0
    | inf n =>
      have hn : n = false := by simpa using ha
      subst hn
      cases b with
      | nan => exact absurd hb (not_lt_nan 0)
      | inf m => exact not_nan_lt 0
      | fin y =>
        have hy : ¬ y < 0 := not_lt.mpr ((fin_lt_fin 0 y).mp hb).le
        simp [div, hy]
    | fin x =>
      cases b with
      | nan => exact absurd hb (not_lt_nan 0)
      | inf m => exact lt_irrefl 0
      | fin y =>
        have hx : 0 ≤ x := by simpa using ha
        rw [zero_eq, fin_lt_fin] at hb
        simp only [div, if_neg hb.ne']
        exact fun h => lt_asymm h (round_nonneg (div_nonneg hx hb.le))

theorem magnitude_zero : Magnitude 0 := ⟨0, rfl, le_refl 0, Lawful.round_zero⟩

theorem magnitude_one : Magnitude 1 := ⟨1, rfl, zero_le_one, Lawful.round_one⟩

theorem round_of_add {x y : ℚ} {b : Double} (h : fin x + b = .fin y) :
    Rounding.round y = .fin y := by
  cases b with
  | nan | inf => cases h
  | fin z => exact Lawful.round_fin h

theorem not_add_lt_zero {x : ℚ} {b : Double} (hx : 0 ≤ x) (hb : ¬ b < 0) : ¬ fin x + b < 0 := by
  cases b with
  | nan => exact not_nan_lt 0
  | inf n => exact hb
  | fin y =>
    have hy : 0 ≤ y := by simpa using hb
    exact fun h => lt_asymm h (round_nonneg (add_nonneg hx hy))

theorem magnitude_stdMin_one_add {a b : Double} (ha : Magnitude a) (hb : ¬ b < 0) :
    Magnitude (stdMin 1 (a + b)) := by
  obtain ⟨x, rfl, hx, -⟩ := ha
  unfold stdMin
  split
  · exact magnitude_of_lt_one (not_add_lt_zero hx hb) (by assumption) fun y => round_of_add
  · exact magnitude_one

/-- Taking away what is not negative leaves at most what was there. -/
theorem not_lt_sub {a b : Double} (ha : Magnitude a) (hb : ¬ b < 0) : ¬ a < a - b := by
  obtain ⟨x, rfl, -, hx⟩ := ha
  cases b with
  | nan => exact not_lt_nan _
  | inf n =>
    have hn : n = false := by simpa using hb
    subst hn
    change ¬ (fin x : Double) < .inf true
    simp
  | fin y =>
    have hy : 0 ≤ y := by simpa using hb
    change ¬ (fin x : Double) < Rounding.round (x + -y)
    have hle : Rounding.round (x + -y) ≤ Rounding.round x := Lawful.round_mono (by linarith)
    rw [hx] at hle
    exact fun h => lt_asymm h hle

theorem magnitude_stdMax_zero_sub {a b : Double} (ha : Magnitude a) (hb : ¬ b < 0) :
    Magnitude (stdMax 0 (a - b)) := by
  have hle := not_lt_sub ha hb
  obtain ⟨x, rfl, hx, -⟩ := ha
  unfold stdMax
  split
  · rename_i hpos
    cases hsub : fin x - b with
    | nan => simp [hsub] at hpos
    | inf n => cases n <;> simp_all
    | fin y =>
      rw [hsub, zero_eq, fin_lt_fin] at hpos
      exact ⟨y, rfl, hpos.le, round_of_add hsub⟩
  · exact magnitude_zero

end Lawful

/-! ## Text -/

/-- The nearest integer, an even one in the middle. -/
def nearest (x : ℚ) : ℤ :=
  let below := ⌊x⌋
  if x - below < 1 / 2 then below
  else if 1 / 2 < x - below then below + 1
  else if below % 2 = 0 then below else below + 1

/-- A stream with `std::ios::fixed` and a precision of 2. -/
def fixed2 : Double → String
  | .nan => "nan"
  | .inf negative => if negative then "-inf" else "inf"
  | .fin x =>
    let cents := (nearest (|x| * 100)).toNat
    (if x < 0 then "-" else "") ++ toString (cents / 100) ++ "." ++
      toString (cents / 10 % 10) ++ toString (cents % 10)

example : [fixed2 (.fin (-1 / 3)), fixed2 20.005] = ["-0.33", "20.00"] := by decide +kernel

end Double

end Num
