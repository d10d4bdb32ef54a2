import Mathlib

/-!
# Serial numbers and the newest delivery

Sequence numbers that wrap around, and what a register that keeps the newest message holds
after deliveries that were reordered, repeated or lost.
-/

namespace Serial

/-! ## Serial order -/

variable {w : ℕ}

/-- `a` comes after `b`: the way up from `b` to `a` is the shorter one. -/
def Newer (a b : BitVec w) : Prop := a ≠ b ∧ (a - b).toNat < 2 ^ (w - 1)

instance (a b : BitVec w) : Decidable (Newer a b) :=
  inferInstanceAs (Decidable (a ≠ b ∧ (a - b).toNat < 2 ^ (w - 1)))

theorem two_pow_pred_le (w : ℕ) : 2 ^ (w - 1) ≤ 2 ^ w :=
  Nat.pow_le_pow_right (by norm_num) (Nat.sub_le w 1)

theorem toNat_sub_of_le (s : BitVec w) {j k : ℕ} (hjk : k ≤ j) (hj : j < 2 ^ w) :
    (s + BitVec.ofNat w j - (s + BitVec.ofNat w k)).toNat = j - k := by
  have hoff : s + BitVec.ofNat w j - (s + BitVec.ofNat w k) = BitVec.ofNat w (j - k) := by
    rw [add_sub_add_left_eq_sub, sub_eq_iff_eq_add, ← BitVec.ofNat_add, Nat.sub_add_cancel hjk]
  rw [hoff, BitVec.toNat_ofNat, Nat.mod_eq_of_lt (by omega)]

theorem add_ofNat_inj (s : BitVec w) {j k : ℕ} (hj : j < 2 ^ w) (hk : k < 2 ^ w) :
    s + BitVec.ofNat w j = s + BitVec.ofNat w k ↔ j = k := by
  rw [add_right_inj]
  constructor
  · intro h
    have := congrArg BitVec.toNat h
    rwa [BitVec.toNat_ofNat, BitVec.toNat_ofNat, Nat.mod_eq_of_lt hj, Nat.mod_eq_of_lt hk] at this
  · rintro rfl
    rfl

/-- Within half the range, serial order is the order of the offsets. -/
theorem newer_add_iff (s : BitVec w) {j k : ℕ} (hj : j < 2 ^ (w - 1)) (hk : k < 2 ^ (w - 1)) :
    Newer (s + BitVec.ofNat w j) (s + BitVec.ofNat w k) ↔ k < j := by
  have hjw := hj.trans_le (two_pow_pred_le w)
  have hkw := hk.trans_le (two_pow_pred_le w)
  unfold Newer
  rw [ne_eq, add_ofNat_inj s hjw hkw]
  rcases Nat.lt_trichotomy k j with h | h | h
  · rw [toNat_sub_of_le s h.le hjw]
    exact ⟨fun _ => h, fun _ => ⟨h.ne', by omega⟩⟩
  · simp [h]
  · have hback := toNat_sub_of_le s h.le hkw
    have hneg : (s + BitVec.ofNat w j - (s + BitVec.ofNat w k)).toNat = 2 ^ w - (k - j) := by
      rw [← neg_sub, BitVec.toNat_neg, hback, Nat.mod_eq_of_lt (by omega)]
    have hw : w ≠ 0 := by
      rintro rfl
      simp at hj hk
      omega
    have hpow : 2 ^ w = 2 * 2 ^ (w - 1) := by
      rw [← pow_succ', Nat.sub_add_cancel (Nat.pos_of_ne_zero hw)]
    rw [hneg, hpow]
    exact ⟨fun hlt => by omega, fun hlt => by omega⟩

/-! ## The newest delivery -/

variable {τ : Type}

/-- Keeps the newer of two deliveries, and the older arrival of one message. -/
def keep : Option (ℕ × τ) → ℕ × τ → Option (ℕ × τ)
  | none, d => some d
  | some m, d => if m.1 < d.1 then some d else some m

/-- The first arrival of the message with the highest number. -/
def highest (ds : List (ℕ × τ)) : Option (ℕ × τ) := ds.foldl keep none

@[simp] theorem highest_nil : highest ([] : List (ℕ × τ)) = none := rfl

theorem highest_concat (ds : List (ℕ × τ)) (d : ℕ × τ) :
    highest (ds ++ [d]) = keep (highest ds) d := by
  simp [highest, List.foldl_append]

theorem highest_eq_none_iff (ds : List (ℕ × τ)) : highest ds = none ↔ ds = [] := by
  rcases ds.eq_nil_or_concat with rfl | ⟨ds, d, rfl⟩
  · simp
  · rw [List.concat_eq_append, highest_concat]
    cases h : highest ds with
    | none => simp [keep]
    | some m => simp only [keep]; split <;> simp

theorem highest_spec (ds : List (ℕ × τ)) (m : ℕ × τ) (h : highest ds = some m) :
    m ∈ ds ∧ ∀ d ∈ ds, d.1 ≤ m.1 := by
  induction ds using List.reverseRecOn generalizing m with
  | nil => simp at h
  | append_singleton ds d ih =>
    rw [highest_concat] at h
    cases hm : highest ds with
    | none =>
      obtain rfl := (highest_eq_none_iff ds).mp hm
      rw [hm] at h
      obtain rfl : d = m := by simpa [keep] using h
      simp
    | some x =>
      obtain ⟨hmem, hle⟩ := ih x hm
      rw [hm] at h
      simp only [keep] at h
      split at h <;> obtain rfl := Option.some.inj h
      · refine ⟨by simp, fun e he => ?_⟩
        rcases List.mem_append.mp he with he | he
        · exact (hle e he).trans (by omega)
        · rw [List.mem_singleton.mp he]
      · refine ⟨List.mem_append_left _ hmem, fun e he => ?_⟩
        rcases List.mem_append.mp he with he | he
        · exact hle e he
        · rw [List.mem_singleton.mp he]
          omega

/-- Each delivery is newer than the one before it, or is that one over again. -/
def InOrder (ds : List (ℕ × τ)) : Prop := ds.IsChain fun m d => m.1 < d.1 ∨ d = m

/-- The last delivery is the highest one after each delivery, exactly when they come in order. -/
theorem last_highest_iff (ds : List (ℕ × τ)) :
    (∀ i, (ds.take i).getLast? = highest (ds.take i)) ↔ InOrder ds := by
  induction ds using List.reverseRecOn with
  | nil => simp [InOrder]
  | append_singleton ds d ih =>
    have hlast : (∀ i, ((ds ++ [d]).take i).getLast? = highest ((ds ++ [d]).take i)) ↔
        (∀ i, (ds.take i).getLast? = highest (ds.take i)) ∧ some d = keep (highest ds) d := by
      rw [← highest_concat]
      constructor
      · intro h
        have hall := h (ds ++ [d]).length
        rw [List.take_length, List.getLast?_append, List.getLast?_singleton] at hall
        refine ⟨fun i => ?_, hall⟩
        rcases Nat.le_total i ds.length with hi | hi
        · simpa [List.take_append_of_le_length hi] using h i
        · simpa [List.take_of_length_le hi] using h ds.length
      · rintro ⟨hds, hd⟩ i
        rcases Nat.lt_or_ge ds.length i with hi | hi
        · rw [List.take_of_length_le (by simp; omega), ← hd]
          simp
        · rw [List.take_append_of_le_length hi]
          exact hds i
    rw [hlast, ih]
    unfold InOrder
    rw [List.isChain_append]
    refine and_congr_right fun hchain => ?_
    have hlast := (ih.mpr hchain) ds.length
    rw [List.take_length] at hlast
    rw [← hlast]
    cases h : ds.getLast? with
    | none => simp [keep]
    | some m =>
      simp only [keep, List.isChain_singleton, List.head?_cons, Option.mem_some_iff, true_and,
        forall_eq']
      by_cases hlt : m.1 < d.1
      · simp [hlt]
      · simp [hlt]

/-! ## Numbers that only go forward -/

/-- No number lies behind the one before it. -/
def Forward (ns : List (BitVec w)) : Prop := ns.IsChain fun a b => (b - a).toNat < 2 ^ (w - 1)

instance : DecidablePred (Forward (w := w)) := fun ns =>
  inferInstanceAs (Decidable (ns.IsChain fun a b => (b - a).toNat < 2 ^ (w - 1)))

/-- The way from the first number to the last one, with each wrap-around counted. -/
def distance : List (BitVec w) → ℕ
  | a :: b :: ns => (b - a).toNat + distance (b :: ns)
  | _ => 0

/-- How many numbers differ from the one before. -/
def advances : List (BitVec w) → ℕ
  | a :: b :: ns => (if b = a then 0 else 1) + advances (b :: ns)
  | _ => 0

theorem toNat_sub_ne_zero {a b : BitVec w} (h : b ≠ a) : (b - a).toNat ≠ 0 := by
  intro hzero
  exact h (sub_eq_zero.mp (BitVec.eq_of_toNat_eq hzero))

theorem ofNat_pred {a b : BitVec w} (h : b ≠ a) :
    BitVec.ofNat w ((b - a).toNat - 1) = b - a - 1 := by
  have hle : 1 ≤ (b - a).toNat := Nat.one_le_iff_ne_zero.mpr (toNat_sub_ne_zero h)
  rw [← BitVec.ofNat_sub_ofNat_of_le _ _ ?_ hle, BitVec.ofNat_toNat, BitVec.setWidth_eq]
  · rfl
  · exact hle.trans_lt (b - a).isLt

theorem advances_le_distance (ns : List (BitVec w)) : advances ns ≤ distance ns := by
  induction ns using distance.induct with
  | case1 a b ns ih =>
    rw [advances, distance]
    split
    · omega
    · have := toNat_sub_ne_zero (by assumption : b ≠ a)
      omega
  | case2 ns h => rw [advances.eq_2 ns h, distance.eq_2 ns h]

theorem ofNat_distance (a : BitVec w) (ns : List (BitVec w)) :
    BitVec.ofNat w (distance (a :: ns)) = (a :: ns).getLast (List.cons_ne_nil a ns) - a := by
  induction ns generalizing a with
  | nil => simp [distance]
  | cons b ns ih =>
    rw [distance, BitVec.ofNat_add, BitVec.ofNat_toNat, BitVec.setWidth_eq, ih b,
      List.getLast_cons (List.cons_ne_nil b ns)]
    abel

end Serial
