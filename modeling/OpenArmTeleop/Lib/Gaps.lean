import Mathlib

/-!
# Numbers that are left out

What lies between the smallest and the largest number of a list and is not in it.
-/

namespace Gaps

/-- The numbers that are left out between two numbers of the list. -/
def leftOut (l : List ℕ) : Set ℕ := {i | i ∉ l ∧ (∃ j ∈ l, j < i) ∧ ∃ k ∈ l, i < k}

/-- How many numbers the steps of a list go over, with the newest number first. -/
def skipped : List ℕ → ℕ
  | j :: k :: l => (j - k - 1) + skipped (k :: l)
  | _ => 0

theorem leftOut_cons {j k : ℕ} {l : List ℕ} (hl : (j :: k :: l).Pairwise (· ≥ ·)) :
    leftOut (j :: k :: l) = leftOut (k :: l) ∪ Set.Ioo k j := by
  obtain ⟨hj, hl⟩ := List.pairwise_cons.mp hl
  obtain ⟨hk, -⟩ := List.pairwise_cons.mp hl
  have hle : ∀ i ∈ k :: l, i ≤ k := by
    intro i hi
    rcases List.mem_cons.mp hi with rfl | hi
    · exact le_refl _
    · exact hk i hi
  ext i
  constructor
  · rintro ⟨hnot, ⟨m, hm, hmi⟩, n, hn, hin⟩
    rw [List.mem_cons, not_or] at hnot
    by_cases hik : i ≤ k
    · left
      refine ⟨hnot.2, ?_, k, List.mem_cons_self, ?_⟩
      · rcases List.mem_cons.mp hm with rfl | hm
        · have := hj k List.mem_cons_self
          omega
        · exact ⟨m, hm, hmi⟩
      · exact lt_of_le_of_ne hik fun heq => hnot.2 (heq ▸ List.mem_cons_self)
    · right
      refine ⟨by omega, ?_⟩
      rcases List.mem_cons.mp hn with rfl | hn
      · exact hin
      · have := hle n hn
        omega
  · rintro (⟨hnot, ⟨m, hm, hmi⟩, n, hn, hin⟩ | ⟨hki, hij⟩)
    · refine ⟨?_, ⟨m, List.mem_cons_of_mem _ hm, hmi⟩, n, List.mem_cons_of_mem _ hn, hin⟩
      rw [List.mem_cons, not_or]
      refine ⟨?_, hnot⟩
      have := hj k List.mem_cons_self
      have := hle n hn
      omega
    · refine ⟨fun hi => ?_, ⟨k, by simp, hki⟩, j, by simp, hij⟩
      rcases List.mem_cons.mp hi with rfl | hi
      · exact lt_irrefl _ hij
      · have := hle i hi
        omega

theorem finite_leftOut (l : List ℕ) : (leftOut l).Finite := by
  refine (Set.finite_Iio (l.foldr max 0)).subset ?_
  rintro i ⟨-, -, k, hk, hik⟩
  exact lt_of_lt_of_le hik (List.le_max_of_le hk (le_refl _))

/-- In a list that never goes back, the steps go over exactly the numbers that are left out. -/
theorem ncard_leftOut {l : List ℕ} (hl : l.Pairwise (· ≥ ·)) : (leftOut l).ncard = skipped l := by
  induction l with
  | nil => simp [leftOut, skipped]
  | cons j l ih =>
    cases l with
    | nil =>
      have hnone : leftOut [j] = ∅ := by
        ext i
        simp only [leftOut, List.mem_singleton, exists_eq_left, Set.mem_ofPred_eq,
          Set.mem_empty_iff_false, iff_false]
        omega
      rw [hnone, Set.ncard_empty]
      rfl
    | cons k l =>
      have hdisjoint : Disjoint (leftOut (k :: l)) (Set.Ioo k j) := by
        rw [Set.disjoint_left]
        rintro i ⟨-, -, n, hn, hin⟩ ⟨hki, -⟩
        rcases List.mem_cons.mp hn with rfl | hn
        · omega
        · have := (List.pairwise_cons.mp (List.pairwise_cons.mp hl).2).1 n hn
          omega
      have hwidth : (Set.Ioo k j).ncard = j - k - 1 := by
        rw [← Finset.coe_Ioo, Set.ncard_coe_finset, Nat.card_Ioo]
      rw [leftOut_cons hl, Set.ncard_union_eq hdisjoint (finite_leftOut _) (Set.finite_Ioo _ _),
        ih (List.pairwise_cons.mp hl).2, hwidth, skipped, Nat.add_comm]

theorem skipped_le (j : ℕ) (l : List ℕ) (hl : (j :: l).Pairwise (· ≥ ·)) : skipped (j :: l) ≤ j := by
  induction l generalizing j with
  | nil => exact Nat.zero_le _
  | cons k l ih =>
    obtain ⟨hj, hl⟩ := List.pairwise_cons.mp hl
    have := hj k List.mem_cons_self
    have := ih k hl
    rw [skipped]
    omega

end Gaps
