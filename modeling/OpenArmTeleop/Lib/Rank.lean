import Mathlib

/-!
# Order statistics

The element of a list at a position of its sorted order, by counting, and the nearest rank of a
percentile.
-/

namespace Rank

/-! ## Sorting -/

section Sorting

variable {α : Type} [LE α] [DecidableLE α]

theorem mergeSort_ne_nil {l : List α} (h : l ≠ []) : l.mergeSort ≠ [] := by
  rwa [← List.length_pos_iff, List.length_mergeSort, List.length_pos_iff]

variable [Std.IsLinearOrder α]

theorem pairwise_mergeSort (l : List α) : l.mergeSort.Pairwise (· ≤ ·) := by
  have htrans : ∀ a b c : α, decide (a ≤ b) = true → decide (b ≤ c) = true →
      decide (a ≤ c) = true := by
    intro a b c hab hbc
    rw [decide_eq_true_eq] at *
    exact Std.le_trans hab hbc
  have htotal : ∀ a b : α, (decide (a ≤ b) || decide (b ≤ a)) = true := by
    intro a b
    rw [Bool.or_eq_true, decide_eq_true_eq, decide_eq_true_eq]
    exact Std.le_total
  simpa using List.pairwise_mergeSort htrans htotal l

/-- Sorting forgets the order of a list. -/
theorem mergeSort_congr {l l' : List α} (h : l.Perm l') : l.mergeSort = l'.mergeSort := by
  have hperm : l.mergeSort.Perm l'.mergeSort :=
    (List.mergeSort_perm l _).trans (h.trans (List.mergeSort_perm l' _).symm)
  exact hperm.eq_of_pairwise (fun _ _ _ _ => Std.le_antisymm) (pairwise_mergeSort l)
    (pairwise_mergeSort l')

end Sorting

/-! ## Positions -/

section Order

variable {α : Type} [LE α] [DecidableLE α] [LT α] [DecidableLT α]

/-- In order, `x` stands at position `k` of the list. -/
structure HasRank (l : List α) (k : ℕ) (x : α) : Prop where
  mem : x ∈ l
  below : l.countP (· < x) ≤ k
  upTo : k < l.countP (· ≤ x)

variable {l l' : List α} {j k : ℕ} {x y : α}

theorem HasRank.perm (h : HasRank l k x) (hperm : l.Perm l') : HasRank l' k x where
  mem := hperm.mem_iff.mp h.mem
  below := by
    rw [← hperm.countP_eq]
    exact h.below
  upTo := by
    rw [← hperm.countP_eq]
    exact h.upTo

variable [Std.IsLinearOrder α] [Std.LawfulOrderLT α]

/-- What is greater stands behind. -/
theorem HasRank.above (h : HasRank l k x) : l.countP (x < ·) + k < l.length := by
  have hsplit := List.length_eq_countP_add_countP (· ≤ x) (l := l)
  simp only [decide_eq_true_eq, Std.not_le] at hsplit
  have hupTo := h.upTo
  omega

theorem HasRank.max (h : HasRank l (l.length - 1) x) : ∀ y ∈ l, y ≤ x := by
  have habove := h.above
  have hzero : l.countP (x < ·) = 0 := by omega
  intro y hy
  have hlt := List.countP_eq_zero.mp hzero y hy
  rwa [decide_eq_true_eq, Std.not_lt] at hlt

theorem HasRank.le (hx : HasRank l j x) (hy : HasRank l k y) (h : j ≤ k) : x ≤ y := by
  rw [← Std.not_lt]
  intro hlt
  -- all that is at most `y` is less than `x`, so it would be too little
  have hmono : l.countP (· ≤ y) ≤ l.countP (· < x) := by
    refine List.countP_mono_left fun z _ hz => ?_
    rw [decide_eq_true_eq] at hz ⊢
    exact Std.lt_of_le_of_lt hz hlt
  have hbelow := hx.below
  have hupTo := hy.upTo
  omega

theorem HasRank.of_sorted (hsorted : l.Pairwise (· ≤ ·)) (hx : l[k]? = some x) : HasRank l k x := by
  obtain ⟨hk, hget⟩ := List.getElem?_eq_some_iff.mp hx
  have hlen : (l.take k).length = k := List.length_take_of_le hk.le
  have hsplit : l = l.take k ++ x :: l.drop (k + 1) := by
    rw [← hget, ← List.drop_eq_getElem_cons hk, List.take_append_drop]
  rw [hsplit, List.pairwise_append, List.pairwise_cons] at hsorted
  obtain ⟨-, ⟨hafter, -⟩, hbefore⟩ := hsorted
  refine ⟨hget ▸ List.getElem_mem hk, ?_, ?_⟩
  · have hnone : (x :: l.drop (k + 1)).countP (· < x) = 0 := by
      rw [List.countP_eq_zero]
      intro y hy
      rw [decide_eq_true_eq, Std.not_lt]
      rcases List.mem_cons.mp hy with rfl | hy
      · exact Std.le_refl _
      · exact hafter y hy
    have hle := List.countP_le_length (p := (· < x)) (l := l.take k)
    rw [hsplit, List.countP_append, hnone]
    omega
  · have hall : (l.take k).countP (· ≤ x) = k := by
      rw [List.countP_eq_length.mpr, hlen]
      intro y hy
      rw [decide_eq_true_eq]
      exact hbefore y hy x List.mem_cons_self
    rw [hsplit, List.countP_append, hall, List.countP_cons_of_pos (by simp [Std.le_refl])]
    omega

theorem hasRank_mergeSort (hx : l.mergeSort[k]? = some x) : HasRank l k x :=
  (HasRank.of_sorted (pairwise_mergeSort l) hx).perm (List.mergeSort_perm l _)

theorem hasRank_last (hlast : l.mergeSort.getLast? = some x) : HasRank l (l.length - 1) x := by
  rw [List.getLast?_eq_getElem?, List.length_mergeSort] at hlast
  exact hasRank_mergeSort hlast

end Order

/-! ## Percentiles -/

section Percentile

variable {K : Type} [Field K] [LinearOrder K] [IsStrictOrderedRing K] [FloorSemiring K]

/-- The position of a percentile among `n` elements, rounded to the nearest one. -/
def nearestRank (p : K) (n : ℕ) : ℕ := ⌊p * (n - 1 : ℕ) + 1 / 2⌋₊

variable {p q : K}

theorem nearestRank_mono (h : p ≤ q) (n : ℕ) : nearestRank p n ≤ nearestRank q n := by
  refine Nat.floor_le_floor ?_
  gcongr

theorem nearestRank_le (hp : p ≤ 1) (n : ℕ) : nearestRank p n ≤ n - 1 := by
  have hmul : p * (n - 1 : ℕ) ≤ (n - 1 : ℕ) := mul_le_of_le_one_left (Nat.cast_nonneg _) hp
  rw [← Nat.lt_succ_iff]
  refine (Nat.floor_lt' (Nat.succ_ne_zero _)).mpr ?_
  push_cast
  linarith

/-- What stands behind a percentile. -/
theorem sub_nearestRank_lt (p : K) (n : ℕ) :
    ((n - 1 : ℕ) : K) - nearestRank p n < (1 - p) * (n - 1 : ℕ) + 1 / 2 := by
  have hfloor := Nat.lt_floor_add_one (p * (n - 1 : ℕ) + 1 / 2)
  rw [nearestRank]
  linarith

end Percentile

end Rank
