import Mathlib

/-!
# Readings of a register

What a reader sees of a register that others write: it may miss values and see others again, and it
never goes back.
-/

namespace Sampling

variable {α β : Type}

/-- `read` are readings of a register that held the values `written`, both with the newest first. -/
inductive Sampled : (written read : List α) → Prop
  | nil (written : List α) : Sampled written []
  | read {x : α} {written read : List α} (h : Sampled (x :: written) read) :
      Sampled (x :: written) (x :: read)
  | write (x : α) {written read : List α} (h : Sampled written read) : Sampled (x :: written) read

namespace Sampled

variable {a b c : List α}

theorem eq_nil (h : Sampled [] b) : b = [] := by cases h; rfl

theorem mem (h : Sampled a b) {x : α} (hx : x ∈ b) : x ∈ a := by
  induction h with
  | nil => cases hx
  | read _ ih =>
    rcases List.mem_cons.mp hx with rfl | hx
    · exact List.mem_cons_self
    · exact ih hx
  | write y _ ih => exact List.mem_cons_of_mem y (ih hx)

theorem refl (a : List α) : Sampled a a := by
  induction a with
  | nil => exact .nil _
  | cons x a ih => exact .read (.write x ih)

/-- Readings of readings. -/
theorem trans (hab : Sampled a b) (hbc : Sampled b c) : Sampled a c := by
  induction hab generalizing c with
  | nil =>
    rw [hbc.eq_nil]
    exact .nil _
  | @read x a b _ ih =>
    generalize hxb : x :: b = xb at hbc
    induction hbc with
    | nil => exact .nil _
    | read _ ihc =>
      obtain ⟨rfl, rfl⟩ := List.cons.inj hxb
      exact .read (ihc rfl)
    | write _ hbc _ =>
      obtain ⟨rfl, rfl⟩ := List.cons.inj hxb
      exact ih hbc
  | write x _ ih => exact .write x (ih hbc)

theorem concat (h : Sampled a b) (x : α) : Sampled (a ++ [x]) (b ++ [x]) := by
  induction h with
  | nil written =>
    induction written with
    | nil => exact .read (.nil _)
    | cons y written ih => exact .write y ih
  | read _ ih => exact .read ih
  | write y _ ih => exact .write y ih

theorem map (f : α → β) (h : Sampled a b) : Sampled (a.map f) (b.map f) := by
  induction h with
  | nil => exact .nil _
  | read _ ih => exact .read ih
  | write y _ ih => exact .write (f y) ih

theorem of_tail {x : α} (h : Sampled a (x :: b)) : Sampled a b := by
  generalize hxb : x :: b = xb at h
  induction h with
  | nil => cases hxb
  | read h _ =>
    obtain ⟨rfl, rfl⟩ := List.cons.inj hxb
    exact h
  | write y _ ih => exact .write y (ih hxb)

theorem extend (h : Sampled a b) (c : List α) : Sampled (c ++ a) b := by
  induction c with
  | nil => exact h
  | cons x c ih => exact .write x ih

theorem of_take {l : List α} {n : ℕ} (h : Sampled (l.take n).reverse b) : Sampled l.reverse b := by
  have hl : l.reverse = (l.drop n).reverse ++ (l.take n).reverse := by
    rw [← List.reverse_append, List.take_append_drop]
  rw [hl]
  exact h.extend _

end Sampled

/-! ## Reading a growing list in order -/

/-- What comes after the newest of these indices. -/
def cursor : List ℕ → ℕ
  | [] => 0
  | i :: _ => i + 1

/-- `read` are the entries of a growing list at the indices `taken`, which never go back. -/
structure InTurn (l : List α) (taken : List ℕ) (read : List α) : Prop where
  bound : cursor taken ≤ l.length
  sampled : Sampled (l.take (cursor taken)).reverse read

namespace InTurn

variable {l read : List α} {taken : List ℕ}

theorem nil (l : List α) : InTurn l [] [] := ⟨Nat.zero_le _, .nil _⟩

theorem grow (h : InTurn l taken read) (x : α) : InTurn (l ++ [x]) taken read := by
  refine ⟨?_, ?_⟩
  · rw [List.length_append]
    exact Nat.le_add_right_of_le h.bound
  · rw [List.take_append_of_le_length h.bound]
    exact h.sampled

theorem next (h : InTurn l taken read) {i : ℕ} {x : α} (hle : ∀ j ∈ taken, j ≤ i)
    (hi : l[i]? = some x) : InTurn l (i :: taken) (x :: read) := by
  obtain ⟨hlt, -⟩ := List.getElem?_eq_some_iff.mp hi
  refine ⟨hlt, ?_⟩
  have hcursor : cursor taken ≤ i + 1 := by
    cases taken with
    | nil => exact Nat.zero_le _
    | cons j taken => exact Nat.succ_le_succ (hle j List.mem_cons_self)
  have htake : (l.take (i + 1)).take (cursor taken) = l.take (cursor taken) := by
    rw [List.take_take, min_eq_left hcursor]
  have hlast : (l.take (i + 1)).reverse = x :: (l.take i).reverse := by
    rw [List.take_add_one, hi, List.reverse_append]
    rfl
  have hread := h.sampled
  rw [← htake] at hread
  have hall := hread.of_take
  rw [hlast] at hall
  change Sampled (l.take (i + 1)).reverse (x :: read)
  rw [hlast]
  exact .read hall

theorem all (h : InTurn l taken read) : Sampled l.reverse read := h.sampled.of_take

end InTurn

end Sampling
