import Mathlib

/-!
# Sliding windows

A queue that drops expired entries from its front, against the whole history of entries.
-/

namespace Window

variable {α : Type}

/-- The queue is what is left of a history after dropping only expired entries from its front. -/
def Covers (expired : α → Bool) (history queue : List α) : Prop :=
  ∃ old, history = old ++ queue ∧ ∀ x ∈ old, expired x = true

variable {expired expired' : α → Bool} {history queue : List α}

theorem Covers.refl (expired : α → Bool) (history : List α) : Covers expired history history :=
  ⟨[], rfl, by simp⟩

/-- What has expired stays so. -/
theorem Covers.later (h : Covers expired history queue)
    (hmono : ∀ x ∈ history, expired x = true → expired' x = true) :
    Covers expired' history queue := by
  obtain ⟨old, rfl, hold⟩ := h
  exact ⟨old, rfl, fun x hx => hmono x (List.mem_append_left _ hx) (hold x hx)⟩

theorem Covers.push (h : Covers expired history queue) (x : α) :
    Covers expired (history ++ [x]) (queue ++ [x]) := by
  obtain ⟨old, rfl, hold⟩ := h
  exact ⟨old, List.append_assoc _ _ _, hold⟩

theorem Covers.trim (h : Covers expired history queue) :
    Covers expired history (queue.dropWhile expired) := by
  obtain ⟨old, rfl, hold⟩ := h
  refine ⟨old ++ queue.takeWhile expired, ?_, fun x hx => ?_⟩
  · rw [List.append_assoc, List.takeWhile_append_dropWhile]
  · rcases List.mem_append.mp hx with hx | hx
    · exact hold x hx
    · exact List.mem_takeWhile_imp hx

/-- The queue holds all that has not expired, in the order of the history. -/
theorem Covers.filter (h : Covers expired history queue) :
    queue.filter (fun x => !expired x) = history.filter fun x => !expired x := by
  obtain ⟨old, rfl, hold⟩ := h
  have hnone : old.filter (fun x => !expired x) = [] := by
    rw [List.filter_eq_nil_iff]
    intro x hx
    simp [hold x hx]
  rw [List.filter_append, hnone, List.nil_append]

theorem Covers.mem (h : Covers expired history queue) {x : α} (hx : x ∈ queue) : x ∈ history := by
  obtain ⟨old, rfl, -⟩ := h
  exact List.mem_append_right _ hx

end Window
