import Mathlib

/-!
# Machines, runs and histories

A machine takes one atomic action at a time and records at most one event with it. A
history lists the events of a run, newest first.
-/

namespace Run

structure Machine (σ α ε : Type) where
  init : σ
  step : σ → α → Option (σ × Option ε)

variable {σ α ε : Type}

/-! ## What a history says -/

/-- Each event met `P` together with the history before it. -/
def Always (P : ε → List ε → Prop) : List ε → Prop
  | [] => True
  | e :: h => P e h ∧ Always P h

/-- A `p` event happened, and no `q` event after it. -/
def Since (p q : ε → Prop) : List ε → Prop
  | [] => False
  | e :: h => p e ∨ ¬ q e ∧ Since p q h

instance decidableSince (p q : ε → Prop) [DecidablePred p] [DecidablePred q] :
    ∀ h, Decidable (Since p q h)
  | [] => inferInstanceAs (Decidable False)
  | e :: h =>
    have := decidableSince p q h
    inferInstanceAs (Decidable (p e ∨ ¬ q e ∧ Since p q h))

@[simp] theorem always_nil (P : ε → List ε → Prop) : Always P [] := trivial

@[simp] theorem always_cons (P : ε → List ε → Prop) (e : ε) (h : List ε) :
    Always P (e :: h) ↔ P e h ∧ Always P h := Iff.rfl

@[simp] theorem since_nil (p q : ε → Prop) : ¬ Since p q [] := id

@[simp] theorem since_cons (p q : ε → Prop) (e : ε) (h : List ε) :
    Since p q (e :: h) ↔ p e ∨ ¬ q e ∧ Since p q h := Iff.rfl

theorem Since.append {p q : ε → Prop} {h : List ε} (hs : Since p q h) (e : Option ε)
    (hq : ∀ x, e = some x → ¬ q x) : Since p q (e.toList ++ h) := by
  cases e with
  | none => exact hs
  | some x => exact Or.inr ⟨hq x rfl, hs⟩

theorem Since.of_append {p q : ε → Prop} {h : List ε} {e : Option ε}
    (hs : Since p q (e.toList ++ h)) (hp : ∀ x, e = some x → ¬ p x) : Since p q h := by
  cases e with
  | none => exact hs
  | some x => exact (hs.resolve_left (hp x rfl)).2

theorem Always.mono {P Q : ε → List ε → Prop} (hPQ : ∀ e h, P e h → Q e h) {h : List ε}
    (ha : Always P h) : Always Q h := by
  induction h with
  | nil => trivial
  | cons e h ih => exact ⟨hPQ e h ha.1, ih ha.2⟩

theorem Always.append {P : ε → List ε → Prop} {h : List ε} (ha : Always P h) (e : Option ε)
    (hP : ∀ x, e = some x → P x h) : Always P (e.toList ++ h) := by
  cases e with
  | none => exact ha
  | some x => exact ⟨hP x rfl, ha⟩

/-- What is read off a history stays the same when no recorded event changes it. -/
theorem append_eq_of_cons {β : Type} {f : List ε → β} {h : List ε} (e : Option ε)
    (hcons : ∀ x, e = some x → f (x :: h) = f h) : f (e.toList ++ h) = f h := by
  cases e with
  | none => rfl
  | some x => exact hcons x rfl

/-! ## Runs -/

namespace Machine

variable (M : Machine σ α ε)

/-- The runs that take an action only where `ok` allows it. -/
inductive RunWhere (ok : σ → List ε → α → Prop) : σ → List ε → Prop
  | start : RunWhere ok M.init []
  | next {s : σ} {h : List ε} {a : α} {s' : σ} {e : Option ε} :
      RunWhere ok s h → ok s h a → M.step s a = some (s', e) → RunWhere ok s' (e.toList ++ h)

abbrev Runs : σ → List ε → Prop := M.RunWhere fun _ _ _ => True

variable {M} {ok : σ → List ε → α → Prop}

/-- What holds at the start and is kept by each allowed step holds in every run. -/
theorem RunWhere.invariant {I : σ → List ε → Prop} (hinit : I M.init [])
    (hstep : ∀ s h a s' e, I s h → ok s h a → M.step s a = some (s', e) → I s' (e.toList ++ h))
    {s : σ} {h : List ε} (hr : M.RunWhere ok s h) : I s h := by
  induction hr with
  | start => exact hinit
  | next _ hok hs ih => exact hstep _ _ _ _ _ ih hok hs

/-- The rule for a property of events: an invariant that makes each recorded event fine. -/
theorem RunWhere.always {I : σ → List ε → Prop} {P : ε → List ε → Prop} (hinit : I M.init [])
    (hstep : ∀ s h a s' e, I s h → ok s h a → M.step s a = some (s', e) → I s' (e.toList ++ h))
    (hevent : ∀ s h a s' e, I s h → ok s h a → M.step s a = some (s', some e) → P e h)
    {s : σ} {h : List ε} (hr : M.RunWhere ok s h) : I s h ∧ Always P h := by
  refine RunWhere.invariant (I := fun s h => I s h ∧ Always P h) ⟨hinit, trivial⟩ ?_ hr
  rintro s h a s' e ⟨hI, hP⟩ hok hs
  refine ⟨hstep s h a s' e hI hok hs, hP.append e ?_⟩
  rintro x rfl
  exact hevent s h a s' x hI hok hs

theorem RunWhere.mono {ok' : σ → List ε → α → Prop} (hok : ∀ s h a, ok s h a → ok' s h a)
    {s : σ} {h : List ε} (hr : M.RunWhere ok s h) : M.RunWhere ok' s h := by
  induction hr with
  | start => exact .start
  | next _ ha hs ih => exact .next ih (hok _ _ _ ha) hs

/-- The same machine, which records other events. -/
def relabel {ε' : Type} (M : Machine σ α ε) (mark : σ → α → Option ε') : Machine σ α ε' where
  init := M.init
  step s a := (M.step s a).map fun r => (r.1, mark s a)

theorem relabel_step {ε' : Type} {mark : σ → α → Option ε'} {s s' : σ} {a : α} {x : Option ε'}
    (h : (M.relabel mark).step s a = some (s', x)) :
    (∃ e, M.step s a = some (s', e)) ∧ x = mark s a := by
  obtain ⟨⟨t, e⟩, hs, heq⟩ := Option.map_eq_some_iff.mp h
  obtain ⟨rfl, rfl⟩ := Prod.mk.inj heq
  exact ⟨⟨e, hs⟩, rfl⟩

variable (M)

/-- Takes the actions one after the other; `none` when one is impossible or not allowed. -/
def execFrom (ok : σ → List ε → α → Prop) [∀ s h a, Decidable (ok s h a)] :
    σ → List ε → List α → Option (σ × List ε)
  | s, h, [] => some (s, h)
  | s, h, a :: acts =>
    if ok s h a then
      match M.step s a with
      | some (s', e) => execFrom ok s' (e.toList ++ h) acts
      | none => none
    else none

def exec (ok : σ → List ε → α → Prop) [∀ s h a, Decidable (ok s h a)] (acts : List α) :
    Option (σ × List ε) :=
  M.execFrom ok M.init [] acts

variable {M}

theorem execFrom_run [∀ s h a, Decidable (ok s h a)] (acts : List α) (s : σ) (h : List ε)
    (hr : M.RunWhere ok s h) (r : σ × List ε) (he : M.execFrom ok s h acts = some r) :
    M.RunWhere ok r.1 r.2 := by
  induction acts generalizing s h with
  | nil =>
    obtain rfl : (s, h) = r := by simpa [execFrom] using he
    exact hr
  | cons a acts ih =>
    simp only [execFrom] at he
    split at he
    · rename_i hok
      split at he
      · rename_i s' e hs
        exact ih s' _ (.next hr hok hs) he
      · simp at he
    · simp at he

theorem exec_run [∀ s h a, Decidable (ok s h a)] (acts : List α) (r : σ × List ε)
    (he : M.exec ok acts = some r) : M.RunWhere ok r.1 r.2 :=
  execFrom_run acts _ _ .start r he

def violates (P : ε → List ε → Prop) [∀ e h, Decidable (P e h)] : List ε → Bool
  | [] => false
  | e :: h => decide (¬ P e h)

theorem not_always_of_violates (P : ε → List ε → Prop) [∀ e h, Decidable (P e h)] (h : List ε)
    (hv : violates P h = true) : ¬ Always P h := by
  cases h with
  | nil => simp [violates] at hv
  | cons e h => exact fun hall => (of_decide_eq_true hv) hall.1

variable (M)

/-- An allowed run found by `exec`, with what a test of its end says. -/
theorem exists_runWhere (ok : σ → List ε → α → Prop) [∀ s h a, Decidable (ok s h a)]
    (acts : List α) (Q : σ → List ε → Prop) [∀ s h, Decidable (Q s h)]
    (ht : (M.exec ok acts).any (fun r => decide (Q r.1 r.2)) = true) :
    ∃ s h, M.RunWhere ok s h ∧ Q s h := by
  cases he : M.exec ok acts with
  | none => simp [he] at ht
  | some r =>
    rw [he] at ht
    exact ⟨r.1, r.2, exec_run acts r he, of_decide_eq_true ht⟩

/-- A run found by `exec` whose newest event violates a property of events. -/
theorem exists_violation (P : ε → List ε → Prop) [∀ e h, Decidable (P e h)] (acts : List α)
    (Q : σ → List ε → Prop) [∀ s h, Decidable (Q s h)]
    (ht : (M.exec (fun _ _ _ => True) acts).any
      (fun r => decide (Q r.1 r.2 ∧ violates P r.2 = true)) = true) :
    ∃ s h, M.Runs s h ∧ Q s h ∧ ¬ Always P h := by
  obtain ⟨s, h, hr, hq, hv⟩ := M.exists_runWhere _ acts (fun s h => Q s h ∧ violates P h = true) ht
  exact ⟨s, h, hr, hq, not_always_of_violates P h hv⟩

end Machine

end Run
