import OpenArmTeleop.Lib.Run

/-!
# Parts of runs

A machine that runs as a part of another one, and what came before an event of a history.
-/

namespace Run

/-! ## Parts -/

section Part

variable {σ α ε σ' α' ε' : Type}

/-- Through `f` and `g` each step of `M` is one of `N`, or nothing at all. -/
structure Part (M : Machine σ α ε) (N : Machine σ' α' ε') (f : σ → σ') (g : ε → Option ε') :
    Prop where
  init : f M.init = N.init
  step : ∀ s a s' e, M.step s a = some (s', e) →
    (∃ b, N.step (f s) b = some (f s', e.bind g)) ∨ f s' = f s ∧ e.bind g = none

variable {M : Machine σ α ε} {N : Machine σ' α' ε'} {f : σ → σ'} {g : ε → Option ε'}

theorem filterMap_append (e : Option ε) (h : List ε) :
    (e.toList ++ h).filterMap g = (e.bind g).toList ++ h.filterMap g := by
  cases e with
  | none => rfl
  | some x =>
    rw [Option.toList_some, List.singleton_append, List.filterMap_cons, Option.bind_some]
    cases g x <;> rfl

/-- A run of the whole is a run of each part. -/
theorem Part.runs (hp : Part M N f g) {ok : σ → List ε → α → Prop} {s : σ} {h : List ε}
    (hr : M.RunWhere ok s h) : N.Runs (f s) (h.filterMap g) := by
  induction hr with
  | start =>
    rw [hp.init]
    exact .start
  | @next s h a s' e _ _ hs ih =>
    rw [filterMap_append]
    rcases hp.step s a s' e hs with ⟨b, hb⟩ | ⟨hf, he⟩
    · exact .next ih trivial hb
    · rw [hf, he]
      exact ih

/-- What a part always does, the whole always does there. -/
theorem Always.part {P : ε' → List ε' → Prop} {h : List ε} (ha : Always P (h.filterMap g)) :
    Always (fun e h => ∀ x, g e = some x → P x (h.filterMap g)) h := by
  induction h with
  | nil => trivial
  | cons e h ih =>
    rw [List.filterMap_cons] at ha
    cases hg : g e with
    | none =>
      rw [hg] at ha
      exact ⟨fun x hx => by simp [hg] at hx, ih ha⟩
    | some y =>
      rw [hg] at ha
      refine ⟨fun x hx => ?_, ih ha.2⟩
      rw [hg] at hx
      obtain rfl := Option.some.inj hx
      exact ha.1

theorem Since.part {p q : ε' → Prop} {h : List ε} (hs : Since p q (h.filterMap g)) :
    Since (fun e => ∃ x, g e = some x ∧ p x) (fun e => ∃ x, g e = some x ∧ q x) h := by
  induction h with
  | nil => cases hs
  | cons e h ih =>
    rw [List.filterMap_cons] at hs
    cases hg : g e with
    | none =>
      rw [hg] at hs
      refine .inr ⟨?_, ih hs⟩
      rintro ⟨x, hx, -⟩
      rw [hg] at hx
      cases hx
    | some y =>
      rw [hg] at hs
      rcases hs with hp | ⟨hq, hs⟩
      · exact .inl ⟨y, hg, hp⟩
      · refine .inr ⟨?_, ih hs⟩
        rintro ⟨x, hx, hqx⟩
        rw [hg] at hx
        obtain rfl := Option.some.inj hx
        exact hq hqx

end Part

/-! ## Before an event -/

section Before

variable {ε : Type} {P : ε → List ε → Prop} {e : ε} {h : List ε}

theorem Always.suffix {h' : List ε} (ha : Always P h) (hs : h' <:+ h) : Always P h' := by
  obtain ⟨t, rfl⟩ := hs
  induction t with
  | nil => exact ha
  | cons x t ih => exact ih ha.2

/-- An event of a history met its property with what came before it. -/
theorem Always.before (ha : Always P h) (he : e ∈ h) :
    ∃ h', P e h' ∧ Always P h' ∧ (e :: h') <:+ h := by
  obtain ⟨t, h', rfl⟩ := List.append_of_mem he
  have hs : (e :: h') <:+ t ++ e :: h' := List.suffix_append t _
  exact ⟨h', (ha.suffix hs).1, (ha.suffix hs).2, hs⟩

theorem always_of_suffix (hP : ∀ e h', (e :: h') <:+ h → P e h') : Always P h := by
  induction h with
  | nil => trivial
  | cons x h ih =>
    exact ⟨hP x h (List.suffix_refl _), ih fun e h' hs => hP e h' (hs.trans (List.suffix_cons _ _))⟩

/-- The event since which nothing of the other kind has happened. -/
theorem Since.split {p q : ε → Prop} (hs : Since p q h) :
    ∃ t e h', h = t ++ e :: h' ∧ p e ∧ ∀ x ∈ t, ¬ q x := by
  induction h with
  | nil => cases hs
  | cons x h ih =>
    rcases hs with hp | ⟨hq, hs⟩
    · exact ⟨[], x, h, rfl, hp, by simp⟩
    · obtain ⟨t, e, h', rfl, hp, hno⟩ := ih hs
      exact ⟨x :: t, e, h', rfl, hp, List.forall_mem_cons.mpr ⟨hq, hno⟩⟩

theorem Always.and {Q : ε → List ε → Prop} (hP : Always P h) (hQ : Always Q h) :
    Always (fun e h => P e h ∧ Q e h) h := by
  induction h with
  | nil => trivial
  | cons x h ih => exact ⟨⟨hP.1, hQ.1⟩, ih hP.2 hQ.2⟩

end Before

end Run
