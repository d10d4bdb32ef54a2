import OpenArmTeleop.Control.Server
import OpenArmTeleop.Lib.Num

/-!
# The argument of `goto_pose`

`parse_pose16` of both applications: numbers are extracted from a stream until one fails.
-/

open Num Decimal

namespace OpenArmTeleop.Control

/-- `isspace` in the C locale. -/
def isSpace (c : Char) : Bool := c ∈ [' ', '\t', '\n', '\x0b', '\x0c', '\r']

def Spaces (s : Text) : Prop := ∀ c ∈ s, isSpace c = true

/-- The end, or white space. -/
def SpaceNext (s : Text) : Prop := ∀ c t, s = c :: t → isSpace c = true

/-- `operator>>` into a `double`: the value and what is left of the stream, unless it fails. White
space is skipped, a literal up to white space is read whole, and behind the part of a literal that
has been read of a cut one there is no other. -/
structure Extraction where
  value : Text → Double
  read : Text → Option (Double × Text)
  read_nil : read [] = none
  read_space : ∀ c s, isSpace c = true → read (c :: s) = read s
  read_literal : ∀ l s, Literal l → SpaceNext s → read (l ++ s) = some (value l, s)
  read_cut : ∀ l c v s, Literal l → c <+: l → read c = some (v, s) → read s = none
  read_length : ∀ s v r, read s = some (v, r) → r.length < s.length

namespace Extraction

variable (E : Extraction)

/-- At most `n` extractions, which is enough when `n` characters are left. -/
def readUpTo : ℕ → Text → List Double
  | 0, _ => []
  | n + 1, s =>
    match E.read s with
    | some (v, rest) => v :: readUpTo n rest
    | none => []

/-- `while (iss >> v) out.push_back(v)`. -/
def readAll (s : Text) : List Double := E.readUpTo s.length s

end Extraction

/-- Whether there were sixteen values, and the values. -/
def parsePose16 (E : Extraction) (args : Text) : Bool × List Double :=
  let out := E.readAll args
  (decide (out.length = 16), out)

/-! ## The handler -/

/-- What `goto_pose` shares with the control loop. -/
structure GotoPose where
  target : List Double
  requested : Bool
  deriving DecidableEq

/-- `name` is the application, which is all the two handlers differ in. -/
def gotoPoseHandler (E : Extraction) (name : Text) : Handler GotoPose := fun s args =>
  let (ok, vals) := parsePose16 E args
  if ok then
    (⟨vals, true⟩, jsonOk ("\"message\":\"".toList ++ name ++ " goto_pose requested\"".toList))
  else (s, jsonError "goto_pose expects 16 whitespace-separated values".toList)

/-! ## Extraction to the end -/

namespace Extraction

variable {E : Extraction}

theorem readUpTo_nil (n : ℕ) : E.readUpTo n [] = [] := by
  cases n with
  | zero => rfl
  | succ n => simp only [readUpTo, E.read_nil]

theorem readUpTo_congr {n m : ℕ} {s : Text} (hn : s.length ≤ n) (hm : s.length ≤ m) :
    E.readUpTo n s = E.readUpTo m s := by
  induction n generalizing m s with
  | zero =>
    obtain rfl : s = [] := List.length_eq_zero_iff.mp (Nat.le_zero.mp hn)
    rw [readUpTo_nil, readUpTo_nil]
  | succ n ih =>
    cases m with
    | zero =>
      obtain rfl : s = [] := List.length_eq_zero_iff.mp (Nat.le_zero.mp hm)
      rw [readUpTo_nil, readUpTo_nil]
    | succ m =>
      unfold readUpTo
      cases hread : E.read s with
      | none => rfl
      | some r =>
        have hlt := E.read_length s r.1 r.2 hread
        exact congrArg (r.1 :: ·) (ih (by omega) (by omega))

theorem readAll_of_none {s : Text} (h : E.read s = none) : E.readAll s = [] := by
  unfold readAll
  cases s with
  | nil => rfl
  | cons c s => simp only [List.length_cons, readUpTo, h]

theorem readAll_of_some {s r : Text} {v : Double} (h : E.read s = some (v, r)) :
    E.readAll s = v :: E.readAll r := by
  have hlt := E.read_length s v r h
  obtain ⟨n, hn⟩ : ∃ n, s.length = n + 1 := ⟨s.length - 1, by omega⟩
  simp only [readAll, hn, readUpTo, h]
  exact congrArg (v :: ·) (readUpTo_congr (by omega) (le_refl _))

theorem readAll_nil : E.readAll [] = [] := rfl

theorem read_spaces {w : Text} (hw : Spaces w) (s : Text) : E.read (w ++ s) = E.read s := by
  induction w with
  | nil => rfl
  | cons c w ih =>
    rw [List.cons_append, E.read_space c _ (hw c (.head w))]
    exact ih fun x hx => hw x (.tail c hx)

theorem readAll_congr {s t : Text} (h : E.read s = E.read t) : E.readAll s = E.readAll t := by
  cases hread : E.read t with
  | none => rw [readAll_of_none hread, readAll_of_none (h.trans hread)]
  | some r => rw [readAll_of_some hread, readAll_of_some (h.trans hread)]

theorem readAll_spaces_append {w : Text} (hw : Spaces w) (s : Text) :
    E.readAll (w ++ s) = E.readAll s :=
  readAll_congr (read_spaces hw s)

theorem readAll_spaces {w : Text} (hw : Spaces w) : E.readAll w = [] := by
  have h : E.readAll (w ++ []) = E.readAll [] := readAll_spaces_append hw []
  rwa [List.append_nil] at h

theorem readAll_literal {l s : Text} (hl : Literal l) (hs : SpaceNext s) :
    E.readAll (l ++ s) = E.value l :: E.readAll s :=
  readAll_of_some (E.read_literal l s hl hs)

/-- A part of a literal is one value at most. -/
theorem length_readAll_cut {l c : Text} (hl : Literal l) (hc : c <+: l) :
    (E.readAll c).length ≤ 1 := by
  cases hread : E.read c with
  | none => simp [readAll_of_none hread]
  | some r =>
    rw [readAll_of_some hread, readAll_of_none (E.read_cut l c r.1 r.2 hl hc hread)]
    exact le_refl 1

end Extraction

/-! ## Numbers between white space -/

/-- The text is these literals, and white space between them. -/
inductive Separated : Text → List Text → Prop
  | spaces {s : Text} (hs : Spaces s) : Separated s []
  | number {gap l s : Text} {ls : List Text} (hgap : Spaces gap) (hl : Literal l)
      (hs : SpaceNext s) (h : Separated s ls) : Separated (gap ++ (l ++ s)) (l :: ls)

theorem Separated.literals {s : Text} {ls : List Text} (h : Separated s ls) :
    ∀ l ∈ ls, Literal l := by
  induction h with
  | spaces => simp
  | number hgap hl hs h ih => exact List.forall_mem_cons.mpr ⟨hl, ih⟩

def tokens (s : Text) : List Text := (s.splitOnP isSpace).filter fun t => t ≠ []

theorem SpaceNext.append {s t : Text} (hs : SpaceNext s) (ht : SpaceNext t) : SpaceNext (s ++ t) := by
  cases s with
  | nil => exact ht
  | cons c s =>
    rintro _ _ ⟨⟩
    exact hs c s rfl

theorem SpaceNext.of_begins {s t : Text} (hs : SpaceNext s) (h : t <+: s) : SpaceNext t := by
  rintro c u rfl
  obtain ⟨v, rfl⟩ := h
  exact hs c (u ++ v) rfl

namespace Extraction

variable {E : Extraction}

theorem readAll_append {s t : Text} {ls : List Text} (h : Separated s ls) (ht : SpaceNext t) :
    E.readAll (s ++ t) = ls.map E.value ++ E.readAll t := by
  induction h with
  | spaces hs => exact readAll_spaces_append hs t
  | number hgap hl hs h ih =>
    rw [List.append_assoc, List.append_assoc, readAll_spaces_append hgap,
      readAll_literal hl (hs.append ht), ih]
    rfl

/-- A text that is cut off has no more values. -/
theorem length_readAll_begins {s q : Text} {ls : List Text} (h : Separated s ls) (hq : q <+: s) :
    (E.readAll q).length ≤ ls.length := by
  induction h generalizing q with
  | spaces hs =>
    have hspaces : Spaces q := fun c hc => hs c (hq.subset hc)
    simp [readAll_spaces hspaces]
  | number hgap hl hs h ih =>
    rcases prefix_append_cases hq with hgap' | ⟨r, rfl, hr⟩
    · have hspaces := readAll_spaces (E := E) fun c hc => hgap c (hgap'.subset hc)
      simp [hspaces]
    rw [readAll_spaces_append hgap]
    rcases prefix_append_cases hr with hcut | ⟨u, rfl, hu⟩
    · exact (length_readAll_cut hl hcut).trans (by simp)
    · rw [readAll_literal hl (hs.of_begins hu)]
      simpa using ih hu

end Extraction

/-! ## The tokens -/

theorem not_isSpace {c : Char} (hc : literalChar c = true) : isSpace c = false := by
  by_contra hspace
  simp only [Bool.not_eq_false, isSpace, List.mem_cons, List.not_mem_nil, or_false,
    decide_eq_true_eq] at hspace
  rcases hspace with rfl | rfl | rfl | rfl | rfl | rfl <;> cases hc

theorem tokens_space {c : Char} (hc : isSpace c = true) (s : Text) : tokens (c :: s) = tokens s := by
  have hnone : ∀ x ∈ ([] : Text), isSpace x = false := nofun
  have hsplit : (c :: s).splitOnP isSpace = [] :: s.splitOnP isSpace :=
    List.splitOnP_append_cons_of_forall_mem hnone c hc s
  simp [tokens, hsplit]

theorem tokens_spaces_append {w : Text} (hw : Spaces w) (s : Text) : tokens (w ++ s) = tokens s := by
  induction w with
  | nil => rfl
  | cons c w ih =>
    rw [List.cons_append, tokens_space (hw c (.head w))]
    exact ih fun x hx => hw x (.tail c hx)

theorem tokens_token {w s : Text} (hne : w ≠ []) (hw : ∀ c ∈ w, isSpace c = false)
    (hs : SpaceNext s) : tokens (w ++ s) = w :: tokens s := by
  cases s with
  | nil => simp [tokens, List.splitOnP_eq_singleton hw, hne]
  | cons c s =>
    rw [tokens_space (hs c s rfl)]
    simp [tokens, List.splitOnP_append_cons_of_forall_mem hw c (hs c s rfl), hne]

theorem tokens_of_separated {s : Text} {ls : List Text} (h : Separated s ls) : tokens s = ls := by
  induction h with
  | spaces hs =>
    have happend := tokens_spaces_append hs []
    rwa [List.append_nil] at happend
  | number hgap hl hs h ih =>
    rw [tokens_spaces_append hgap,
      tokens_token hl.ne_nil (fun c hc => not_isSpace (hl.literalChar c hc)) hs, ih]

theorem spaces_or_word (s : Text) : Spaces s ∨ ∃ gap w r, s = gap ++ (w ++ r) ∧ Spaces gap ∧
    w ≠ [] ∧ (∀ c ∈ w, isSpace c = false) ∧ SpaceNext r := by
  have hgap : Spaces (s.takeWhile isSpace) := fun c hc => List.mem_takeWhile_imp hc
  have hs := List.takeWhile_append_dropWhile (p := isSpace) (l := s)
  cases hrest : s.dropWhile isSpace with
  | nil =>
    rw [hrest, List.append_nil] at hs
    exact .inl (hs ▸ hgap)
  | cons c u =>
    have hc : isSpace c = false := by
      have hhead := List.head?_dropWhile_not isSpace s
      rwa [hrest] at hhead
    refine .inr ⟨s.takeWhile isSpace, (c :: u).takeWhile fun x => !isSpace x,
      (c :: u).dropWhile fun x => !isSpace x, ?_, hgap, ?_, ?_, ?_⟩
    · rw [List.takeWhile_append_dropWhile, ← hrest, hs]
    · simp [hc]
    · exact fun x hx => by simpa using List.mem_takeWhile_imp hx
    · intro x t hx
      have hhead := List.head?_dropWhile_not (fun x => !isSpace x) (c :: u)
      rw [hx] at hhead
      simpa using hhead

theorem separated_tokens {s : Text} (h : ∀ t ∈ tokens s, Literal t) : Separated s (tokens s) := by
  induction hn : s.length using Nat.strong_induction_on generalizing s with
  | _ n ih =>
    rcases spaces_or_word s with hs | ⟨gap, w, r, rfl, hgap, hne, hw, hr⟩
    · have hnil : tokens s = [] := tokens_of_separated (.spaces hs)
      rw [hnil]
      exact .spaces hs
    · have htokens : tokens (gap ++ (w ++ r)) = w :: tokens r := by
        rw [tokens_spaces_append hgap, tokens_token hne hw hr]
      rw [htokens] at h ⊢
      have hlen : r.length < n := by
        have := List.length_pos_iff.mpr hne
        simp only [List.length_append] at hn
        omega
      exact .number hgap (h w (.head _)) hr (ih _ hlen (fun t ht => h t (.tail w ht)) rfl)

end OpenArmTeleop.Control
