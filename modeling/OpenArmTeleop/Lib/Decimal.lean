import Mathlib

/-!
# Decimal literals

The grammar of a floating-point literal, its value, a scanner that takes one character at a time, and
the longest prefix of a text with a property.
-/

namespace Decimal

/-! ## The grammar -/

def Digits (s : List Char) : Prop := s ≠ [] ∧ ∀ c ∈ s, c.isDigit = true

def Sign (s : List Char) : Prop := s = [] ∨ s = ['+'] ∨ s = ['-']

/-- Digits with a point, on at least one side of it. -/
inductive Pointed : List Char → Prop
  | whole {w f : List Char} (hw : Digits w) (hf : ∀ c ∈ f, c.isDigit = true) :
      Pointed (w ++ '.' :: f)
  | fraction {f : List Char} (hf : Digits f) : Pointed ('.' :: f)

def Mantissa (s : List Char) : Prop := Digits s ∨ Pointed s

def Mark (c : Char) : Prop := c = 'e' ∨ c = 'E'

inductive Power : List Char → Prop
  | mk {mark : Char} {sign digits : List Char} (hmark : Mark mark) (hsign : Sign sign)
      (hdigits : Digits digits) : Power (mark :: (sign ++ digits))

inductive Literal : List Char → Prop
  | mk {sign mantissa power : List Char} (hsign : Sign sign) (hmantissa : Mantissa mantissa)
      (hpower : power = [] ∨ Power power) : Literal (sign ++ (mantissa ++ power))

/-! ## The scanner -/

/-- What has been read of a literal. -/
inductive Scan
  | start
  | sign
  | whole
  | point
  | fraction
  | mark
  | markSign
  | power
  deriving DecidableEq

namespace Scan

def digit : Scan → Scan
  | start | sign | whole => whole
  | point | fraction => fraction
  | mark | markSign | power => power

def next (st : Scan) (c : Char) : Option Scan :=
  if c.isDigit then some st.digit
  else if c = '.' then
    match st with
    | start | sign => some point
    | whole => some fraction
    | _ => none
  else if c = 'e' ∨ c = 'E' then
    match st with
    | whole | fraction => some mark
    | _ => none
  else if c = '+' ∨ c = '-' then
    match st with
    | start => some sign
    | mark => some markSign
    | _ => none
  else none

def final : Scan → Bool
  | whole | fraction | power => true
  | _ => false

/-- The texts that lead to a state. -/
inductive Reads : Scan → List Char → Prop
  | start : Reads start []
  | sign {s : List Char} (hs : s = ['+'] ∨ s = ['-']) : Reads sign s
  | whole {s w : List Char} (hs : Sign s) (hw : Digits w) : Reads whole (s ++ w)
  | point {s : List Char} (hs : Sign s) : Reads point (s ++ ['.'])
  | fraction {s m : List Char} (hs : Sign s) (hm : Pointed m) : Reads fraction (s ++ m)
  | mark {s m : List Char} {c : Char} (hs : Sign s) (hm : Mantissa m) (hc : Mark c) :
      Reads mark (s ++ (m ++ [c]))
  | markSign {s m : List Char} {c x : Char} (hs : Sign s) (hm : Mantissa m) (hc : Mark c)
      (hx : x = '+' ∨ x = '-') : Reads markSign (s ++ (m ++ [c, x]))
  | power {s m p : List Char} (hs : Sign s) (hm : Mantissa m) (hp : Power p) :
      Reads power (s ++ (m ++ p))

end Scan

def scan (s : List Char) : Option Scan := s.foldlM Scan.next .start

def isLiteral (s : List Char) : Bool := (scan s).any Scan.final

theorem Digits.append {w : List Char} (hw : Digits w) {c : Char} (hc : c.isDigit = true) :
    Digits (w ++ [c]) := by
  refine ⟨by simp, fun x hx => ?_⟩
  rcases List.mem_append.mp hx with hx | hx
  · exact hw.2 x hx
  · rwa [List.mem_singleton.mp hx]

theorem digits_single {c : Char} (hc : c.isDigit = true) : Digits [c] :=
  ⟨by simp, by simpa using hc⟩

theorem Power.append {p : List Char} (hp : Power p) {c : Char} (hc : c.isDigit = true) :
    Power (p ++ [c]) := by
  obtain ⟨hmark, hsign, hdigits⟩ := hp
  have h := Power.mk hmark hsign (hdigits.append hc)
  simpa using h

theorem Pointed.append {m : List Char} (hm : Pointed m) {c : Char} (hc : c.isDigit = true) :
    Pointed (m ++ [c]) := by
  cases hm with
  | whole hw hf =>
    rename_i w f
    have h : Pointed (w ++ '.' :: (f ++ [c])) := .whole hw fun x hx => by
      rcases List.mem_append.mp hx with hx | hx
      · exact hf x hx
      · rwa [List.mem_singleton.mp hx]
    simpa using h
  | fraction hf => exact .fraction (hf.append hc)

/-! ## What the scanner reads -/

namespace Scan

variable {st st' : Scan} {s : List Char} {c : Char}

theorem Reads.digit (h : Reads st s) (hc : c.isDigit = true) : Reads st.digit (s ++ [c]) := by
  cases h with
  | start => exact .whole (.inl rfl) (digits_single hc)
  | sign hs => exact .whole (.inr hs) (digits_single hc)
  | whole hs hw =>
    rw [List.append_assoc]
    exact .whole hs (hw.append hc)
  | point hs =>
    rw [List.append_assoc]
    exact .fraction hs (.fraction (digits_single hc))
  | fraction hs hm =>
    rw [List.append_assoc]
    exact .fraction hs (hm.append hc)
  | mark hs hm hmark =>
    rw [List.append_assoc, List.append_assoc]
    exact .power hs hm (.mk hmark (.inl rfl) (digits_single hc))
  | markSign hs hm hmark hx =>
    rename_i x
    rw [List.append_assoc, List.append_assoc]
    have hx : Sign [x] := by rcases hx with rfl | rfl <;> simp [Sign]
    exact .power hs hm (.mk hmark hx (digits_single hc))
  | power hs hm hp =>
    rw [List.append_assoc, List.append_assoc]
    exact .power hs hm (hp.append hc)

theorem Reads.next (h : Reads st s) (hn : st.next c = some st') : Reads st' (s ++ [c]) := by
  unfold Scan.next at hn
  split at hn
  · rename_i hc
    obtain rfl := Option.some.inj hn
    exact h.digit hc
  split at hn
  · rename_i hc
    subst hc
    cases h with
    | start =>
      obtain rfl := Option.some.inj hn
      exact .point (.inl rfl)
    | sign hs =>
      obtain rfl := Option.some.inj hn
      exact .point (.inr hs)
    | whole hs hw =>
      obtain rfl := Option.some.inj hn
      rw [List.append_assoc]
      exact .fraction hs (.whole hw nofun)
    | _ => cases hn
  split at hn
  · rename_i hc
    cases h with
    | whole hs hw =>
      obtain rfl := Option.some.inj hn
      rw [List.append_assoc]
      exact .mark hs (.inl hw) hc
    | fraction hs hm =>
      obtain rfl := Option.some.inj hn
      rw [List.append_assoc]
      exact .mark hs (.inr hm) hc
    | _ => cases hn
  split at hn
  · rename_i hc
    cases h with
    | start =>
      obtain rfl := Option.some.inj hn
      exact .sign (by simpa using hc)
    | mark hs hm hmark =>
      obtain rfl := Option.some.inj hn
      rw [List.append_assoc, List.append_assoc]
      exact .markSign hs hm hmark hc
    | _ => cases hn
  · cases hn

end Scan

theorem scan_append (s t : List Char) :
    scan (s ++ t) = (scan s).bind fun st => t.foldlM Scan.next st := by
  simp [scan, List.foldlM_append]

theorem scan_reads {s : List Char} {st : Scan} (h : scan s = some st) : st.Reads s := by
  induction s using List.reverseRecOn generalizing st with
  | nil =>
    obtain rfl := Option.some.inj h
    exact .start
  | append_singleton s c ih =>
    rw [scan_append] at h
    obtain ⟨before, hbefore, hnext⟩ := Option.bind_eq_some_iff.mp h
    exact (ih hbefore).next (by simpa using hnext)

theorem foldlM_digits {s : List Char} (hs : Digits s) (st : Scan) :
    s.foldlM Scan.next st = some st.digit := by
  obtain ⟨hne, hs⟩ := hs
  induction s generalizing st with
  | nil => exact absurd rfl hne
  | cons c s ih =>
    have hnext : st.next c = some st.digit := if_pos (hs c (.head s))
    rw [List.foldlM_cons, hnext, Option.bind_eq_bind, Option.bind_some]
    cases s with
    | nil => rfl
    | cons d s =>
      rw [ih _ (by simp) fun x hx => hs x (.tail c hx)]
      cases st <;> rfl

theorem foldlM_mantissa {m : List Char} (hm : Mantissa m) {st : Scan} (hst : st = .start ∨ st = .sign) :
    m.foldlM Scan.next st = some .whole ∨ m.foldlM Scan.next st = some .fraction := by
  have hdigit : st.digit = .whole := by rcases hst with rfl | rfl <;> rfl
  rcases hm with hm | hm
  · exact .inl ((foldlM_digits hm st).trans (congrArg some hdigit))
  · refine .inr ?_
    cases hm with
    | whole hw hf =>
      rename_i w f
      rw [List.foldlM_append, foldlM_digits hw, hdigit, Option.bind_eq_bind, Option.bind_some]
      change f.foldlM Scan.next .fraction = some .fraction
      by_cases hnil : f = []
      · rw [hnil]
        rfl
      · exact foldlM_digits ⟨hnil, hf⟩ .fraction
    | fraction hf =>
      have hpoint : st.next '.' = some .point := by rcases hst with rfl | rfl <;> rfl
      rw [List.foldlM_cons, hpoint, Option.bind_eq_bind, Option.bind_some]
      exact foldlM_digits hf .point

theorem foldlM_power {p : List Char} (hp : Power p) {st : Scan}
    (hst : st = .whole ∨ st = .fraction) : p.foldlM Scan.next st = some .power := by
  obtain ⟨hmark, hsign, hdigits⟩ := hp
  rename_i mark sign digits
  have hnext : st.next mark = some .mark := by
    rcases hst with rfl | rfl <;> rcases hmark with rfl | rfl <;> rfl
  rw [List.foldlM_cons, hnext, Option.bind_eq_bind, Option.bind_some, List.foldlM_append]
  rcases hsign with rfl | rfl | rfl <;> exact foldlM_digits hdigits _

theorem scan_sign {s : List Char} (hs : Sign s) : scan s = some .start ∨ scan s = some .sign := by
  rcases hs with rfl | rfl | rfl
  · exact .inl rfl
  · exact .inr rfl
  · exact .inr rfl

/-- The scanner accepts the literals. -/
theorem isLiteral_iff (s : List Char) : isLiteral s = true ↔ Literal s := by
  constructor
  · intro h
    obtain ⟨st, hst, hfinal⟩ := (Option.any_eq_true _ _).mp h
    cases scan_reads hst with
    | whole hs hw => simpa using Literal.mk hs (.inl hw) (.inl rfl)
    | fraction hs hm => simpa using Literal.mk hs (.inr hm) (.inl rfl)
    | power hs hm hp => exact .mk hs hm (.inr hp)
    | _ => cases hfinal
  · rintro ⟨hsign, hm, hp⟩
    rename_i sign mantissa power
    obtain ⟨st, hst, hstart⟩ : ∃ st, scan sign = some st ∧ (st = .start ∨ st = .sign) := by
      rcases scan_sign hsign with h | h
      · exact ⟨_, h, .inl rfl⟩
      · exact ⟨_, h, .inr rfl⟩
    have hafter : ∀ st, st = .whole ∨ st = .fraction →
        (power.foldlM Scan.next st).any Scan.final = true := by
      intro st hst
      rcases hp with rfl | hp
      · rcases hst with rfl | rfl <;> rfl
      · rw [foldlM_power hp hst]
        rfl
    rw [isLiteral, scan_append, hst, Option.bind_some, List.foldlM_append]
    rcases foldlM_mantissa hm hstart with h | h <;>
      rw [h, Option.bind_eq_bind, Option.bind_some]
    · exact hafter _ (.inl rfl)
    · exact hafter _ (.inr rfl)

instance (s : List Char) : Decidable (Literal s) := decidable_of_iff _ (isLiteral_iff s)

/-- What a literal begins with keeps the scanner going. -/
theorem scan_of_begins {s l : List Char} (hl : Literal l) (h : s <+: l) : ∃ st, scan s = some st := by
  obtain ⟨t, rfl⟩ := h
  obtain ⟨st, hst, -⟩ := (Option.any_eq_true _ _).mp ((isLiteral_iff _).mpr hl)
  rw [scan_append] at hst
  obtain ⟨before, hbefore, -⟩ := Option.bind_eq_some_iff.mp hst
  exact ⟨before, hbefore⟩

def literalChar (c : Char) : Bool := c.isDigit || c ∈ ['.', 'e', 'E', '+', '-']

theorem Digits.literalChar {s : List Char} (hs : Digits s) : ∀ c ∈ s, literalChar c = true :=
  fun c hc => by simp [Decimal.literalChar, hs.2 c hc]

theorem Power.literalChar {s : List Char} (hs : Power s) : ∀ c ∈ s, literalChar c = true := by
  obtain ⟨hmark, hsign, hdigits⟩ := hs
  intro c hc
  rcases List.mem_cons.mp hc with rfl | hc
  · rcases hmark with rfl | rfl <;> rfl
  rcases List.mem_append.mp hc with hc | hc
  · rcases hsign with rfl | rfl | rfl
    · cases hc
    · rw [List.mem_singleton.mp hc]
      rfl
    · rw [List.mem_singleton.mp hc]
      rfl
  · exact hdigits.literalChar c hc

theorem Scan.literalChar_of_next {st st' : Scan} {c : Char} (h : st.next c = some st') :
    literalChar c = true := by
  unfold Scan.next at h
  simp only [Decimal.literalChar, Bool.or_eq_true, decide_eq_true_eq, List.mem_cons,
    List.not_mem_nil, or_false]
  split_ifs at h with hdigit hpoint hmark hsign
  · exact .inl hdigit
  · exact .inr (.inl hpoint)
  · tauto
  · tauto

theorem literalChar_of_scan {s : List Char} {st : Scan} (h : scan s = some st) :
    ∀ c ∈ s, literalChar c = true := by
  induction s using List.reverseRecOn generalizing st with
  | nil => simp
  | append_singleton s c ih =>
    rw [scan_append] at h
    obtain ⟨before, hbefore, hnext⟩ := Option.bind_eq_some_iff.mp h
    intro x hx
    rcases List.mem_append.mp hx with hx | hx
    · exact ih hbefore x hx
    · rw [List.mem_singleton.mp hx]
      exact Scan.literalChar_of_next (by simpa using hnext)

theorem Literal.ne_nil {l : List Char} (hl : Literal l) : l ≠ [] := by
  rintro rfl
  exact absurd ((isLiteral_iff _).mpr hl) (by decide)

theorem Literal.literalChar {l : List Char} (hl : Literal l) : ∀ c ∈ l, literalChar c = true := by
  obtain ⟨st, hst⟩ := scan_of_begins hl List.prefix_rfl
  exact literalChar_of_scan hst

/-! ## The value -/

def digitsValue (s : List Char) : ℕ := s.foldl (fun n c => 10 * n + (c.toNat - '0'.toNat)) 0

def signValue (s : List Char) : ℤ := if s.head? = some '-' then -1 else 1

def unsigned (s : List Char) : List Char := s.dropWhile fun c => c = '+' ∨ c = '-'

/-- The digits of the mantissa count in units of the last one of them. -/
def value (s : List Char) : ℚ :=
  let (mantissa, power) := s.span fun c => c ≠ 'e' ∧ c ≠ 'E'
  let (whole, fraction) := (unsigned mantissa).span fun c => c ≠ '.'
  let digits := signValue mantissa * digitsValue (whole ++ fraction.drop 1)
  let shift := signValue (power.drop 1) * digitsValue (unsigned (power.drop 1)) -
    (fraction.drop 1).length
  if 0 ≤ shift then digits * 10 ^ shift.toNat else digits / 10 ^ (-shift).toNat

example : ["12", "-0.5", ".25e1", "+3.E-2"].map (fun s => value s.toList) =
    [12, -1 / 2, 5 / 2, 3 / 100] := by decide +kernel

/-! ## The longest prefix -/

section Longest

variable {α : Type}

theorem prefix_append_cases {q s t : List α} (h : q <+: s ++ t) :
    q <+: s ∨ ∃ r, q = s ++ r ∧ r <+: t := by
  rcases List.prefix_or_prefix_of_prefix h (List.prefix_append s t) with h' | ⟨r, rfl⟩
  · exact .inl h'
  · exact .inr ⟨r, rfl, (List.prefix_append_right_inj s).mp h⟩

def longest (p : List α → Bool) : List α → Option (List α)
  | [] => if p [] then some [] else none
  | a :: s =>
    match longest (fun l => p (a :: l)) s with
    | some l => some (a :: l)
    | none => if p [] then some [] else none

/-- A prefix with the property that no longer one has. -/
def IsLongest (p : List α → Bool) (s l : List α) : Prop :=
  l <+: s ∧ p l = true ∧ ∀ l', l' <+: s → p l' = true → l'.length ≤ l.length

theorem IsLongest.unique {p : List α → Bool} {s l l' : List α} (h : IsLongest p s l)
    (h' : IsLongest p s l') : l = l' := by
  have hlen : l.length = l'.length := le_antisymm (h'.2.2 l h.1 h.2.1) (h.2.2 l' h'.1 h'.2.1)
  exact (List.prefix_of_prefix_length_le h.1 h'.1 hlen.le).eq_of_length hlen

theorem longest_spec (p : List α → Bool) (s : List α) :
    match longest p s with
    | some l => IsLongest p s l
    | none => ∀ l, l <+: s → p l = false := by
  induction s generalizing p with
  | nil =>
    unfold longest
    split_ifs with hp
    · exact ⟨List.prefix_rfl, hp, fun l' h _ => by simp [List.prefix_nil.mp h]⟩
    · exact fun l h => by simpa [List.prefix_nil.mp h] using hp
  | cons a s ih =>
    specialize ih fun l => p (a :: l)
    unfold longest
    split at ih
    · rename_i l _
      obtain ⟨hbegins, hp, hmax⟩ := ih
      refine ⟨List.prefix_cons_iff.mpr (.inr ⟨l, rfl, hbegins⟩), hp, fun l' h' hp' => ?_⟩
      rcases List.prefix_cons_iff.mp h' with rfl | ⟨t, rfl, ht⟩
      · simp
      · simpa using hmax t ht hp'
    · split_ifs with hp
      · have hbegins : [] <+: a :: s := List.nil_prefix
        refine ⟨hbegins, hp, fun l' h' hp' => ?_⟩
        rcases List.prefix_cons_iff.mp h' with rfl | ⟨t, rfl, ht⟩
        · exact le_refl _
        · rw [ih t ht] at hp'
          cases hp'
      · intro l' h'
        rcases List.prefix_cons_iff.mp h' with rfl | ⟨t, rfl, ht⟩
        · simpa using hp
        · exact ih t ht

theorem longest_eq_some {p : List α → Bool} {s l : List α} :
    longest p s = some l ↔ IsLongest p s l := by
  have hspec := longest_spec p s
  constructor
  · intro h
    rwa [h] at hspec
  · intro h
    cases hl : longest p s with
    | none =>
      rw [hl] at hspec
      exact absurd h.2.1 (by simp [hspec l h.1])
    | some l' =>
      rw [hl] at hspec
      exact congrArg some (hspec.unique h)

theorem longest_eq_none {p : List α → Bool} {s : List α} :
    longest p s = none ↔ ∀ l, l <+: s → p l = false := by
  have hspec := longest_spec p s
  constructor
  · intro h
    rwa [h] at hspec
  · intro h
    cases hl : longest p s with
    | none => rfl
    | some l =>
      rw [hl] at hspec
      exact absurd hspec.2.1 (by simp [h l hspec.1])

end Longest

end Decimal
