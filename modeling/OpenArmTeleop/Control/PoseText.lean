import OpenArmTeleop.Control.GotoPose

/-!
# Which texts are read as a pose

`parse_pose16` over an extraction that takes the longest prefix that is a literal.
-/

open Num Decimal

namespace OpenArmTeleop.Control

/-! ## Two extractions -/

section Extractions

theorem dropWhile_isSpace {s : Text} (hs : ∀ c ∈ s, literalChar c = true) (hne : s ≠ []) (t : Text) :
    (s ++ t).dropWhile isSpace = s ++ t := by
  obtain ⟨c, u, rfl⟩ := List.exists_cons_of_ne_nil hne
  simp [not_isSpace (hs c (.head u))]

theorem dropWhile_of_literalChar {s : Text} (hs : ∀ c ∈ s, literalChar c = true) :
    s.dropWhile isSpace = s := by
  cases s with
  | nil => rfl
  | cons c s => simp [not_isSpace (hs c (.head s))]

/-- A scannable prefix does not go past white space. -/
theorem prefix_of_scan {q l s : Text} {st : Scan} (hq : q <+: l ++ s) (hs : SpaceNext s)
    (hscan : scan q = some st) : q <+: l := by
  rcases prefix_append_cases hq with h | ⟨r, rfl, hr⟩
  · exact h
  · cases r with
    | nil => simp
    | cons c r =>
      have hspace : isSpace c = true := hs.of_begins hr c r rfl
      rw [not_isSpace (literalChar_of_scan hscan c (by simp))] at hspace
      cases hspace

theorem isLongest_literal {l s : Text} (hl : Literal l) (hs : SpaceNext s) :
    IsLongest isLiteral (l ++ s) l := by
  refine ⟨List.prefix_append l s, (isLiteral_iff l).mpr hl, fun q hq hlit => ?_⟩
  obtain ⟨st, hst, -⟩ := (Option.any_eq_true _ _).mp hlit
  exact (prefix_of_scan hq hs hst).length_le

/-- Only an exponent may not be over after a character that can follow a literal. -/
theorem mark_of_next {st st' : Scan} {c : Char} (hfinal : st.final = true)
    (hnext : st.next c = some st') (hnot : st'.final = false) : Mark c := by
  unfold Scan.next at hnext
  split_ifs at hnext with hdigit hpoint hmark hsign
  · obtain rfl := Option.some.inj hnext
    cases st <;> cases hnot
  · cases st with
    | whole =>
      cases hnext
      cases hnot
    | fraction | power => cases hnext
    | _ => cases hfinal
  · exact hmark
  · cases st with
    | whole | fraction | power => cases hnext
    | _ => cases hfinal

theorem longest_mark {c : Char} (hc : Mark c) (s : Text) : longest isLiteral (c :: s) = none := by
  refine longest_eq_none.mpr fun l hl => ?_
  rcases List.prefix_cons_iff.mp hl with rfl | ⟨t, rfl, -⟩
  · rfl
  · rcases hc with rfl | rfl <;> rfl

/-- What is left of a cut literal behind the longest literal in it is none. -/
theorem longest_rest {l c p s : Text} (hl : Literal l) (hc : c <+: l)
    (hp : IsLongest isLiteral c p) (hs : c = p ++ s) : longest isLiteral s = none := by
  cases s with
  | nil => rfl
  | cons d s =>
    refine longest_mark ?_ s
    have hstep : p ++ [d] <+: c := by rw [hs]; simp
    obtain ⟨st, hst, hfinal⟩ := (Option.any_eq_true _ _).mp hp.2.1
    obtain ⟨st', hst'⟩ := scan_of_begins hl (hstep.trans hc)
    have hnext : st.next d = some st' := by
      rw [scan_append, hst] at hst'
      simpa using hst'
    refine mark_of_next hfinal hnext ?_
    by_contra hfinal'
    have hlonger := hp.2.2 (p ++ [d]) hstep (by
      rw [isLiteral, hst']
      simpa using hfinal')
    simp at hlonger

variable [Rounding]

/-- What a literal is converted to. -/
def ofLiteral (l : Text) : Double := Rounding.round (value l)

def readLongest (s : Text) : Option (Double × Text) :=
  (longest isLiteral (s.dropWhile isSpace)).map fun l =>
    (ofLiteral l, (s.dropWhile isSpace).drop l.length)

theorem readLongest_eq_some {s r : Text} {v : Double} : readLongest s = some (v, r) ↔
    ∃ l, IsLongest isLiteral (s.dropWhile isSpace) l ∧ s.dropWhile isSpace = l ++ r ∧
      v = ofLiteral l := by
  simp only [readLongest, Option.map_eq_some_iff, longest_eq_some, Prod.mk.injEq]
  constructor
  · rintro ⟨l, hl, rfl, rfl⟩
    obtain ⟨t, ht⟩ := hl.1
    refine ⟨l, hl, ?_, rfl⟩
    rw [← ht, List.drop_left]
  · rintro ⟨l, hl, hs, rfl⟩
    exact ⟨l, hl, rfl, by rw [hs, List.drop_left]⟩

theorem readLongest_eq_none {s : Text} :
    readLongest s = none ↔ longest isLiteral (s.dropWhile isSpace) = none := by
  simp [readLongest]

/-- Extraction takes the longest prefix that is a literal. -/
def Extraction.longest : Extraction where
  value := ofLiteral
  read := readLongest
  read_nil := rfl
  read_space c s hc := by simp [readLongest, hc]
  read_literal l s hl hs := by
    have hdrop := dropWhile_isSpace hl.literalChar hl.ne_nil s
    refine readLongest_eq_some.mpr ⟨l, ?_, hdrop, rfl⟩
    rw [hdrop]
    exact isLongest_literal hl hs
  read_cut l c v s hl hc hread := by
    obtain ⟨p, hp, hs, -⟩ := readLongest_eq_some.mp hread
    have hchars : ∀ x ∈ c, literalChar x = true := fun x hx => hl.literalChar x (hc.subset hx)
    rw [dropWhile_of_literalChar hchars] at hp hs
    rw [readLongest_eq_none, dropWhile_of_literalChar fun x hx => hchars x (by simp [hs, hx])]
    exact longest_rest hl hc hp hs
  read_length s v r hread := by
    obtain ⟨l, hl, hs, -⟩ := readLongest_eq_some.mp hread
    have hpos := List.length_pos_iff.mpr ((isLiteral_iff l).mp hl.2.1).ne_nil
    have hle := (List.dropWhile_suffix isSpace (l := s)).length_le
    rw [hs, List.length_append] at hle
    omega

def readScanned (s : Text) : Option (Double × Text) :=
  (Decimal.longest (fun p => (scan p).isSome) (s.dropWhile isSpace)).bind fun p =>
    if isLiteral p then some (ofLiteral p, (s.dropWhile isSpace).drop p.length) else none

theorem readScanned_of_isLongest {s r p : Text} (hs : s.dropWhile isSpace = p ++ r)
    (hp : IsLongest (fun p => (scan p).isSome) (p ++ r) p) :
    readScanned s = if isLiteral p then some (ofLiteral p, r) else none := by
  rw [readScanned, hs, longest_eq_some.mpr hp, Option.bind_some, List.drop_left]

/-- Extraction takes the longest prefix that can become a literal, and fails unless it is one. -/
def Extraction.scanned : Extraction where
  value := ofLiteral
  read := readScanned
  read_nil := rfl
  read_space c s hc := by simp [readScanned, hc]
  read_literal l s hl hs := by
    have hscan : ∃ st, scan l = some st := scan_of_begins hl List.prefix_rfl
    have hp : IsLongest (fun p => (scan p).isSome) (l ++ s) l := by
      refine ⟨List.prefix_append l s, Option.isSome_iff_exists.mpr hscan, fun q hq hsome => ?_⟩
      obtain ⟨st, hst⟩ := Option.isSome_iff_exists.mp hsome
      exact (prefix_of_scan hq hs hst).length_le
    rw [readScanned_of_isLongest (dropWhile_isSpace hl.literalChar hl.ne_nil s) hp,
      if_pos ((isLiteral_iff l).mpr hl)]
  read_cut l c v s hl hc hread := by
    have hchars : ∀ x ∈ c, literalChar x = true := fun x hx => hl.literalChar x (hc.subset hx)
    have hp : IsLongest (fun p => (scan p).isSome) (c ++ []) c := by
      rw [List.append_nil]
      exact ⟨List.prefix_rfl, Option.isSome_iff_exists.mpr (scan_of_begins hl hc),
        fun q hq _ => hq.length_le⟩
    rw [readScanned_of_isLongest (by rw [dropWhile_of_literalChar hchars, List.append_nil]) hp] at hread
    split at hread
    · cases hread
      rfl
    · cases hread
  read_length s v r hread := by
    obtain ⟨p, hp, hread⟩ := Option.bind_eq_some_iff.mp hread
    split at hread
    · rename_i hlit
      cases hread
      have hpos := List.length_pos_iff.mpr ((isLiteral_iff p).mp hlit).ne_nil
      have hle := (List.dropWhile_suffix isSpace (l := s)).length_le
      rw [List.length_drop]
      have hplen := (longest_eq_some.mp hp).1.length_le
      omega
    · cases hread

end Extractions

/-! ## How a text splits -/

/-- Gaps and the longest literals behind them, and the rest. -/
inductive Splits : Text → List (Text × Text) → Text → Prop
  | stop {s : Text} (hs : longest isLiteral (s.dropWhile isSpace) = none) : Splits s [] s
  | piece {t gap l s rest : Text} {pieces : List (Text × Text)} (ht : t = gap ++ (l ++ s))
      (hgap : Spaces gap) (hl : IsLongest isLiteral (l ++ s) l) (h : Splits s pieces rest) :
      Splits t ((gap, l) :: pieces) rest

/-- No two literals touch, and nothing but white space is left. -/
def Tidy (pieces : List (Text × Text)) (rest : Text) : Prop :=
  (∀ p ∈ pieces.tail, p.1 ≠ []) ∧ Spaces rest

theorem literal_of_isLongest {s l : Text} (hl : IsLongest isLiteral s l) : Literal l :=
  (isLiteral_iff l).mp hl.2.1

theorem dropWhile_gap {gap l s : Text} (hgap : Spaces gap) (hl : Literal l) :
    (gap ++ (l ++ s)).dropWhile isSpace = l ++ s := by
  rw [List.dropWhile_append_of_pos hgap]
  exact dropWhile_isSpace hl.literalChar hl.ne_nil s

theorem Splits.unique {s rest rest' : Text} {pieces pieces' : List (Text × Text)}
    (h : Splits s pieces rest) (h' : Splits s pieces' rest') : pieces = pieces' ∧ rest = rest' := by
  induction h generalizing pieces' with
  | stop hs =>
    cases h' with
    | stop => exact ⟨rfl, rfl⟩
    | piece ht hgap hl h' =>
      rw [ht, dropWhile_gap hgap (literal_of_isLongest hl), longest_eq_some.mpr hl] at hs
      cases hs
  | piece ht hgap hl h ih =>
    cases h' with
    | stop hs =>
      rw [ht, dropWhile_gap hgap (literal_of_isLongest hl), longest_eq_some.mpr hl] at hs
      cases hs
    | piece ht' hgap' hl' h' =>
      have htail := congrArg (List.dropWhile isSpace) (ht.symm.trans ht')
      rw [dropWhile_gap hgap (literal_of_isLongest hl),
        dropWhile_gap hgap' (literal_of_isLongest hl')] at htail
      have hgaps := ht.symm.trans ht'
      rw [htail] at hgaps hl
      obtain rfl := hl.unique hl'
      obtain rfl := List.append_cancel_right hgaps
      obtain rfl := List.append_cancel_left htail
      obtain ⟨rfl, rfl⟩ := ih h'
      exact ⟨rfl, rfl⟩

theorem exists_splits (s : Text) : ∃ pieces rest, Splits s pieces rest := by
  induction hn : s.length using Nat.strong_induction_on generalizing s with
  | _ n ih =>
    cases hlong : longest isLiteral (s.dropWhile isSpace) with
    | none => exact ⟨[], s, .stop hlong⟩
    | some l =>
      have hl := longest_eq_some.mp hlong
      obtain ⟨r, hr⟩ := hl.1
      have hs : s = s.takeWhile isSpace ++ (l ++ r) := by rw [hr, List.takeWhile_append_dropWhile]
      have hlen : r.length < n := by
        have hpos := List.length_pos_iff.mpr (literal_of_isLongest hl).ne_nil
        rw [hs, List.length_append, List.length_append] at hn
        omega
      obtain ⟨pieces, rest, h⟩ := ih _ hlen r rfl
      exact ⟨_, rest, .piece hs (fun c hc => List.mem_takeWhile_imp hc) (hr ▸ hl) h⟩

theorem readAll_splits [Rounding] {s rest : Text} {pieces : List (Text × Text)}
    (h : Splits s pieces rest) :
    Extraction.longest.readAll s = pieces.map fun p => ofLiteral p.2 := by
  induction h with
  | stop hs => exact Extraction.readAll_of_none (readLongest_eq_none.mpr hs)
  | piece ht hgap hl h ih =>
    rename_i t gap l s rest pieces
    have hdrop := dropWhile_gap (s := s) hgap (literal_of_isLongest hl)
    have hread : Extraction.longest.read t = some (ofLiteral l, s) :=
      readLongest_eq_some.mpr ⟨l, by rwa [ht, hdrop], by rw [ht, hdrop], rfl⟩
    rw [Extraction.readAll_of_some hread, ih]
    rfl

/-! ## Tidy texts -/

/-- Behind a tidy piece comes white space. -/
theorem Splits.spaceNext {s rest : Text} {pieces : List (Text × Text)} (h : Splits s pieces rest)
    (hgaps : ∀ p ∈ pieces, p.1 ≠ []) (hrest : Spaces rest) : SpaceNext s := by
  cases h with
  | stop => exact fun c t hs => hrest c (by simp [hs])
  | piece ht hgap hl h =>
    rename_i gap l r pieces
    obtain ⟨c, u, rfl⟩ := List.exists_cons_of_ne_nil (hgaps (gap, l) (.head _))
    rintro d t hs
    rw [hs] at ht
    obtain ⟨rfl, -⟩ := List.cons.inj ht
    exact hgap d (.head u)

theorem Splits.separated {s rest : Text} {pieces : List (Text × Text)} (h : Splits s pieces rest)
    (htidy : Tidy pieces rest) : Separated s (pieces.map (·.2)) := by
  obtain ⟨hgaps, hrest⟩ := htidy
  induction h with
  | stop => exact .spaces hrest
  | piece ht hgap hl h ih =>
    have htail := ih (fun p hp => hgaps p (List.mem_of_mem_tail hp)) hrest
    rw [ht]
    exact .number hgap (literal_of_isLongest hl) (h.spaceNext hgaps hrest) htail

theorem Separated.splits {s : Text} {ls : List Text} (h : Separated s ls) :
    ∃ pieces rest, Splits s pieces rest ∧ Tidy pieces rest := by
  induction h with
  | spaces hs =>
    rename_i s
    have hdrop : s.dropWhile isSpace = [] := List.dropWhile_eq_nil_iff.mpr hs
    refine ⟨[], s, .stop ?_, by simp, hs⟩
    rw [hdrop]
    rfl
  | number hgap hl hs h ih =>
    rename_i gap l s ls
    obtain ⟨pieces, rest, hsplits, hgaps, hrest⟩ := ih
    refine ⟨_, rest, .piece rfl hgap (isLongest_literal hl hs) hsplits, ?_, hrest⟩
    cases hsplits with
    | stop => simp
    | piece ht hgap' hl' hsplits =>
      rename_i gap' l' s' pieces
      rintro p hp
      rcases List.mem_cons.mp hp with rfl | hp
      -- the white space before the next literal is its gap
      · rintro rfl
        obtain ⟨c, u, rfl⟩ := List.exists_cons_of_ne_nil (literal_of_isLongest hl').ne_nil
        have hspace := hs c (u ++ s') ht
        rw [not_isSpace ((literal_of_isLongest hl').literalChar c (.head u))] at hspace
        cases hspace
      · exact hgaps p hp

/-! ## What is read -/

/-- Sixteen tokens, each of them a literal. -/
def WellFormed (args : Text) : Prop := (tokens args).length = 16 ∧ ∀ t ∈ tokens args, Literal t

instance (args : Text) : Decidable (WellFormed args) := inferInstanceAs (Decidable (_ ∧ _))

/-- There are sixteen literals, but two of them touch, or something else than white space is left. -/
def Misread (args : Text) : Prop :=
  ∃ pieces rest, Splits args pieces rest ∧ pieces.length = 16 ∧ ¬ Tidy pieces rest

/-- **What `parse_pose16` accepts.** It accepts the well-formed arguments, and with their values,
exactly where the text is not one of sixteen literals that is untidy. -/
theorem parsePose16_right_iff [Rounding] (args : Text) :
    let r := parsePose16 .longest args
    ((r.1 = true ↔ WellFormed args) ∧ (r.1 = true → r.2 = (tokens args).map ofLiteral)) ↔
      ¬ Misread args := by
  intro r
  obtain ⟨pieces, rest, hsplits⟩ := exists_splits args
  have hread := readAll_splits hsplits
  have hcount : r.1 = true ↔ pieces.length = 16 := by simp [r, parsePose16, hread]
  have hvalues : r.2 = pieces.map fun p => ofLiteral p.2 := hread
  have htidy : WellFormed args → Tidy pieces rest ∧ pieces.length = 16 := by
    rintro ⟨hlen, hlits⟩
    obtain ⟨pieces', rest', hsplits', htidy⟩ := (separated_tokens hlits).splits
    obtain ⟨rfl, rfl⟩ := hsplits.unique hsplits'
    refine ⟨htidy, ?_⟩
    rw [tokens_of_separated (hsplits.separated htidy), List.length_map] at hlen
    exact hlen
  constructor
  · rintro ⟨hright, -⟩ ⟨pieces', rest', hsplits', hlen, huntidy⟩
    obtain ⟨rfl, rfl⟩ := hsplits.unique hsplits'
    exact huntidy (htidy (hright.mp (hcount.mpr hlen))).1
  · intro hnot
    have hclean : r.1 = true → Tidy pieces rest := by
      intro hr
      by_contra huntidy
      exact hnot ⟨pieces, rest, hsplits, hcount.mp hr, huntidy⟩
    refine ⟨⟨fun hr => ?_, fun hwell => hcount.mpr (htidy hwell).2⟩, fun hr => ?_⟩
    · have hsep := hsplits.separated (hclean hr)
      have htokens := tokens_of_separated hsep
      exact ⟨by rw [htokens, List.length_map, hcount.mp hr], htokens ▸ hsep.literals⟩
    · rw [hvalues, tokens_of_separated (hsplits.separated (hclean hr)), List.map_map]
      rfl

section Runs

attribute [local instance] Rounding.exact

/-- Sixteen numbers and a word, and fourteen numbers behind a doubled point. -/
theorem parsePose16_misreads :
    let trailing := "0 0 0 0 0 0 0 0 0 0 0 0 0 0 0 0 stop".toList
    let doubled := "1.5.5 0 0 0 0 0 0 0 0 0 0 0 0 0 0".toList
    (parsePose16 .longest trailing = (true, List.replicate 16 0) ∧ ¬ WellFormed trailing) ∧
      parsePose16 .longest doubled = (true, .fin 1.5 :: .fin 0.5 :: List.replicate 14 0) ∧
      ¬ WellFormed doubled := by
  decide +kernel

end Runs

end OpenArmTeleop.Control
