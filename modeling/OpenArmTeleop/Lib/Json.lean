import OpenArmTeleop.Lib.Decimal

/-!
# JSON texts

The grammar of a JSON text, which names at most one value, and what a text can hold of control
characters. A rule relates a text to what is left of it.
-/

namespace Json

/-- A string is a list of UTF-16 code units, and a number is its text. -/
inductive Value
  | null
  | bool (b : Bool)
  | number (text : List Char)
  | string (units : List ℕ)
  | array (items : List Value)
  | object (members : List (List ℕ × Value))

/-! ## Characters -/

def isWs (c : Char) : Bool := c ∈ [' ', '\t', '\n', '\r']

theorem isWs_iff {c : Char} : isWs c = true ↔ c = ' ' ∨ c = '\t' ∨ c = '\n' ∨ c = '\r' := by
  simp [isWs]

/-- The code units of a character. -/
def units (c : Char) : List ℕ :=
  if c.toNat < 0x10000 then [c.toNat]
  else [0xD800 + (c.toNat - 0x10000) / 0x400, 0xDC00 + (c.toNat - 0x10000) % 0x400]

def utf16 (s : List Char) : List ℕ := s.flatMap units

def Unescaped (c : Char) : Prop := 0x20 ≤ c.toNat ∧ c ≠ '"' ∧ c ≠ '\\'

/-- The code unit of a character behind a backslash. -/
def escaped (c : Char) : Option ℕ :=
  match c with
  | '"' => some 0x22
  | '\\' => some 0x5C
  | '/' => some 0x2F
  | 'b' => some 0x08
  | 'f' => some 0x0C
  | 'n' => some 0x0A
  | 'r' => some 0x0D
  | 't' => some 0x09
  | _ => none

def hexDigit (c : Char) : Option ℕ :=
  if c.isDigit then some (c.toNat - '0'.toNat)
  else if 'a' ≤ c ∧ c ≤ 'f' then some (c.toNat - 'a'.toNat + 10)
  else if 'A' ≤ c ∧ c ≤ 'F' then some (c.toNat - 'A'.toNat + 10)
  else none

/-! ## The grammar -/

/-- White space, and what comes after it. -/
inductive Ws : List Char → List Char → Prop
  | refl (s : List Char) : Ws s s
  | cons {c : Char} {s t : List Char} (hc : isWs c = true) (h : Ws s t) : Ws (c :: s) t

/-- The rest of a string, behind its first quotation mark. -/
inductive StringRest : List Char → List ℕ → List Char → Prop
  | close (t : List Char) : StringRest ('"' :: t) [] t
  | unescaped {c : Char} {s t : List Char} {u : List ℕ} (hc : Unescaped c)
      (h : StringRest s u t) : StringRest (c :: s) (units c ++ u) t
  | escape {c : Char} {unit : ℕ} {s t : List Char} {u : List ℕ} (hc : escaped c = some unit)
      (h : StringRest s u t) : StringRest ('\\' :: c :: s) (unit :: u) t
  | unicode {a b c d : Char} {i j k l : ℕ} {s t : List Char} {u : List ℕ}
      (ha : hexDigit a = some i) (hb : hexDigit b = some j) (hc : hexDigit c = some k)
      (hd : hexDigit d = some l) (h : StringRest s u t) :
      StringRest ('\\' :: 'u' :: a :: b :: c :: d :: s) ((0x1000 * i + 0x100 * j + 0x10 * k + l) :: u) t

def IntPart (s : List Char) : Prop := s = ['0'] ∨ Decimal.Digits s ∧ s.head? ≠ some '0'

inductive Number : List Char → Prop
  | mk {minus int frac power : List Char} (hminus : minus = [] ∨ minus = ['-']) (hint : IntPart int)
      (hfrac : frac = [] ∨ ∃ f, Decimal.Digits f ∧ frac = '.' :: f)
      (hpower : power = [] ∨ Decimal.Power power) : Number (minus ++ (int ++ (frac ++ power)))

/-- What a rule reads. -/
inductive Item
  | value (v : Value)
  | items (vs : List Value)
  | members (ms : List (List ℕ × Value))

/-- The rules; the items of an array and the members of an object go to their closing bracket. -/
inductive Reads : Item → List Char → List Char → Prop
  | litNull (t : List Char) : Reads (.value .null) ('n' :: 'u' :: 'l' :: 'l' :: t) t
  | litTrue (t : List Char) : Reads (.value (.bool true)) ('t' :: 'r' :: 'u' :: 'e' :: t) t
  | litFalse (t : List Char) : Reads (.value (.bool false)) ('f' :: 'a' :: 'l' :: 's' :: 'e' :: t) t
  | number {n s t : List Char} (hn : Number n) (hs : s = n ++ t) : Reads (.value (.number n)) s t
  | string {s t : List Char} {u : List ℕ} (hs : StringRest s u t) :
      Reads (.value (.string u)) ('"' :: s) t
  | emptyArray {s t : List Char} (hs : Ws s (']' :: t)) : Reads (.value (.array [])) ('[' :: s) t
  | array {s t : List Char} {vs : List Value} (hs : Reads (.items vs) s t) :
      Reads (.value (.array vs)) ('[' :: s) t
  | emptyObject {s t : List Char} (hs : Ws s ('}' :: t)) : Reads (.value (.object [])) ('{' :: s) t
  | object {s t : List Char} {ms : List (List ℕ × Value)} (hs : Reads (.members ms) s t) :
      Reads (.value (.object ms)) ('{' :: s) t
  | lastItem {s s₁ s₂ t : List Char} {v : Value} (h₁ : Ws s s₁) (h₂ : Reads (.value v) s₁ s₂)
      (h₃ : Ws s₂ (']' :: t)) : Reads (.items [v]) s t
  | nextItem {s s₁ s₂ s₃ t : List Char} {v : Value} {vs : List Value} (h₁ : Ws s s₁)
      (h₂ : Reads (.value v) s₁ s₂) (h₃ : Ws s₂ (',' :: s₃)) (h₄ : Reads (.items vs) s₃ t) :
      Reads (.items (v :: vs)) s t
  | lastMember {s s₁ s₂ s₃ s₄ s₅ t : List Char} {name : List ℕ} {v : Value}
      (h₁ : Ws s ('"' :: s₁)) (h₂ : StringRest s₁ name s₂) (h₃ : Ws s₂ (':' :: s₃)) (h₄ : Ws s₃ s₄)
      (h₅ : Reads (.value v) s₄ s₅) (h₆ : Ws s₅ ('}' :: t)) : Reads (.members [(name, v)]) s t
  | nextMember {s s₁ s₂ s₃ s₄ s₅ s₆ t : List Char} {name : List ℕ} {v : Value}
      {ms : List (List ℕ × Value)} (h₁ : Ws s ('"' :: s₁)) (h₂ : StringRest s₁ name s₂)
      (h₃ : Ws s₂ (':' :: s₃)) (h₄ : Ws s₃ s₄) (h₅ : Reads (.value v) s₄ s₅)
      (h₆ : Ws s₅ (',' :: s₆)) (h₇ : Reads (.members ms) s₆ t) :
      Reads (.members ((name, v) :: ms)) s t

/-- A whole text is a value between white space. -/
def Text (s : List Char) (v : Value) : Prop :=
  ∃ s₁ s₂, Ws s s₁ ∧ Reads (.value v) s₁ s₂ ∧ Ws s₂ []

/-! ## One value at most -/

/-- No white space at the beginning. -/
def NoWs (s : List Char) : Prop := ∀ c u, s = c :: u → isWs c = false

/-- A number would not go on. -/
def Ends (s : List Char) : Prop := ∀ c u, s = c :: u → Decimal.literalChar c = false

theorem noWs_cons {c : Char} (hc : isWs c = false) (s : List Char) : NoWs (c :: s) := by
  rintro _ _ ⟨⟩
  exact hc

theorem Ws.unique {s t t' : List Char} (h : Ws s t) (h' : Ws s t') (ht : NoWs t) (ht' : NoWs t') :
    t = t' := by
  induction h with
  | refl s =>
    cases h' with
    | refl => rfl
    | cons hc h' => exact absurd (ht _ _ rfl) (by simp [hc])
  | cons hc h ih =>
    cases h' with
    | refl => exact absurd (ht' _ _ rfl) (by simp [hc])
    | cons hc' h' => exact ih h' ht

theorem Ws.ends {s t : List Char} (h : Ws s t) (ht : Ends t) : Ends s := by
  cases h with
  | refl => exact ht
  | cons hc h =>
    rintro _ _ ⟨⟩
    rcases isWs_iff.mp hc with rfl | rfl | rfl | rfl <;> decide

theorem StringRest.unique {s t t' : List Char} {u u' : List ℕ} (h : StringRest s u t)
    (h' : StringRest s u' t') : u = u' ∧ t = t' := by
  induction h generalizing u' with
  | close t =>
    cases h' with
    | close => exact ⟨rfl, rfl⟩
    | unescaped hc => exact absurd rfl hc.2.1
  | unescaped hc h ih =>
    cases h' with
    | close => exact absurd rfl hc.2.1
    | unescaped hc' h' =>
      obtain ⟨rfl, rfl⟩ := ih h'
      exact ⟨rfl, rfl⟩
    | escape | unicode => exact absurd rfl hc.2.2
  | escape hc h ih =>
    cases h' with
    | unescaped hc' => exact absurd rfl hc'.2.2
    | escape hc' h' =>
      obtain ⟨rfl, rfl⟩ := ih h'
      exact ⟨by rw [Option.some.inj (hc.symm.trans hc')], rfl⟩
    | unicode => cases hc
  | unicode ha hb hc hd h ih =>
    cases h' with
    | unescaped hc' => exact absurd rfl hc'.2.2
    | escape hc' => cases hc'
    | unicode ha' hb' hc' hd' h' =>
      obtain ⟨rfl, rfl⟩ := ih h'
      obtain rfl := Option.some.inj (ha.symm.trans ha')
      obtain rfl := Option.some.inj (hb.symm.trans hb')
      obtain rfl := Option.some.inj (hc.symm.trans hc')
      obtain rfl := Option.some.inj (hd.symm.trans hd')
      exact ⟨rfl, rfl⟩

theorem Number.head {n : List Char} (hn : Number n) :
    ∃ c u, n = c :: u ∧ (c = '-' ∨ c.isDigit = true) := by
  obtain ⟨hminus, hint, -, -⟩ := hn
  rename_i minus int frac power
  rcases hminus with rfl | rfl
  · rcases hint with rfl | ⟨⟨hne, hdigits⟩, -⟩
    · exact ⟨'0', frac ++ power, rfl, .inr rfl⟩
    · obtain ⟨c, u, rfl⟩ := List.exists_cons_of_ne_nil hne
      exact ⟨c, u ++ (frac ++ power), rfl, .inr (hdigits c (.head u))⟩
  · exact ⟨'-', int ++ (frac ++ power), rfl, .inl rfl⟩

theorem Number.literalChar {n : List Char} (hn : Number n) :
    ∀ c ∈ n, Decimal.literalChar c = true := by
  obtain ⟨hminus, hint, hfrac, hpower⟩ := hn
  intro c hc
  rcases List.mem_append.mp hc with hc | hc
  · rcases hminus with rfl | rfl
    · cases hc
    · rw [List.mem_singleton.mp hc]
      rfl
  rcases List.mem_append.mp hc with hc | hc
  · rcases hint with rfl | ⟨hdigits, -⟩
    · rw [List.mem_singleton.mp hc]
      rfl
    · exact hdigits.literalChar c hc
  rcases List.mem_append.mp hc with hc | hc
  · rcases hfrac with rfl | ⟨f, hf, rfl⟩
    · cases hc
    · rcases List.mem_cons.mp hc with rfl | hc
      · rfl
      · exact hf.literalChar c hc
  · rcases hpower with rfl | hpower
    · cases hc
    · exact hpower.literalChar c hc

/-- No number begins with another character. -/
theorem Number.not_cons {n s t : List Char} {c : Char} (hn : Number n) (hs : c :: s = n ++ t)
    (hc : (c == '-' || c.isDigit) = false) : False := by
  obtain ⟨d, u, rfl, hd⟩ := hn.head
  obtain ⟨rfl, -⟩ := List.cons.inj hs
  rcases hd with rfl | hd
  · cases hc
  · simp [hd] at hc

theorem Number.unique {n n' t t' : List Char} (hn : Number n) (hn' : Number n')
    (h : n ++ t = n' ++ t') (ht : Ends t) (ht' : Ends t') : n = n' ∧ t = t' := by
  have htake : ∀ {n t : List Char}, Number n → Ends t →
      (n ++ t).takeWhile Decimal.literalChar = n := by
    intro n t hn ht
    rw [List.takeWhile_append_of_pos hn.literalChar]
    cases t with
    | nil => simp
    | cons c u => simp [ht c u rfl]
  obtain rfl : n = n' := by rw [← htake hn ht, h, htake hn' ht']
  exact ⟨rfl, List.append_cancel_left h⟩

/-- A value begins with neither white space nor a bracket that closes. -/
theorem Reads.head {v : Value} {s t : List Char} (h : Reads (.value v) s t) :
    ∃ c u, s = c :: u ∧ isWs c = false ∧ c ≠ ']' := by
  cases h with
  | number hn hs =>
    obtain ⟨c, u, rfl, hc⟩ := hn.head
    refine ⟨c, _, hs, ?_, ?_⟩
    · rcases hc with rfl | hc
      · rfl
      · by_contra hws
        rw [Bool.not_eq_false, isWs_iff] at hws
        rcases hws with rfl | rfl | rfl | rfl <;> cases hc
    · rintro rfl
      rcases hc with hc | hc <;> cases hc
  | _ => exact ⟨_, _, rfl, rfl, by decide⟩

theorem Reads.noWs {v : Value} {s t : List Char} (h : Reads (.value v) s t) : NoWs s := by
  obtain ⟨c, u, rfl, hc, -⟩ := h.head
  exact noWs_cons hc u

/-- What a text read as an item settles. -/
def Settles : Item → List Char → List Char → Prop
  | .value v, s, t => ∀ v' t', Reads (.value v') s t' → Ends t → Ends t' → v = v' ∧ t = t'
  | .items vs, s, t => ∀ vs' t', Reads (.items vs') s t' → vs = vs' ∧ t = t'
  | .members ms, s, t => ∀ ms' t', Reads (.members ms') s t' → ms = ms' ∧ t = t'

/-- A character behind a value, and behind white space. -/
def delimits (c : Char) : Bool := !isWs c && !Decimal.literalChar c

theorem noWs_of_delimits {c : Char} (hc : delimits c = true) (s : List Char) : NoWs (c :: s) :=
  noWs_cons (by simp_all [delimits]) s

theorem Ws.unique_cons {s t t' : List Char} {c c' : Char} (h : Ws s (c :: t)) (h' : Ws s (c' :: t'))
    (hc : delimits c = true) (hc' : delimits c' = true) : c = c' ∧ t = t' :=
  List.cons.inj (h.unique h' (noWs_of_delimits hc t) (noWs_of_delimits hc' t'))

theorem Ws.ends_cons {s t : List Char} {c : Char} (h : Ws s (c :: t)) (hc : delimits c = true) :
    Ends s := by
  refine h.ends ?_
  rintro _ _ ⟨⟩
  simp_all [delimits]

/-- A value between white space, up to a delimiter. -/
theorem Settles.between {s s₁ s₂ r s₁' s₂' r' : List Char} {v v' : Value} {c c' : Char}
    (hv : Settles (.value v) s₁ s₂) (h₁ : Ws s s₁) (h₂ : Reads (.value v) s₁ s₂)
    (h₃ : Ws s₂ (c :: r)) (h₁' : Ws s s₁') (h₂' : Reads (.value v') s₁' s₂')
    (h₃' : Ws s₂' (c' :: r')) (hc : delimits c = true) (hc' : delimits c' = true) :
    v = v' ∧ c = c' ∧ r = r' := by
  obtain rfl := h₁.unique h₁' h₂.noWs h₂'.noWs
  obtain ⟨rfl, rfl⟩ := hv _ _ h₂' (h₃.ends_cons hc) (h₃'.ends_cons hc')
  exact ⟨rfl, h₃.unique_cons h₃' hc hc'⟩

/-- A name and its colon. -/
theorem name_unique {s s₁ s₂ s₃ s₁' s₂' s₃' : List Char} {name name' : List ℕ}
    (h₁ : Ws s ('"' :: s₁)) (h₂ : StringRest s₁ name s₂) (h₃ : Ws s₂ (':' :: s₃))
    (h₁' : Ws s ('"' :: s₁')) (h₂' : StringRest s₁' name' s₂') (h₃' : Ws s₂' (':' :: s₃')) :
    name = name' ∧ s₃ = s₃' := by
  obtain ⟨-, rfl⟩ := h₁.unique_cons h₁' rfl rfl
  obtain ⟨rfl, rfl⟩ := h₂.unique h₂'
  exact ⟨rfl, (h₃.unique_cons h₃' rfl rfl).2⟩

theorem Reads.items_ne {vs : List Value} {s t r : List Char} (h : Reads (.items vs) s t) :
    ¬ Ws s (']' :: r) := by
  have hvalue : ∀ {s₁ s₂ : List Char} {v : Value}, Ws s s₁ → Reads (.value v) s₁ s₂ →
      ¬ Ws s (']' :: r) := by
    intro s₁ s₂ v h₁ h₂ hclose
    obtain ⟨c, u, rfl, hc, hne⟩ := h₂.head
    exact hne (List.cons.inj (h₁.unique hclose (noWs_cons hc u) (noWs_cons rfl r))).1
  cases h with
  | lastItem h₁ h₂ => exact hvalue h₁ h₂
  | nextItem h₁ h₂ => exact hvalue h₁ h₂

theorem Reads.members_ne {ms : List (List ℕ × Value)} {s t r : List Char}
    (h : Reads (.members ms) s t) : ¬ Ws s ('}' :: r) := by
  intro hclose
  cases h with
  | lastMember h₁ => exact absurd (h₁.unique_cons hclose rfl rfl).1 (by decide)
  | nextMember h₁ => exact absurd (h₁.unique_cons hclose rfl rfl).1 (by decide)

theorem Reads.settles {item : Item} {s t : List Char} (h : Reads item s t) : Settles item s t := by
  induction h with
  | litNull | litTrue | litFalse =>
    intro v' t' h' _ _
    cases h' with
    | number hn hs => exact (hn.not_cons hs rfl).elim
    | _ => exact ⟨rfl, rfl⟩
  | number hn hs =>
    intro v' t' h' ht ht'
    cases h' with
    | number hn' hs' =>
      obtain ⟨rfl, rfl⟩ := hn.unique hn' (hs.symm.trans hs') ht ht'
      exact ⟨rfl, rfl⟩
    | _ => exact (hn.not_cons hs rfl).elim
  | string hs =>
    intro v' t' h' _ _
    cases h' with
    | number hn hs' => exact (hn.not_cons hs' rfl).elim
    | string hs' =>
      obtain ⟨rfl, rfl⟩ := hs.unique hs'
      exact ⟨rfl, rfl⟩
  | emptyArray hs =>
    intro v' t' h' _ _
    cases h' with
    | number hn hs' => exact (hn.not_cons hs' rfl).elim
    | emptyArray hs' => exact ⟨rfl, (hs.unique_cons hs' rfl rfl).2⟩
    | array hs' => exact absurd hs hs'.items_ne
  | array hs ih =>
    intro v' t' h' _ _
    cases h' with
    | number hn hs' => exact (hn.not_cons hs' rfl).elim
    | emptyArray hs' => exact absurd hs' hs.items_ne
    | array hs' =>
      obtain ⟨rfl, rfl⟩ := ih _ _ hs'
      exact ⟨rfl, rfl⟩
  | emptyObject hs =>
    intro v' t' h' _ _
    cases h' with
    | number hn hs' => exact (hn.not_cons hs' rfl).elim
    | emptyObject hs' => exact ⟨rfl, (hs.unique_cons hs' rfl rfl).2⟩
    | object hs' => exact absurd hs hs'.members_ne
  | object hs ih =>
    intro v' t' h' _ _
    cases h' with
    | number hn hs' => exact (hn.not_cons hs' rfl).elim
    | emptyObject hs' => exact absurd hs' hs.members_ne
    | object hs' =>
      obtain ⟨rfl, rfl⟩ := ih _ _ hs'
      exact ⟨rfl, rfl⟩
  | lastItem h₁ h₂ h₃ ih =>
    intro vs' t' h'
    cases h' with
    | lastItem h₁' h₂' h₃' =>
      obtain ⟨rfl, -, rfl⟩ := ih.between h₁ h₂ h₃ h₁' h₂' h₃' rfl rfl
      exact ⟨rfl, rfl⟩
    | nextItem h₁' h₂' h₃' =>
      exact absurd (ih.between h₁ h₂ h₃ h₁' h₂' h₃' rfl rfl).2.1 (by decide)
  | nextItem h₁ h₂ h₃ h₄ ih ih' =>
    intro vs' t' h'
    cases h' with
    | lastItem h₁' h₂' h₃' =>
      exact absurd (ih.between h₁ h₂ h₃ h₁' h₂' h₃' rfl rfl).2.1 (by decide)
    | nextItem h₁' h₂' h₃' h₄' =>
      obtain ⟨rfl, -, rfl⟩ := ih.between h₁ h₂ h₃ h₁' h₂' h₃' rfl rfl
      obtain ⟨rfl, rfl⟩ := ih' _ _ h₄'
      exact ⟨rfl, rfl⟩
  | lastMember h₁ h₂ h₃ h₄ h₅ h₆ ih =>
    intro ms' t' h'
    cases h' with
    | lastMember h₁' h₂' h₃' h₄' h₅' h₆' =>
      obtain ⟨rfl, rfl⟩ := name_unique h₁ h₂ h₃ h₁' h₂' h₃'
      obtain ⟨rfl, -, rfl⟩ := ih.between h₄ h₅ h₆ h₄' h₅' h₆' rfl rfl
      exact ⟨rfl, rfl⟩
    | nextMember h₁' h₂' h₃' h₄' h₅' h₆' =>
      obtain ⟨rfl, rfl⟩ := name_unique h₁ h₂ h₃ h₁' h₂' h₃'
      exact absurd (ih.between h₄ h₅ h₆ h₄' h₅' h₆' rfl rfl).2.1 (by decide)
  | nextMember h₁ h₂ h₃ h₄ h₅ h₆ h₇ ih ih' =>
    intro ms' t' h'
    cases h' with
    | lastMember h₁' h₂' h₃' h₄' h₅' h₆' =>
      obtain ⟨rfl, rfl⟩ := name_unique h₁ h₂ h₃ h₁' h₂' h₃'
      exact absurd (ih.between h₄ h₅ h₆ h₄' h₅' h₆' rfl rfl).2.1 (by decide)
    | nextMember h₁' h₂' h₃' h₄' h₅' h₆' h₇' =>
      obtain ⟨rfl, rfl⟩ := name_unique h₁ h₂ h₃ h₁' h₂' h₃'
      obtain ⟨rfl, -, rfl⟩ := ih.between h₄ h₅ h₆ h₄' h₅' h₆' rfl rfl
      obtain ⟨rfl, rfl⟩ := ih' _ _ h₇'
      exact ⟨rfl, rfl⟩

theorem ends_of_ws_nil {s : List Char} (h : Ws s []) : Ends s := h.ends nofun

/-- A text has one value. -/
theorem Text.unique {s : List Char} {v v' : Value} (h : Text s v) (h' : Text s v') : v = v' := by
  obtain ⟨s₁, s₂, h₁, h₂, h₃⟩ := h
  obtain ⟨s₁', s₂', h₁', h₂', h₃'⟩ := h'
  obtain rfl := h₁.unique h₁' h₂.noWs h₂'.noWs
  exact (h₂.settles _ _ h₂' (ends_of_ws_nil h₃) (ends_of_ws_nil h₃')).1

/-! ## Control characters -/

/-- A character that a text can hold. -/
def Plain (c : Char) : Prop := 0x20 ≤ c.toNat ∨ isWs c = true

instance (c : Char) : Decidable (Plain c) := inferInstanceAs (Decidable (_ ∨ _))

theorem plain_of_literalChar {c : Char} (hc : Decimal.literalChar c = true) : Plain c := by
  simp only [Decimal.literalChar, Bool.or_eq_true, decide_eq_true_eq, List.mem_cons,
    List.not_mem_nil, or_false] at hc
  rcases hc with hc | rfl | rfl | rfl | rfl | rfl
  · exact .inl (le_trans (by decide) (Char.isDigit_iff_toNat.mp hc).1)
  all_goals decide

theorem plain_of_escaped {c : Char} {unit : ℕ} (h : escaped c = some unit) : Plain c := by
  unfold escaped at h
  split at h <;> first | decide | cases h

theorem plain_of_hexDigit {c : Char} {i : ℕ} (h : hexDigit c = some i) : Plain c := by
  unfold hexDigit at h
  split_ifs at h with hdigit hlower hupper
  · exact plain_of_literalChar (by simp [Decimal.literalChar, hdigit])
  · exact .inl (le_trans (by decide) hlower.1)
  · exact .inl (le_trans (by decide) hupper.1)

/-- What a text has more than what is left of it is plain. -/
def PlainTo (s t : List Char) : Prop := ∀ c ∈ s, Plain c ∨ c ∈ t

theorem plainTo_append (w : List Char) (hw : ∀ c ∈ w, Plain c) (t : List Char) :
    PlainTo (w ++ t) t :=
  fun c hc => (List.mem_append.mp hc).imp_left (hw c)

theorem PlainTo.cons {c : Char} {s t : List Char} (hc : Plain c) (h : PlainTo s t) :
    PlainTo (c :: s) t :=
  List.forall_mem_cons.mpr ⟨.inl hc, h⟩

theorem PlainTo.trans {s t r : List Char} (h : PlainTo s t) (h' : PlainTo t r) : PlainTo s r :=
  fun c hc => (h c hc).elim .inl (h' c)

/-- A plain character goes with what is read. -/
theorem PlainTo.skip {s t : List Char} {c : Char} (h : PlainTo s (c :: t)) (hc : Plain c) :
    PlainTo s t :=
  h.trans (.cons hc fun _ => .inr)

theorem Ws.plain {s t : List Char} (h : Ws s t) : PlainTo s t := by
  induction h with
  | refl s => exact fun c hc => .inr hc
  | cons hc h ih => exact .cons (.inr hc) ih

theorem StringRest.plain {s t : List Char} {u : List ℕ} (h : StringRest s u t) : PlainTo s t := by
  induction h with
  | close t => exact .cons (by decide) fun _ => .inr
  | unescaped hc h ih => exact .cons (.inl hc.1) ih
  | escape hc h ih => exact .cons (by decide) (.cons (plain_of_escaped hc) ih)
  | unicode ha hb hc hd h ih =>
    exact .cons (by decide) (.cons (by decide) (.cons (plain_of_hexDigit ha)
      (.cons (plain_of_hexDigit hb) (.cons (plain_of_hexDigit hc)
        (.cons (plain_of_hexDigit hd) ih)))))

/-- A control character that is not white space is nowhere in what a rule reads. -/
theorem Reads.plain {item : Item} {s t : List Char} (h : Reads item s t) : PlainTo s t := by
  induction h with
  | litNull t => exact plainTo_append ['n', 'u', 'l', 'l'] (by simp [Plain]) t
  | litTrue t => exact plainTo_append ['t', 'r', 'u', 'e'] (by simp [Plain]) t
  | litFalse t => exact plainTo_append ['f', 'a', 'l', 's', 'e'] (by simp [Plain]) t
  | number hn hs =>
    rw [hs]
    exact plainTo_append _ (fun c hc => plain_of_literalChar (hn.literalChar c hc)) _
  | string hs => exact .cons (by decide) hs.plain
  | emptyArray hs | emptyObject hs => exact .cons (by decide) (hs.plain.skip (by decide))
  | array hs ih | object hs ih => exact .cons (by decide) ih
  | lastItem h₁ h₂ h₃ ih => exact h₁.plain.trans (ih.trans (h₃.plain.skip (by decide)))
  | nextItem h₁ h₂ h₃ h₄ ih ih' =>
    exact h₁.plain.trans (ih.trans ((h₃.plain.skip (by decide)).trans ih'))
  | lastMember h₁ h₂ h₃ h₄ h₅ h₆ ih =>
    exact (h₁.plain.skip (by decide)).trans (h₂.plain.trans ((h₃.plain.skip (by decide)).trans
      (h₄.plain.trans (ih.trans (h₆.plain.skip (by decide))))))
  | nextMember h₁ h₂ h₃ h₄ h₅ h₆ h₇ ih ih' =>
    exact (h₁.plain.skip (by decide)).trans (h₂.plain.trans ((h₃.plain.skip (by decide)).trans
      (h₄.plain.trans (ih.trans ((h₆.plain.skip (by decide)).trans ih')))))

theorem Text.plain {s : List Char} {v : Value} (h : Text s v) : ∀ c ∈ s, Plain c := by
  obtain ⟨s₁, s₂, h₁, h₂, h₃⟩ := h
  intro c hc
  exact ((h₁.plain.trans (h₂.plain.trans h₃.plain)) c hc).resolve_right List.not_mem_nil

/-! ## Code units -/

/-- No character is a surrogate, so the first unit says how many there are. -/
theorem units_append_inj {c d : Char} {u v : List ℕ} (h : units c ++ u = units d ++ v) :
    c = d ∧ u = v := by
  have hc : c.toNat < 0xD800 ∨ 0xDFFF < c.toNat ∧ c.toNat < 0x110000 := c.valid
  have hd : d.toNat < 0xD800 ∨ 0xDFFF < d.toNat ∧ d.toNat < 0x110000 := d.valid
  have hsame : c.toNat = d.toNat ∧ u = v := by
    unfold units at h
    split_ifs at h with hc' hd' hd' <;>
      simp only [List.cons_append, List.nil_append, List.cons.injEq] at h
    · exact h
    · omega
    · omega
    · exact ⟨by omega, h.2.2⟩
  exact ⟨Char.toNat_inj.mp hsame.1, hsame.2⟩

theorem utf16_cons_ne_nil (c : Char) (s : List Char) : utf16 (c :: s) ≠ [] := by
  change units c ++ utf16 s ≠ []
  unfold units
  split <;> simp

theorem utf16_injective : Function.Injective utf16 := by
  intro s
  induction s with
  | nil =>
    intro t h
    cases t with
    | nil => rfl
    | cons d t => exact absurd h.symm (utf16_cons_ne_nil d t)
  | cons c s ih =>
    intro t h
    cases t with
    | nil => exact absurd h (utf16_cons_ne_nil c s)
    | cons d t =>
      obtain ⟨rfl, htail⟩ := units_append_inj h
      rw [ih htail]

end Json
