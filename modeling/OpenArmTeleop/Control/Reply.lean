import OpenArmTeleop.Control.Server

/-!
# Error replies

Which replies a JSON parser takes, and that it finds the message in them.
-/

open Json

namespace OpenArmTeleop.Control

/-- The text is an object whose `message` is the given one. -/
def MessageIs (text message : Text) : Prop :=
  ∃ members, Json.Text text (.object members) ∧
    members.lookup (utf16 "message".toList) = some (.string (utf16 message))

/-- The reply is an object, and its message is this one and no other. -/
def Conveys (text message : Text) : Prop := ∀ other, MessageIs text other ↔ other = message

/-- A string of JSON takes the character as it is, or `json_escape` replaces it. -/
def Escapable (c : Char) : Prop := 0x20 ≤ c.toNat ∨ c ∈ ['\t', '\n', '\r']

instance (c : Char) : Decidable (Escapable c) := inferInstanceAs (Decidable (_ ∨ _))

/-! ## The escaper -/

theorem jsonEscape_cons (c : Char) (message : Text) :
    jsonEscape (c :: message) = jsonEscape [c] ++ jsonEscape message := by
  simp [jsonEscape]

/-- A string of JSON reads the escaped message back. -/
theorem stringRest_jsonEscape (message rest : Text) (h : ∀ c ∈ message, Escapable c) :
    StringRest (jsonEscape message ++ '"' :: rest) (utf16 message) rest := by
  induction message with
  | nil => exact .close rest
  | cons c message ih =>
    have htail := ih fun x hx => h x (.tail c hx)
    rw [jsonEscape_cons, List.append_assoc]
    by_cases hspecial : c ∈ ['\\', '"', '\n', '\r', '\t']
    · simp only [List.mem_cons, List.not_mem_nil, or_false] at hspecial
      rcases hspecial with rfl | rfl | rfl | rfl | rfl <;> exact .escape rfl htail
    · simp only [List.mem_cons, List.not_mem_nil, or_false, not_or] at hspecial
      obtain ⟨hbackslash, hquote, hn, hr, ht⟩ := hspecial
      have hplain : jsonEscape [c] = [c] := by
        simp [jsonEscape]
      have hc : Unescaped c := by
        refine ⟨(h c (.head _)).resolve_right ?_, hquote, hbackslash⟩
        simp [hn, hr, ht]
      rw [hplain]
      exact .unescaped hc htail

/-- A character that is not escapable comes through. -/
theorem mem_jsonEscape {c : Char} {message : Text} (hc : c ∈ message) (h : ¬ Escapable c) :
    c ∈ jsonEscape message := by
  refine List.mem_flatMap.mpr ⟨c, hc, ?_⟩
  split <;> first | exact absurd (by decide) h | simp

theorem escapable_of_plain {c : Char} (h : Plain c) : Escapable c := by
  rcases h with h | h
  · exact .inl h
  · rcases isWs_iff.mp h with rfl | rfl | rfl | rfl <;> decide

/-! ## The reply -/

def errorMembers (message : Text) : List (List ℕ × Value) :=
  [(utf16 "status".toList, .string (utf16 "error".toList)),
    (utf16 "message".toList, .string (utf16 message))]

theorem stringRest_name (name rest : Text) (h : ∀ c ∈ name, Unescaped c) :
    StringRest (name ++ '"' :: rest) (utf16 name) rest := by
  induction name with
  | nil => exact .close rest
  | cons c name ih => exact .unescaped (h c (.head _)) (ih fun x hx => h x (.tail c hx))

theorem text_jsonError (message trail : Text) (h : ∀ c ∈ message, Escapable c)
    (htrail : Ws trail []) :
    Json.Text (jsonError message ++ trail) (.object (errorMembers message)) := by
  have hshape : jsonError message ++ trail =
      '{' :: '"' :: ("status".toList ++ '"' :: ':' :: '"' :: ("error".toList ++ '"' :: ',' ::
        '"' :: ("message".toList ++ '"' :: ':' :: '"' ::
          (jsonEscape message ++ '"' :: '}' :: trail)))) := by
    unfold jsonError
    rw [List.append_assoc, List.append_assoc]
    rfl
  rw [hshape]
  refine ⟨_, trail, .refl _, .object ?_, htrail⟩
  have hstatus := stringRest_name "status".toList (':' :: '"' :: ("error".toList ++ '"' :: ',' ::
    '"' :: ("message".toList ++ '"' :: ':' :: '"' :: (jsonEscape message ++ '"' :: '}' :: trail))))
    (by simp [Unescaped])
  have herror := stringRest_name "error".toList (',' :: '"' :: ("message".toList ++ '"' :: ':' ::
    '"' :: (jsonEscape message ++ '"' :: '}' :: trail))) (by simp [Unescaped])
  have hmessage := stringRest_name "message".toList (':' :: '"' ::
    (jsonEscape message ++ '"' :: '}' :: trail)) (by simp [Unescaped])
  have hvalue := stringRest_jsonEscape message ('}' :: trail) h
  exact .nextMember (.refl _) hstatus (.refl _) (.refl _) (.string herror) (.refl _)
    (.lastMember (.refl _) hmessage (.refl _) (.refl _) (.string hvalue) (.refl _))

theorem lookup_errorMembers (message : Text) :
    (errorMembers message).lookup (utf16 "message".toList) = some (.string (utf16 message)) :=
  rfl

/-- An error reply conveys its message exactly when the escaper knows each of its characters. -/
theorem conveys_iff (message trail : Text) (htrail : Ws trail []) :
    Conveys (jsonError message ++ trail) message ↔ ∀ c ∈ message, Escapable c := by
  constructor
  · intro h c hc
    obtain ⟨members, htext, -⟩ := (h message).mpr rfl
    by_contra hbad
    refine hbad (escapable_of_plain (htext.plain c (List.mem_append_left _ ?_)))
    exact List.mem_append_left _ (List.mem_append_right _ (mem_jsonEscape hc hbad))
  · intro h other
    have htext := text_jsonError message trail h htrail
    constructor
    · rintro ⟨members, htext', hlookup⟩
      cases htext.unique htext'
      rw [lookup_errorMembers] at hlookup
      injection hlookup with hlookup
      injection hlookup with hunits
      exact (utf16_injective hunits).symm
    · rintro rfl
      exact ⟨_, htext, lookup_errorMembers other⟩

namespace RuntimeControlServer

theorem respond_unknown {σ : Type} (server : RuntimeControlServer σ) (s : σ) {request : Text}
    (hne : request ≠ []) (hnul : '\x00' ∉ request)
    (hunknown : server.handlers (splitCommand request).1 = none) :
    server.respond s request =
      (s, jsonError ("unknown command: ".toList ++ (splitCommand request).1) ++ ['\n']) := by
  rw [server.respond_line hne hnul]
  simp only [handleCommand, hunknown]

/-- **When an error reply is well formed.** The reply is a JSON object with the very message exactly
when the message has no control character but tab, newline and carriage return; for a request, when
its unknown command has none. -/
theorem error_conveyed_iff {σ : Type} (server : RuntimeControlServer σ) (s : σ)
    (message request : Text) :
    (Conveys (jsonError message) message ↔ ∀ c ∈ message, Escapable c) ∧
      (request ≠ [] → '\x00' ∉ request → server.handlers (splitCommand request).1 = none →
        (server.respond s request).1 = s ∧
          (Conveys (server.respond s request).2
              ("unknown command: ".toList ++ (splitCommand request).1) ↔
            ∀ c ∈ (splitCommand request).1, Escapable c)) := by
  constructor
  · have h := conveys_iff message [] (.refl _)
    rwa [List.append_nil] at h
  · intro hne hnul hunknown
    rw [respond_unknown server s hne hnul hunknown]
    refine ⟨rfl, (conveys_iff _ _ (.cons rfl (.refl _))).trans ?_⟩
    have htext : ∀ c ∈ "unknown command: ".toList, Escapable c := by simp [Escapable]
    simp only [List.mem_append, or_imp, forall_and]
    exact and_iff_right htext

/-- A port that knows no command gets a quoted one. -/
theorem error_conveyed_quoted :
    Conveys (jsonError "\"".toList) "\"".toList ∧
      Conveys (@respond Unit ⟨fun _ => none⟩ () " say\n\"hi\"\\ now\r\n".toList).2
        "unknown command: say\n\"hi\"\\".toList := by
  have h := @error_conveyed_iff Unit ⟨fun _ => none⟩ () "\"".toList
    " say\n\"hi\"\\ now\r\n".toList
  constructor
  · exact h.1.mpr (by simp [Escapable])
  · have hcommand : (splitCommand " say\n\"hi\"\\ now\r\n".toList).1 =
        "say\n\"hi\"\\".toList := by
      decide
    refine (h.2 (by decide) (by decide) rfl).2.mpr ?_
    rw [hcommand]
    simp [Escapable]

/-- An escape character goes out as it came. -/
theorem escape_unconveyed :
    ¬ Conveys (jsonError ['\x1b']) ['\x1b'] ∧
      ¬ Conveys (@respond Unit ⟨fun _ => none⟩ () "stat\x1bus\n".toList).2
        "unknown command: stat\x1bus".toList := by
  have hescape : ¬ Escapable '\x1b' := by decide
  constructor
  · intro h
    exact hescape ((conveys_iff ['\x1b'] [] (.refl _)).mp h _ (.head _))
  · rw [@respond_unknown Unit ⟨fun _ => none⟩ () "stat\x1bus\n".toList (by decide) (by decide) rfl]
    intro h
    exact hescape ((conveys_iff _ ['\n'] (.cons rfl (.refl _))).mp h _ (by decide))

end RuntimeControlServer

end OpenArmTeleop.Control
