import OpenArmTeleop.Control.PoseText
import OpenArmTeleop.Follower.Machine
import OpenArmTeleop.Leader.Machine

/-!
# Truncated commands

What a `goto_pose` line does when the one `recv` of the server returns only its beginning.
-/

open Num Decimal

namespace OpenArmTeleop.Control

/-! ## The applications -/

inductive App
  | follower
  | leader
  deriving DecidableEq

def App.name : App → Text
  | .follower => "follower".toList
  | .leader => "leader".toList

/-- The commands besides `goto_pose`. -/
def App.commands : App → List Text
  | .follower =>
    ["status", "init_position", "reset_safety", "estop", "recover_estop", "shutdown"].map (·.toList)
  | .leader =>
    ["bilateral_enable", "bilateral_disable", "bilateral_status", "status", "disable", "enable",
      "init_position", "estop", "shutdown"].map (·.toList)

/-- The server of an application, whatever the other handlers do. -/
def App.server (app : App) (E : Extraction) (others : Text → Handler GotoPose) :
    RuntimeControlServer GotoPose where
  handlers command :=
    if command = "goto_pose".toList then some (gotoPoseHandler E app.name)
    else if command ∈ app.commands then some (others command)
    else none

/-! ## The handlers of the machines -/

/-- The accesses of the follower's handler do what the handler of the port does. -/
theorem follower_gotoPose (E : Extraction) (s : Follower.State) (args : Text) :
    let s' := (Follower.handler (.gotoPose (E.readAll args))).foldl (fun s x => (s.access x).1) s
    (⟨s'.gotoTarget, s'.requested .goto⟩ : GotoPose) =
      (gotoPoseHandler E App.follower.name ⟨s.gotoTarget, s.requested .goto⟩ args).1 := by
  by_cases h : (E.readAll args).length = 16 <;>
    simp [Follower.handler, Follower.State.access, gotoPoseHandler, parsePose16, h]

theorem leader_gotoPose (E : Extraction) (cfg : Leader.Config) (gateOk : Bool) (s : Leader.State)
    (args : Text) :
    let s' := (Leader.handler (.gotoPose (E.readAll args))).foldl
      (fun s x => s.access cfg gateOk x) s
    (⟨s'.gotoTarget, s'.gotoRequested⟩ : GotoPose) =
      (gotoPoseHandler E App.leader.name ⟨s.gotoTarget, s.gotoRequested⟩ args).1 := by
  by_cases h : (E.readAll args).length = 16 <;>
    simp [Leader.handler, Leader.State.access, gotoPoseHandler, parsePose16, h]

/-! ## Lines -/

/-- A line of sixteen numbers. -/
structure PoseLine where
  before : Text
  sep : Char
  front : Text
  numbers : List Text
  space : Char
  last : Text
  after : Text
  before_blank : ∀ c ∈ before, isBlank c = true
  sep_blank : sep = ' ' ∨ sep = '\t'
  separated : Separated front numbers
  fifteen : numbers.length = 15
  space_space : isSpace space = true
  literal : Literal last
  after_space : Spaces after

namespace PoseLine

def text (L : PoseLine) : Text :=
  L.before ++ ("goto_pose".toList ++
    L.sep :: (L.front ++ L.space :: (L.last ++ (L.after ++ ['\n']))))

def values (E : Extraction) (L : PoseLine) : List Double := (L.numbers ++ [L.last]).map E.value

/-- The line is cut inside its last number, of which `c` is left. -/
def CutAt (L : PoseLine) (received c : Text) : Prop :=
  c ≠ [] ∧ c <+: L.last ∧ c ≠ L.last ∧
    received = L.before ++ ("goto_pose".toList ++ L.sep :: (L.front ++ L.space :: c))

end PoseLine

/-- What is left of the last number is refused, or is worth the same. -/
def Harmless (E : Extraction) (L : PoseLine) (received : Text) : Prop :=
  ∀ c v r, L.CutAt received c → E.read c = some (v, r) → v = E.value L.last

/-- An error that changes nothing, or the values of the line. -/
def Intact (E : Extraction) (L : PoseLine) (s : GotoPose) (result : GotoPose × Text) : Prop :=
  (result.1 = s ∧ ∃ message, result.2 = jsonError message ++ ['\n']) ∨
    result.1 = ⟨L.values E, true⟩

/-! ## Every line -/

/-- The last number, the white space before it, and what comes before and after. -/
theorem Separated.split_last {s l : Text} {ls : List Text} (h : Separated s (ls ++ [l]))
    (hne : ls ≠ []) : ∃ front space after, s = front ++ space :: (l ++ after) ∧
      Separated front ls ∧ isSpace space = true ∧ Literal l ∧ Spaces after := by
  induction ls generalizing s with
  | nil => exact absurd rfl hne
  | cons a ls ih =>
    cases h with
    | number hgap ha hs h =>
      rename_i gap s
      cases ls with
      | nil =>
        cases h with
        | number hgap' hl hs' h =>
          rename_i gap' after
          cases h with
          | spaces hafter =>
            rcases List.eq_nil_or_concat gap' with rfl | ⟨g, space, rfl⟩
            -- the first number would not be over
            · obtain ⟨c, u, rfl⟩ := List.exists_cons_of_ne_nil hl.ne_nil
              have hspace := hs c (u ++ after) rfl
              rw [not_isSpace (hl.literalChar c (.head u))] at hspace
              cases hspace
            · rw [List.concat_eq_append] at hgap' ⊢
              have hg : Spaces g := fun c hc => hgap' c (List.mem_append_left _ hc)
              have hnext : SpaceNext g := by
                rintro c u rfl
                exact hg c (.head u)
              refine ⟨gap ++ (a ++ g), space, after, by simp, .number hgap ha hnext (.spaces hg),
                hgap' space (by simp), hl, hafter⟩
      | cons b ls =>
        obtain ⟨front, space, after, rfl, hfront, hspace, hl, hafter⟩ := ih h (by simp)
        refine ⟨gap ++ (a ++ front), space, after, by simp, ?_, hspace, hl, hafter⟩
        exact .number hgap ha (hs.of_begins (List.prefix_append front _)) hfront

/-- Every line of sixteen numbers is one. -/
theorem exists_poseLine {before args : Text} {sep : Char} (hbefore : ∀ c ∈ before, isBlank c = true)
    (hsep : sep = ' ' ∨ sep = '\t') (hargs : WellFormed args) :
    ∃ L : PoseLine, L.text = before ++ ("goto_pose".toList ++ sep :: (args ++ ['\n'])) ∧
      L.numbers ++ [L.last] = tokens args := by
  obtain ⟨hlen, hlits⟩ := hargs
  have hsep' := separated_tokens hlits
  rcases List.eq_nil_or_concat (tokens args) with hnil | ⟨ls, l, hls⟩
  · simp [hnil] at hlen
  rw [List.concat_eq_append] at hls
  rw [hls] at hsep' hlen
  have hfifteen : ls.length = 15 := by simpa using hlen
  obtain ⟨front, space, after, hargs, hfront, hspace, hl, hafter⟩ :=
    hsep'.split_last (List.ne_nil_of_length_eq_add_one hfifteen)
  refine ⟨⟨before, sep, front, ls, space, l, after, hbefore, hsep, hfront, hfifteen, hspace, hl,
    hafter⟩, ?_, hls.symm⟩
  simp only [PoseLine.text, hargs, List.append_assoc, List.cons_append]

/-! ## Commands and arguments -/

theorem isSpace_of_isBlank {c : Char} (h : isBlank c = true) : isSpace c = true := by
  simp only [isBlank, List.mem_cons, List.not_mem_nil, or_false, decide_eq_true_eq] at h
  rcases h with rfl | rfl | rfl | rfl <;> rfl

theorem trim_spec (s : Text) : ∃ lead tail, s = lead ++ (trim s ++ tail) ∧ Spaces lead ∧ Spaces tail := by
  refine ⟨s.takeWhile isBlank, (s.dropWhile isBlank).rtakeWhile isBlank, ?_, ?_, ?_⟩
  · rw [trim, List.rdropWhile_append_rtakeWhile, List.takeWhile_append_dropWhile]
  · exact fun c hc => isSpace_of_isBlank (List.mem_takeWhile_imp hc)
  · exact fun c hc => isSpace_of_isBlank (List.mem_rtakeWhile_imp hc)

theorem rdropWhile_word {word : Text} (hw : ∀ c ∈ word, isBlank c = false) (x : Text) :
    (word ++ x).rdropWhile isBlank = word ++ x.rdropWhile isBlank := by
  induction x using List.reverseRecOn with
  | nil =>
    rw [List.append_nil, List.rdropWhile_nil, List.append_nil]
    exact List.rdropWhile_eq_self_iff.mpr fun hlast => by
      rw [hw _ (List.getLast_mem hlast)]
      exact Bool.false_ne_true
  | append_singleton x c ih =>
    rw [← List.append_assoc, List.rdropWhile_concat, List.rdropWhile_concat, ih]
    split <;> simp

theorem rdropWhile_blank {c : Char} (hc : isBlank c = true) (q : Text) :
    (c :: q).rdropWhile isBlank =
      if q.rdropWhile isBlank = [] then [] else c :: q.rdropWhile isBlank := by
  induction q using List.reverseRecOn with
  | nil => simp [hc]
  | append_singleton q d ih =>
    rw [← List.cons_append, List.rdropWhile_concat, List.rdropWhile_concat, ih]
    split <;> simp

theorem trim_word {before word : Text} (hbefore : ∀ c ∈ before, isBlank c = true) (hne : word ≠ [])
    (hw : ∀ c ∈ word, isBlank c = false) (x : Text) :
    trim (before ++ (word ++ x)) = word ++ x.rdropWhile isBlank := by
  have hdrop : (word ++ x).dropWhile isBlank = word ++ x := by
    obtain ⟨c, u, rfl⟩ := List.exists_cons_of_ne_nil hne
    simp [hw c (.head u)]
  rw [trim, List.dropWhile_append_of_pos hbefore, hdrop, rdropWhile_word hw]

theorem findIdx?_word {word : Text} (hw : ∀ c ∈ word, isBlank c = false) :
    (word.findIdx? fun c => c = ' ' ∨ c = '\t') = none := by
  refine List.findIdx?_eq_none_iff.mpr fun c hc => ?_
  have hblank := hw c hc
  rw [decide_eq_false_iff_not]
  rintro (rfl | rfl) <;> cases hblank

/-- A word without blanks is the command. -/
theorem splitCommand_alone {before word : Text} (hbefore : ∀ c ∈ before, isBlank c = true)
    (hw : ∀ c ∈ word, isBlank c = false) : splitCommand (before ++ word) = (word, []) := by
  have htrim : trim (before ++ word) = word := by
    by_cases hne : word = []
    · have hnil : before.dropWhile isBlank = [] := List.dropWhile_eq_nil_iff.mpr hbefore
      rw [hne, List.append_nil, trim, hnil, List.rdropWhile_nil]
    · have h := trim_word hbefore hne hw []
      rwa [List.append_nil, List.rdropWhile_nil, List.append_nil] at h
  simp only [splitCommand, htrim, findIdx?_word hw]

/-- Behind the blank after the command come the arguments, between white space. -/
theorem splitCommand_word {before word : Text} (hbefore : ∀ c ∈ before, isBlank c = true)
    (hne : word ≠ []) (hw : ∀ c ∈ word, isBlank c = false) {sep : Char}
    (hsep : sep = ' ' ∨ sep = '\t') (q : Text) :
    ∃ lead args tail, q = lead ++ (args ++ tail) ∧ Spaces lead ∧ Spaces tail ∧
      splitCommand (before ++ (word ++ sep :: q)) = (word, args) := by
  have hblank : isBlank sep = true := by rcases hsep with rfl | rfl <;> rfl
  have htrim := trim_word hbefore hne hw (sep :: q)
  have hq : q = q.rdropWhile isBlank ++ q.rtakeWhile isBlank :=
    List.rdropWhile_append_rtakeWhile.symm
  have htail : Spaces (q.rtakeWhile isBlank) := fun c hc =>
    isSpace_of_isBlank (List.mem_rtakeWhile_imp hc)
  have hdrop : (sep :: q).rdropWhile isBlank =
      if q.rdropWhile isBlank = [] then [] else sep :: q.rdropWhile isBlank :=
    rdropWhile_blank hblank q
  rw [hdrop] at htrim
  split_ifs at htrim with hnil
  · rw [List.append_nil] at htrim
    refine ⟨[], [], q, rfl, nofun, ?_, ?_⟩
    · rw [hq, hnil]
      exact htail
    · simp only [splitCommand, htrim, findIdx?_word hw]
  · obtain ⟨lead, tail, hlead, hspaces, htail'⟩ := trim_spec (q.rdropWhile isBlank)
    refine ⟨lead, trim (q.rdropWhile isBlank), tail ++ q.rtakeWhile isBlank, ?_, hspaces, ?_, ?_⟩
    · rw [← List.append_assoc, ← List.append_assoc, List.append_assoc lead, ← hlead, ← hq]
    · exact fun c hc => (List.mem_append.mp hc).elim (htail' c) (htail c)
    · have hfind : ((word ++ sep :: q.rdropWhile isBlank).findIdx? fun c => c = ' ' ∨ c = '\t') =
          some word.length := by
        rw [List.findIdx?_append, findIdx?_word hw]
        simp [List.findIdx?_cons, hsep]
      have hargs : (word ++ sep :: q.rdropWhile isBlank).drop (word.length + 1) =
          q.rdropWhile isBlank := by
        rw [← List.drop_drop, List.drop_left, List.drop_one, List.tail_cons]
      simp only [splitCommand, htrim, hfind, List.take_left, hargs]

/-! ## What a request leads to -/

variable {app : App} {E : Extraction} {others : Text → Handler GotoPose} {s : GotoPose}

theorem Separated.chars {s : Text} {ls : List Text} (h : Separated s ls) :
    ∀ c ∈ s, isSpace c = true ∨ literalChar c = true := by
  induction h with
  | spaces hs => exact fun c hc => .inl (hs c hc)
  | number hgap hl hs h ih =>
    intro c hc
    simp only [List.mem_append] at hc
    rcases hc with hc | hc | hc
    · exact .inl (hgap c hc)
    · exact .inr (hl.literalChar c hc)
    · exact ih c hc

theorem PoseLine.nul_not_mem (L : PoseLine) : '\x00' ∉ L.text := by
  have hspaces : ∀ {w : Text}, Spaces w → '\x00' ∉ w := fun hw hmem => absurd (hw _ hmem) (by decide)
  simp only [text, List.mem_append, List.mem_cons, List.not_mem_nil, or_false, not_or]
  refine ⟨fun h => absurd (L.before_blank _ h) (by decide), by simp, ?_, ?_, ?_, ?_, ?_, by decide⟩
  · rcases L.sep_blank with h | h <;> rw [h] <;> decide
  · exact fun h => absurd (L.separated.chars _ h) (by decide)
  · exact fun h => absurd (h ▸ L.space_space) (by decide)
  · exact fun h => absurd (L.literal.literalChar _ h) (by decide)
  · exact hspaces L.after_space

/-- No other command is a part of `goto_pose`. -/
theorem App.not_mem_commands (app : App) {word : Text} (hword : word <+: "goto_pose".toList) :
    word ∉ app.commands := by
  have hall : ∀ w ∈ "goto_pose".toList.inits, w ∉ app.commands := by
    cases app <;> decide +kernel
  exact hall word ((List.mem_inits _ _).mpr hword)

/-- Fewer than sixteen values are an error. -/
theorem gotoPoseHandler_error (name args : Text) (h : (E.readAll args).length ≠ 16) :
    gotoPoseHandler E name s args =
      (s, jsonError "goto_pose expects 16 whitespace-separated values".toList) := by
  simp [gotoPoseHandler, parsePose16, h]

theorem gotoPoseHandler_stores (name args : Text) (h : (E.readAll args).length = 16) :
    ∃ fields, fields ≠ [] ∧
      gotoPoseHandler E name s args = (⟨E.readAll args, true⟩, jsonOk fields) := by
  refine ⟨"\"message\":\"".toList ++ name ++ " goto_pose requested\"".toList, by simp, ?_⟩
  simp [gotoPoseHandler, parsePose16, h]

theorem App.handlers_goto (app : App) :
    (app.server E others).handlers "goto_pose".toList = some (gotoPoseHandler E app.name) := by
  simp only [App.server, if_true]

theorem goto_not_blank : ∀ c ∈ "goto_pose".toList, isBlank c = false := by
  simp [isBlank]

/-- A word that is not the whole command, or comes without arguments, is an error. -/
theorem intact_word (app : App) (E : Extraction) (others : Text → Handler GotoPose)
    (s : GotoPose) (L : PoseLine) {before word : Text} (hbefore : ∀ c ∈ before, isBlank c = true)
    (hword : word <+: "goto_pose".toList) (hne : before ++ word ≠ [])
    (hnul : '\x00' ∉ before ++ word) :
    Intact E L s ((app.server E others).respond s (before ++ word)) := by
  have hw : ∀ c ∈ word, isBlank c = false := fun c hc => goto_not_blank c (hword.subset hc)
  rw [RuntimeControlServer.respond_line _ hne hnul]
  refine .inl ?_
  unfold RuntimeControlServer.handleCommand
  rw [splitCommand_alone hbefore hw]
  dsimp only
  by_cases hgoto : word = "goto_pose".toList
  · rw [hgoto, app.handlers_goto]
    dsimp only
    rw [gotoPoseHandler_error app.name [] (by simp [Extraction.readAll_nil])]
    exact ⟨rfl, _, rfl⟩
  · have hunknown : (app.server E others).handlers word = none := by
      simp only [App.server, if_neg hgoto, if_neg (app.not_mem_commands hword)]
    rw [hunknown]
    exact ⟨rfl, _, rfl⟩

/-- Arguments go to the handler, whose stream sees no more white space than they have. -/
theorem handleCommand_args (app : App) (E : Extraction) (others : Text → Handler GotoPose)
    (s : GotoPose) {before : Text} (hbefore : ∀ c ∈ before, isBlank c = true) {sep : Char}
    (hsep : sep = ' ' ∨ sep = '\t') (q : Text) :
    ∃ q' args tail, q = q' ++ tail ∧ Spaces tail ∧ E.readAll args = E.readAll q' ∧
      (app.server E others).handleCommand s (before ++ ("goto_pose".toList ++ sep :: q)) =
        gotoPoseHandler E app.name s args := by
  obtain ⟨lead, args, tail, hq, hlead, htail, hsplit⟩ :=
    @splitCommand_word before "goto_pose".toList hbefore (by simp) goto_not_blank sep hsep q
  refine ⟨lead ++ args, args, tail, by rw [hq, List.append_assoc], htail, ?_, ?_⟩
  · exact (Extraction.readAll_spaces_append hlead args).symm
  · unfold RuntimeControlServer.handleCommand
    rw [hsplit]
    dsimp only
    rw [app.handlers_goto]

/-! ## The last number -/

theorem spaceNext_cons {c : Char} (hc : isSpace c = true) (s : Text) : SpaceNext (c :: s) := by
  rintro _ _ ⟨⟩
  exact hc

/-- Behind the fifteen numbers the stream goes on with the last one. -/
theorem readAll_front (L : PoseLine) (u : Text) :
    E.readAll (L.front ++ L.space :: u) = L.numbers.map E.value ++ E.readAll u := by
  have hspace : E.readAll (L.space :: u) = E.readAll u :=
    Extraction.readAll_congr (E.read_space L.space u L.space_space)
  rw [Extraction.readAll_append L.separated (spaceNext_cons L.space_space u), hspace]

theorem ok_ne_error (fields message : Text) (h : fields ≠ []) :
    jsonOk fields ++ ['\n'] ≠ jsonError message ++ ['\n'] := by
  intro heq
  have htake := congrArg (List.take 12) heq
  unfold jsonOk jsonError at htake
  rw [if_neg h] at htake
  simp at htake

/-- A text does not end with both. -/
theorem eq_nil_of_append {q c q' tail : Text} (hc : c ≠ []) (hchars : ∀ x ∈ c, isSpace x = false)
    (h : q ++ c = q' ++ tail) (htail : Spaces tail) : tail = [] := by
  rcases List.eq_nil_or_concat tail with hnil | ⟨t, d, rfl⟩
  · exact hnil
  · obtain ⟨u, e, rfl⟩ := (List.eq_nil_or_concat c).resolve_left hc
    rw [List.concat_eq_append, List.concat_eq_append, ← List.append_assoc, ← List.append_assoc] at h
    obtain rfl : e = d := by simpa using (List.append_inj' h rfl).2
    have hspace := htail e (by simp)
    rw [hchars e (by simp)] at hspace
    cases hspace

/-- A line that is cut inside its last number. -/
theorem intact_cut_iff (L : PoseLine) {received c : Text} (hcut : L.CutAt received c)
    (hne : received ≠ []) (hnul : '\x00' ∉ received) :
    Intact E L s ((app.server E others).respond s received) ↔
      ∀ v r, E.read c = some (v, r) → v = E.value L.last := by
  obtain ⟨hc, hbegins, -, rfl⟩ := hcut
  obtain ⟨q', args, tail, hq, htail, hread, hhandle⟩ :=
    handleCommand_args app E others s L.before_blank L.sep_blank (L.front ++ L.space :: c)
  have hchars : ∀ x ∈ c, isSpace x = false := fun x hx =>
    not_isSpace (L.literal.literalChar x (hbegins.subset hx))
  have hnil : tail = [] := by
    have happend : (L.front ++ [L.space]) ++ c = q' ++ tail := by
      rw [← hq, List.append_assoc, List.singleton_append]
    exact eq_nil_of_append hc hchars happend htail
  rw [hnil, List.append_nil] at hq
  rw [← hq, readAll_front] at hread
  rw [RuntimeControlServer.respond_line _ hne hnul, hhandle]
  have hlen := L.fifteen
  cases hc' : E.read c with
  | none =>
    rw [Extraction.readAll_of_none hc', List.append_nil] at hread
    rw [gotoPoseHandler_error app.name args (by simp [hread, hlen])]
    exact iff_of_true (.inl ⟨rfl, _, rfl⟩) nofun
  | some p =>
    obtain ⟨v, r⟩ := p
    have hnone := Extraction.readAll_of_none (E.read_cut _ c v r L.literal hbegins hc')
    rw [Extraction.readAll_of_some hc', hnone] at hread
    have hcount : (E.readAll args).length = 16 := by simp [hread, hlen]
    obtain ⟨fields, hfields, hstores⟩ := @gotoPoseHandler_stores E s app.name args hcount
    rw [hstores, hread]
    constructor
    · rintro (⟨-, message, hmessage⟩ | hvalues) _ _ ⟨⟩
      · exact absurd hmessage (ok_ne_error fields message hfields)
      · simpa [PoseLine.values] using congrArg GotoPose.target hvalues
    · intro h
      exact .inr (by simp [PoseLine.values, h v r rfl])

theorem PoseLine.CutAt.unique {L : PoseLine} {received c c' : Text} (h : L.CutAt received c)
    (h' : L.CutAt received c') : c = c' := by
  obtain ⟨-, -, -, hc⟩ := h
  obtain ⟨-, -, -, hc'⟩ := h'
  simpa using hc.symm.trans hc'

/-- White space does not come before the end of the last number. -/
theorem PoseLine.tail_eq_nil (L : PoseLine) {c d tail : Text} (hd : c ++ d = L.last)
    (hcut : c ≠ L.last)
    (h : L.front ++ L.space :: c ++ tail <+: L.front ++ L.space :: (L.last ++ (L.after ++ ['\n'])))
    (htail : Spaces tail) : tail = [] := by
  rw [List.append_assoc, List.cons_append, List.prefix_append_right_inj, List.cons_prefix_cons,
    ← hd, List.append_assoc, List.prefix_append_right_inj] at h
  cases tail with
  | nil => rfl
  | cons t tail =>
    cases d with
    | nil => exact absurd (by rw [← hd, List.append_nil]) hcut
    | cons e d =>
      obtain ⟨rfl, -⟩ := List.cons_prefix_cons.mp h.2
      have hspace := htail t (.head tail)
      rw [not_isSpace (L.literal.literalChar t (by simp [← hd]))] at hspace
      cases hspace

/-- The stream of an argument that is not cut inside the last number has all values or too few. -/
theorem readAll_uncut (L : PoseLine) {q : Text}
    (hq : q <+: L.front ++ L.space :: (L.last ++ (L.after ++ ['\n'])))
    (huncut : ∀ c, c ≠ [] → c <+: L.last → q = L.front ++ L.space :: c → c = L.last) :
    (E.readAll q).length ≠ 16 ∨ E.readAll q = L.values E := by
  have hspaces : Spaces (L.after ++ ['\n']) := by
    intro c hc
    rcases List.mem_append.mp hc with hc | hc
    · exact L.after_space c hc
    · rw [List.mem_singleton.mp hc]
      rfl
  have hfew : ∀ {q : Text}, q <+: L.front → (E.readAll q).length ≠ 16 := by
    intro q hq
    have hle := Extraction.length_readAll_begins (E := E) L.separated hq
    have hlen := L.fifteen
    omega
  rcases prefix_append_cases hq with hfront | ⟨r, rfl, hr⟩
  · exact .inl (hfew hfront)
  rcases List.prefix_cons_iff.mp hr with rfl | ⟨u, rfl, hu⟩
  · exact .inl (hfew (by rw [List.append_nil]))
  rw [readAll_front]
  rcases prefix_append_cases hu with hcut | ⟨w, rfl, hw⟩
  · rcases eq_or_ne u [] with rfl | hne
    · exact .inl (by simp [Extraction.readAll_nil, L.fifteen])
    · obtain rfl := huncut u hne hcut rfl
      have hlast := Extraction.readAll_literal (E := E) (s := []) L.literal nofun
      rw [List.append_nil, Extraction.readAll_nil] at hlast
      exact .inr (by simp [hlast, PoseLine.values])
  · have hw' : Spaces w := fun c hc => hspaces c (hw.subset hc)
    have hnext : SpaceNext w := by
      rintro c t rfl
      exact hw' c (.head t)
    rw [Extraction.readAll_literal L.literal hnext, Extraction.readAll_spaces hw']
    exact .inr (by simp [PoseLine.values])

theorem intact_uncut (L : PoseLine) {received : Text} (hbegins : received <+: L.text)
    (hne : received ≠ []) (huncut : ∀ c, ¬ L.CutAt received c) :
    Intact E L s ((app.server E others).respond s received) := by
  have hnul : '\x00' ∉ received := fun h => L.nul_not_mem (hbegins.subset h)
  rcases prefix_append_cases hbegins with hbefore | ⟨g, rfl, hg⟩
  · have hblank : ∀ c ∈ received, isBlank c = true :=
      fun c hc => L.before_blank c (hbefore.subset hc)
    have hword := intact_word app E others s L hblank List.nil_prefix
      (by rwa [List.append_nil]) (by rwa [List.append_nil])
    rwa [List.append_nil] at hword
  rcases prefix_append_cases hg with hgoto | ⟨r, rfl, hr⟩
  · exact intact_word app E others s L L.before_blank hgoto hne hnul
  rcases List.prefix_cons_iff.mp hr with rfl | ⟨q, rfl, hq⟩
  · exact intact_word app E others s L L.before_blank (by rw [List.append_nil]) hne hnul
  obtain ⟨q', args, tail, rfl, htail, hread, hhandle⟩ :=
    handleCommand_args app E others s L.before_blank L.sep_blank q
  have hwhole : ∀ c, c ≠ [] → c <+: L.last → q' = L.front ++ L.space :: c → c = L.last := by
    rintro c hc ⟨d, hd⟩ rfl
    by_contra hcut
    refine huncut c ⟨hc, ⟨d, hd⟩, hcut, ?_⟩
    rw [L.tail_eq_nil hd hcut hq htail, List.append_nil]
  rw [RuntimeControlServer.respond_line _ hne hnul, hhandle]
  rcases readAll_uncut (E := E) L ((List.prefix_append q' tail).trans hq) hwhole with hfew | hvalues
  · rw [gotoPoseHandler_error app.name args (by rwa [hread])]
    exact .inl ⟨rfl, _, rfl⟩
  · have hcount : (E.readAll args).length = 16 := by
      rw [hread, hvalues]
      simp [PoseLine.values, L.fifteen]
    obtain ⟨fields, -, hstores⟩ := @gotoPoseHandler_stores E s app.name args hcount
    rw [hstores, hread, hvalues]
    exact .inr rfl

/-- **When a truncated command is harmless.** What the server does with the beginning of a
`goto_pose` line that its one `recv` returns is an error that changes nothing, or the command of the
whole line, exactly when what is left of a cut last number is refused or worth the same. -/
theorem truncated_intact_iff (app : App) (E : Extraction) (others : Text → Handler GotoPose)
    (s : GotoPose) (L : PoseLine) (received : Text) (hne : received ≠ [])
    (hbegins : received <+: L.text) :
    Intact E L s ((app.server E others).respond s received) ↔ Harmless E L received := by
  by_cases hcut : ∃ c, L.CutAt received c
  · obtain ⟨c, hc⟩ := hcut
    have hnul : '\x00' ∉ received := fun h => L.nul_not_mem (hbegins.subset h)
    rw [intact_cut_iff L hc hne hnul]
    constructor
    · intro h c' v r hc' hread
      rw [hc'.unique hc] at hread
      exact h v r hread
    · exact fun h v r => h c v r hc
  · have huncut : ∀ c, ¬ L.CutAt received c := fun c hc => hcut ⟨c, hc⟩
    exact iff_of_true (intact_uncut L hbegins hne huncut) fun c _ _ hc => absurd hc (huncut c)

section Runs

attribute [local instance] Rounding.exact

/-- Fifteen zeros and a half. -/
def halfLine : PoseLine where
  before := []
  sep := ' '
  front := "0 0 0 0 0 0 0 0 0 0 0 0 0 0 0".toList
  numbers := tokens "0 0 0 0 0 0 0 0 0 0 0 0 0 0 0".toList
  space := ' '
  last := "0.5".toList
  after := []
  before_blank := nofun
  sep_blank := .inl rfl
  separated := separated_tokens (by decide +kernel)
  fifteen := by decide +kernel
  space_space := rfl
  literal := by decide +kernel
  after_space := nofun

def halfServer (E : Extraction) : RuntimeControlServer GotoPose :=
  App.follower.server E fun _ s _ => (s, jsonOk [])

/-- Fifteen of the numbers have come. -/
theorem truncated_intact_fifteen :
    let received := "goto_pose 0 0 0 0 0 0 0 0 0 0 0 0 0 0 0 ".toList
    Intact .longest halfLine ⟨[], false⟩ ((halfServer .longest).respond ⟨[], false⟩ received) := by
  intro received
  refine (truncated_intact_iff .follower .longest _ ⟨[], false⟩ halfLine received (by decide)
    (by decide +kernel)).mpr ?_
  rintro c v r ⟨hc, -, -, hcut⟩ -
  have hlen := congrArg List.length hcut
  have hreceived : received.length = 40 := by decide
  have hgoto : "goto_pose".toList.length = 9 := by decide
  have hbefore : halfLine.before.length = 0 := rfl
  have hfront : halfLine.front.length = 29 := by decide
  simp only [List.length_append, List.length_cons, hreceived, hgoto, hbefore, hfront] at hlen
  exact absurd (List.length_eq_zero_iff.mp (by omega)) hc

/-- A half that is cut behind its zero, for both extractions. -/
theorem truncated_stores_zero :
    let received := "goto_pose 0 0 0 0 0 0 0 0 0 0 0 0 0 0 0 0".toList
    received <+: halfLine.text ∧ ∀ E ∈ [Extraction.longest, Extraction.scanned],
      (halfServer E).respond ⟨[], false⟩ received =
        (⟨List.replicate 16 0, true⟩,
          jsonOk "\"message\":\"follower goto_pose requested\"".toList ++ ['\n']) ∧
      ¬ Intact E halfLine ⟨[], false⟩ ((halfServer E).respond ⟨[], false⟩ received) := by
  intro received
  refine ⟨by decide +kernel, fun E hE => ?_⟩
  have hresult : (halfServer E).respond ⟨[], false⟩ received = (⟨List.replicate 16 0, true⟩,
      jsonOk "\"message\":\"follower goto_pose requested\"".toList ++ ['\n']) ∧
      halfLine.values E ≠ List.replicate 16 0 := by
    simp only [List.mem_cons, List.not_mem_nil, or_false] at hE
    rcases hE with rfl | rfl <;> decide +kernel
  obtain ⟨hresult, hvalues⟩ := hresult
  refine ⟨hresult, ?_⟩
  rw [hresult]
  rintro (⟨hsame, -⟩ | hstored)
  · cases hsame
  · exact hvalues (congrArg GotoPose.target hstored).symm

end Runs

end OpenArmTeleop.Control
