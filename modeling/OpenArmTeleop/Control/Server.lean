import OpenArmTeleop.Lib.Json

/-!
# The runtime control port

`runtime_control_server.cpp`: a request becomes a command and its arguments, and a reply in JSON. A
character beyond ASCII stands for its bytes, which nothing here looks at.
-/

namespace OpenArmTeleop.Control

abbrev Text := List Char

def isBlank (c : Char) : Bool := c ∈ [' ', '\t', '\r', '\n']

def trim (text : Text) : Text := (text.dropWhile isBlank).rdropWhile isBlank

/-! ## Replies -/

def jsonEscape (value : Text) : Text :=
  value.flatMap fun ch =>
    match ch with
    | '\\' => ['\\', '\\']
    | '"' => ['\\', '"']
    | '\n' => ['\\', 'n']
    | '\r' => ['\\', 'r']
    | '\t' => ['\\', 't']
    | ch => [ch]

def jsonOk (fields : Text) : Text :=
  if fields = [] then "\x7b\"status\":\"ok\"\x7d".toList
  else "\x7b\"status\":\"ok\",".toList ++ fields ++ "\x7d".toList

def jsonError (message : Text) : Text :=
  "\x7b\"status\":\"error\",\"message\":\"".toList ++ jsonEscape message ++ "\"\x7d".toList

/-! ## Requests -/

/-- Changes what it shares with the program, and replies. -/
abbrev Handler (σ : Type) := σ → Text → σ × Text

structure RuntimeControlServer (σ : Type) where
  handlers : Text → Option (Handler σ)

/-- The command of a line, and its arguments. -/
def splitCommand (line : Text) : Text × Text :=
  let command := trim line
  match command.findIdx? fun c => c = ' ' ∨ c = '\t' with
  | some space => (command.take space, trim (command.drop (space + 1)))
  | none => (command, [])

namespace RuntimeControlServer

variable {σ : Type} (server : RuntimeControlServer σ)

def handleCommand (s : σ) (line : Text) : σ × Text :=
  let (command, args) := splitCommand line
  match server.handlers command with
  | none => (s, jsonError ("unknown command: ".toList ++ command))
  | some handler => handler s args

/-- What `run` does with what its one `recv` has returned. The line ends at a NUL. -/
def respond (s : σ) (received : Text) : σ × Text :=
  let (s, response) :=
    if received = [] then (s, jsonError "empty command".toList)
    else server.handleCommand s (received.takeWhile fun c => c ≠ '\x00')
  (s, response ++ ['\n'])

theorem respond_line {received : Text} (hne : received ≠ []) (hnul : '\x00' ∉ received) (s : σ) :
    server.respond s received =
      ((server.handleCommand s received).1, (server.handleCommand s received).2 ++ ['\n']) := by
  have hline : received.takeWhile (fun c => c ≠ '\x00') = received := by
    refine List.takeWhile_eq_self_iff.mpr fun c hc => ?_
    simp only [ne_eq, decide_not, Bool.not_eq_true', decide_eq_false_iff_not]
    rintro rfl
    exact hnul hc
  simp only [respond, if_neg hne, hline]

end RuntimeControlServer

end OpenArmTeleop.Control
