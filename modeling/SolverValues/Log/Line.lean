import SolverValues.Log.Event

/-!
Written events. The threshold is not shown, a critical event starts with a tag, and the message is
written as it is, after the other fields.
-/
namespace SolverValues.Log

/-- The level in five columns. -/
def Level.label : Level → String
  | .error => "ERROR"
  | .warn => " WARN"
  | .info => " INFO"
  | .debug => "DEBUG"
  | .trace => "TRACE"

def Value.show : Value → String
  | .number n => n.repr
  | .flag b => if b then "true" else "false"
  | .text s => Text.quoted s
  | .shown s => s

/-- The text of one field. -/
def fieldText : String × Value → String
  | ("threshold", _) => ""
  | ("message", .shown s) => s
  | ("critical", .flag b) => if b then "[CRITICAL] " else ""
  | (name, value) => name ++ "=" ++ value.show ++ " "

/-- The text of an event. -/
def Event.text (e : Event) : String :=
  e.level.label ++ " " ++ String.join (e.fields.map fieldText)

/-- Ends a line at every newline. -/
def splitLines : List Char → List (List Char)
  | [] => [[]]
  | '\n' :: rest => [] :: splitLines rest
  | c :: rest =>
    match splitLines rest with
    | [] => [[c]]
    | line :: lines => (c :: line) :: lines

/-- The lines of an event. -/
def Event.lines (e : Event) : List String :=
  (splitLines e.text.toList).map String.ofList

end SolverValues.Log
