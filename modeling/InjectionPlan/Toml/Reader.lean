import InjectionPlan.Toml.Lexeme

namespace InjectionPlan
namespace Toml

/-!
# Reading TOML documents

A document is a list of statements, one to a line; only then the statements are put together to a
table.  `read` gives nothing for a text that is malformed or defines something twice.
-/

/-- Arrays, tables between braces and dotted keys stay below this depth. -/
def depthLimit : Nat := 80

/-- Whether a character may stand in a key without quotes. -/
def isKeyChar (character : Char) : Bool :=
  character.isAlphanum || character = '_' || character = '-'

/-- A key between dots, and the text after it. -/
def scanSimpleKey (text : List Char) : Option (String × List Char) :=
  match text with
  | '"' :: rest =>
    (scanBasic (rest.length + 1) rest).map fun (key, after) => (String.ofList key, after)
  | '\'' :: rest => (scanLiteral rest).map fun (key, after) => (String.ofList key, after)
  | _ =>
    let key := text.takeWhile isKeyChar
    if key.isEmpty then none else some (String.ofList key, text.drop key.length)

/-- A key in its parts between dots, the last part apart, and the text after it. -/
def scanKey : (steps : Nat) -> List Char -> Option (List String × String × List Char)
  | 0, _ => none
  | steps + 1, text =>
    match scanSimpleKey (skipSpace text) with
    | none => none
    | some (part, after) =>
      match skipSpace after with
      | '.' :: rest =>
        (scanKey steps rest).map fun (path, key, after) => (part :: path, key, after)
      | rest => some ([], part, rest)

mutual

/-- A value inside `depth` others, and the text after it. -/
def scanValue : (steps depth : Nat) -> List Char -> Option (Value × List Char)
  | 0, _, _ => none
  | steps + 1, depth, text =>
    match text with
    | '[' :: rest =>
      if depthLimit ≤ depth + 1 then none
      else
        (scanItems steps (depth + 1) rest).map fun (items, after) => (.array items, after)
    | '\x7b' :: rest =>
      if depthLimit ≤ depth + 1 then none
      else
        match skipSpace rest with
        | '\x7d' :: after => some (.table .braces [], after)
        | inside =>
          match scanAssignments steps (depth + 1) inside with
          | none => none
          | some (assignments, after) =>
            (assignAll assignments []).map fun entries => (.table .braces entries, after)
    | '"' :: _ => (scanString text).map fun (content, after) =>
      (.string (String.ofList content), after)
    | '\'' :: _ => (scanString text).map fun (content, after) =>
      (.string (String.ofList content), after)
    | _ => scanWord text

/-- The items of an array up to its end. -/
def scanItems : (steps depth : Nat) -> List Char -> Option (List Value × List Char)
  | 0, _, _ => none
  | steps + 1, depth, text =>
    match skipLines text.length text with
    | ']' :: after => some ([], after)
    | start =>
      match scanValue steps depth start with
      | none => none
      | some (value, afterValue) =>
        match skipLines afterValue.length afterValue with
        | ',' :: rest =>
          (scanItems steps depth rest).map fun (values, after) => (value :: values, after)
        | ']' :: after => some ([value], after)
        | _ => none

/-- The assignments of a table between braces up to its end. -/
def scanAssignments : (steps depth : Nat) -> List Char -> Option (List Assignment × List Char)
  | 0, _, _ => none
  | steps + 1, depth, text =>
    match scanAssignment steps depth text with
    | none => none
    | some (assignment, afterAssignment) =>
      match skipSpace afterAssignment with
      | ',' :: rest =>
        (scanAssignments steps depth rest).map fun (assignments, after) =>
          (assignment :: assignments, after)
      | '\x7d' :: after => some ([assignment], after)
      | _ => none

/-- A key with its value, and the text after it. -/
def scanAssignment : (steps depth : Nat) -> List Char -> Option (Assignment × List Char)
  | 0, _, _ => none
  | steps + 1, depth, text =>
    match scanKey (text.length + 1) text with
    | some (path, key, '=' :: rest) =>
      if depthLimit ≤ path.length + 1 then none
      else
        (scanValue steps depth (skipSpace rest)).map fun (value, after) =>
          (⟨path, key, value⟩, after)
    | _ => none

end

/-- A header without its opening bracket, and the text after it. -/
def scanHeader (element : Bool) (text : List Char) : Option (Header × List Char) :=
  match scanKey (text.length + 1) text with
  | none => none
  | some (path, key, after) =>
    if depthLimit ≤ path.length + 1 then none
    else
      match element, after with
      | false, ']' :: rest => some (⟨path, key, false⟩, rest)
      | true, ']' :: ']' :: rest => some (⟨path, key, true⟩, rest)
      | _, _ => none

/-- One statement, and the text after it. -/
def scanStatement (text : List Char) : Option (Statement × List Char) :=
  match text with
  | '[' :: '[' :: rest =>
    (scanHeader true rest).map fun (header, after) => (.header header, after)
  | '[' :: rest =>
    (scanHeader false rest).map fun (header, after) => (.header header, after)
  | _ =>
    (scanAssignment (4 * text.length + 4) 0 text).map fun (assignment, after) =>
      (.assignment assignment, after)

/-- The statements of a text. -/
def scanStatements : (steps : Nat) -> List Char -> Option (List Statement)
  | 0, _ => none
  | steps + 1, text =>
    match skipLines text.length text with
    | [] => some []
    | start =>
      match scanStatement start with
      | none => none
      | some (statement, after) =>
        match skipLine after with
        | none => none
        | some rest => (scanStatements steps rest).map (statement :: ·)

/-- The table that a text describes.  A byte order mark at its start is passed over. -/
def read (text : String) : Option Entries :=
  let characters := match text.toList with
    | '\ufeff' :: rest => rest
    | characters => characters
  (scanStatements (characters.length + 1) characters).bind assemble

end Toml
end InjectionPlan
