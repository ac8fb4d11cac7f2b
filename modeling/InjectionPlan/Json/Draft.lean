import InjectionPlan.Json.Lexeme
import InjectionPlan.Json.Tree

namespace InjectionPlan
namespace Json

/-!
# Reading JSON text into a tree

The reader never fails: where the text stops being JSON it puts `broken` and leaves the arrays
and objects around that place open.  A draft is the tree of a whole text, together with whether
anything but blanks follows the value.
-/

/-- The tree of a string without its opening quote, and the text after it. -/
def stringTree (text : List Char) : Tree × List Char :=
  match scanString text with
  | none => (.broken, [])
  | some (parts, after) =>
    match joinParts parts with
    | some characters => (.string (String.ofList characters), after)
    | none => (.unreadable, after)

/-- The name of a member, if the text starts with one, and the text after it. -/
def memberName : List Char -> Option (Name × List Char)
  | '"' :: rest =>
    (scanString rest).map fun (parts, after) =>
      match joinParts parts with
      | some characters => (.text (String.ofList characters), after)
      | none => (.unreadable, after)
  | _ => none

/-- The tree of a number, and the text after it. -/
def numberTree (text : List Char) : Tree × List Char :=
  match scanNumber text with
  | none => (.broken, [])
  | some (literal, after) =>
    match literal.numeral? with
    | some value => (.number value, after)
    | none => (.unreadable, after)

/-- The tree of a word, if the text starts with it. -/
def wordTree (word : List Char) (tree : Tree) (text : List Char) : Tree × List Char :=
  if word.isPrefixOf text then (tree, text.drop word.length) else (.broken, [])

mutual

/-- Reads one value.  `steps` bounds the nested calls; each of them but one in two takes a
character off the text. -/
def readValue : (steps : Nat) -> List Char -> Tree × List Char
  | 0, _ => (.broken, [])
  | steps + 1, text =>
    match skipBlanks text with
    | [] => (.broken, [])
    | '"' :: rest => stringTree rest
    | '[' :: rest =>
      match skipBlanks rest with
      | ']' :: after => (.array [] true, after)
      | inside =>
        let (items, closed, after) := readItems steps inside
        (.array items closed, after)
    | '\x7b' :: rest =>
      match skipBlanks rest with
      | '\x7d' :: after => (.object [] true, after)
      | inside =>
        let (members, closed, after) := readMembers steps inside
        (.object members closed, after)
    | 'n' :: rest => wordTree ['n', 'u', 'l', 'l'] .null ('n' :: rest)
    | 't' :: rest => wordTree ['t', 'r', 'u', 'e'] (.bool true) ('t' :: rest)
    | 'f' :: rest => wordTree ['f', 'a', 'l', 's', 'e'] (.bool false) ('f' :: rest)
    | start => numberTree start

/-- Reads the items of an array up to its end. -/
def readItems : (steps : Nat) -> List Char -> List Tree × Bool × List Char
  | 0, _ => ([.broken], false, [])
  | steps + 1, text =>
    let (item, afterItem) := readValue steps text
    if item.isComplete then
      match skipBlanks afterItem with
      | ',' :: rest =>
        let (items, closed, after) := readItems steps rest
        (item :: items, closed, after)
      | ']' :: after => ([item], true, after)
      | _ => ([item], false, [])
    else ([item], false, [])

/-- Reads the members of an object up to its end. -/
def readMembers : (steps : Nat) -> List Char -> List (Name × Tree) × Bool × List Char
  | 0, _ => ([], false, [])
  | steps + 1, text =>
    match memberName (skipBlanks text) with
    | none => ([], false, [])
    | some (name, afterName) =>
      match skipBlanks afterName with
      | ':' :: rest =>
        let (value, afterValue) := readValue steps rest
        if value.isComplete then
          match skipBlanks afterValue with
          | ',' :: more =>
            let (members, closed, after) := readMembers steps more
            ((name, value) :: members, closed, after)
          | '\x7d' :: after => ([(name, value)], true, after)
          | _ => ([(name, value)], false, [])
        else ([(name, value)], false, [])
      | _ => ([(name, .broken)], false, [])

end

/-- A text read as JSON: its tree, and whether only blanks follow it. -/
structure Draft where
  tree : Tree
  ended : Bool

/-- Reads a text as far as it is JSON. -/
def Draft.ofText (text : String) : Draft :=
  let characters := text.toList
  let (tree, after) := readValue (2 * characters.length + 2) characters
  ⟨tree, tree.isComplete && (skipBlanks after).isEmpty⟩

end Json
end InjectionPlan
