import InjectionPlan.Number.Literal

namespace InjectionPlan
namespace Json

open Number

/-!
# Blanks, strings and numbers in JSON text

A scanner takes its lexeme off the front of a text and gives back what follows.  Whether the
lexeme denotes anything is a separate question: a string may name half of a surrogate pair
(`joinParts` finds out), and a number may be out of range.
-/

/-- Blanks between the parts of a JSON text. -/
def isBlank (character : Char) : Bool :=
  character = ' ' || character = '\t' || character = '\n' || character = '\r'

/-- A text without its leading blanks. -/
def skipBlanks : List Char -> List Char :=
  List.dropWhile isBlank

/-- The value of a hexadecimal digit. -/
def hexValue? (character : Char) : Option Nat :=
  if '0' ≤ character ∧ character ≤ '9' then some (character.toNat - '0'.toNat)
  else if 'a' ≤ character ∧ character ≤ 'f' then some (character.toNat - 'a'.toNat + 10)
  else if 'A' ≤ character ∧ character ≤ 'F' then some (character.toNat - 'A'.toNat + 10)
  else none

/-- The number that four hexadecimal digits denote. -/
def hexUnit? (first second third fourth : Char) : Option Nat :=
  match hexValue? first, hexValue? second, hexValue? third, hexValue? fourth with
  | some a, some b, some c, some d => some (((a * 16 + b) * 16 + c) * 16 + d)
  | _, _, _, _ => none

/-- The character that an escape of one letter stands for. -/
def shortEscape? (character : Char) : Option Char :=
  if character = '"' then some '"'
  else if character = '\\' then some '\\'
  else if character = '/' then some '/'
  else if character = 'b' then some '\x08'
  else if character = 'f' then some '\x0c'
  else if character = 'n' then some '\n'
  else if character = 'r' then some '\r'
  else if character = 't' then some '\t'
  else none

/-- The parts of a string: characters, and the code units given by number. -/
inductive StringPart
  | char (value : Char)
  | codeUnit (value : Nat)
deriving DecidableEq

/-- Reads the parts of a string up to its closing quote, and the text after it. -/
def scanString : List Char -> Option (List StringPart × List Char)
  | [] => none
  | '"' :: rest => some ([], rest)
  | '\\' :: 'u' :: first :: second :: third :: fourth :: rest =>
    match hexUnit? first second third fourth with
    | some value =>
      (scanString rest).map fun (parts, after) => (.codeUnit value :: parts, after)
    | none => none
  | '\\' :: letter :: rest =>
    match shortEscape? letter with
    | some value => (scanString rest).map fun (parts, after) => (.char value :: parts, after)
    | none => none
  | character :: rest =>
    if character = '\\' ∨ character.toNat < 0x20 then none
    else (scanString rest).map fun (parts, after) => (.char character :: parts, after)

/-- The characters of a string.  A code unit that is the first half of a surrogate pair needs the
second half right after it. -/
def joinParts : List StringPart -> Option (List Char)
  | [] => some []
  | .char value :: rest => (joinParts rest).map (value :: ·)
  | .codeUnit high :: .codeUnit low :: rest =>
    if 0xd800 ≤ high ∧ high < 0xdc00 then
      if 0xdc00 ≤ low ∧ low < 0xe000 then
        (joinParts rest).map
          (Char.ofNat (0x10000 + (high - 0xd800) * 0x400 + (low - 0xdc00)) :: ·)
      else none
    else if 0xdc00 ≤ high ∧ high < 0xe000 then none
    else (joinParts (.codeUnit low :: rest)).map (Char.ofNat high :: ·)
  | .codeUnit value :: rest =>
    if 0xd800 ≤ value ∧ value < 0xe000 then none
    else (joinParts rest).map (Char.ofNat value :: ·)

/-- The leading digits of a text, and the text after them. -/
def scanDigits (text : List Char) : List Nat × List Char :=
  ((text.takeWhile Char.isDigit).map fun digit => digit.toNat - '0'.toNat,
    text.dropWhile Char.isDigit)

/-- The digits after a point, if there is a point; a point needs a digit. -/
def scanFraction : List Char -> Option (Option (List Nat) × List Char)
  | '.' :: rest =>
    let (digits, after) := scanDigits rest
    if digits.isEmpty then none else some (some digits, after)
  | text => some (none, text)

/-- The number that decimal digits denote. -/
def digitsValue (digits : List Nat) : Nat :=
  digits.foldl (fun value digit => value * 10 + digit) 0

/-- The exponent after its mark, with its sign taken off. -/
def scanExponentDigits (negative : Bool) (text : List Char) : Option (Option Int × List Char) :=
  let (digits, after) := scanDigits text
  if digits.isEmpty then none
  else
    let value : Int := digitsValue digits
    some (some (if negative then -value else value), after)

/-- The exponent, if there is one; its mark needs digits. -/
def scanExponent : List Char -> Option (Option Int × List Char)
  | [] => some (none, [])
  | mark :: rest =>
    if mark = 'e' ∨ mark = 'E' then
      match rest with
      | '-' :: digits => scanExponentDigits true digits
      | '+' :: digits => scanExponentDigits false digits
      | digits => scanExponentDigits false digits
    else some (none, mark :: rest)

/-- A number after its sign.  The whole part has a digit, and no zero before another digit. -/
def scanMagnitude (negative : Bool) (text : List Char) : Option (Literal × List Char) :=
  let (whole, afterWhole) := scanDigits text
  if whole.isEmpty ∨ (whole.head? = some 0 ∧ 1 < whole.length) then none
  else
    match scanFraction afterWhole with
    | none => none
    | some (fraction, afterFraction) =>
      match scanExponent afterFraction with
      | none => none
      | some (exponent, after) => some (⟨negative, whole, fraction, exponent⟩, after)

/-- A number, and the text after it. -/
def scanNumber : List Char -> Option (Literal × List Char)
  | '-' :: rest => scanMagnitude true rest
  | text => scanMagnitude false text

end Json
end InjectionPlan
