import InjectionPlan.Json.Lexeme
import InjectionPlan.Toml.Value

namespace InjectionPlan
namespace Toml

open Number

/-!
# Strings, numbers and dates in TOML text

A scanner takes its lexeme off the front of a text and gives back what follows, or nothing if the
text is malformed.  Numbers and dates consist of letters, digits and a few signs, so they are cut
out first and read afterwards.
-/

/-! ## Blanks and comments -/

def isSpace (character : Char) : Bool :=
  character = ' ' || character = '\t'

def skipSpace : List Char -> List Char :=
  List.dropWhile isSpace

/-- Characters that may stand in a comment or unescaped in a string: all but controls. -/
def isPlain (character : Char) : Bool :=
  character = '\t' || (0x20 ≤ character.toNat && character.toNat ≠ 0x7f)

/-- The text after a line end, if it starts with one. -/
def lineEnd? : List Char -> Option (List Char)
  | '\n' :: rest => some rest
  | '\r' :: '\n' :: rest => some rest
  | _ => none

/-- Skips a comment, if there is one, up to the end of its line. -/
def skipComment : List Char -> List Char
  | '#' :: rest => rest.dropWhile isPlain
  | text => text

/-- Skips what may stand between a statement and the next line. -/
def skipLine (text : List Char) : Option (List Char) :=
  match skipComment (skipSpace text) with
  | [] => some []
  | rest => lineEnd? rest

/-- Skips blanks, comments and line ends. -/
def skipLines : (steps : Nat) -> List Char -> List Char
  | 0, text => text
  | steps + 1, text =>
    let rest := skipComment (skipSpace text)
    match lineEnd? rest with
    | some after => skipLines steps after
    | none => rest

/-! ## Strings -/

/-- The character that an escape of one letter stands for. -/
def shortEscape? (letter : Char) : Option Char :=
  if letter = 'b' then some '\x08'
  else if letter = 't' then some '\t'
  else if letter = 'n' then some '\n'
  else if letter = 'f' then some '\x0c'
  else if letter = 'r' then some '\r'
  else if letter = '"' then some '"'
  else if letter = '\\' then some '\\'
  else none

/-- The character with a code point, unless it is half of a surrogate pair or too large. -/
def scalar? (value : Nat) : Option Char :=
  if value < 0xd800 ∨ (0xe000 ≤ value ∧ value < 0x110000) then some (Char.ofNat value) else none

/-- A character given by some hexadecimal digits, and the text after it. -/
def scanCodePoint (count : Nat) (text : List Char) : Option (Char × List Char) :=
  let digits := (text.take count).filterMap Json.hexValue?
  if digits.length = count then
    (scalar? (digits.foldl (fun value digit => value * 16 + digit) 0)).map fun character =>
      (character, text.drop count)
  else none

/-- An escape after its backslash, and the text after it. -/
def scanEscape : List Char -> Option (Char × List Char)
  | 'u' :: rest => scanCodePoint 4 rest
  | 'U' :: rest => scanCodePoint 8 rest
  | letter :: rest => (shortEscape? letter).map fun character => (character, rest)
  | [] => none

/-- Puts a character in front of a scanned string. -/
def prepend (character : Char) (scanned : Option (List Char × List Char)) :
    Option (List Char × List Char) :=
  scanned.map fun (characters, rest) => (character :: characters, rest)

/-- A string with escapes, after its opening quote. -/
def scanBasic : (steps : Nat) -> List Char -> Option (List Char × List Char)
  | 0, _ => none
  | steps + 1, text =>
    match text with
    | [] => none
    | '"' :: rest => some ([], rest)
    | '\\' :: rest =>
      match scanEscape rest with
      | some (character, after) => prepend character (scanBasic steps after)
      | none => none
    | character :: rest =>
      if isPlain character then prepend character (scanBasic steps rest) else none

/-- A string without escapes, after its opening quote. -/
def scanLiteral (text : List Char) : Option (List Char × List Char) :=
  let content := text.takeWhile fun character => isPlain character && character ≠ '\''
  match text.drop content.length with
  | '\'' :: rest => some (content, rest)
  | _ => none

/-- Whether a backslash is followed by blanks up to the end of the line. -/
def escapesLineEnd (text : List Char) : Bool :=
  (lineEnd? (skipSpace text)).isSome

/-- Skips blanks and line ends. -/
def skipWhite : List Char -> List Char
  | [] => []
  | '\r' :: '\n' :: rest => skipWhite rest
  | character :: rest =>
    if isSpace character || character = '\n' then skipWhite rest else character :: rest

/-- A string of several lines with escapes, after its opening quotes.  Up to two quotes may stand
directly before the closing ones. -/
def scanLongBasic : (steps : Nat) -> List Char -> Option (List Char × List Char)
  | 0, _ => none
  | steps + 1, text =>
    match text with
    | [] => none
    | '"' :: '"' :: '"' :: '"' :: '"' :: rest => some (['"', '"'], rest)
    | '"' :: '"' :: '"' :: '"' :: rest => some (['"'], rest)
    | '"' :: '"' :: '"' :: rest => some ([], rest)
    | '"' :: rest => prepend '"' (scanLongBasic steps rest)
    | '\\' :: rest =>
      if escapesLineEnd rest then scanLongBasic steps (skipWhite rest)
      else
        match scanEscape rest with
        | some (character, after) => prepend character (scanLongBasic steps after)
        | none => none
    | '\n' :: rest => prepend '\n' (scanLongBasic steps rest)
    | '\r' :: '\n' :: rest => prepend '\n' (scanLongBasic steps rest)
    | character :: rest =>
      if isPlain character then prepend character (scanLongBasic steps rest) else none

/-- A string of several lines without escapes, after its opening quotes. -/
def scanLongLiteral : List Char -> Option (List Char × List Char)
  | [] => none
  | '\'' :: '\'' :: '\'' :: '\'' :: '\'' :: rest => some (['\'', '\''], rest)
  | '\'' :: '\'' :: '\'' :: '\'' :: rest => some (['\''], rest)
  | '\'' :: '\'' :: '\'' :: rest => some ([], rest)
  | '\n' :: rest => prepend '\n' (scanLongLiteral rest)
  | '\r' :: '\n' :: rest => prepend '\n' (scanLongLiteral rest)
  | character :: rest =>
    if isPlain character then prepend character (scanLongLiteral rest) else none

/-- A text without the line end that it may start with. -/
def dropLineEnd (text : List Char) : List Char :=
  (lineEnd? text).getD text

/-- A string of any kind that starts with a quote. -/
def scanString (text : List Char) : Option (List Char × List Char) :=
  match text with
  | '"' :: '"' :: '"' :: rest => scanLongBasic (rest.length + 1) (dropLineEnd rest)
  | '\'' :: '\'' :: '\'' :: rest => scanLongLiteral (dropLineEnd rest)
  | '"' :: rest => scanBasic (rest.length + 1) rest
  | '\'' :: rest => scanLiteral rest
  | _ => none

/-! ## Numbers -/

/-- The values of digits between which single underscores may stand. -/
def digitRun? (digit? : Char -> Option Nat) (text : List Char) : Option (List Nat) :=
  let groups := text.splitOnP (· = '_')
  if groups.all (fun group => !group.isEmpty && group.all fun digit => (digit? digit).isSome) then
    some (groups.flatten.filterMap digit?)
  else none

/-- The value of a decimal digit. -/
def decimal? (character : Char) : Option Nat :=
  if character.isDigit then some (character.toNat - '0'.toNat) else none

/-- The value of a digit of a base up to ten. -/
def digitBelow? (base : Nat) (character : Char) : Option Nat :=
  (decimal? character).filter (· < base)

/-- The number that digits of a base denote. -/
def valueOf (base : Nat) (digits : List Nat) : Nat :=
  digits.foldl (fun value digit => value * base + digit) 0

/-- Decimal digits without a zero before another digit. -/
def wholeDigits? (text : List Char) : Option (List Nat) :=
  (digitRun? decimal? text).filter fun digits => digits.length = 1 || digits.head? ≠ some 0

/-- A sign and the text after it. -/
def splitSign : List Char -> Bool × List Char
  | '-' :: rest => (true, rest)
  | '+' :: rest => (false, rest)
  | text => (false, text)

/-- An integer within 64 binary digits. -/
def inRange? (value : Int) : Option Value :=
  if -9223372036854775808 ≤ value ∧ value ≤ 9223372036854775807 then some (.integer value) else none

/-- An integer: decimal with or without a sign, or with the mark of another base. -/
def integer? (text : List Char) : Option Value :=
  let marked (base : Nat) (digit? : Char -> Option Nat) (digits : List Char) : Option Value :=
    (digitRun? digit? digits).bind fun digits => inRange? (valueOf base digits)
  match text with
  | '0' :: 'x' :: digits => marked 16 Json.hexValue? digits
  | '0' :: 'o' :: digits => marked 8 (digitBelow? 8) digits
  | '0' :: 'b' :: digits => marked 2 (digitBelow? 2) digits
  | _ =>
    let (negative, digits) := splitSign text
    (wholeDigits? digits).bind fun digits =>
      let value : Int := valueOf 10 digits
      inRange? (if negative then -value else value)

/-- Whether a character belongs to a run of decimal digits. -/
def isRunChar (character : Char) : Bool :=
  character.isDigit || character = '_'

/-- The digits after a point and the text after them; no digits without a point. -/
def fraction? : List Char -> Option (List Nat × List Char)
  | '.' :: rest =>
    (digitRun? decimal? (rest.takeWhile isRunChar)).map fun digits =>
      (digits, rest.dropWhile isRunChar)
  | text => some ([], text)

/-- The exponent that a text consists of; zero without one. -/
def exponent? : List Char -> Option Int
  | [] => some 0
  | mark :: rest =>
    if mark = 'e' ∨ mark = 'E' then
      let (negative, digits) := splitSign rest
      (digitRun? decimal? digits).map fun digits =>
        let value : Int := valueOf 10 digits
        if negative then -value else value
    else none

/-- A number with a fraction or an exponent, or a special one. -/
def float? (text : List Char) : Option Value :=
  let (negative, magnitude) := splitSign text
  if magnitude = ['i', 'n', 'f'] then some (.float (.infinite negative))
  else if magnitude = ['n', 'a', 'n'] then some (.float .notANumber)
  else
    let rest := magnitude.dropWhile isRunChar
    if rest.isEmpty then none
    else
      match wholeDigits? (magnitude.takeWhile isRunChar), fraction? rest with
      | some whole, some (fraction, after) =>
        match exponent? after with
        | some exponent =>
          let digits := whole ++ fraction
          let number := nearest negative (valueOf 10 digits) digits.length
            (exponent - fraction.length)
          if number = .infinite false then none else some (.float number)
        | none => none
      | _, _ => none

/-! ## Dates and times -/

/-- A number of two decimal digits within bounds, with its digits and the text after it. -/
def twoDigits? (least most : Nat) : List Char -> Option (Nat × List Char × List Char)
  | first :: second :: rest =>
    match decimal? first, decimal? second with
    | some tens, some ones =>
      let value := tens * 10 + ones
      if least ≤ value ∧ value ≤ most then some (value, [first, second], rest) else none
    | _, _ => none
  | _ => none

/-- The number of days of a month. -/
def daysOf (year month : Nat) : Nat :=
  if month = 2 then
    if year % 4 = 0 ∧ (year % 100 ≠ 0 ∨ year % 400 = 0) then 29 else 28
  else if month = 4 ∨ month = 6 ∨ month = 9 ∨ month = 11 then 30
  else 31

/-- A date, and the text after it. -/
def date? (text : List Char) : Option (List Char × List Char) :=
  let yearDigits := (text.take 4).filterMap decimal?
  if yearDigits.length = 4 then
    match text.drop 4 with
    | '-' :: afterYear =>
      match twoDigits? 1 12 afterYear with
      | some (month, monthText, '-' :: afterMonth) =>
        match twoDigits? 1 (daysOf (valueOf 10 yearDigits) month) afterMonth with
        | some (_, dayText, rest) =>
          some (text.take 4 ++ '-' :: monthText ++ '-' :: dayText, rest)
        | none => none
      | _ => none
    | _ => none
  else none

/-- The fraction of a second in nine digits at most and without trailing zeros, and the text
after it. -/
def secondFraction? : List Char -> Option (List Char × List Char)
  | '.' :: rest =>
    let digits := rest.takeWhile Char.isDigit
    let kept := ((digits.take 9).reverse.dropWhile (· = '0')).reverse
    if digits.isEmpty then none
    else some (if kept.isEmpty then [] else '.' :: kept, rest.dropWhile Char.isDigit)
  | text => some ([], text)

/-- A time of day, and the text after it. -/
def time? (text : List Char) : Option (List Char × List Char) :=
  match twoDigits? 0 23 text with
  | some (_, hour, ':' :: afterHour) =>
    match twoDigits? 0 59 afterHour with
    | some (_, minute, ':' :: afterMinute) =>
      match twoDigits? 0 60 afterMinute with
      | some (_, second, afterSecond) =>
        (secondFraction? afterSecond).map fun (fraction, rest) =>
          (hour ++ ':' :: minute ++ ':' :: second ++ fraction, rest)
      | none => none
    | _ => none
  | _ => none

/-- An offset from universal time that a text consists of. -/
def offset? : List Char -> Option (List Char)
  | [] => some []
  | ['Z'] => some ['Z']
  | ['z'] => some ['Z']
  | sign :: text =>
    if sign = '+' ∨ sign = '-' then
      match twoDigits? 0 23 text with
      | some (hours, hourText, ':' :: afterHour) =>
        match twoDigits? 0 59 afterHour with
        | some (minutes, minuteText, []) =>
          let shown := if hours = 0 ∧ minutes = 0 then '+' else sign
          some (shown :: hourText ++ ':' :: minuteText)
        | _ => none
      | _ => none
    else none

/-- A date, a time of day, or both with or without an offset. -/
def datetime? (text : List Char) : Option Value :=
  match date? text with
  | some (date, []) => some (.datetime (String.ofList date))
  | some (date, mark :: rest) =>
    if mark = 'T' ∨ mark = 't' ∨ mark = ' ' then
      match time? rest with
      | some (time, after) =>
        (offset? after).map fun offset =>
          .datetime (String.ofList (date ++ 'T' :: time ++ offset))
      | none => none
    else none
  | none =>
    match time? text with
    | some (time, []) => some (.datetime (String.ofList time))
    | _ => none

/-! ## Values of one word -/

/-- Letters, digits and the signs that occur in numbers and dates. -/
def isWordChar (character : Char) : Bool :=
  character.isAlphanum || character = '_' || character = '+' || character = '-' ||
    character = '.' || character = ':'

/-- The value that a word denotes. -/
def word? (text : List Char) : Option Value :=
  if text = ['t', 'r', 'u', 'e'] then some (.boolean true)
  else if text = ['f', 'a', 'l', 's', 'e'] then some (.boolean false)
  else ((datetime? text).orElse fun _ => float? text).orElse fun _ => integer? text

/-- Whether a time follows a blank after a date. -/
def timeFollows (word rest : List Char) : Bool :=
  (match date? word with
    | some (_, []) => true
    | _ => false) &&
  (match rest with
    | ' ' :: first :: second :: ':' :: _ => first.isDigit && second.isDigit
    | _ => false)

/-- A value of one word, or a date and a time with a blank between them. -/
def scanWord (text : List Char) : Option (Value × List Char) :=
  let word := text.takeWhile isWordChar
  let rest := text.drop word.length
  if timeFollows word rest then
    let time := (rest.drop 1).takeWhile isWordChar
    (word? (word ++ ' ' :: time)).map fun value => (value, rest.drop (time.length + 1))
  else (word? word).map fun value => (value, rest)

end Toml
end InjectionPlan
