import InjectionPlan.Text.Hidden

namespace InjectionPlan
namespace Text

/-!
# Quoted text in messages

A message that cites a text puts it between double quotes.  The quote and the backslash are
preceded by a backslash, four control characters have a letter of their own, and other characters
that do not show by themselves are given by their code point in hexadecimal.
-/

/-- A natural number in lower-case hexadecimal. -/
def hexadecimal (value : Nat) : List Char :=
  Nat.toDigits 16 value

/-- How one character is written between quotes. -/
def quotedChar (character : Char) : List Char :=
  if character = '"' then ['\\', '"']
  else if character = '\\' then ['\\', '\\']
  else if character = '\t' then ['\\', 't']
  else if character = '\r' then ['\\', 'r']
  else if character = '\n' then ['\\', 'n']
  else if character = '\x00' then ['\\', '0']
  else if isHidden character then
    ['\\', 'u', '\x7b'] ++ hexadecimal character.toNat ++ ['\x7d']
  else [character]

/-- A text between double quotes. -/
def quoted (text : String) : String :=
  String.ofList ('"' :: text.toList.flatMap quotedChar ++ ['"'])

end Text
end InjectionPlan
