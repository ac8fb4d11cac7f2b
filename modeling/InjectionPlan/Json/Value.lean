import InjectionPlan.Number.Literal
import InjectionPlan.Number.Layout

namespace InjectionPlan
namespace Json

open Number

/-!
# JSON values and their compact text

A value keeps the members of an object in a list.  Values that were read have their members
sorted by name and no name twice (`insertMember` is how they are built); values made to be
written list the members in the order in which they are to appear.

The compact text has no blanks.  In a string the quote, the backslash and the control characters
below the space are escaped and nothing else is.
-/

/-- A JSON value. -/
inductive Value
  | null
  | bool (value : Bool)
  | number (value : Numeral)
  | string (text : String)
  | array (items : List Value)
  | object (members : List (String × Value))
deriving Inhabited

namespace Value

mutual

/-- Equality of values is decided by comparing them part by part. -/
def decEq : (left right : Value) -> Decidable (left = right)
  | null, null => isTrue rfl
  | bool left, bool right =>
    if same : left = right then isTrue (congrArg bool same)
    else isFalse fun equal => same (Value.bool.inj equal)
  | number left, number right =>
    if same : left = right then isTrue (congrArg number same)
    else isFalse fun equal => same (Value.number.inj equal)
  | string left, string right =>
    if same : left = right then isTrue (congrArg string same)
    else isFalse fun equal => same (Value.string.inj equal)
  | array left, array right =>
    match decEqItems left right with
    | isTrue same => isTrue (congrArg array same)
    | isFalse different => isFalse fun equal => different (Value.array.inj equal)
  | object left, object right =>
    match decEqMembers left right with
    | isTrue same => isTrue (congrArg object same)
    | isFalse different => isFalse fun equal => different (Value.object.inj equal)
  | null, bool _ | null, number _ | null, string _ | null, array _ | null, object _
  | bool _, null | bool _, number _ | bool _, string _ | bool _, array _ | bool _, object _
  | number _, null | number _, bool _ | number _, string _ | number _, array _
  | number _, object _
  | string _, null | string _, bool _ | string _, number _ | string _, array _
  | string _, object _
  | array _, null | array _, bool _ | array _, number _ | array _, string _ | array _, object _
  | object _, null | object _, bool _ | object _, number _ | object _, string _
  | object _, array _ => isFalse nofun

/-- Lists of values are compared item by item. -/
def decEqItems : (left right : List Value) -> Decidable (left = right)
  | [], [] => isTrue rfl
  | [], _ :: _ => isFalse nofun
  | _ :: _, [] => isFalse nofun
  | first :: left, second :: right =>
    match decEq first second with
    | isFalse different => isFalse fun equal => different (List.cons.inj equal).1
    | isTrue same =>
      match decEqItems left right with
      | isFalse different => isFalse fun equal => different (List.cons.inj equal).2
      | isTrue rest => isTrue (same ▸ rest ▸ rfl)

/-- Lists of members are compared name by name and value by value. -/
def decEqMembers : (left right : List (String × Value)) -> Decidable (left = right)
  | [], [] => isTrue rfl
  | [], _ :: _ => isFalse nofun
  | _ :: _, [] => isFalse nofun
  | (name, first) :: left, (other, second) :: right =>
    if sameName : name = other then
      match decEq first second with
      | isFalse different => isFalse fun equal => different (Prod.mk.inj (List.cons.inj equal).1).2
      | isTrue same =>
        match decEqMembers left right with
        | isFalse different => isFalse fun equal => different (List.cons.inj equal).2
        | isTrue rest => isTrue (sameName ▸ same ▸ rest ▸ rfl)
    else isFalse fun equal => sameName (Prod.mk.inj (List.cons.inj equal).1).1

end

instance : DecidableEq Value := decEq

/-- An exact integer as a value. -/
def ofInt (value : Int) : Value :=
  number (.integer value)

def ofNat (value : Nat) : Value :=
  ofInt value

end Value

/-- Adds a member to a sorted list of members; a member of the same name is replaced. -/
def insertMember (name : String) (value : Value) :
    List (String × Value) -> List (String × Value)
  | [] => [(name, value)]
  | (other, old) :: rest =>
    if name < other then (name, value) :: (other, old) :: rest
    else if name = other then (name, value) :: rest
    else (other, old) :: insertMember name value rest

/-! ## Compact text -/

/-- One of the sixteen hexadecimal digits, in lower case. -/
def hexDigit (value : Nat) : Char :=
  Nat.digitChar (value % 16)

/-- How one character is written inside a string. -/
def escapeChar (character : Char) : List Char :=
  if character = '"' then ['\\', '"']
  else if character = '\\' then ['\\', '\\']
  else if character = '\x08' then ['\\', 'b']
  else if character = '\x0c' then ['\\', 'f']
  else if character = '\n' then ['\\', 'n']
  else if character = '\r' then ['\\', 'r']
  else if character = '\t' then ['\\', 't']
  else if character.toNat < 0x20 then
    ['\\', 'u', '0', '0', hexDigit (character.toNat / 16), hexDigit character.toNat]
  else [character]

/-- A string between quotes. -/
def quote (text : String) : List Char :=
  '"' :: text.toList.flatMap escapeChar ++ ['"']

/-- The text of a number. -/
def numeralChars : Numeral -> List Char
  | .integer (.ofNat value) => Nat.toDigits 10 value
  | .integer (.negSucc value) => '-' :: Nat.toDigits 10 (value + 1)
  | .float value => (Layout.standard.write value).toList

namespace Value

mutual

/-- The compact text of a value. -/
def chars : Value -> List Char
  | null => ['n', 'u', 'l', 'l']
  | bool true => ['t', 'r', 'u', 'e']
  | bool false => ['f', 'a', 'l', 's', 'e']
  | number value => numeralChars value
  | string text => quote text
  | array [] => ['[', ']']
  | array (first :: rest) => '[' :: chars first ++ itemChars rest
  | object [] => ['\x7b', '\x7d']
  | object ((name, value) :: rest) => '\x7b' :: quote name ++ ':' :: chars value ++ memberChars rest

/-- The further items of an array and its end. -/
def itemChars : List Value -> List Char
  | [] => [']']
  | first :: rest => ',' :: chars first ++ itemChars rest

/-- The further members of an object and its end. -/
def memberChars : List (String × Value) -> List Char
  | [] => ['\x7d']
  | (name, value) :: rest => ',' :: quote name ++ ':' :: chars value ++ memberChars rest

end

/-- The compact text of a value. -/
def compact (value : Value) : String :=
  String.ofList value.chars

/-- How a value is shown in a label: a string as it is, anything else as compact text. -/
def display : Value -> String
  | string text => text
  | value => value.compact

end Value
end Json
end InjectionPlan
