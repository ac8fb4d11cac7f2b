import InjectionPlan.Json.Value

namespace InjectionPlan
namespace Json

open Number

/-!
# JSON text as far as it can be read

A document is judged from left to right and its first fault counts, whether that is text which is
not JSON or a value of the wrong kind.  So a text is first read into a tree that says where it
stops being JSON: there stands `broken`, and no array or object around it is closed.  What comes
before is kept, and a reader of the tree meets faults in the order of the text.

Two leaves may be passed over but not used: a number out of range and a string with half of a
surrogate pair.  Both are `unreadable`, and so is the name of a member with half of such a pair.
-/

/-- What a reader may find in place of what it wants. -/
inductive Found
  | null
  | boolean (value : Bool)
  | numeral (value : Numeral)
  | text (value : String)
  | sequence
  | map
deriving DecidableEq

/-- The name of a member as it stands in the text. -/
inductive Name
  | text (name : String)
  | unreadable
deriving DecidableEq

/-- A text read as far as it is JSON. -/
inductive Tree
  | null
  | bool (value : Bool)
  | number (value : Numeral)
  | string (text : String)
  | unreadable
  | array (items : List Tree) (closed : Bool)
  | object (members : List (Name × Tree)) (closed : Bool)
  | broken
deriving Inhabited

namespace Tree

/-- What a reader finds here; nothing if the text gives no value. -/
def found? : Tree -> Option Found
  | null => some .null
  | bool value => some (.boolean value)
  | number value => some (.numeral value)
  | string text => some (.text text)
  | unreadable => none
  | array _ _ => some .sequence
  | object _ _ => some .map
  | broken => none

/-- Whether the text is JSON up to the end of this tree. -/
def isComplete : Tree -> Bool
  | array _ closed => closed
  | object _ closed => closed
  | broken => false
  | _ => true

mutual

/-- The value of a tree in which at most `room` arrays and objects contain one another. -/
def value? (room : Nat) : Tree -> Option Value
  | null => some .null
  | bool value => some (.bool value)
  | number value => some (.number value)
  | string text => some (.string text)
  | unreadable => none
  | array items closed =>
    if room = 0 ∨ closed = false then none
    else (items? (room - 1) items).map .array
  | object members closed =>
    if room = 0 ∨ closed = false then none
    else (members? (room - 1) members []).map .object
  | broken => none

/-- The values of the items of an array. -/
def items? (room : Nat) : List Tree -> Option (List Value)
  | [] => some []
  | first :: rest =>
    match value? room first, items? room rest with
    | some value, some values => some (value :: values)
    | _, _ => none

/-- The members of an object added to sorted members; of members with one name the last counts. -/
def members? (room : Nat) :
    List (Name × Tree) -> List (String × Value) -> Option (List (String × Value))
  | [], sorted => some sorted
  | (.text name, tree) :: rest, sorted =>
    match value? room tree with
    | some value => members? room rest (insertMember name value sorted)
    | none => none
  | (_, _) :: _, _ => none

end

end Tree

end Json
end InjectionPlan
