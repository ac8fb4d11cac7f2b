import InjectionPlan.Json.Draft
import InjectionPlan.Json.Fault

namespace InjectionPlan
namespace Json

/-!
# Reading records, choices and variants from a tree

A record is an object whose members are its fields in any order, or an array of its fields in
the order of their declaration.  Unknown members are passed over, a field may have a value that
stands for its absence, and of several faults the one that comes first in the text counts.

The last rule is kept without reading in the order of the text: each field is looked up by its
name, its outcome carries the place of its member, and combining two outcomes keeps the fault
with the smaller place.  So the fields of a record are read in one expression, and what it gives
depends on the order of the members only in which fault it reports.
-/

/-- The surroundings of a tree that is read. -/
structure Scope where
  /-- How many more arrays and objects may contain one another. -/
  room : Nat
  /-- Whether an enclosing variant has been read as a whole before its fields. -/
  buffered : Bool

/-- The surroundings of a document. -/
def Scope.document : Scope := ⟨127, false⟩

/-- The surroundings of what an array or object contains. -/
def Scope.inner (scope : Scope) : Scope :=
  { scope with room := scope.room - 1 }

/-- A way to read a tree as a value of some type. -/
abbrev Reader (α : Type) := Scope -> Tree -> Except Fault α

/-! ## Single values -/

namespace Reader

def text : Reader String := fun _ tree =>
  match tree with
  | .string value => .ok value
  | other => .error (other.mismatch "a string")

def flag : Reader Bool := fun _ tree =>
  match tree with
  | .bool value => .ok value
  | other => .error (other.mismatch "a boolean")

/-- A number of 64 binary digits. -/
def index : Reader UInt64 := fun _ tree =>
  match tree with
  | .number (.integer value) =>
    if 0 ≤ value ∧ value ≤ 18446744073709551615 then .ok (UInt64.ofNat value.toNat)
    else .error (.wrongValue (.numeral (.integer value)) "usize")
  | other => .error (other.mismatch "usize")

def unit : Reader Unit := fun _ tree =>
  match tree with
  | .null => .ok ()
  | other => .error (other.mismatch "unit")

/-- Any value at all. -/
def value : Reader Value := fun scope tree =>
  match tree.value? scope.room with
  | some value => .ok value
  | none => .error .malformed

/-- A value or `null`. -/
def optional (reader : Reader α) : Reader (Option α) := fun scope tree =>
  match tree with
  | .null => .ok none
  | other => (reader scope other).map some

/-- The items of an array, up to the first fault. -/
def items (reader : Reader α) (scope : Scope) : List Tree -> Except Fault (List α)
  | [] => .ok []
  | first :: rest =>
    match reader scope first with
    | .error fault => .error fault
    | .ok value => (items reader scope rest).map (value :: ·)

/-- An array of values of one kind. -/
def list (reader : Reader α) : Reader (List α) := fun scope tree =>
  match tree with
  | .array trees closed =>
    if scope.room = 0 then .error .malformed
    else
      match items reader scope.inner trees with
      | .error fault => .error fault
      | .ok values => if closed then .ok values else .error .malformed
  | other => .error (other.mismatch "a sequence")

/-- The members of an object of texts, up to the first fault. -/
def texts : List (Name × Tree) -> Except Fault (List (String × String))
  | [] => .ok []
  | (.text name, .string value) :: rest => (texts rest).map ((name, value) :: ·)
  | (.text _, other) :: _ => .error (other.mismatch "a string")
  | (_, _) :: _ => .error .malformed

/-- An object whose members are texts, in the order written. -/
def textMap : Reader (List (String × String)) := fun scope tree =>
  match tree with
  | .object members closed =>
    if scope.room = 0 then .error .malformed
    else
      match texts members with
      | .error fault => .error fault
      | .ok entries => if closed then .ok entries else .error .malformed
  | other => .error (other.mismatch "a map")

end Reader

/-! ## Outcomes with places -/

/-- A value, or a fault with its place in the order of the text. -/
inductive Outcome (α : Type)
  | value (value : α)
  | fault (place : Nat) (fault : Fault)

namespace Outcome

/-- Places what a reader gave. -/
def ofExcept (place : Nat) : Except Fault α -> Outcome α
  | .ok result => value result
  | .error cause => fault place cause

def toExcept : Outcome α -> Except Fault α
  | value result => .ok result
  | fault _ cause => .error cause

def map (function : α -> β) : Outcome α -> Outcome β
  | value result => value (function result)
  | fault place cause => fault place cause

/-- Combines two outcomes; of two faults the one in the earlier place counts. -/
def both (function : Outcome (α -> β)) (argument : Outcome α) : Outcome β :=
  match function, argument with
  | value function, value argument => value (function argument)
  | value _, fault place cause => fault place cause
  | fault place cause, value _ => fault place cause
  | fault place cause, fault later other =>
    if later < place then fault later other else fault place cause

instance : Functor Outcome where
  map := map

instance : Seq Outcome where
  seq function argument := both function (argument ())

end Outcome

/-! ## Records -/

/-- What a record is read from. -/
inductive Parts
  | members (list : List (Name × Tree)) (closed : Bool)
  | items (list : List Tree) (closed : Bool)

/-- The parts of a record with the declaration that they are read against. -/
structure Fields where
  title : String
  names : List String
  scope : Scope
  parts : Parts

/-- A number of elements, in words. -/
def elementCount (count : Nat) : String :=
  if count = 1 then "1 element" else toString count ++ " elements"

/-- The place of the first member of a name. -/
def placeOf (name : String) (members : List (Name × Tree)) : Nat :=
  members.findIdx fun member => member.1 = .text name

namespace Fields

/-- The outcome of a field; `absent` is what its absence stands for. -/
def get (fields : Fields) (name : String) (reader : Reader α) (absent : Option α) : Outcome α :=
  match fields.parts with
  | .members list _ =>
    let place := placeOf name list
    match list[place]?, absent with
    | some (_, tree), _ => .ofExcept place (reader fields.scope tree)
    | none, some result => .value result
    | none, none => .fault (list.length + 1) (.missingField name)
  | .items list _ =>
    let place := fields.names.idxOf name
    match list[place]?, absent with
    | some tree, _ => .ofExcept place (reader fields.scope tree)
    | none, some result => .value result
    | none, none =>
      .fault place
        (.wrongLength place (fields.title ++ " with " ++ elementCount fields.names.length))

/-- A field that has to be there. -/
def required (fields : Fields) (name : String) (reader : Reader α) : Outcome α :=
  fields.get name reader none

/-- A field whose absence stands for a value. -/
def withDefault (fields : Fields) (name : String) (default : α) (reader : Reader α) : Outcome α :=
  fields.get name reader (some default)

/-- The faults of members that belong to no single field: a name that cannot be read, a declared
name that occurs again, an unknown member that is not JSON, and an object that does not end. -/
def membersIntact (names : List String) (closed : Bool) :
    (seen : List String) -> (place : Nat) -> List (Name × Tree) -> Outcome Unit
  | _, place, [] => if closed then .value () else .fault place .malformed
  | seen, place, (.text name, tree) :: rest =>
    if name ∈ names then
      if name ∈ seen then .fault place (.duplicateField name)
      else membersIntact names closed (name :: seen) (place + 1) rest
    else if tree.isComplete then membersIntact names closed seen (place + 1) rest
    else .fault place .malformed
  | _, place, (_, _) :: _ => .fault place .malformed

/-- The faults of an array that belong to no single field: items after the last field, and an
array that does not end.  In a record that was read as a whole the superfluous items are counted;
otherwise the text is at fault for not ending after the last field. -/
def itemsIntact (fields : Fields) (list : List Tree) (closed : Bool) : Outcome Unit :=
  let count := fields.names.length
  if count < list.length then
    if fields.scope.buffered then
      .fault count (.wrongLength list.length (elementCount count ++ " in sequence"))
    else .fault count .malformed
  else if closed then .value ()
  else .fault list.length .malformed

/-- The faults that belong to no single field. -/
def intact (fields : Fields) : Outcome Unit :=
  match fields.parts with
  | .members list closed => membersIntact fields.names closed [] 0 list
  | .items list closed => fields.itemsIntact list closed

end Fields

/-- A kind of record: what messages call it, its fields in order, and how they make a value. -/
structure Record (α : Type) where
  title : String
  names : List String
  build : Fields -> Outcome α

namespace Record

/-- Reads a record from its parts. -/
def ofParts (record : Record α) (scope : Scope) (parts : Parts) : Except Fault α :=
  let fields : Fields := ⟨record.title, record.names, scope, parts⟩
  ((fun _ result => result) <$> fields.intact <*> record.build fields).toExcept

/-- Reads a record from an object or an array. -/
def read (record : Record α) : Reader α := fun scope tree =>
  match tree with
  | .object members closed =>
    if scope.room = 0 then .error .malformed
    else record.ofParts scope.inner (.members members closed)
  | .array items closed =>
    if scope.room = 0 then .error .malformed
    else record.ofParts scope.inner (.items items closed)
  | other => .error (other.mismatch record.title)

end Record

/-! ## Choices and variants -/

/-- The meaning of a name among the names known. -/
def choose (options : List (String × α)) (name : String) : Except Fault α :=
  match options.find? fun option => option.1 = name with
  | some option => .ok option.2
  | none => .error (.unknownVariant name (options.map Prod.fst))

/-- The meaning of a name that stands as a value. -/
def chooseTree (options : List (String × α)) (tree : Tree) : Except Fault α :=
  match tree with
  | .string name => choose options name
  | other => .error (other.mismatch "variant identifier")

/-- The meaning of a name that stands as the name of a member. -/
def chooseName (options : List (String × α)) : Name -> Except Fault α
  | .text name => choose options name
  | .unreadable => .error .malformed

/-- One of several names: a string, or an object with that one member, which is `null`. -/
def choice (options : List (String × α)) : Reader α := fun scope tree =>
  match tree with
  | .string name => choose options name
  | .object ((name, content) :: rest) closed =>
    if scope.room = 0 then .error .malformed
    else
      match chooseName options name with
      | .error fault => .error fault
      | .ok result =>
        match Reader.unit scope.inner content with
        | .error fault => .error fault
        | .ok () => if rest.isEmpty ∧ closed then .ok result else .error .malformed
  | _ => .error .malformed

/-- A variant of a tagged record: the fields besides the tag, with what messages call them. -/
abbrev Variants (α : Type) := List (String × Record α)

/-- Whether a tree can be read as some value within the room of a scope. -/
def isReadable (scope : Scope) (tree : Tree) : Bool :=
  (tree.value? scope.room).isSome

/-- Finds the variant that the tag of an object names, and checks the other members. -/
def findVariant (variants : Variants α) (scope : Scope) (closed : Bool) :
    Option (Record α) -> List (Name × Tree) -> Except Fault (Record α)
  | found, [] =>
    match closed, found with
    | false, _ => .error .malformed
    | true, none => .error (.missingField "kind")
    | true, some record => .ok record
  | found, (.text name, tree) :: rest =>
    if name = "kind" then
      match found with
      | some _ => .error (.duplicateField "kind")
      | none =>
        match chooseTree variants tree with
        | .error fault => .error fault
        | .ok record => findVariant variants scope closed (some record) rest
    else if isReadable scope tree then findVariant variants scope closed found rest
    else .error .malformed
  | _, (_, _) :: _ => .error .malformed

/-- A record whose member `kind`, or first item, says which fields it has.  It is read as a whole
before its fields are. -/
def tagged (title : String) (variants : Variants α) : Reader α := fun scope tree =>
  let inner : Scope := { scope.inner with buffered := true }
  match tree with
  | .object members closed =>
    if scope.room = 0 then .error .malformed
    else
      match findVariant variants inner closed none members with
      | .error fault => .error fault
      | .ok record =>
        record.ofParts inner (.members (members.filter fun member => member.1 ≠ .text "kind") true)
  | .array [] closed =>
    if scope.room = 0 ∨ closed = false then .error .malformed
    else .error (.missingField "kind")
  | .array (kind :: items) closed =>
    if scope.room = 0 then .error .malformed
    else
      match chooseTree variants kind with
      | .error fault => .error fault
      | .ok record =>
        if closed ∧ items.all (isReadable inner) then record.ofParts inner (.items items true)
        else .error .malformed
  | other => .error (other.mismatch title)

/-! ## Whole texts -/

/-- Reads a whole text as one value; nothing but blanks may follow the value. -/
def readText (reader : Reader α) (text : String) : Except Fault α :=
  let draft := Draft.ofText text
  match reader .document draft.tree with
  | .error fault => .error fault
  | .ok value => if draft.ended then .ok value else .error .malformed

end Json
end InjectionPlan
