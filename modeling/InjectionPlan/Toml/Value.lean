import InjectionPlan.Number.Exact

namespace InjectionPlan
namespace Toml

open Number

/-!
# TOML values and tables under construction

A table remembers how it came about, because that decides whether later statements may add to it:
a table that has had its header may not get another one, a table that was only mentioned in the
header of another may still get its own, a table made by a dotted key may be added to by dotted
keys, and a table written between braces is complete.
-/

/-- How a table came about. -/
inductive TableKind
  | header
  | implied
  | dotted
  | braces
deriving DecidableEq

/-- A TOML value.  Dates and times are kept as text in their standard form. -/
inductive Value
  | string (text : String)
  | integer (value : Int)
  | float (value : Extended)
  | boolean (value : Bool)
  | datetime (text : String)
  | array (items : List Value)
  | table (kind : TableKind) (entries : List (String × Value))
  /-- An array of tables, each of which has a header of its own. -/
  | tables (elements : List (List (String × Value)))
deriving Inhabited

/-- The entries of a table in the order in which they were made. -/
abbrev Entries := List (String × Value)

namespace Entries

/-- Replaces the value of a key. -/
def replace (key : String) (value : Value) (entries : Entries) : Entries :=
  entries.map fun entry => if entry.1 = key then (key, value) else entry

/-- Adds an entry with a new key. -/
def add (key : String) (value : Value) (entries : Entries) : Option Entries :=
  if (entries.lookup key).isSome then none else some (entries ++ [(key, value)])

/-- Changes the last of some tables. -/
def changeLast (change : Entries -> Option Entries) (elements : List Entries) :
    Option (List Entries) :=
  match elements.getLast? with
  | none => none
  | some last => (change last).map fun changed => elements.dropLast ++ [changed]

/-- Adds an entry below a table by a dotted key.  The tables on the way are made as needed; the
last one must have been made by a dotted key too. -/
def addDotted (key : String) (value : Value) : List String -> Entries -> Option Entries
  | [], entries => entries.add key value
  | name :: path, entries =>
    match entries.lookup name with
    | none =>
      (addDotted key value path []).map fun inner => entries ++ [(name, .table .dotted inner)]
    | some (.table .dotted inner) =>
      (addDotted key value path inner).map fun inner =>
        entries.replace name (.table .dotted inner)
    | some (.table .implied inner) =>
      if path.isEmpty then none
      else
        (addDotted key value path inner).map fun inner =>
          entries.replace name (.table .implied inner)
    | some (.tables elements) =>
      if path.isEmpty then none
      else
        (changeLast (addDotted key value path) elements).map fun elements =>
          entries.replace name (.tables elements)
    | some _ => none

/-- Changes the table that a header's path leads to.  Tables on the way are made as needed. -/
def changeAt (change : Entries -> Option Entries) : List String -> Entries -> Option Entries
  | [], entries => change entries
  | name :: path, entries =>
    match entries.lookup name with
    | none => (changeAt change path []).map fun inner => entries ++ [(name, .table .implied inner)]
    | some (.table .braces _) => none
    | some (.table kind inner) =>
      (changeAt change path inner).map fun inner => entries.replace name (.table kind inner)
    | some (.tables elements) =>
      (changeLast (changeAt change path) elements).map fun elements =>
        entries.replace name (.tables elements)
    | some _ => none

end Entries

/-- A key with its value; the path is what stands before the last dot. -/
structure Assignment where
  path : List String
  key : String
  value : Value

/-- Adds assignments to a table one after the other. -/
def assignAll (assignments : List Assignment) (entries : Entries) : Option Entries :=
  assignments.foldlM (fun entries assignment =>
    entries.addDotted assignment.key assignment.value assignment.path) entries

/-- A header: of a table, or of the next element of an array of tables. -/
structure Header where
  path : List String
  key : String
  element : Bool

/-- Adds the table that a header starts, with the assignments below the header.  A table goes to
the end of the table around it when it gets its header. -/
def addSection (header : Header) (assignments : List Assignment) (document : Entries) :
    Option Entries :=
  document.changeAt (fun entries =>
    match entries.lookup header.key, header.element with
    | none, false =>
      (assignAll assignments []).map fun body => entries ++ [(header.key, .table .header body)]
    | some (.table .implied inner), false =>
      (assignAll assignments inner).map fun body =>
        entries.filter (fun entry => entry.1 ≠ header.key) ++ [(header.key, .table .header body)]
    | none, true =>
      (assignAll assignments []).map fun body => entries ++ [(header.key, .tables [body])]
    | some (.tables elements), true =>
      (assignAll assignments []).map fun body =>
        entries.replace header.key (.tables (elements ++ [body]))
    | some _, _ => none) header.path

/-- A statement of a document. -/
inductive Statement
  | assignment (assignment : Assignment)
  | header (header : Header)

/-- The assignments before the first header, and each header with the assignments below it. -/
def sections : List Statement -> List Assignment × List (Header × List Assignment)
  | [] => ([], [])
  | .assignment assignment :: rest =>
    let (first, others) := sections rest
    (assignment :: first, others)
  | .header header :: rest =>
    let (first, others) := sections rest
    ([], (header, first) :: others)

/-- The table that statements make; nothing if they define something twice. -/
def assemble (statements : List Statement) : Option Entries :=
  let (first, others) := sections statements
  match assignAll first [] with
  | none => none
  | some entries =>
    others.foldlM (fun document (header, assignments) =>
      addSection header assignments document) entries

end Toml
end InjectionPlan
