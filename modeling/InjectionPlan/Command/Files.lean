import InjectionPlan.Command.Storage
import InjectionPlan.Table

namespace InjectionPlan
namespace Command

/-!
# Files in memory

Files and folders stand at locations, the lists of names that lead to them from the outermost
folder.  A path is followed name by name, and each name but the last must be that of a folder.
-/

/-- The names that lead to a file or folder from the outermost folder. -/
abbrev Location := List String

/-- What can stand at a location. -/
inductive Item
  | file (content : ByteArray)
  | folder

/-- A path from the outermost or from the current folder. -/
structure Path where
  absolute : Bool
  steps : List String
  /-- Whether the path ends with a slash, so that it means a folder. -/
  slash : Bool
deriving DecidableEq

namespace Path

/-- The number of bytes that a path may have. -/
def limit : Nat := 4095

/-- The number of bytes that a name in a path may have. -/
def nameLimit : Nat := 255

/-- Takes a path apart; slashes in a row count as one. -/
def ofText (text : String) : Except FileError Path :=
  if text.toList.contains '\x00' then .error .zeroInName
  else if text.isEmpty then .error .notFound
  else if text.utf8ByteSize > limit then .error .nameTooLong
  else
    .ok {
      absolute := text.toList.head? = some '/'
      steps := (text.splitOn "/").filter (· ≠ "")
      slash := text.toList.getLast? = some '/' }

end Path

/-- What stands at each location, and the current folder. -/
structure Files where
  items : Table Location Item
  current : Location

namespace Files

/-- What stands at a location; the outermost folder is always there. -/
def item? (files : Files) (location : Location) : Option Item :=
  if location = [] then some .folder else files.items.get? location

/-- Checks that a location is that of a folder. -/
def checkFolder (files : Files) (location : Location) : Except FileError Unit :=
  match files.item? location with
  | none => .error .notFound
  | some (.file _) => .error .notFolder
  | some .folder => .ok ()

/-- The location to which a name leads. -/
def step (location : Location) (name : String) : Except FileError Location :=
  if name = "." then .ok location
  else if name = ".." then .ok location.dropLast
  else if name.utf8ByteSize > Path.nameLimit then .error .nameTooLong
  else .ok (location ++ [name])

/-- The location to which names lead from a folder. -/
def walk (files : Files) : (location : Location) -> List String -> Except FileError Location
  | location, [] => .ok location
  | location, name :: rest => do
    files.checkFolder location
    let next <- step location name
    walk files next rest

/-- The folder where a path starts. -/
def origin (files : Files) (path : Path) : Location :=
  if path.absolute then [] else files.current

/-- The bytes of the file with a path. -/
def read (files : Files) (text : String) : Except FileError ByteArray := do
  let path <- Path.ofText text
  let location <- files.walk (files.origin path) path.steps
  match files.item? location with
  | none => .error .notFound
  | some .folder => .error .isFolder
  | some (.file content) => if path.slash then .error .notFolder else .ok content

/-- The location where a path has its file created. -/
def locationFor (files : Files) (text : String) : Except FileError Location := do
  let path <- Path.ofText text
  match path.steps.getLast? with
  | none => .error .isFolder
  | some name =>
    let folder <- files.walk (files.origin path) path.steps.dropLast
    files.checkFolder folder
    if path.slash || name = "." || name = ".." then .error .isFolder
    else
      let location <- step folder name
      match files.item? location with
      | some .folder => .error .isFolder
      | _ => .ok location

/-- Puts a file at a location. -/
def put (files : Files) (location : Location) (content : ByteArray) : Files :=
  { files with items := files.items.set location (.file content) }

/-- The bytes of the file at a location. -/
def contentAt (files : Files) (location : Location) : ByteArray :=
  match files.item? location with
  | some (.file content) => content
  | _ => .empty

/-- Files as a storage, with locations as handles. -/
def storage : Storage (StateM Files) Location where
  read path := do
    return (<- get).read path
  create path := do
    match (<- get).locationFor path with
    | .error error => return .error error
    | .ok location =>
      modify fun files => files.put location .empty
      return .ok location
  append location bytes :=
    modify fun files => files.put location (files.contentAt location ++ bytes)

end Files
end Command
end InjectionPlan
