import InjectionPlan.Diagram.Basic
import InjectionPlan.Plan.Basic

namespace InjectionPlan
namespace Diagram

/-!
# The table of a component

A component is shown as a table: a header with the short name of its type, a row for each
parameter, and a row for each dependency.  The header has the port `H`, the rows of dependencies
are numbered from one.  Colours tell providers, shareable components and unshared ones apart, and
a component that comes from a provider has rounded corners.
-/

/-- The port of the header. -/
def headerPort : String := "H"

/-- How one character of a text is written in markup. -/
def markupChar (character : Char) : List Char :=
  if character = '&' then ['&', 'a', 'm', 'p', ';']
  else if character = '<' then ['&', 'l', 't', ';']
  else if character = '>' then ['&', 'g', 't', ';']
  else if character = '"' then ['&', 'q', 'u', 'o', 't', ';']
  else [character]

/-- A text written in markup. -/
def markup (text : String) : String :=
  String.ofList (text.toList.flatMap markupChar)

namespace Component

/-- The table of a component of a type, still without rows. -/
def ofType (type : ComponentType) : Component :=
  { typeName := type.shortName
    parameters := []
    dependencies := []
    shareable := false
    shared := true
    provider := false
    provided := false }

/-- Adds the row of a parameter with its value, if it has one. -/
def addParameter (component : Component) (qualifier : Qualifier) (value : Option Instance) :
    Component :=
  let shown := match value with
    | some value => value.display
    | none => "unbound"
  { component with
    parameters := component.parameters ++ [qualifier.display ++ ": " ++ shown] }

/-- Adds the row of a dependency. -/
def addDependency (component : Component) (desire : Desire) : Component :=
  { component with dependencies := component.dependencies ++ [desire.display] }

/-- The port of the last dependency, or zero if there is none. -/
def lastPort (component : Component) : Nat :=
  component.dependencies.length

/-- An attribute of a markup element. -/
def markupAttribute (name value : String) : String :=
  " " ++ name ++ "=\"" ++ value ++ "\""

/-- The start of the table. -/
def tableStart (component : Component) : String :=
  "<TABLE" ++ markupAttribute "BORDER" "0" ++ markupAttribute "CELLBORDER" "1" ++
    markupAttribute "CELLSPACING" "0" ++
    (if component.provided then markupAttribute "STYLE" "rounded" else "") ++
    (if component.shared then "" else markupAttribute "COLOR" "#e41a1c") ++ ">"

/-- The colour of the header: a provider's colour comes before a shareable component's. -/
def headerColour (component : Component) : String :=
  if component.provider then markupAttribute "BGCOLOR" "#cbd5e8"
  else if component.shareable then markupAttribute "BGCOLOR" "#b3e2cd"
  else ""

def headerRow (component : Component) : String :=
  "<TR><TD" ++ markupAttribute "PORT" headerPort ++ component.headerColour ++ "><B>" ++
    markup component.typeName ++ "</B></TD></TR>"

def parameterRow (parameter : String) : String :=
  "<TR><TD" ++ markupAttribute "ALIGN" "LEFT" ++ "><I>" ++ markup parameter ++ "</I></TD></TR>"

def dependencyRow (port : Nat) (dependency : String) : String :=
  "<TR><TD" ++ markupAttribute "PORT" (toString port) ++ markupAttribute "ALIGN" "LEFT" ++ ">" ++
    markup dependency ++ "</TD></TR>"

/-- The rows of dependencies, numbered from a port on. -/
def dependencyRows : (port : Nat) -> List String -> List String
  | _, [] => []
  | port, dependency :: rest => dependencyRow port dependency :: dependencyRows (port + 1) rest

/-- The markup of the whole table. -/
def label (component : Component) : String :=
  component.tableStart ++ component.headerRow ++
    String.join (component.parameters.map parameterRow) ++
    String.join (dependencyRows 1 component.dependencies) ++ "</TABLE>"

/-- The node that shows the component; edges to it end at its header. -/
def toNode (component : Component) (id : String) : Node :=
  let node := ((Node.plain id).setText "shape" "plaintext").set "label" (.html component.label)
  { node with target := id ++ ":" ++ headerPort, component := some component }

end Component
end Diagram
end InjectionPlan
