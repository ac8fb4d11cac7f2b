import InjectionPlan.Table

namespace InjectionPlan
namespace Diagram

/-!
# Nodes and edges of a diagram

A diagram is described by nodes and edges that a sink takes one after the other.  Each has a list
of attributes, in which setting a name again replaces the value in place.  An edge ends at the
target of a node: the node's identifier, or the identifier with a port after a colon.
-/

/-- The value of an attribute: plain text or markup. -/
inductive AttributeValue
  | text (content : String)
  | html (content : String)
deriving DecidableEq, Inhabited

/-- The content of a value without its kind. -/
def AttributeValue.content : AttributeValue -> String
  | .text content => content
  | .html content => content

abbrev Attributes := Table String AttributeValue

/-- What the table of a component shows. -/
structure Component where
  typeName : String
  /-- Rows for parameters. -/
  parameters : List String
  /-- Rows for dependencies; the edge of a row leaves from the port with the row's number. -/
  dependencies : List String
  shareable : Bool
  shared : Bool
  /-- The component is asked for another one. -/
  provider : Bool
  /-- The component comes from a provider. -/
  provided : Bool
deriving DecidableEq, Inhabited

/-- A node of a diagram. -/
structure Node where
  id : String
  /-- Where the edges that lead to the node end. -/
  target : String
  attributes : Attributes
  component : Option Component
deriving DecidableEq, Inhabited

namespace Node

/-- A node without attributes whose target is its identifier. -/
def plain (id : String) : Node :=
  ⟨id, id, .empty, none⟩

def set (node : Node) (name : String) (value : AttributeValue) : Node :=
  { node with attributes := node.attributes.set name value }

def setText (node : Node) (name text : String) : Node :=
  node.set name (.text text)

def label? (node : Node) : Option AttributeValue :=
  node.attributes.get? "label"

def shape? (node : Node) : Option String :=
  (node.attributes.get? "shape").map AttributeValue.content

end Node

/-- An edge of a diagram. -/
structure Edge where
  /-- Where the edge starts: an identifier, possibly with a port. -/
  source : String
  target : String
  attributes : Attributes
deriving DecidableEq, Inhabited

namespace Edge

/-- An edge without attributes. -/
def plain (source target : String) : Edge :=
  ⟨source, target, .empty⟩

def set (edge : Edge) (name : String) (value : AttributeValue) : Edge :=
  { edge with attributes := edge.attributes.set name value }

def setText (edge : Edge) (name text : String) : Edge :=
  edge.set name (.text text)

end Edge

/-- A text split at its first colon. -/
def splitPort (endpoint : List Char) : List Char × Option (List Char) :=
  (endpoint.takeWhile (· ≠ ':'), (endpoint.dropWhile (· ≠ ':')).tail?)

end Diagram
end InjectionPlan
