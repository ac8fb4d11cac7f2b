import InjectionPlan.Diagram.Basic
import InjectionPlan.Dot.Settings

namespace InjectionPlan
namespace Dot

/-!
# Statements of the DOT language

A graph in DOT is a preamble, one line for each node and each edge, and a closing brace.  Text is
quoted, with a backslash before a quote and a backslash and with line ends written as `\n`.
Markup stands between angle brackets as it is.  The port of an endpoint is quoted apart from the
identifier, so that a colon separates them.
-/

/-- How one character is written between quotes. -/
def escapeChar (character : Char) : List Char :=
  if character = '\\' then ['\\', '\\']
  else if character = '"' then ['\\', '"']
  else if character = '\n' then ['\\', 'n']
  else [character]

/-- The characters of a text as they are written between quotes. -/
def escape (text : List Char) : List Char :=
  text.flatMap escapeChar

/-- A text between quotes. -/
def quote (text : String) : String :=
  String.ofList ('"' :: escape text.toList ++ ['"'])

/-- Letters, digits and the underscore. -/
def isWordChar (character : Char) : Bool :=
  character.isAlphanum || character = '_'

/-- Whether a name is written without quotes: a word that does not start with a digit. -/
def isBare (name : List Char) : Bool :=
  match name with
  | [] => false
  | first :: _ => !first.isDigit && name.all isWordChar

/-- The name of an attribute. -/
def attributeName (name : String) : String :=
  if isBare name.toList then name else quote name

/-- An attribute with its value. -/
def assignment (name : String) : Diagram.AttributeValue -> String
  | .text content => attributeName name ++ "=" ++ quote content
  | .html content => attributeName name ++ "=<" ++ content ++ ">"

/-- The attributes of a statement, with a blank before them; nothing if there are none. -/
def attributeList (attributes : Diagram.Attributes) : String :=
  match attributes.entries.map fun (name, value) => assignment name value with
  | [] => ""
  | written => " [" ++ String.intercalate ", " written ++ "]"

/-- An endpoint: an identifier, and its port if there is a colon. -/
def endpoint (target : String) : String :=
  match Diagram.splitPort target.toList with
  | (id, some port) => quote (String.ofList id) ++ ":" ++ quote (String.ofList port)
  | (id, none) => quote (String.ofList id)

def nodeStatement (node : Diagram.Node) : String :=
  "  " ++ quote node.id ++ attributeList node.attributes ++ ";\n"

def edgeStatement (edge : Diagram.Edge) : String :=
  "  " ++ endpoint edge.source ++ " -> " ++ endpoint edge.target ++
    attributeList edge.attributes ++ ";\n"

/-! ## The preamble -/

/-- An attribute whose value is plain text. -/
def textAssignment (entry : String × String) : String :=
  assignment entry.1 (.text entry.2)

/-- The attributes that all nodes, or all edges, have unless they say otherwise: the font first. -/
def defaults (fontName : Option String) (attributes : AttributeMap) : List (String × String) :=
  fontName.toList.map (fun font => ("fontname", font)) ++ attributes.entries

/-- The statement of such attributes; nothing if there are none. -/
def defaultsStatement (kind : String) (entries : List (String × String)) : String :=
  match entries.map textAssignment with
  | [] => ""
  | written => "  " ++ kind ++ " [" ++ String.intercalate ", " written ++ "];\n"

/-- The statement of the direction. -/
def directionStatement : Option RankDirection -> String
  | some direction => "  rankdir=" ++ direction.display ++ ";\n"
  | none => ""

/-- All that stands before the first node. -/
def preamble (settings : Settings) : String :=
  "digraph " ++ quote settings.graphName ++ " \x7b\n" ++
    directionStatement settings.rankDirection ++
    String.join (settings.graphAttributes.entries.map fun entry =>
      "  " ++ textAssignment entry ++ ";\n") ++
    defaultsStatement "node" (defaults settings.fontName settings.nodeAttributes) ++
    defaultsStatement "edge" (defaults settings.fontName settings.edgeAttributes)

/-- All that stands after the last edge. -/
def closing : String := "\x7d\n"

end Dot
end InjectionPlan
