import InjectionPlan.Dot.Settings
import InjectionPlan.Toml.Fault

namespace InjectionPlan
namespace Dot

open Toml

/-!
# Settings in TOML

All fields may be left out and other entries are passed over.  The entries are looked at in the
order of the table, and the first fault counts.
-/

/-- The text that a value is. -/
def readText : Value -> Except Fault String
  | .string text => .ok text
  | other => .error (.wrongType other "a string")

/-- The direction of a name. -/
def readDirectionName (name : String) : Except Fault RankDirection :=
  match RankDirection.options.find? fun option => option.1 = name with
  | some option => .ok option.2
  | none => .error (.unknownVariant name (RankDirection.options.map Prod.fst))

/-- Whether a value is an array or a table without content. -/
def isVoid : Value -> Bool
  | .array items => items.isEmpty
  | .table _ entries => entries.isEmpty
  | .tables elements => elements.isEmpty
  | _ => false

/-- A direction: its name, or a table with its name as the only key and nothing below it. -/
def readDirection : Value -> Except Fault RankDirection
  | .string name => readDirectionName name
  | .table _ [(name, content)] =>
    match readDirectionName name with
    | .error fault => .error fault
    | .ok direction => if isVoid content then .ok direction else .error .malformed
  | _ => .error .malformed

/-- The entry that a date has when it is taken for a table. -/
def dateKey : String := "$__toml_private_datetime"

/-- Texts under names. -/
def readAttributes : Value -> Except Fault AttributeMap
  | .table _ entries =>
    entries.foldlM (fun map (name, value) => (readText value).map (map.set name)) .empty
  | .datetime text => .ok (AttributeMap.empty.set dateKey text)
  | other => .error (.wrongType other "a map")

namespace Settings

/-- Takes over one entry of a table. -/
def setEntry (settings : Settings) (key : String) (value : Value) : Except Fault Settings :=
  match key with
  | "graph_name" => (readText value).map fun name => { settings with graphName := name }
  | "rankdir" =>
    (readDirection value).map fun direction => { settings with rankDirection := some direction }
  | "font_name" => (readText value).map fun font => { settings with fontName := some font }
  | "graph_attributes" =>
    (readAttributes value).map fun map => { settings with graphAttributes := map }
  | "node_attributes" =>
    (readAttributes value).map fun map => { settings with nodeAttributes := map }
  | "edge_attributes" =>
    (readAttributes value).map fun map => { settings with edgeAttributes := map }
  | _ => .ok settings

/-- Reads settings from the text of a TOML document. -/
def ofToml (text : String) : Except Fault Settings :=
  match Toml.read text with
  | none => .error .malformed
  | some entries =>
    entries.foldlM (fun settings (key, value) => settings.setEntry key value) default

end Settings

end Dot
end InjectionPlan
