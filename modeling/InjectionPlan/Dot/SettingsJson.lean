import InjectionPlan.Dot.Settings
import InjectionPlan.Json.Member
import InjectionPlan.Json.Record

namespace InjectionPlan
namespace Dot

open Json

/-!
# Settings in JSON

All fields may be left out.  A font that is `null` means no font, while a font that is left out
means the usual one.
-/

def RankDirection.read : Reader RankDirection := choice RankDirection.options

def RankDirection.toJson (direction : RankDirection) : Value :=
  .string direction.display

/-- A map whose members are texts; of members with one name the last counts. -/
def AttributeMap.read : Reader AttributeMap := fun scope tree =>
  (Reader.textMap scope tree).map AttributeMap.ofList

def AttributeMap.toJson (map : AttributeMap) : Value :=
  .object (map.entries.map fun (name, value) => (name, .string value))

/-- A map as a member; left out if it is empty. -/
def AttributeMap.toMember (name : String) (map : AttributeMap) : List (String × Value) :=
  if map.entries.isEmpty then [] else [(name, map.toJson)]

/-- The names of the fields, in the order of their declaration. -/
def Settings.fieldNames : List String :=
  ["graph_name", "rankdir", "font_name", "graph_attributes", "node_attributes",
    "edge_attributes"]

def Settings.record : Record Settings where
  title := "struct RenderConfig"
  names := fieldNames
  build fields := Settings.mk <$> fields.withDefault "graph_name" defaultGraphName .text
    <*> fields.withDefault "rankdir" none (.optional RankDirection.read)
    <*> fields.withDefault "font_name" defaultFontName (.optional .text)
    <*> fields.withDefault "graph_attributes" .empty AttributeMap.read
    <*> fields.withDefault "node_attributes" .empty AttributeMap.read
    <*> fields.withDefault "edge_attributes" .empty AttributeMap.read

def Settings.read : Reader Settings := record.read

def Settings.toJson (settings : Settings) : Value :=
  .object (("graph_name", .string settings.graphName) ::
    optionalMember "rankdir" RankDirection.toJson settings.rankDirection ++
    [("font_name", settings.fontName.elim .null .string)] ++
    settings.graphAttributes.toMember "graph_attributes" ++
    settings.nodeAttributes.toMember "node_attributes" ++
    settings.edgeAttributes.toMember "edge_attributes")

end Dot
end InjectionPlan
