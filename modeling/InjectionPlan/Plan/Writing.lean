import InjectionPlan.Json.Member
import InjectionPlan.Plan.Document

namespace InjectionPlan

open Json

/-!
# Plans in JSON: writing

Fields are written in the order of their declaration, a tag first.
-/

def ComponentType.toJson (type : ComponentType) : Value :=
  .object (("name", .string type.name) :: flagMember "shareable" type.shareable ++
    flagMember "data_access" type.dataAccess)

/-- The name of a policy in documents. -/
def CachePolicy.name : CachePolicy -> String
  | noPreference => "no_preference"
  | memoize => "memoize"
  | newInstance => "new_instance"

def CachePolicy.toJson (policy : CachePolicy) : Value :=
  .string policy.name

def Satisfaction.toJson : Satisfaction -> Value
  | null type => taggedValue "null" [("type", type.toJson)]
  | ofClass type => taggedValue "class" [("type", type.toJson)]
  | ofInstance type value => taggedValue "instance" [("type", type.toJson), ("value", value)]
  | ofProviderClass provider type =>
    taggedValue "provider_class" [("provider", provider.toJson), ("type", type.toJson)]
  | ofProviderInstance provider label type =>
    taggedValue "provider_instance" (("provider", provider.toJson) ::
      optionalMember "label" .string label ++ [("type", type.toJson)])

def Qualifier.toJson (qualifier : Qualifier) : Value :=
  .object (("name", .string qualifier.name) :: flagMember "parameter" qualifier.parameter)

def Site.toJson : Site -> Value
  | constructorParameter index =>
    taggedValue "constructor_parameter" [("index", indexValue index)]
  | setter member index =>
    taggedValue "setter" [("member", .string member), ("index", indexValue index)]
  | field member => taggedValue "field" [("member", .string member)]
  | noArgument member => taggedValue "no_argument" [("member", .string member)]
  | simple => taggedValue "simple" []
  | other name => taggedValue "other" [("name", .string name)]

def InjectionPoint.toJson (point : InjectionPoint) : Value :=
  .object (("site", point.site.toJson) ::
    optionalMember "qualifier" Qualifier.toJson point.qualifier ++
    flagMember "transient" point.transient)

def Desire.toJson (desire : Desire) : Value :=
  .object [("desired_type", desire.desiredType.toJson),
    ("injection_point", desire.injectionPoint.toJson)]

def Node.toJson (node : Node) : Value :=
  .object (optionalMember "satisfaction" Satisfaction.toJson node.satisfaction ++
    [("cache_policy", node.cachePolicy.toJson)])

def DocumentNode.toJson (entry : DocumentNode) : Value :=
  .object (("key", .string entry.key) ::
    optionalMember "satisfaction" Satisfaction.toJson entry.satisfaction ++
    [("cache_policy", entry.cachePolicy.toJson)])

def DocumentEdge.toJson (edge : DocumentEdge) : Value :=
  .object [("from", .string edge.head), ("to", .string edge.tail),
    ("desire", edge.desire.toJson)]

def Document.toJson (document : Document) : Value :=
  .object [("root", .string document.root),
    ("nodes", .array (document.nodes.map DocumentNode.toJson)),
    ("edges", .array (document.edges.map DocumentEdge.toJson)),
    ("unshared", .array (document.unshared.map .string))]

end InjectionPlan
