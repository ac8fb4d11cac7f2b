import InjectionPlan.Json.Record
import InjectionPlan.Plan.Document

namespace InjectionPlan

open Json

/-!
# Plans in JSON: reading

Each type of a plan is read from a tree by a record, a choice or a tagged record.  The titles are
what messages call the types.
-/

namespace ComponentType

def record : Record ComponentType where
  title := "struct TypeRef"
  names := ["name", "shareable", "data_access"]
  build fields := ComponentType.mk <$> fields.required "name" .text
    <*> fields.withDefault "shareable" false .flag
    <*> fields.withDefault "data_access" false .flag

def read : Reader ComponentType := record.read

end ComponentType

namespace CachePolicy

/-- The policies with their names in documents. -/
def options : List (String × CachePolicy) :=
  [("no_preference", noPreference), ("memoize", memoize), ("new_instance", newInstance)]

def read : Reader CachePolicy := choice options

end CachePolicy

namespace Satisfaction

/-- What messages call the variants of a satisfaction. -/
def variantTitle (name : String) : String :=
  "struct variant Satisfaction::" ++ name

def variants : Variants Satisfaction :=
  [("null",
    { title := variantTitle "Null"
      names := ["type"]
      build fields := null <$> fields.required "type" ComponentType.read }),
   ("class",
    { title := variantTitle "Class"
      names := ["type"]
      build fields := ofClass <$> fields.required "type" ComponentType.read }),
   ("instance",
    { title := variantTitle "Instance"
      names := ["type", "value"]
      build fields := ofInstance <$> fields.required "type" ComponentType.read
        <*> fields.required "value" .value }),
   ("provider_class",
    { title := variantTitle "ProviderClass"
      names := ["provider", "type"]
      build fields := ofProviderClass <$> fields.required "provider" ComponentType.read
        <*> fields.required "type" ComponentType.read }),
   ("provider_instance",
    { title := variantTitle "ProviderInstance"
      names := ["provider", "label", "type"]
      build fields := ofProviderInstance <$> fields.required "provider" ComponentType.read
        <*> fields.withDefault "label" none (.optional .text)
        <*> fields.required "type" ComponentType.read })]

def read : Reader Satisfaction := tagged "internally tagged enum Satisfaction" variants

end Satisfaction

namespace Qualifier

def record : Record Qualifier where
  title := "struct Qualifier"
  names := ["name", "parameter"]
  build fields := Qualifier.mk <$> fields.required "name" .text
    <*> fields.withDefault "parameter" false .flag

def read : Reader Qualifier := record.read

end Qualifier

namespace Site

/-- What messages call the variants of a site. -/
def variantTitle (name : String) : String :=
  "struct variant InjectionSite::" ++ name

def variants : Variants Site :=
  [("constructor_parameter",
    { title := variantTitle "ConstructorParameter"
      names := ["index"]
      build fields := constructorParameter <$> fields.required "index" .index }),
   ("setter",
    { title := variantTitle "Setter"
      names := ["member", "index"]
      build fields := setter <$> fields.required "member" .text
        <*> fields.required "index" .index }),
   ("field",
    { title := variantTitle "Field"
      names := ["member"]
      build fields := field <$> fields.required "member" .text }),
   ("no_argument",
    { title := variantTitle "NoArgument"
      names := ["member"]
      build fields := noArgument <$> fields.required "member" .text }),
   ("simple",
    { title := variantTitle "Simple"
      names := []
      build _ := .value simple }),
   ("other",
    { title := variantTitle "Other"
      names := ["name"]
      build fields := other <$> fields.required "name" .text })]

def read : Reader Site := tagged "internally tagged enum InjectionSite" variants

end Site

namespace InjectionPoint

def record : Record InjectionPoint where
  title := "struct InjectionPoint"
  names := ["site", "qualifier", "transient"]
  build fields := InjectionPoint.mk <$> fields.required "site" Site.read
    <*> fields.withDefault "qualifier" none (.optional Qualifier.read)
    <*> fields.withDefault "transient" false .flag

def read : Reader InjectionPoint := record.read

end InjectionPoint

namespace Desire

def record : Record Desire where
  title := "struct Desire"
  names := ["desired_type", "injection_point"]
  build fields := Desire.mk <$> fields.required "desired_type" ComponentType.read
    <*> fields.required "injection_point" InjectionPoint.read

def read : Reader Desire := record.read

end Desire

namespace Node

def record : Record Node where
  title := "struct Node"
  names := ["satisfaction", "cache_policy"]
  build fields := Node.mk <$> fields.withDefault "satisfaction" none (.optional Satisfaction.read)
    <*> fields.withDefault "cache_policy" .noPreference CachePolicy.read

def read : Reader Node := record.read

end Node

namespace DocumentNode

def record : Record DocumentNode where
  title := "struct PlanNode"
  names := ["key", "satisfaction", "cache_policy"]
  build fields := DocumentNode.mk <$> fields.required "key" .text
    <*> fields.withDefault "satisfaction" none (.optional Satisfaction.read)
    <*> fields.withDefault "cache_policy" .noPreference CachePolicy.read

def read : Reader DocumentNode := record.read

end DocumentNode

namespace DocumentEdge

def record : Record DocumentEdge where
  title := "struct PlanEdge"
  names := ["from", "to", "desire"]
  build fields := DocumentEdge.mk <$> fields.required "from" .text
    <*> fields.required "to" .text
    <*> fields.required "desire" Desire.read

def read : Reader DocumentEdge := record.read

end DocumentEdge

namespace Document

def record : Record Document where
  title := "struct PlanDocument"
  names := ["root", "nodes", "edges", "unshared"]
  build fields := Document.mk <$> fields.required "root" .text
    <*> fields.required "nodes" (.list DocumentNode.read)
    <*> fields.withDefault "edges" [] (.list DocumentEdge.read)
    <*> fields.withDefault "unshared" [] (.list .text)

def read : Reader Document := record.read

/-- Reads a document from its text. -/
def ofText (text : String) : Except PlanError Document :=
  (readText read text).mapError .json

end Document
end InjectionPlan
