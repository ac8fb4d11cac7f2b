import InjectionPlan.Json.Value
import InjectionPlan.Text.LastSegment

namespace InjectionPlan

/-!
# What a composition plan says

A plan consists of nodes and of edges between them.  A node says how its component comes about:
its satisfaction.  An edge runs from a component to something that it depends on and carries the
desire that it fulfils: the type that is wanted and the place where it is injected.  A desire
whose qualifier marks a parameter asks for a value that is shown in place instead of a component.
-/

/-- A component type, named in full. -/
structure ComponentType where
  name : String
  /-- Components of the type may be shared between component trees. -/
  shareable : Bool
  /-- The type gives access to stored data. -/
  dataAccess : Bool
deriving DecidableEq, Inhabited

/-- The last segment of the type's name. -/
def ComponentType.shortName (type : ComponentType) : String :=
  Text.lastSegment type.name

/-- A value that exists before composition. -/
abbrev Instance := Json.Value

/-- How the container caches a component. -/
inductive CachePolicy
  | noPreference
  | memoize
  | newInstance
deriving DecidableEq, Inhabited

/-! ## Satisfactions -/

/-- How a component comes about. -/
inductive Satisfaction
  /-- Nothing is bound. -/
  | null (type : ComponentType)
  /-- A class is instantiated. -/
  | ofClass (type : ComponentType)
  /-- The value exists already. -/
  | ofInstance (type : ComponentType) (value : Instance)
  /-- A provider class is instantiated and then asked for the component. -/
  | ofProviderClass (provider : ComponentType) (type : ComponentType)
  /-- A provider that exists already is asked for the component. -/
  | ofProviderInstance (provider : ComponentType) (label : Option String) (type : ComponentType)
deriving DecidableEq

namespace Satisfaction

/-- The type of component that comes about. -/
def type : Satisfaction -> ComponentType
  | null type => type
  | ofClass type => type
  | ofInstance type _ => type
  | ofProviderClass _ type => type
  | ofProviderInstance _ _ type => type

/-- The value that exists already. -/
def instance? : Satisfaction -> Option Instance
  | ofInstance _ value => some value
  | _ => none

/-- The type of the provider. -/
def provider? : Satisfaction -> Option ComponentType
  | ofProviderClass provider _ => some provider
  | ofProviderInstance provider _ _ => some provider
  | _ => none

/-- The name of the kind of satisfaction in log entries. -/
def kindName : Satisfaction -> String
  | null _ => "null"
  | ofClass _ => "class"
  | ofInstance _ _ => "instance"
  | ofProviderClass _ _ => "provider-class"
  | ofProviderInstance _ _ _ => "provider-instance"

end Satisfaction

/-! ## Desires -/

/-- A qualifying annotation of an injection point. -/
structure Qualifier where
  name : String
  /-- The qualifier marks a configuration parameter. -/
  parameter : Bool
deriving DecidableEq, Inhabited

namespace Qualifier

def shortName (qualifier : Qualifier) : String :=
  Text.lastSegment qualifier.name

def display (qualifier : Qualifier) : String :=
  "@" ++ qualifier.shortName

end Qualifier

/-- Where on the dependent component something is injected. -/
inductive Site
  | constructorParameter (index : UInt64)
  | setter (member : String) (index : UInt64)
  | field (member : String)
  | noArgument (member : String)
  /-- A request for a type, without a member. -/
  | simple
  /-- A kind of site known by its name only. -/
  | other (name : String)
deriving DecidableEq, Inhabited

/-- The name of the kind of site. -/
def Site.kindName : Site -> String
  | .constructorParameter _ => "constructor_parameter"
  | .setter _ _ => "setter"
  | .field _ => "field"
  | .noArgument _ => "no_argument"
  | .simple => "simple"
  | .other name => name

/-- A site with the attributes of the injection. -/
structure InjectionPoint where
  site : Site
  qualifier : Option Qualifier
  /-- The dependent component does not keep what is injected. -/
  transient : Bool
deriving DecidableEq, Inhabited

/-- One requirement of a component. -/
structure Desire where
  desiredType : ComponentType
  injectionPoint : InjectionPoint
deriving DecidableEq, Inhabited

namespace Desire

def qualifier (desire : Desire) : Option Qualifier :=
  desire.injectionPoint.qualifier

/-- The qualifier of a desire for a parameter. -/
def parameter? (desire : Desire) : Option Qualifier :=
  desire.qualifier.filter Qualifier.parameter

def isParameter (desire : Desire) : Bool :=
  desire.parameter?.isSome

def isTransient (desire : Desire) : Bool :=
  desire.injectionPoint.transient

/-- The qualifier, if there is one, and the short name of the type. -/
def display (desire : Desire) : String :=
  match desire.qualifier with
  | some qualifier => qualifier.display ++ " " ++ desire.desiredType.shortName
  | none => desire.desiredType.shortName

end Desire

/-! ## Nodes -/

/-- A planned component.  Only the root of a plan has no satisfaction. -/
structure Node where
  satisfaction : Option Satisfaction
  cachePolicy : CachePolicy
deriving DecidableEq, Inhabited

namespace Node

/-- A node of which only the satisfaction is known. -/
def ofSatisfaction (satisfaction : Satisfaction) : Node :=
  ⟨some satisfaction, .noPreference⟩

/-- Whether the component may be shared between component trees.  A value that exists always may,
a component that is built anew each time never; otherwise the type decides, or its provider. -/
def isShareable (node : Node) : Bool :=
  match node.satisfaction with
  | none => false
  | some satisfaction =>
    satisfaction.instance?.isSome ||
      (node.cachePolicy != .newInstance &&
        (satisfaction.type.shareable || satisfaction.provider?.any ComponentType.shareable))

/-- The value of a node that holds one. -/
def instance? (node : Node) : Option Instance :=
  node.satisfaction.bind Satisfaction.instance?

end Node
end InjectionPlan
