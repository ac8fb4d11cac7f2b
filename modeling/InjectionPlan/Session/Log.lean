import InjectionPlan.Session.Registry

namespace InjectionPlan

/-!
# What is logged

Each event of loading a plan and of showing a graph is a constructor; `level`, `message` and
`fields` hold the wording.
-/

/-- Something worth a log entry. -/
inductive LogEvent
  | ignoredUnshared (key : String)
  | loadedPlan (nodes edges : Nat)
  | unsharedNodes (count : Nat)
  | renderingNode (node : NodeId) (id : Identifier)
  | dispatching (id : Identifier) (satisfaction : Satisfaction)
  | parameter (qualifier : Qualifier)
  | parameterNotBound (qualifier : Qualifier)
  | dependency (desire : Desire)
  | finished (nodes edges : Nat)
  | defaultSettings
  | renderedPlan (path : String) (nodes edges unboundParameters : Nat)
deriving DecidableEq

namespace LogEvent

/-- The level of an event: only a parameter without a value is a warning. -/
def level : LogEvent -> String
  | parameterNotBound _ => "WARN"
  | renderedPlan _ _ _ _ => "INFO"
  | _ => "DEBUG"

def message : LogEvent -> String
  | ignoredUnshared _ => "ignoring unknown unshared node"
  | loadedPlan _ _ => "loaded plan"
  | unsharedNodes count => toString count ++ " unshared nodes"
  | renderingNode _ _ => "rendering node"
  | dispatching _ _ => "dispatching satisfaction"
  | parameter _ => "dumping parameter"
  | parameterNotBound _ => "parameter not bound"
  | dependency _ => "dumping dependency"
  | finished _ _ => "finished graph dump"
  | defaultSettings => "Using default render configuration"
  | renderedPlan path _ _ _ => "Rendered plan " ++ path

/-- The fields of an event with their values as text. -/
def fields : LogEvent -> List (String × String)
  | ignoredUnshared key => [("key", key)]
  | loadedPlan nodes edges => [("nodes", toString nodes), ("edges", toString edges)]
  | unsharedNodes _ => []
  | renderingNode node id => [("node", node.display), ("id", id.text)]
  | dispatching id satisfaction => [("id", id.text), ("kind", satisfaction.kindName)]
  | parameter qualifier => [("qualifier", qualifier.display)]
  | parameterNotBound qualifier => [("qualifier", qualifier.display)]
  | dependency desire => [("desire", desire.display)]
  | finished nodes edges => [("nodes", toString nodes), ("edges", toString edges)]
  | defaultSettings => []
  | renderedPlan _ nodes edges unboundParameters =>
    [("nodes", toString nodes), ("edges", toString edges),
      ("unbound_parameters", toString unboundParameters)]

/-- An event as a line of text. -/
def line (event : LogEvent) : String :=
  " ".intercalate ([event.level, event.message] ++
    event.fields.map fun (name, value) => name ++ "=" ++ value)

/-- Whether an event is told to the user, who always hears of warnings. -/
def isTold (verbose : Bool) (event : LogEvent) : Bool :=
  verbose || event.level = "WARN"

end LogEvent
end InjectionPlan
