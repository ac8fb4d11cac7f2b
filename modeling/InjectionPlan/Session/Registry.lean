import InjectionPlan.Plan.Graph
import InjectionPlan.Sink

namespace InjectionPlan

/-!
# Identifiers and targets

While a graph is shown, each of its nodes gets an identifier once: the root is `root`, any other
node `N` with the number of identifiers given before.  Separately it is recorded where edges that
lead to an identifier have to end.  An identifier without a recorded target stands for itself.
-/

/-- Why showing a graph failed. -/
inductive DumpError
  | rootAlreadySet
  | rootNotSet
  | unknownNode (id : NodeId)
  | missingSatisfaction (id : NodeId)
  | emptyTarget (id : NodeId)
  | sink (refusal : Refusal)
deriving DecidableEq

def DumpError.message : DumpError -> String
  | .rootAlreadySet => "root node already specified"
  | .rootNotSet => "root node has not been set"
  | .unknownNode id => "node " ++ id.display ++ " is not part of the composition graph"
  | .missingSatisfaction id => "node " ++ id.display ++ " has no satisfaction"
  | .emptyTarget id => "rendering node " ++ id.display ++ " returned an empty target"
  | .sink refusal => refusal.message

/-- The identifier of a node. -/
inductive Identifier
  | root
  | numbered (number : Nat)
deriving DecidableEq, Inhabited

/-- The text of an identifier. -/
def Identifier.text : Identifier -> String
  | root => "root"
  | numbered number => "N" ++ toString number

/-- The identifiers given to nodes and the targets recorded for identifiers. -/
structure Registry where
  identifiers : Table NodeId Identifier
  targets : Table String String
deriving DecidableEq

namespace Registry

def empty : Registry := ⟨.empty, .empty⟩

instance : Inhabited Registry := ⟨empty⟩

/-- The number of identifiers given. -/
def assigned (registry : Registry) : Nat :=
  registry.identifiers.size

/-- Gives the root its identifier, provided that no target has been recorded. -/
def reserveRoot (registry : Registry) (root : NodeId) : Except DumpError Registry :=
  if registry.targets.size = 0 then
    .ok
      { identifiers := registry.identifiers.set root .root
        targets := registry.targets.set Identifier.root.text Identifier.root.text }
  else .error .rootAlreadySet

/-- Whether a target is recorded for the identifier of the root. -/
def hasRoot (registry : Registry) : Bool :=
  registry.targets.contains Identifier.root.text

/-- The identifier of a node, if it has one. -/
def identifier? (registry : Registry) (node : NodeId) : Option Identifier :=
  registry.identifiers.get? node

/-- The identifier that a node has, or the one that it would be given. -/
def identifierFor (registry : Registry) (node : NodeId) : Identifier :=
  (registry.identifier? node).getD (.numbered registry.assigned)

/-- Gives a node its identifier, unless it has one. -/
def identify (registry : Registry) (node : NodeId) : Registry :=
  match registry.identifier? node with
  | some _ => registry
  | none =>
    { registry with
      identifiers := registry.identifiers.set node (.numbered registry.assigned) }

/-- Records where edges that lead to an identifier end. -/
def recordTarget (registry : Registry) (id target : String) : Registry :=
  { registry with targets := registry.targets.set id target }

def target? (registry : Registry) (id : String) : Option String :=
  registry.targets.get? id

/-- The recorded target, or the identifier itself. -/
def resolve (registry : Registry) (id : String) : String :=
  (registry.target? id).getD id

end Registry
end InjectionPlan
