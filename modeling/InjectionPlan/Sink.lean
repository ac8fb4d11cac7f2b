import InjectionPlan.Diagram.Basic

namespace InjectionPlan

/-!
# Sinks

A sink takes the nodes and edges of a diagram.  It may refuse any of them, for reasons of its own
that may depend on everything it has seen, and a refused descriptor may still change it: a writer
may have written half a line.  So taking gives a new state of the sink in both cases.
-/

/-- Why a sink refused a descriptor. -/
structure Refusal where
  message : String
deriving DecidableEq, Inhabited

/-- A consumer of descriptors with a state. -/
structure Sink (State : Type u) where
  takeNode : Diagram.Node -> State -> Except Refusal Unit × State
  takeEdge : Diagram.Edge -> State -> Except Refusal Unit × State

/-- The nodes and edges taken, each in the order of their arrival. -/
structure Collected where
  nodes : Array Diagram.Node
  edges : Array Diagram.Edge

namespace Collected

def empty : Collected := ⟨#[], #[]⟩

/-- The first node with an identifier. -/
def node? (collected : Collected) (id : String) : Option Diagram.Node :=
  collected.nodes.find? fun node => node.id = id

/-- The edges that leave a node or one of its ports. -/
def edgesFrom (collected : Collected) (id : String) : List Diagram.Edge :=
  collected.edges.toList.filter fun edge =>
    edge.source = id ||
      (match Diagram.splitPort edge.source.toList with
        | (node, some _) => String.ofList node = id
        | (_, none) => false)

end Collected

namespace Sink

/-- Keeps what it takes, up to a number of nodes and a number of edges. -/
def limited (nodeLimit edgeLimit : Option Nat) : Sink Collected where
  takeNode node collected :=
    if nodeLimit.any (· ≤ collected.nodes.size) then
      (.error ⟨"node quota exhausted"⟩, collected)
    else (.ok (), { collected with nodes := collected.nodes.push node })
  takeEdge edge collected :=
    if edgeLimit.any (· ≤ collected.edges.size) then
      (.error ⟨"edge quota exhausted"⟩, collected)
    else (.ok (), { collected with edges := collected.edges.push edge })

/-- Keeps all that it takes. -/
def collecting : Sink Collected :=
  limited none none

end Sink
end InjectionPlan
