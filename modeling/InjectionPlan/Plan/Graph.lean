import InjectionPlan.Plan.Basic

namespace InjectionPlan

/-!
# Composition graphs

Nodes are numbered in the order in which they are added, and edges too.  Beside the edges the
graph keeps, for each node, the numbers of the edges that leave it, so that the dependencies of a
node are found without a search.  `addNode` and `addEdge` are the only ways to build a graph; an
edge is refused if one of its ends is not in the graph, the tail being looked at first.
-/

/-- The number of a node in its graph. -/
abbrev NodeId := Nat

/-- How a node is named in messages. -/
def NodeId.display (id : NodeId) : String :=
  "#" ++ toString id

/-- An edge from a dependent component, its head, to a dependency, its tail. -/
structure Edge where
  head : NodeId
  tail : NodeId
  desire : Desire
deriving DecidableEq, Inhabited

/-- A composition graph. -/
structure Graph where
  nodes : Array Node
  edges : Array Edge
  /-- For each node the numbers of the edges that leave it. -/
  outgoing : Array (Array Nat)

/-- Why an edge is refused. -/
inductive GraphError
  | unknownNode (id : NodeId)
deriving DecidableEq

def GraphError.message : GraphError -> String
  | .unknownNode id => "node " ++ id.display ++ " is not part of the composition graph"

namespace Graph

def empty : Graph := ⟨#[], #[], #[]⟩

instance : Inhabited Graph := ⟨empty⟩

/-- The number of nodes. -/
def size (graph : Graph) : Nat :=
  graph.nodes.size

def edgeCount (graph : Graph) : Nat :=
  graph.edges.size

def contains (graph : Graph) (id : NodeId) : Bool :=
  decide (id < graph.size)

def node? (graph : Graph) (id : NodeId) : Option Node :=
  graph.nodes[id]?

/-- Adds a node; its number is the number of nodes before it. -/
def addNode (graph : Graph) (node : Node) : NodeId × Graph :=
  (graph.size,
    { graph with nodes := graph.nodes.push node, outgoing := graph.outgoing.push #[] })

/-- Adds an edge between two nodes of the graph. -/
def addEdge (graph : Graph) (edge : Edge) : Except GraphError Graph :=
  if graph.contains edge.tail then
    match graph.outgoing[edge.head]? with
    | some numbers =>
      .ok { graph with
        edges := graph.edges.push edge
        outgoing := graph.outgoing.setIfInBounds edge.head (numbers.push graph.edgeCount) }
    | none => .error (.unknownNode edge.head)
  else .error (.unknownNode edge.tail)

/-- The edges that leave a node, in the order in which they were added. -/
def outgoingEdges (graph : Graph) (id : NodeId) : List Edge :=
  match graph.outgoing[id]? with
  | some numbers => numbers.toList.filterMap fun number => graph.edges[number]?
  | none => []

end Graph
end InjectionPlan
