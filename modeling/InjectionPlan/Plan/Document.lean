import InjectionPlan.Json.Fault
import InjectionPlan.Plan.Graph
import InjectionPlan.Session.Log
import InjectionPlan.Table

namespace InjectionPlan

/-!
# Plan documents

A document declares nodes under keys and refers to them by their keys.  Loading it numbers the
nodes in the order of their declaration, so that the key declared at some place belongs to the
node with that number.  A key must be declared once, the root and both ends of every edge must be
declared; keys of nodes that are not shared may be unknown and are then ignored.
-/

/-- The declaration of a node. -/
structure DocumentNode where
  key : String
  /-- Left out for the root. -/
  satisfaction : Option Satisfaction
  cachePolicy : CachePolicy
deriving DecidableEq

/-- An edge between declared nodes. -/
structure DocumentEdge where
  head : String
  tail : String
  desire : Desire
deriving DecidableEq

/-- A composition plan as it is written down. -/
structure Document where
  root : String
  nodes : List DocumentNode
  edges : List DocumentEdge
  /-- The keys of nodes that are not shared. -/
  unshared : List String
deriving DecidableEq

/-- Why a plan cannot be loaded. -/
inductive PlanError
  | json (fault : Json.Fault)
  | duplicateKey (key : String)
  | unknownNode (key : String)
  | missingRoot (key : String)
  | graph (cause : GraphError)
deriving DecidableEq

def PlanError.message : PlanError -> String
  | .json fault => "Failed to parse plan: " ++ fault.message
  | .duplicateKey key => "duplicate node key '" ++ key ++ "'"
  | .unknownNode key => "edge refers to unknown node '" ++ key ++ "'"
  | .missingRoot key => "root node '" ++ key ++ "' is not declared"
  | .graph cause => "invalid graph: " ++ cause.message

/-- A document turned into a graph. -/
structure Plan where
  graph : Graph
  root : NodeId
  /-- The nodes that are not shared, as the document lists them. -/
  unshared : List NodeId
  /-- The declared keys with their nodes. -/
  keys : Table String NodeId

namespace Plan

/-- The node declared under a key. -/
def node? (plan : Plan) (key : String) : Option NodeId :=
  plan.keys.get? key

/-- The key under which a node is declared. -/
def key? (plan : Plan) (node : NodeId) : Option String :=
  plan.keys.keys[node]?

end Plan

namespace Document

/-- Adds declared nodes to a graph and their keys to a table. -/
def addNodes : List DocumentNode -> Graph -> Table String NodeId ->
    Except PlanError (Graph × Table String NodeId)
  | [], graph, keys => .ok (graph, keys)
  | entry :: rest, graph, keys =>
    if keys.contains entry.key then .error (.duplicateKey entry.key)
    else
      let (id, graph) := graph.addNode ⟨entry.satisfaction, entry.cachePolicy⟩
      addNodes rest graph (keys.set entry.key id)

/-- Adds edges between declared nodes to a graph; the head of an edge is looked up first. -/
def addEdges (keys : Table String NodeId) : List DocumentEdge -> Graph -> Except PlanError Graph
  | [], graph => .ok graph
  | edge :: rest, graph =>
    match keys.get? edge.head with
    | none => .error (.unknownNode edge.head)
    | some head =>
      match keys.get? edge.tail with
      | none => .error (.unknownNode edge.tail)
      | some tail =>
        match graph.addEdge ⟨head, tail, edge.desire⟩ with
        | .error cause => .error (.graph cause)
        | .ok graph => addEdges keys rest graph

/-- Turns a document into a graph. -/
def load (document : Document) : Except PlanError Plan :=
  match addNodes document.nodes .empty .empty with
  | .error error => .error error
  | .ok (graph, keys) =>
    match keys.get? document.root with
    | none => .error (.missingRoot document.root)
    | some root =>
      match addEdges keys document.edges graph with
      | .error error => .error error
      | .ok graph => .ok ⟨graph, root, document.unshared.filterMap keys.get?, keys⟩

/-- What is logged when a document has been loaded. -/
def loadLog (document : Document) (plan : Plan) : List LogEvent :=
  (document.unshared.filter fun key => !plan.keys.contains key).map .ignoredUnshared ++
    [.loadedPlan plan.graph.size plan.graph.edgeCount]

end Document
end InjectionPlan
