import InjectionPlan.Plan.Graph

namespace InjectionPlan

/-!
# The order of a node's dependencies

The dependencies of a component are shown in an order that does not depend on when they were
added.  The kind of injection site comes first, then what tells sites of one kind apart, then the
desired type and the qualifier.  Edges of equal keys keep the order in which they were added.
Names are compared by their code points, which is also the order of their UTF-8 bytes.
-/

/-- The kinds of injection sites in the order in which they are shown. -/
inductive SiteCategory
  | constructor
  | setter
  | field
  | noArgument
  | simple
  | unknown
deriving DecidableEq

namespace SiteCategory

/-- The place of a kind in the order. -/
def rank : SiteCategory -> Nat
  | constructor => 0
  | setter => 1
  | field => 2
  | noArgument => 3
  | simple => 4
  | unknown => 5

def of : Site -> SiteCategory
  | .constructorParameter _ => constructor
  | .setter _ _ => setter
  | .field _ => field
  | .noArgument _ => noArgument
  | .simple => simple
  | .other _ => unknown

end SiteCategory

/-- What decides the place of an edge among the edges of its head.  A part that a kind of site
does not have is empty or zero. -/
structure OrderKey where
  category : SiteCategory
  member : String
  index : UInt64
  kind : String
  desiredType : String
  qualifier : String
deriving DecidableEq

namespace OrderKey

def of (desire : Desire) : OrderKey :=
  let site := desire.injectionPoint.site
  { category := SiteCategory.of site
    member :=
      match site with
      | .setter member _ => member
      | .field member => member
      | .noArgument member => member
      | _ => ""
    index :=
      match site with
      | .constructorParameter index => index
      | .setter _ index => index
      | _ => 0
    kind :=
      match site with
      | .other name => name
      | _ => ""
    desiredType := desire.desiredType.name
    qualifier :=
      match desire.qualifier with
      | some qualifier => qualifier.name
      | none => "" }

/-- Keys are compared part by part; the first part that differs decides. -/
def compare (left right : OrderKey) : Ordering :=
  (Ord.compare left.category.rank right.category.rank).then <|
  (Ord.compare left.member right.member).then <|
  (Ord.compare left.index right.index).then <|
  (Ord.compare left.kind right.kind).then <|
  (Ord.compare left.desiredType right.desiredType).then <|
  Ord.compare left.qualifier right.qualifier

instance : Ord OrderKey := ⟨compare⟩

end OrderKey

/-- Puts an edge before the first edge whose key is not smaller. -/
def insertEdge (edge : Edge) : List Edge -> List Edge
  | [] => [edge]
  | first :: rest =>
    if ((OrderKey.of edge.desire).compare (OrderKey.of first.desire)).isLE then
      edge :: first :: rest
    else first :: insertEdge edge rest

/-- The edges in the order of their keys, edges of equal keys in the order given. -/
def sortEdges : List Edge -> List Edge
  | [] => []
  | edge :: rest => insertEdge edge (sortEdges rest)

/-- The edges that leave a node, in the order in which they are shown. -/
def Graph.dependencies (graph : Graph) (id : NodeId) : List Edge :=
  sortEdges (graph.outgoingEdges id)

end InjectionPlan
