import InjectionPlan.Plan.Document
import InjectionPlan.Proofs.Building

namespace InjectionPlan

/-!
# Loading documents

The graph of a document has been built by adding its nodes and then its edges.  The nodes are added
before any edge is looked at, so the keys stand for the same nodes whatever the edges are.  An edge
whose ends are declared is always accepted: the edges of the graph are those of the document, with
nodes in the places of keys (`Document.load_eq_ok_iff`).
-/

namespace Graph

theorem Built.addEdge_ok {graph : Graph} (built : graph.Built) {edge : Edge}
    (head : graph.contains edge.head = true) (tail : graph.contains edge.tail = true) :
    exists next, graph.addEdge edge = .ok next ∧ next.nodes = graph.nodes ∧
      next.edges = graph.edges.push edge := by
  have kept : edge.head < graph.outgoing.size :=
    built.consistent.sized ▸ of_decide_eq_true head
  unfold Graph.addEdge
  rw [if_pos tail, Array.getElem?_eq_getElem kept]
  exact ⟨_, rfl, rfl, rfl⟩

end Graph

namespace Document

/-- A graph of declared nodes without edges, and the keys of its nodes. -/
structure Declared (graph : Graph) (keys : Table String NodeId) : Prop where
  built : graph.Built
  edges : graph.edges = #[]
  inside : forall key node, keys.get? key = some node -> graph.contains node = true

theorem declared_empty : Declared .empty .empty where
  built := .empty
  edges := rfl
  inside _ _ found := by cases found

theorem Declared.addNode {graph : Graph} {keys : Table String NodeId}
    (declared : Declared graph keys) (key : String) (node : Node) :
    Declared (graph.addNode node).2 (keys.set key (graph.addNode node).1) where
  built := declared.built.addNode node
  edges := declared.edges
  inside other found standsFor := by
    have larger : (graph.addNode node).2.size = graph.size + 1 := Array.size_push _
    rw [Table.get?_set] at standsFor
    apply decide_eq_true
    rw [larger]
    split at standsFor
    · cases standsFor
      exact Nat.lt_succ_self _
    · exact Nat.lt_succ_of_lt (of_decide_eq_true (declared.inside other found standsFor))

theorem Declared.addNodes {entries : List DocumentNode} {graph next : Graph}
    {keys nextKeys : Table String NodeId} (declared : Declared graph keys)
    (added : Document.addNodes entries graph keys = .ok (next, nextKeys)) :
    Declared next nextKeys := by
  induction entries generalizing graph keys with
  | nil =>
      cases added
      exact declared
  | cons entry rest ih =>
      unfold Document.addNodes at added
      split at added
      · cases added
      · exact ih (declared.addNode entry.key _) added

/-- An edge between the nodes that keys stand for. -/
def resolve (keys : Table String NodeId) (edge : DocumentEdge) : Option Edge :=
  (keys.get? edge.head).bind fun head =>
    (keys.get? edge.tail).map fun tail => ⟨head, tail, edge.desire⟩

theorem addEdges_cons_of_resolve {keys : Table String NodeId} {edge : DocumentEdge}
    {resolved : Edge} {graph next : Graph} (stands : resolve keys edge = some resolved)
    (added : graph.addEdge resolved = .ok next) (rest : List DocumentEdge) :
    addEdges keys (edge :: rest) graph = addEdges keys rest next := by
  unfold resolve at stands
  rcases Option.bind_eq_some_iff.mp stands with ⟨head, isHead, stands⟩
  rcases Option.map_eq_some_iff.mp stands with ⟨tail, isTail, rfl⟩
  simp only [addEdges, isHead, isTail, added]

theorem contains_of_resolve {keys : Table String NodeId} {graph : Graph}
    (inside : forall key node, keys.get? key = some node -> graph.contains node = true)
    {edge : DocumentEdge} {resolved : Edge} (stands : resolve keys edge = some resolved) :
    graph.contains resolved.head = true ∧ graph.contains resolved.tail = true := by
  unfold resolve at stands
  rcases Option.bind_eq_some_iff.mp stands with ⟨head, isHead, stands⟩
  rcases Option.map_eq_some_iff.mp stands with ⟨tail, isTail, rfl⟩
  exact ⟨inside _ _ isHead, inside _ _ isTail⟩

/-- Edges whose ends are declared are added in the order of the document. -/
theorem addEdges_ok {keys : Table String NodeId} {edges : List DocumentEdge} {graph : Graph}
    (built : graph.Built)
    (inside : forall key node, keys.get? key = some node -> graph.contains node = true)
    (declared : forall edge, edge ∈ edges -> (resolve keys edge).isSome) :
    exists next, addEdges keys edges graph = .ok next ∧ next.Built ∧ next.nodes = graph.nodes ∧
      next.edges.toList = graph.edges.toList ++ edges.filterMap (resolve keys) := by
  induction edges generalizing graph with
  | nil => exact ⟨graph, rfl, built, rfl, (List.append_nil _).symm⟩
  | cons edge rest ih =>
      rcases List.forall_mem_cons.mp declared with ⟨own, later⟩
      rcases Option.isSome_iff_exists.mp own with ⟨resolved, stands⟩
      rcases contains_of_resolve inside stands with ⟨head, tail⟩
      rcases built.addEdge_ok head tail with ⟨middle, added, nodes, edges⟩
      have insideStill : forall key node, keys.get? key = some node ->
          middle.contains node = true := by
        intro key node found
        have before := inside key node found
        rwa [Graph.contains, Graph.size, ← nodes] at before
      rcases ih (built.addEdge added) insideStill later with
        ⟨next, addedAll, builtNext, nodesNext, edgesNext⟩
      refine ⟨next, ?_, builtNext, nodesNext.trans nodes, ?_⟩
      · rw [addEdges_cons_of_resolve stands added]
        exact addedAll
      · rw [edgesNext, edges, Array.toList_push, List.filterMap_cons_some stands,
          List.append_assoc, List.singleton_append]

/-- An edge with an end that is not declared is not added. -/
theorem resolve_isSome_of_addEdges {keys : Table String NodeId} {edges : List DocumentEdge}
    {graph next : Graph} (added : addEdges keys edges graph = .ok next) :
    forall edge, edge ∈ edges -> (resolve keys edge).isSome := by
  induction edges generalizing graph with
  | nil => exact fun _ impossible => nomatch impossible
  | cons edge rest ih =>
      unfold addEdges at added
      split at added
      · cases added
      · next head isHead =>
        split at added
        · cases added
        · next tail isTail =>
          split at added
          · cases added
          · refine List.forall_mem_cons.mpr ⟨?_, ih added⟩
            rw [resolve, isHead, isTail]
            rfl

/-- A document can be loaded if no key is declared twice and all keys that are referred to are
declared, apart from those of unshared nodes. -/
theorem load_eq_ok_iff (document : Document) (plan : Plan) :
    document.load = .ok plan <->
      exists graph, addNodes document.nodes .empty .empty = .ok (graph, plan.keys) ∧
        plan.keys.get? document.root = some plan.root ∧
        (forall edge, edge ∈ document.edges -> (resolve plan.keys edge).isSome) ∧
        addEdges plan.keys document.edges graph = .ok plan.graph ∧
        plan.unshared = document.unshared.filterMap plan.keys.get? := by
  unfold load
  constructor
  · intro loaded
    split at loaded
    · cases loaded
    · next graph keys declared =>
      split at loaded
      · cases loaded
      · next root isRoot =>
        split at loaded
        · cases loaded
        · next built added =>
          cases loaded
          exact ⟨graph, declared, isRoot, resolve_isSome_of_addEdges added, added, rfl⟩
  · rintro ⟨graph, declared, isRoot, _, added, unshared⟩
    rw [declared]
    dsimp only
    rw [isRoot]
    dsimp only
    rw [added]
    dsimp only
    rw [← unshared]

/-- The graph of a document: declared nodes, and its edges with nodes in the places of keys. -/
theorem load_graph {document : Document} {plan : Plan} (loaded : document.load = .ok plan) :
    plan.graph.Built ∧ plan.graph.edges.toList = document.edges.filterMap (resolve plan.keys) := by
  rcases (document.load_eq_ok_iff plan).mp loaded with ⟨graph, declares, _, resolves, added, _⟩
  have declared := declared_empty.addNodes declares
  rcases addEdges_ok declared.built declared.inside resolves with
    ⟨next, addedToo, built, _, edges⟩
  cases added.symm.trans addedToo
  rw [declared.edges] at edges
  exact ⟨built, edges⟩

/-- Whatever the order of its edges, a document can be loaded, with the same nodes under the same
keys. -/
theorem load_reordered {document : Document} {plan : Plan} (loaded : document.load = .ok plan)
    {others : List DocumentEdge} (perm : document.edges.Perm others) :
    exists other, { document with edges := others }.load = .ok other ∧
      other.graph.nodes = plan.graph.nodes ∧ other.root = plan.root ∧
      other.unshared = plan.unshared ∧ other.keys = plan.keys := by
  rcases (document.load_eq_ok_iff plan).mp loaded with
    ⟨graph, declares, isRoot, resolves, added, unshared⟩
  have declared := declared_empty.addNodes declares
  have resolvesToo : forall edge, edge ∈ others -> (resolve plan.keys edge).isSome :=
    fun edge member => resolves edge (perm.mem_iff.mpr member)
  rcases addEdges_ok declared.built declared.inside resolves with ⟨next, addedNext, _, nodes, _⟩
  rcases addEdges_ok declared.built declared.inside resolvesToo with
    ⟨other, addedOther, _, nodesOther, _⟩
  cases added.symm.trans addedNext
  refine ⟨{ plan with graph := other }, ?_, nodesOther.trans nodes.symm, rfl, rfl, rfl⟩
  exact (load_eq_ok_iff _ _).mpr ⟨graph, declares, isRoot, resolvesToo, addedOther, unshared⟩

end Document
end InjectionPlan
