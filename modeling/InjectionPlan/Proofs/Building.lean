import InjectionPlan.Plan.Graph
import Mathlib.Data.List.Basic

namespace InjectionPlan
namespace Graph

/-!
# Graphs that have been built

A graph that has been built by adding nodes and edges is consistent: both ends of each edge are in
the graph, and the numbers kept for a node are those of the edges that leave it, in the order in
which these were added.
-/

/-- The graphs that adding nodes and edges leads to. -/
inductive Built : Graph -> Prop
  | empty : Built .empty
  | addNode {graph : Graph} (built : Built graph) (node : Node) : Built (graph.addNode node).2
  | addEdge {graph next : Graph} {edge : Edge} (built : Built graph)
    (added : graph.addEdge edge = .ok next) : Built next

/-- The numbers that a graph keeps fit its edges. -/
structure Consistent (graph : Graph) : Prop where
  sized : graph.outgoing.size = graph.size
  ends : forall edge, edge ∈ graph.edges -> edge.head < graph.size ∧ edge.tail < graph.size
  numbered : forall (node : NodeId) (numbers : Array Nat), graph.outgoing[node]? = some numbers ->
    forall number, number ∈ numbers -> number < graph.edgeCount
  leaving : forall node,
    graph.outgoingEdges node = graph.edges.toList.filter fun edge => edge.head = node

theorem consistent_empty : Consistent .empty where
  sized := rfl
  ends edge member := by cases Array.not_mem_empty edge member
  numbered node numbers kept := by cases kept
  leaving node := rfl

theorem Consistent.addNode {graph : Graph} (consistent : graph.Consistent) (node : Node) :
    (graph.addNode node).2.Consistent where
  sized := by
    have sized := consistent.sized
    simp only [Graph.addNode, size, Array.size_push] at sized ⊢
    rw [sized]
  ends edge member := by
    rcases consistent.ends edge member with ⟨head, tail⟩
    have larger : (graph.addNode node).2.size = graph.size + 1 := Array.size_push _
    rw [larger]
    exact ⟨Nat.lt_succ_of_lt head, Nat.lt_succ_of_lt tail⟩
  numbered other numbers kept number member := by
    simp only [Graph.addNode, Array.getElem?_push] at kept
    split at kept
    · cases kept
      cases Array.not_mem_empty number member
    · exact consistent.numbered other numbers kept number member
  leaving other := by
    have before := consistent.leaving other
    simp only [outgoingEdges, Graph.addNode, Array.getElem?_push] at before ⊢
    by_cases last : other = graph.outgoing.size
    · rw [Array.getElem?_eq_none (Nat.le_of_eq last.symm)] at before
      rw [if_pos last]
      exact before
    · rw [if_neg last]
      exact before

/-- An edge that is added changes what is kept for its head only. -/
private theorem getElem?_outgoing_of_added {graph : Graph} {edge : Edge} {numbers : Array Nat}
    (kept : graph.outgoing[edge.head]? = some numbers) (node : NodeId) :
    (graph.outgoing.setIfInBounds edge.head (numbers.push graph.edgeCount))[node]? =
      if edge.head = node then some (numbers.push graph.edgeCount) else graph.outgoing[node]? := by
  have inside : edge.head < graph.outgoing.size := (Array.getElem?_eq_some_iff.mp kept).1
  rw [Array.getElem?_setIfInBounds]
  by_cases same : edge.head = node
  · rw [if_pos same, if_pos same, if_pos inside]
  · rw [if_neg same, if_neg same]

/-- The edges with known numbers are found in the same way after another was added. -/
private theorem filterMap_push {graph : Graph} (edge : Edge) {numbers : List Nat}
    (known : forall number, number ∈ numbers -> number < graph.edgeCount) :
    numbers.filterMap (fun number => (graph.edges.push edge)[number]?) =
      numbers.filterMap fun number => graph.edges[number]? := by
  apply List.filterMap_congr
  intro number member
  have notLast : number ≠ graph.edges.size := Nat.ne_of_lt (known number member)
  rw [Array.getElem?_push, if_neg notLast]

theorem Consistent.addEdge {graph next : Graph} (consistent : graph.Consistent) {edge : Edge}
    (added : graph.addEdge edge = .ok next) : next.Consistent := by
  unfold Graph.addEdge at added
  split at added
  · next tailInside =>
    split at added
    · next numbers kept =>
      cases added
      have inside : edge.head < graph.outgoing.size := (Array.getElem?_eq_some_iff.mp kept).1
      have keptNow := getElem?_outgoing_of_added kept
      refine ⟨?_, ?_, ?_, ?_⟩
      · exact (Array.size_setIfInBounds ..).trans consistent.sized
      · intro other member
        rcases Array.mem_push.mp member with old | new
        · exact consistent.ends other old
        · rw [new]
          exact ⟨consistent.sized ▸ inside, of_decide_eq_true tailInside⟩
      · intro node others found number member
        have larger : (graph.edges.push edge).size = graph.edgeCount + 1 := Array.size_push _
        change number < (graph.edges.push edge).size
        rw [larger]
        rw [keptNow] at found
        split at found
        · cases found
          rcases Array.mem_push.mp member with old | new
          · exact Nat.lt_succ_of_lt (consistent.numbered edge.head numbers kept number old)
          · rw [new]
            exact Nat.lt_succ_self _
        · exact Nat.lt_succ_of_lt (consistent.numbered node others found number member)
      · intro node
        have before := consistent.leaving node
        unfold outgoingEdges at before ⊢
        dsimp only
        rw [keptNow, Array.toList_push, List.filter_append, ← before]
        by_cases same : edge.head = node
        · subst same
          have old := filterMap_push edge fun number member =>
            consistent.numbered edge.head numbers kept number (Array.mem_toList_iff.mp member)
          rw [if_pos rfl, kept]
          dsimp only
          rw [Array.toList_push, List.filterMap_append, old]
          simp [edgeCount]
        · rw [if_neg same, List.filter_singleton, decide_eq_false same]
          cases found : graph.outgoing[node]? with
          | none => rfl
          | some others =>
              have old := filterMap_push edge fun number member =>
                consistent.numbered node others found number (Array.mem_toList_iff.mp member)
              dsimp only
              rw [old]
              exact (List.append_nil _).symm
    · cases added
  · cases added

theorem Built.consistent {graph : Graph} (built : graph.Built) : graph.Consistent := by
  induction built with
  | empty => exact consistent_empty
  | addNode _ node ih => exact ih.addNode node
  | addEdge _ added ih => exact ih.addEdge added

end Graph
end InjectionPlan
