import InjectionPlan.Proofs.Building
import Mathlib.Algebra.BigOperators.Group.Finset.Piecewise

namespace InjectionPlan
namespace Graph

/-!
# Graphs that have been asked for anything

A graph may also be asked for edges that it refuses.  Which additions it heeds can be told without
the graph, by counting the nodes that have been added before (`Addition.heeded`).  After any
additions the graph holds the nodes and edges of those that were heeded, in this order, and a
refused one leaves no trace (`addAll_indexed`).

The edges of a node are found through the numbers that the graph keeps for it.  What is kept is
given by the edges alone (`leavingNumbers`), and all that is said of these numbers follows from
that: they rise, they are those of the edges that leave the node, and no number is kept twice.
-/

/-- Something that a graph is asked to add. -/
inductive Addition
  | node (node : Node)
  | edge (edge : Edge)

namespace Addition

def node? : Addition -> Option Node
  | .node added => some added
  | .edge _ => none

def edge? : Addition -> Option Edge
  | .node _ => none
  | .edge added => some added

/-- The additions that are heeded when a number of nodes is there before. -/
def heeded : (size : Nat) -> List Addition -> List Addition
  | _, [] => []
  | size, .node added :: rest => .node added :: heeded (size + 1) rest
  | size, .edge added :: rest =>
    if added.head < size ∧ added.tail < size then .edge added :: heeded size rest
    else heeded size rest

end Addition

/-- What comes of an addition: the number of the node, or nothing for an edge, or a refusal, and the
graph that goes on. -/
def add (graph : Graph) : Addition -> Except GraphError (Option NodeId) × Graph
  | .node node => (.ok (some (graph.addNode node).1), (graph.addNode node).2)
  | .edge edge =>
    match graph.addEdge edge with
    | .ok next => (.ok none, next)
    | .error error => (.error error, graph)

/-- The graph after several additions. -/
def addAll : (graph : Graph) -> List Addition -> Graph
  | graph, [] => graph
  | graph, addition :: rest => (graph.add addition).2.addAll rest

theorem addAll_append (graph : Graph) (first second : List Addition) :
    graph.addAll (first ++ second) = (graph.addAll first).addAll second := by
  induction first generalizing graph with
  | nil => rfl
  | cons addition rest ih => exact ih (graph.add addition).2

/-! ## One edge -/

/-- The graph with an edge behind the others, which is also kept for its head. -/
def withEdge (graph : Graph) (edge : Edge) : Graph :=
  { graph with
    edges := graph.edges.push edge
    outgoing := graph.outgoing.modify edge.head fun numbers => numbers.push graph.edgeCount }

/-- An edge is added if both its ends are there.  Of two ends that are not, the tail is named. -/
theorem addEdge_eq {graph : Graph} (sized : graph.outgoing.size = graph.size) (edge : Edge) :
    graph.addEdge edge =
      if edge.tail < graph.size then
        if edge.head < graph.size then .ok (graph.withEdge edge)
        else .error (.unknownNode edge.head)
      else .error (.unknownNode edge.tail) := by
  unfold addEdge contains
  by_cases tail : edge.tail < graph.size
  · rw [if_pos (decide_eq_true tail), if_pos tail]
    by_cases head : edge.head < graph.size
    · have inside : edge.head < graph.outgoing.size := sized ▸ head
      have kept : graph.outgoing.setIfInBounds edge.head
            (graph.outgoing[edge.head].push graph.edgeCount) =
          graph.outgoing.modify edge.head fun numbers => numbers.push graph.edgeCount := by
        apply Array.ext_getElem?
        intro node
        rw [Array.getElem?_setIfInBounds, Array.getElem?_modify]
        by_cases same : edge.head = node
        · subst same
          rw [if_pos rfl, if_pos rfl, if_pos inside, Array.getElem?_eq_getElem inside,
            Option.map_some]
        · rw [if_neg same, if_neg same]
      rw [if_pos head, Array.getElem?_eq_getElem inside, withEdge, ← kept]
    · have outside : graph.outgoing.size ≤ edge.head := sized ▸ Nat.le_of_not_lt head
      rw [if_neg head, Array.getElem?_eq_none outside]
  · rw [if_neg (by simpa using tail), if_neg tail]

/-- When an edge is refused, and with which error. -/
theorem addEdge_eq_error_iff {graph : Graph} (sized : graph.outgoing.size = graph.size)
    (edge : Edge) (error : GraphError) :
    graph.addEdge edge = .error error <->
      ¬ edge.tail < graph.size ∧ error = .unknownNode edge.tail ∨
        edge.tail < graph.size ∧ ¬ edge.head < graph.size ∧
          error = .unknownNode edge.head := by
  rw [addEdge_eq sized]
  by_cases tail : edge.tail < graph.size
  · by_cases head : edge.head < graph.size
    · simp [tail, head]
    · simp [tail, head, eq_comm]
  · simp [tail, eq_comm]

/-! ## The numbers kept for a node -/

/-- The numbers of the edges that leave a node. -/
def leavingNumbers (graph : Graph) (node : NodeId) : List Nat :=
  (List.range graph.edgeCount).filter fun number =>
    (graph.edges[number]?).any fun edge => edge.head = node

theorem mem_leavingNumbers (graph : Graph) (node : NodeId) (number : Nat) :
    number ∈ graph.leavingNumbers node <->
      exists edge, graph.edges[number]? = some edge ∧ edge.head = node := by
  rw [leavingNumbers, List.mem_filter, List.mem_range]
  constructor
  · rintro ⟨_, leaves⟩
    rcases Option.any_eq_true _ _ |>.mp leaves with ⟨edge, found, head⟩
    exact ⟨edge, found, of_decide_eq_true head⟩
  · rintro ⟨edge, found, head⟩
    have inside : number < graph.edgeCount := (Array.getElem?_eq_some_iff.mp found).1
    refine ⟨inside, ?_⟩
    rw [found, Option.any_some]
    exact decide_eq_true head

theorem pairwise_leavingNumbers (graph : Graph) (node : NodeId) :
    (graph.leavingNumbers node).Pairwise (· < ·) :=
  List.pairwise_lt_range.filter _

/-- No edge leaves a node that is not there. -/
theorem Consistent.leavingNumbers_eq_nil {graph : Graph} (consistent : graph.Consistent)
    {node : NodeId} (outside : graph.size ≤ node) : graph.leavingNumbers node = [] := by
  apply List.eq_nil_iff_forall_not_mem.mpr
  intro number member
  rcases (graph.mem_leavingNumbers node number).mp member with ⟨edge, found, head⟩
  have ends := consistent.ends edge (Array.mem_of_getElem? found)
  exact absurd (head ▸ ends.1) (Nat.not_lt.mpr outside)

/-- A further edge has the next number, which is kept for its head. -/
theorem leavingNumbers_withEdge (graph : Graph) (edge : Edge) (node : NodeId) :
    (graph.withEdge edge).leavingNumbers node =
      graph.leavingNumbers node ++ if edge.head = node then [graph.edgeCount] else [] := by
  have larger : (graph.withEdge edge).edgeCount = graph.edgeCount + 1 := Array.size_push _
  have before : (List.range graph.edgeCount).filter (fun number =>
        ((graph.edges.push edge)[number]?).any fun edge => edge.head = node) =
      graph.leavingNumbers node := by
    apply List.filter_congr
    intro number member
    have notLast : number ≠ graph.edges.size := Nat.ne_of_lt (List.mem_range.mp member)
    rw [Array.getElem?_push, if_neg notLast]
  have last : (graph.edges.push edge)[graph.edgeCount]? = some edge := Array.getElem?_push_size
  rw [leavingNumbers, larger, List.range_succ, List.filter_append, withEdge, before,
    List.filter_singleton, last, Option.any_some]
  by_cases same : edge.head = node <;> simp [same]

/-- For each node a graph that has been built keeps the numbers of the edges that leave it. -/
theorem Built.kept {graph : Graph} (built : graph.Built) {node : NodeId} {numbers : Array Nat}
    (kept : graph.outgoing[node]? = some numbers) :
    numbers.toList = graph.leavingNumbers node := by
  induction built generalizing numbers with
  | empty => cases kept
  | @addNode graph built added ih =>
      have consistent := built.consistent
      have same : (graph.addNode added).2.leavingNumbers node = graph.leavingNumbers node := rfl
      have pushed : (graph.addNode added).2.outgoing = graph.outgoing.push #[] := rfl
      rw [pushed, Array.getElem?_push] at kept
      rw [same]
      split at kept
      · next last =>
        cases kept
        rw [consistent.leavingNumbers_eq_nil (last ▸ Nat.le_of_eq consistent.sized.symm)]
      · exact ih kept
  | @addEdge graph next edge built added ih =>
      rw [addEdge_eq built.consistent.sized] at added
      split at added
      · split at added
        · cases added
          rw [leavingNumbers_withEdge]
          simp only [withEdge, Array.getElem?_modify] at kept
          by_cases same : edge.head = node
          · rw [if_pos same] at kept ⊢
            rcases Option.map_eq_some_iff.mp kept with ⟨before, keptBefore, rfl⟩
            rw [Array.toList_push, ih keptBefore]
          · rw [if_neg same] at kept ⊢
            rw [ih kept, List.append_nil]
        · cases added
      · cases added

/-- How the numbers that a graph keeps fit its edges. -/
structure Indexed (graph : Graph) : Prop where
  /-- Numbers are kept for each node. -/
  sized : graph.outgoing.size = graph.size
  ends : forall edge, edge ∈ graph.edges -> edge.head < graph.size ∧ edge.tail < graph.size
  rising : forall (node : NodeId) numbers, graph.outgoing[node]? = some numbers ->
    numbers.toList.Pairwise (· < ·)
  /-- Those of the edges that leave the node are kept, and no others. -/
  leaving : forall (node : NodeId) numbers, graph.outgoing[node]? = some numbers ->
    forall number, number ∈ numbers <->
      exists edge, graph.edges[number]? = some edge ∧ edge.head = node
  /-- Each number of an edge is kept for one node. -/
  once : forall number, number < graph.edgeCount ->
    ∃! node : NodeId, exists numbers, graph.outgoing[node]? = some numbers ∧ number ∈ numbers

theorem Built.indexed {graph : Graph} (built : graph.Built) : graph.Indexed := by
  have consistent := built.consistent
  have leaving {node : NodeId} {numbers : Array Nat}
      (kept : graph.outgoing[node]? = some numbers) (number : Nat) :
      number ∈ numbers <-> exists edge, graph.edges[number]? = some edge ∧ edge.head = node := by
    rw [← Array.mem_toList_iff, built.kept kept, mem_leavingNumbers]
  refine ⟨consistent.sized, consistent.ends, ?_, fun node numbers => leaving, ?_⟩
  · intro node numbers kept
    rw [built.kept kept]
    exact graph.pairwise_leavingNumbers node
  · intro number inside
    have found : graph.edges[number]? = some graph.edges[number] :=
      Array.getElem?_eq_getElem inside
    have head := (consistent.ends _ (Array.mem_of_getElem? found)).1
    have within : graph.edges[number].head < graph.outgoing.size := consistent.sized ▸ head
    have kept : graph.outgoing[graph.edges[number].head]? =
        some graph.outgoing[graph.edges[number].head] :=
      Array.getElem?_eq_getElem within
    refine ⟨graph.edges[number].head, ⟨_, kept, (leaving kept number).mpr ⟨_, found, rfl⟩⟩, ?_⟩
    rintro node ⟨numbers, keptToo, member⟩
    rcases (leaving keptToo number).mp member with ⟨edge, foundToo, rfl⟩
    cases found.symm.trans foundToo
    rfl

/-- Edges whose heads are there, counted head by head. -/
private theorem sum_length_filter_head {size : Nat} {edges : List Edge}
    (inside : forall edge, edge ∈ edges -> edge.head < size) :
    ∑ node ∈ Finset.range size, (edges.filter fun edge => edge.head = node).length =
      edges.length := by
  induction edges with
  | nil => simp
  | cons edge rest ih =>
      have first : edge.head ∈ Finset.range size :=
        Finset.mem_range.mpr (inside edge List.mem_cons_self)
      have split (node : NodeId) :
          ((edge :: rest).filter fun edge => edge.head = node).length =
            (rest.filter fun edge => edge.head = node).length +
              if edge.head = node then 1 else 0 := by
        by_cases same : edge.head = node <;> simp [same]
      have others := ih fun other member => inside other (List.mem_cons_of_mem _ member)
      simp only [split]
      rw [Finset.sum_add_distrib, Finset.sum_ite_eq, if_pos first, others, List.length_cons]

/-- Each edge leaves one node of the graph. -/
theorem Built.sum_outgoingEdges {graph : Graph} (built : graph.Built) :
    ∑ node ∈ Finset.range graph.size, (graph.outgoingEdges node).length = graph.edgeCount := by
  simp only [built.consistent.leaving]
  apply sum_length_filter_head
  intro edge member
  exact (built.consistent.ends edge (Array.mem_toList_iff.mp member)).1

/-! ## Several additions -/

theorem Built.add {graph : Graph} (built : graph.Built) (addition : Addition) :
    (graph.add addition).2.Built := by
  cases addition with
  | node node => exact built.addNode node
  | edge edge =>
      unfold Graph.add
      dsimp only
      split
      · next added => exact built.addEdge added
      · exact built

theorem Built.addAll {graph : Graph} (built : graph.Built) (additions : List Addition) :
    (graph.addAll additions).Built := by
  induction additions generalizing graph with
  | nil => exact built
  | cons addition rest ih => exact ih (built.add addition)

/-- An edge that is not heeded changes nothing. -/
theorem Built.add_edge {graph : Graph} (built : graph.Built) (edge : Edge) :
    (graph.add (.edge edge)).2 =
      if edge.head < graph.size ∧ edge.tail < graph.size then graph.withEdge edge
      else graph := by
  rw [Graph.add, addEdge_eq built.consistent.sized]
  by_cases tail : edge.tail < graph.size <;> by_cases head : edge.head < graph.size <;>
    simp [tail, head]

/-- What additions leave behind is what those leave behind that are heeded. -/
theorem Built.addAll_heeded {graph : Graph} (built : graph.Built) (additions : List Addition) :
    graph.addAll (Addition.heeded graph.size additions) = graph.addAll additions ∧
      (graph.addAll additions).nodes.toList =
        graph.nodes.toList ++ additions.filterMap Addition.node? ∧
      (graph.addAll additions).edges.toList =
        graph.edges.toList ++
          (Addition.heeded graph.size additions).filterMap Addition.edge? := by
  induction additions generalizing graph with
  | nil => simp [Graph.addAll, Addition.heeded]
  | cons addition rest ih =>
      have later := ih (built.add addition)
      cases addition with
      | node node =>
          have larger : (graph.add (.node node)).2.size = graph.size + 1 := Array.size_push _
          rw [larger] at later
          rcases later with ⟨same, nodes, edges⟩
          refine ⟨same, nodes.trans ?_, edges.trans ?_⟩
          · have behind : (graph.addNode node).2.nodes.toList = graph.nodes.toList ++ [node] :=
              Array.toList_push
            rw [Graph.add, behind, List.append_assoc]
            rfl
          · rfl
      | edge edge =>
          have added := built.add_edge edge
          unfold Addition.heeded
          by_cases inside : edge.head < graph.size ∧ edge.tail < graph.size
          · rw [if_pos inside] at added ⊢
            have sameSize : (graph.add (.edge edge)).2.size = graph.size := by
              rw [added]
              rfl
            rw [sameSize] at later
            rcases later with ⟨same, nodes, edges⟩
            refine ⟨same, nodes.trans ?_, edges.trans ?_⟩
            · rw [added]
              rfl
            · have behind : (graph.withEdge edge).edges.toList = graph.edges.toList ++ [edge] :=
                Array.toList_push
              rw [added, behind, List.append_assoc]
              rfl
          · rw [if_neg inside] at added ⊢
            rw [added] at later
            rw [Graph.addAll, added]
            exact later

/-- A node stays where it is. -/
theorem Built.node?_addAll {graph : Graph} (built : graph.Built) (additions : List Addition)
    {id : NodeId} {node : Node} (found : graph.node? id = some node) :
    (graph.addAll additions).node? id = some node := by
  have nodes := (built.addAll_heeded additions).2.1
  unfold node? at found ⊢
  rw [← Array.getElem?_toList] at found ⊢
  have inside : id < graph.nodes.toList.length := (List.getElem?_eq_some_iff.mp found).1
  rw [nodes, List.getElem?_append_left inside, found]

/-- What a graph holds after additions. -/
structure Holds (graph : Graph) (additions : List Addition) : Prop where
  nodes : graph.nodes.toList = additions.filterMap Addition.node?
  edges : graph.edges.toList = (Addition.heeded 0 additions).filterMap Addition.edge?
  /-- The edges that leave a node come in the order in which they were added. -/
  leaving : forall node, graph.outgoingEdges node =
    ((Addition.heeded 0 additions).filterMap Addition.edge?).filter fun edge => edge.head = node
  /-- None leaves from outside. -/
  outside : forall node, graph.size ≤ node -> graph.outgoingEdges node = []
  /-- All of them leave some node. -/
  counted : ∑ node ∈ Finset.range graph.size, (graph.outgoingEdges node).length = graph.edgeCount
  /-- What was refused has left no trace. -/
  untouched : graph = empty.addAll (Addition.heeded 0 additions)
  /-- A node is numbered by those before it, and its number stands for it ever after. -/
  named : forall before node after id, additions = before ++ .node node :: after ->
    ((empty.addAll before).add (.node node)).1 = .ok (some id) ->
      id = (before.filterMap Addition.node?).length ∧ graph.node? id = some node
  lasting : forall before after id node, additions = before ++ after ->
    (empty.addAll before).node? id = some node -> graph.node? id = some node

theorem holds_addAll (additions : List Addition) : (empty.addAll additions).Holds additions := by
  have built : (empty.addAll additions).Built := Built.empty.addAll additions
  rcases Built.empty.addAll_heeded additions with ⟨untouched, nodes, edges⟩
  have leaving (node : NodeId) := built.consistent.leaving node
  refine {
    nodes := nodes
    edges := edges
    leaving := fun node => (leaving node).trans (congrArg (List.filter _) edges)
    outside := ?_
    counted := built.sum_outgoingEdges
    untouched := untouched.symm
    named := ?_
    lasting := ?_ }
  · intro node outside
    rw [leaving, List.filter_eq_nil_iff]
    intro edge member head
    have ends := built.consistent.ends edge (Array.mem_toList_iff.mp member)
    exact absurd (of_decide_eq_true head ▸ ends.1) (Nat.not_lt.mpr outside)
  · rintro before node after id rfl answered
    have builtBefore : (empty.addAll before).Built := Built.empty.addAll before
    have nodesBefore := (Built.empty.addAll_heeded before).2.1
    have number : (empty.addAll before).size = (before.filterMap Addition.node?).length := by
      rw [size, ← Array.length_toList, nodesBefore]
      rfl
    cases answered
    refine ⟨number, ?_⟩
    have there : ((empty.addAll before).add (.node node)).2.node? (empty.addAll before).size =
        some node := Array.getElem?_push_size
    rw [addAll_append]
    exact (builtBefore.add (.node node)).node?_addAll after there
  · rintro before after id node rfl found
    rw [addAll_append]
    exact (Built.empty.addAll before).node?_addAll after found

/-- After any additions, heeded or not, the numbers that the graph keeps for its nodes fit the
edges, and the graph holds what was heeded.  An edge is refused just if one of its ends is not
there, where the tail is looked at first, and then the graph stays as it is. -/
theorem addAll_indexed (additions : List Addition) :
    let graph := empty.addAll additions
    graph.Indexed ∧ graph.Holds additions ∧
      (forall edge error, (graph.add (.edge edge)).1 = .error error <->
        ¬ edge.tail < graph.size ∧ error = .unknownNode edge.tail ∨
          edge.tail < graph.size ∧ ¬ edge.head < graph.size ∧
            error = .unknownNode edge.head) ∧
      forall edge error, (graph.add (.edge edge)).1 = .error error ->
        (graph.add (.edge edge)).2 = graph := by
  intro graph
  have built : graph.Built := Built.empty.addAll additions
  refine ⟨built.indexed, holds_addAll additions, ?_, ?_⟩
  · intro edge error
    rw [← addEdge_eq_error_iff built.consistent.sized, add]
    cases graph.addEdge edge with
    | ok next => simp
    | error other => simp
  · intro edge error refused
    rw [add] at refused ⊢
    cases added : graph.addEdge edge with
    | ok next =>
        rw [added] at refused
        cases refused
    | error other => rfl

/-- Two nodes, with an edge between them that comes too early and is refused. -/
def early : List Addition :=
  let node : Node := .ofSatisfaction (.null ⟨"plan.Part", false, false⟩)
  let edge (head tail : NodeId) : Addition :=
    .edge ⟨head, tail, ⟨"plan.Part", false, false⟩, .simple, none, false⟩
  [.node node, edge 0 1, .node node, edge 1 0, edge 0 1, edge 0 0]

theorem early_indexed :
    let graph := empty.addAll early
    let edge : Edge := ⟨0, 2, ⟨"plan.Part", false, false⟩, .simple, none, false⟩
    graph.outgoing = #[#[1, 2], #[0]] ∧ graph.Indexed ∧ graph.Holds early ∧
      (graph.add (.edge edge)).1 = .error (.unknownNode 2) ∧
      (graph.add (.edge edge)).2 = graph := by
  intro graph edge
  rcases addAll_indexed early with ⟨indexed, holds, refuses, unchanged⟩
  have outside : ¬ edge.tail < graph.size := by decide
  have refused := (refuses edge _).mpr (Or.inl ⟨outside, rfl⟩)
  exact ⟨rfl, indexed, holds, refused, unchanged edge _ refused⟩

end Graph
end InjectionPlan
