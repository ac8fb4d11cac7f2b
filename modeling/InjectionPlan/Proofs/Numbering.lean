import InjectionPlan.Proofs.Loading
import Mathlib.Data.List.Forall2

namespace InjectionPlan

/-!
# Loaded plans depict their documents

Nodes are added in the order of their declaration, and the key of a node is set when the node is
added.  So at any time the keys are numbered as they have been declared, and the node of a number is
the one declared at that place (`Document.Numbered`).  What a loaded plan says is all that its
document says, with numbers in the places of keys (`Document.load_depicts`).
-/

namespace Table

variable [DecidableEq Key]

theorem assign_of_not_mem {key : Key} {entries : List (Key × Value)}
    (absent : key ∉ entries.map Prod.fst) (value : Value) :
    assign key value entries = entries ++ [(key, value)] := by
  induction entries with
  | nil => rfl
  | cons entry rest ih =>
      rw [List.map_cons, List.mem_cons, not_or] at absent
      rw [assign, if_neg (Ne.symm absent.1), ih absent.2, List.cons_append]

/-- A new key goes to the end. -/
theorem entries_set_of_not_mem {table : Table Key Value} {key : Key} (fresh : key ∉ table.keys)
    (value : Value) : (table.set key value).entries = table.entries ++ [(key, value)] :=
  assign_of_not_mem fresh value

end Table

/-- The node that is declared. -/
def DocumentNode.node (entry : DocumentNode) : Node :=
  ⟨entry.satisfaction, entry.cachePolicy⟩

namespace Document

/-- The declared keys, in the order of their declaration. -/
def declaredKeys (document : Document) : List String :=
  document.nodes.map DocumentNode.key

/-! ## Adding nodes -/

/-- A graph and a table of keys that hold certain declarations, numbered in their order. -/
structure Numbered (graph : Graph) (keys : Table String NodeId) (entries : List DocumentNode) :
    Prop where
  nodes : graph.nodes.toList = entries.map DocumentNode.node
  keys : keys.entries = (entries.map DocumentNode.key).zipIdx

theorem numbered_empty : Numbered .empty .empty [] where
  nodes := rfl
  keys := rfl

namespace Numbered

variable {graph : Graph} {keys : Table String NodeId} {before : List DocumentNode}

theorem size_eq (numbered : Numbered graph keys before) : graph.size = before.length := by
  rw [Graph.size, ← Array.length_toList, numbered.nodes, List.length_map]

theorem keys_eq (numbered : Numbered graph keys before) :
    keys.keys = before.map DocumentNode.key := by
  rw [Table.keys, numbered.keys, List.zipIdx_map_fst]

/-- A key stands for the number of the place where it is declared. -/
theorem get?_eq_some_iff (numbered : Numbered graph keys before) (key : String) (node : NodeId) :
    keys.get? key = some node <-> (before.map DocumentNode.key)[node]? = some key := by
  rw [Table.get?_eq_some_iff, numbered.keys, List.mk_mem_zipIdx_iff_getElem?]

theorem isSome_get?_iff (numbered : Numbered graph keys before) (key : String) :
    (keys.get? key).isSome = true <-> key ∈ before.map DocumentNode.key := by
  rw [← numbered.keys_eq]
  exact keys.contains_iff key

/-- No other key stands for the same node. -/
theorem get?_eq_of_get? (numbered : Numbered graph keys before) {key : String} {node : NodeId}
    (standsFor : keys.get? key = some node) (other : String) :
    keys.get? other = some node <-> other = key := by
  have declared := (numbered.get?_eq_some_iff key node).mp standsFor
  rw [numbered.get?_eq_some_iff, declared, Option.some.injEq, eq_comm]

theorem addNode (numbered : Numbered graph keys before) {entry : DocumentNode}
    (fresh : entry.key ∉ before.map DocumentNode.key) :
    Numbered (graph.addNode entry.node).2 (keys.set entry.key (graph.addNode entry.node).1)
      (before ++ [entry]) where
  nodes := by
    rw [List.map_append, ← numbered.nodes]
    exact Array.toList_push
  keys := by
    rw [← numbered.keys_eq] at fresh
    rw [Table.entries_set_of_not_mem fresh, numbered.keys, List.map_append, List.zipIdx_append,
      List.length_map, ← numbered.size_eq, Nat.zero_add]
    rfl

/-- One declaration is added, unless its key has been declared before. -/
theorem addNodes_cons (numbered : Numbered graph keys before) (entry : DocumentNode)
    (rest : List DocumentNode) :
    addNodes (entry :: rest) graph keys =
      if entry.key ∈ before.map DocumentNode.key then .error (.duplicateKey entry.key)
      else addNodes rest (graph.addNode entry.node).2
        (keys.set entry.key (graph.addNode entry.node).1) := by
  have known : keys.contains entry.key = true <-> entry.key ∈ before.map DocumentNode.key :=
    numbered.isSome_get?_iff entry.key
  rw [addNodes]
  by_cases again : entry.key ∈ before.map DocumentNode.key
  · rw [if_pos (known.mpr again), if_pos again]
  · rw [if_neg (fun contained => again (known.mp contained)), if_neg again]
    rfl

theorem addNodes {entries : List DocumentNode} {next : Graph} {nextKeys : Table String NodeId}
    (numbered : Numbered graph keys before)
    (added : Document.addNodes entries graph keys = .ok (next, nextKeys)) :
    Numbered next nextKeys (before ++ entries) := by
  induction entries generalizing before graph keys with
  | nil =>
      cases added
      exact (List.append_nil before).symm ▸ numbered
  | cons entry rest ih =>
      rw [numbered.addNodes_cons] at added
      split at added
      · cases added
      · next fresh =>
        rw [List.append_cons]
        exact ih (numbered.addNode fresh) added

end Numbered

/-! ## Resolving edges -/

theorem resolve_eq_some_iff (keys : Table String NodeId) (edge : DocumentEdge) (resolved : Edge) :
    resolve keys edge = some resolved <->
      keys.get? edge.head = some resolved.head ∧ keys.get? edge.tail = some resolved.tail ∧
        resolved.desire = edge.desire := by
  rcases resolved with ⟨head, tail, desire⟩
  simp only [resolve, Option.bind_eq_some_iff, Option.map_eq_some_iff, Edge.mk.injEq]
  constructor
  · rintro ⟨_, isHead, _, isTail, rfl, rfl, rfl⟩
    exact ⟨isHead, isTail, rfl⟩
  · rintro ⟨isHead, isTail, rfl⟩
    exact ⟨head, isHead, tail, isTail, rfl, rfl, rfl⟩

theorem forall₂_resolve {keys : Table String NodeId} {edges : List DocumentEdge}
    (declared : forall edge, edge ∈ edges -> (resolve keys edge).isSome) :
    List.Forall₂ (fun edge resolved => resolve keys edge = some resolved) edges
      (edges.filterMap (resolve keys)) := by
  induction edges with
  | nil => exact .nil
  | cons edge rest ih =>
      rcases List.forall_mem_cons.mp declared with ⟨own, later⟩
      rcases Option.isSome_iff_exists.mp own with ⟨resolved, stands⟩
      rw [List.filterMap_cons_some stands]
      exact .cons stands (ih later)

/-- The resolved edges that leave a node are those of the edges that leave its key. -/
theorem forall₂_leaving {keys : Table String NodeId} {key : String} {node : NodeId}
    (own : forall other, keys.get? other = some node <-> other = key) {edges : List DocumentEdge}
    (declared : forall edge, edge ∈ edges -> (resolve keys edge).isSome) :
    List.Forall₂ (fun edge resolved => edge.head = key ∧ resolve keys edge = some resolved)
      (edges.filter fun edge => edge.head = key)
      ((edges.filterMap (resolve keys)).filter fun edge => edge.head = node) := by
  refine (List.forall₂_and_left _ _).mpr ⟨fun edge member => ?_, ?_⟩
  · exact of_decide_eq_true (List.mem_filter.mp member).2
  · refine List.rel_filter (fun edge resolved stands => ?_) (forall₂_resolve declared)
    have isHead := ((resolve_eq_some_iff keys edge resolved).mp stands).1
    dsimp only
    rw [decide_eq_true_iff, decide_eq_true_iff, ← own, isHead, Option.some.injEq]

theorem map_some_filterMap (keys : Table String NodeId) (names : List String) :
    (names.filterMap keys.get?).map some =
      (names.filter fun name => (keys.get? name).isSome).map keys.get? := by
  induction names with
  | nil => rfl
  | cons name rest ih =>
      cases standsFor : keys.get? name with
      | none => simpa [standsFor] using ih
      | some node => simpa [standsFor] using ih

end Document

/-! ## Depicting a document -/

/-- A plan that says just what a document says: its nodes stand in the order of their declaration,
and its edges, its root and its unshared nodes refer to nodes where the document refers to keys. -/
structure Plan.Depicts (plan : Plan) (document : Document) : Prop where
  nodes : plan.graph.nodes.toList = document.nodes.map DocumentNode.node
  edgeCount : plan.graph.edgeCount = document.edges.length
  /-- The edges that leave a node are those that leave its key, in the same order. -/
  outgoing : forall key node, plan.node? key = some node ->
    List.Forall₂ (fun edge leaving => leaving.head = node ∧
        plan.node? edge.tail = some leaving.tail ∧ leaving.desire = edge.desire)
      (document.edges.filter fun edge => edge.head = key) (plan.graph.outgoingEdges node)
  root : plan.node? document.root = some plan.root
  /-- Keys that are not declared are left out, all others are kept, in their order. -/
  unshared : plan.unshared.map some =
    (document.unshared.filter fun key => key ∈ document.declaredKeys).map plan.node?
  /-- The number of a node is the place of its declaration. -/
  key? : forall node, plan.key? node = document.declaredKeys[node]?
  inverse : forall key node, plan.node? key = some node <-> plan.key? node = some key
  named : forall key, (plan.node? key).isSome = true <-> key ∈ document.declaredKeys
  numbered : forall node, (plan.key? node).isSome = true <-> plan.graph.contains node = true

/-- A loaded plan depicts its document. -/
theorem Document.load_depicts {document : Document} {plan : Plan}
    (loaded : document.load = .ok plan) : plan.Depicts document := by
  rcases (document.load_eq_ok_iff plan).mp loaded with
    ⟨graph, added, isRoot, resolves, joined, unshared⟩
  have numbered : Numbered graph plan.keys document.nodes := numbered_empty.addNodes added
  have declared := declared_empty.addNodes added
  rcases addEdges_ok declared.built declared.inside resolves with
    ⟨next, joinedToo, built, nodes, edges⟩
  cases joined.symm.trans joinedToo
  rw [declared.edges] at edges
  have named : forall key, (plan.node? key).isSome = true <-> key ∈ document.declaredKeys :=
    numbered.isSome_get?_iff
  exact {
    nodes := nodes ▸ numbered.nodes
    edgeCount := by
      rw [Graph.edgeCount, ← Array.length_toList, edges]
      exact (forall₂_resolve resolves).length_eq.symm
    outgoing := by
      intro key node isNode
      rw [built.consistent.leaving, edges]
      refine (forall₂_leaving (numbered.get?_eq_of_get? isNode) resolves).imp ?_
      rintro edge leaving ⟨leaves, stands⟩
      rcases (resolve_eq_some_iff plan.keys edge leaving).mp stands with ⟨isHead, isTail, desire⟩
      rw [leaves] at isHead
      exact ⟨Option.some.inj (isHead.symm.trans isNode), isTail, desire⟩
    root := isRoot
    unshared := by
      rw [unshared, map_some_filterMap]
      exact congrArg (List.map plan.node?) (List.filter_congr fun key _ =>
        Bool.eq_iff_iff.mpr ((named key).trans decide_eq_true_iff.symm))
    key? := fun node => congrArg (·[node]?) numbered.keys_eq
    inverse := by
      intro key node
      rw [Plan.node?, numbered.get?_eq_some_iff, Plan.key?, numbered.keys_eq]
    named := named
    numbered := by
      intro node
      rw [Plan.key?, numbered.keys_eq, Option.isSome_iff_ne_none, Ne, List.getElem?_eq_none_iff,
        Nat.not_le, List.length_map, Graph.contains, Graph.size, nodes, decide_eq_true_iff]
      exact Eq.to_iff (congrArg (node < ·) numbered.size_eq.symm) }

/-- A document whose edges are not listed node by node, and which excludes one node from sharing
twice and another that it does not declare. -/
def Document.sketch : Document :=
  let type : ComponentType := ⟨"plan.Part", false, false⟩
  let edge (head tail : String) (transient : Bool) : DocumentEdge :=
    ⟨head, tail, type, .simple, none, transient⟩
  { root := "app"
    nodes := [⟨"clock", some (.ofClass type), .memoize⟩, ⟨"app", none, .noPreference⟩,
      ⟨"cache", some (.ofClass type), .newInstance⟩]
    edges := [edge "app" "cache" false, edge "cache" "clock" false, edge "app" "clock" true]
    unshared := ["clock", "ghost", "clock"] }

/-- The plan of that document. -/
def Plan.sketch : Plan :=
  let type : ComponentType := ⟨"plan.Part", false, false⟩
  let edge (head tail : NodeId) (transient : Bool) : Edge :=
    ⟨head, tail, type, .simple, none, transient⟩
  { graph :=
      { nodes := #[⟨some (.ofClass type), .memoize⟩, ⟨none, .noPreference⟩,
          ⟨some (.ofClass type), .newInstance⟩]
        edges := #[edge 1 2 false, edge 2 0 false, edge 1 0 true]
        outgoing := #[#[], #[0, 2], #[1]] }
    root := 1
    unshared := [0, 0]
    keys := .ofList [("clock", 0), ("app", 1), ("cache", 2)] }

theorem Document.sketch_depicted :
    sketch.load = .ok .sketch ∧ Plan.sketch.Depicts sketch :=
  have loaded : sketch.load = .ok .sketch := rfl
  ⟨loaded, load_depicts loaded⟩

end InjectionPlan
