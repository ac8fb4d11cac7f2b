import InjectionPlan.Proofs.Dumping
import Mathlib.Data.List.Nodup

namespace InjectionPlan

/-!
# Which nodes a dump shows

A dump that succeeds shows the root and every node that is met from there, each of them once, and
beside each node that comes from a provider the provider (`Graph.dump_covers`).  The identifiers
tell all of these apart, and so do the targets: what comes before the colon of a target is the
identifier of the node of the diagram that it belongs to.
-/

/-- The identifiers under which a node of a graph is shown. -/
def Graph.shownIds (graph : Graph) (registry : Registry) (node : NodeId) : List String :=
  (graph.satisfaction? node).elim [] (·.shownIds (registry.identifierFor node).text)

/-! ## The descriptors of a node -/

namespace Scene

theorem portrait?_cases (scene : Scene) (registry : Registry) (node : NodeId) :
    scene.graph.satisfaction? node = none ∧ scene.portrait? registry node = none ∨
      exists data satisfaction, scene.graph.satisfaction? node = some satisfaction ∧
        scene.portrait? registry node =
          some (scene.portraitIn registry node data satisfaction) := by
  unfold Graph.satisfaction? portrait?
  cases scene.graph.node? node with
  | none => exact Or.inl ⟨rfl, rfl⟩
  | some data =>
      rw [Option.bind_some, Option.bind_some]
      cases data.satisfaction with
      | none => exact Or.inl ⟨rfl, rfl⟩
      | some satisfaction => exact Or.inr ⟨data, satisfaction, rfl, rfl⟩

/-- The parameters without a value are those of the edges of a component that is constructed. -/
theorem missingOf_eq_unbound (scene : Scene) (registry : Registry) (node : NodeId) :
    scene.missingOf registry node =
      if (scene.graph.satisfaction? node).any Satisfaction.isComposite then
        (scene.graph.dependencies node).filterMap scene.graph.unbound?
      else [] := by
  unfold missingOf
  rcases scene.portrait?_cases registry node with
    ⟨nothing, unshown⟩ | ⟨data, satisfaction, bound, shown⟩
  · rw [nothing, unshown]
    rfl
  · rw [bound, shown, Option.elim_some, stops, Graph.missing_itinerary]
    cases satisfaction <;> rfl

theorem map_id_descriptors (scene : Scene) (registry : Registry) (node : NodeId) :
    (scene.descriptors registry node).map (·.id) = scene.graph.shownIds registry node := by
  unfold descriptors Graph.shownIds
  rcases scene.portrait?_cases registry node with
    ⟨nothing, unshown⟩ | ⟨data, satisfaction, bound, shown⟩
  · rw [nothing, unshown]
    rfl
  · rw [bound, shown]
    exact scene.map_id_portrait node data satisfaction _

theorem stem_target_descriptors (scene : Scene) (registry : Registry) (node : NodeId)
    {shown : Diagram.Node} (member : shown ∈ scene.descriptors registry node) :
    stem shown.target = shown.id.toList := by
  unfold descriptors at member
  rcases scene.portrait?_cases registry node with ⟨_, unshown⟩ | ⟨data, satisfaction, _, known⟩
  · rw [unshown] at member
    cases member
  · rw [known] at member
    exact scene.stem_target_portrait node data satisfaction _ member

/-- Only the node that has an identifier is shown under it. -/
theorem eq_of_mem_descriptors {scene : Scene} {registry : Registry}
    (sound : registry.Sound scene.graph) {node other : NodeId} {identifier : Identifier}
    (known : registry.identifier? node = some identifier)
    (otherKnown : (registry.identifier? other).isSome) {shown : Diagram.Node}
    (member : shown ∈ scene.descriptors registry other) (same : shown.id = identifier.text) :
    node = other ∧ (scene.graph.satisfaction? other).isSome := by
  rcases Option.isSome_iff_exists.mp otherKnown with ⟨otherIdentifier, otherHas⟩
  have inIds := List.mem_map_of_mem (f := (·.id)) member
  rw [scene.map_id_descriptors, same, Graph.shownIds, Registry.identifierFor_of_known otherHas]
    at inIds
  cases bound : scene.graph.satisfaction? other with
  | none =>
      rw [bound] at inIds
      cases inIds
  | some satisfaction =>
      rw [bound] at inIds
      have own : identifier.text ∈ satisfaction.shownIds identifier.text :=
        (satisfaction.mem_shownIds _ _).mpr (Or.inr rfl)
      cases Identifier.eq_of_mem_shownIds own inIds
      exact ⟨sound.distinct node other _ known otherHas, rfl⟩

end Scene

/-! ## Dumps -/

namespace Graph

variable {State : Type u} {graph : Graph} {root : NodeId} {unshared : List NodeId}

theorem eq_of_mem_shownIds {registry : Registry} {left right : NodeId} {shown : String}
    (inLeft : shown ∈ graph.shownIds registry left)
    (inRight : shown ∈ graph.shownIds registry right) :
    registry.identifierFor left = registry.identifierFor right := by
  unfold shownIds at inLeft inRight
  cases first : graph.satisfaction? left with
  | none =>
      rw [first] at inLeft
      cases inLeft
  | some satisfaction =>
      cases second : graph.satisfaction? right with
      | none =>
          rw [second] at inRight
          cases inRight
      | some other =>
          rw [first] at inLeft
          rw [second] at inRight
          exact Identifier.eq_of_mem_shownIds inLeft inRight

namespace Shown

variable {summary : Summary} {session : Session (Watched State)}

/-- A node that is not the root has a number. -/
theorem numbered (shown : graph.Shown root unshared summary session) {node : NodeId}
    (member : node ∈ graph.discovery root) :
    exists number, session.registry.identifier? node = some (.numbered number) := by
  rcases Option.isSome_iff_exists.mp ((shown.known node).mpr (Or.inr member)) with
    ⟨identifier, known⟩
  cases identifier with
  | root =>
      have isRoot := shown.sound.distinct node root .root known shown.rootKnown
      exact absurd isRoot ((graph.mem_discovery_iff root node).mp member).2
  | numbered number => exact ⟨number, known⟩

/-- Nodes that are met do not share an identifier under which they are shown. -/
theorem eq_of_shown (shown : graph.Shown root unshared summary session) {node other : NodeId}
    (found : node ∈ graph.discovery root) (foundOther : other ∈ graph.discovery root) {id : String}
    (member : id ∈ graph.shownIds session.registry node)
    (memberOther : id ∈ graph.shownIds session.registry other) : node = other := by
  rcases shown.numbered found with ⟨number, known⟩
  rcases shown.numbered foundOther with ⟨otherNumber, otherKnown⟩
  have same := eq_of_mem_shownIds member memberOther
  rw [Registry.identifierFor_of_known known, Registry.identifierFor_of_known otherKnown] at same
  rw [← same] at otherKnown
  exact shown.sound.distinct node other _ known otherKnown

theorem ids_perm (shown : graph.Shown root unshared summary session) :
    (session.store.nodes.map (·.id)).Perm (Identifier.root.text ::
      (graph.discovery root).flatMap (graph.shownIds session.registry)) := by
  apply (shown.nodes.map _).trans
  rw [List.map_cons, List.map_flatMap]
  simp only [Scene.map_id_descriptors]
  exact .refl _

theorem root_not_mem (shown : graph.Shown root unshared summary session) :
    Identifier.root.text ∉ (graph.discovery root).flatMap (graph.shownIds session.registry) := by
  intro member
  rcases List.mem_flatMap.mp member with ⟨node, found, inIds⟩
  rcases shown.numbered found with ⟨number, known⟩
  rcases Option.isSome_iff_exists.mp (shown.bound node found) with ⟨satisfaction, bound⟩
  rw [shownIds, bound, Registry.identifierFor_of_known known] at inIds
  have rootIds : Identifier.root.text ∈ satisfaction.shownIds Identifier.root.text :=
    (satisfaction.mem_shownIds _ _).mpr (Or.inr rfl)
  cases Identifier.eq_of_mem_shownIds rootIds inIds

theorem nodup_ids (shown : graph.Shown root unshared summary session) :
    (session.store.nodes.map (·.id)).Nodup := by
  rw [shown.ids_perm.nodup_iff]
  refine List.nodup_cons.mpr ⟨shown.root_not_mem, List.nodup_flatMap.mpr ⟨?_, ?_⟩⟩
  · intro node found
    rcases Option.isSome_iff_exists.mp (shown.bound node found) with ⟨satisfaction, bound⟩
    rw [shownIds, bound]
    exact satisfaction.nodup_shownIds _
  · have nodup : (graph.discovery root).Nodup := graph.nodup_preorder _ _
    apply nodup.imp_of_mem
    intro left right inLeft inRight different
    apply List.disjoint_left.mpr
    intro id first second
    exact different (shown.eq_of_shown inLeft inRight first second)

theorem stem_target (shown : graph.Shown root unshared summary session) {node : Diagram.Node}
    (member : node ∈ session.store.nodes) : stem node.target = node.id.toList := by
  rcases List.mem_cons.mp (shown.nodes.mem_iff.mp member) with isRoot | behind
  · rw [isRoot]
    exact stem_of_colon_not_mem Identifier.root.colon_not_mem_text
  · rcases List.mem_flatMap.mp behind with ⟨found, _, inDescriptors⟩
    exact Scene.stem_target_descriptors _ _ found inDescriptors

theorem nodup_targets (shown : graph.Shown root unshared summary session) :
    (session.store.nodes.map (·.target)).Nodup := by
  have stems : (session.store.nodes.map (·.target)).map stem =
      (session.store.nodes.map (·.id)).map String.toList := by
    rw [List.map_map, List.map_map]
    exact List.map_congr_left fun node member => shown.stem_target member
  apply List.Nodup.of_map stem
  rw [stems]
  exact shown.nodup_ids.map fun _ _ same => String.toList_injective same

theorem id_ne_empty (shown : graph.Shown root unshared summary session) {node : Diagram.Node}
    (member : node ∈ session.store.nodes) : node.id ≠ "" := by
  have inIds := shown.ids_perm.mem_iff.mp (List.mem_map_of_mem member)
  rcases List.mem_cons.mp inIds with isRoot | behind
  · rw [isRoot]
    exact Identifier.root.text_ne_empty
  · rcases List.mem_flatMap.mp behind with ⟨found, _, inShown⟩
    unfold shownIds at inShown
    cases bound : graph.satisfaction? found with
    | none =>
        rw [bound] at inShown
        cases inShown
    | some satisfaction =>
        rw [bound] at inShown
        exact Satisfaction.ne_empty_of_mem_shownIds inShown

theorem target_ne_empty (shown : graph.Shown root unshared summary session) {node : Diagram.Node}
    (member : node ∈ session.store.nodes) : node.target ≠ "" := by
  intro empty
  have letters := shown.stem_target member
  rw [empty] at letters
  exact shown.id_ne_empty member (String.toList_injective letters.symm)

end Shown

/-- A dump that succeeds shows every node that is met from the root on once, and its provider
beside it, and nothing else.  No two of the nodes shown have the same identifier or target. -/
theorem dump_covers {sink : Sink State} (obliging : sink.Obliging) {store : State}
    {summary : Summary} {session : Session (Watched State)}
    (dumped : graph.dump root unshared sink.watched (.start store) = (.ok summary, session)) :
    exists nodes : List NodeId, nodes.Nodup ∧
      (forall node, node ∈ nodes <-> graph.Traversed root node ∧ node ≠ root) ∧
      (forall node, node ∈ nodes ->
        exists number, session.registry.identifier? node = some (.numbered number)) ∧
      session.store.nodes.Perm (Session.rootNode ::
        nodes.flatMap ((graph.scene unshared).descriptors session.registry)) ∧
      (session.store.nodes.map (·.id)).Perm
        ("root" :: nodes.flatMap (graph.shownIds session.registry)) ∧
      (session.store.nodes.map (·.id)).Nodup ∧ (session.store.nodes.map (·.target)).Nodup ∧
      (forall node, node ∈ session.store.nodes -> node.id ≠ "" ∧ node.target ≠ "") ∧
      summary.nodes = session.store.nodes.length := by
  have shown := dump_shown obliging dumped
  exact ⟨graph.discovery root, graph.nodup_preorder _ _, graph.mem_discovery_iff root,
    fun node => shown.numbered, shown.nodes, shown.ids_perm, shown.nodup_ids, shown.nodup_targets,
    fun node member => ⟨shown.id_ne_empty member, shown.target_ne_empty member⟩,
    shown.nodesCounted⟩

/-- Two components that need each other and themselves.  The first of them is needed by the root
and comes from a provider, which also needs the root. -/
def ring : Graph :=
  let type : ComponentType := ⟨"plan.Part", true, false⟩
  let edge (head tail : NodeId) (member : String) (transient : Bool) : Edge :=
    ⟨head, tail, type, .field member, none, transient⟩
  { nodes := #[.ofSatisfaction (.ofClass type), .ofSatisfaction (.ofProviderClass type type),
      .ofSatisfaction (.ofClass type)]
    edges := #[edge 0 1 "first" false, edge 1 2 "next" true, edge 1 0 "owner" false,
      edge 2 1 "back" false, edge 2 2 "self" false]
    outgoing := #[#[0], #[1, 2], #[3, 4]] }

theorem ring_covered :
    let dumped := ring.dump 0 [] Sink.collecting.watched (.start .empty)
    dumped.1 = .ok ⟨4, 6, 0⟩ ∧
      exists nodes : List NodeId, nodes.Nodup ∧
        (forall node, node ∈ nodes <-> ring.Traversed 0 node ∧ node ≠ 0) ∧
        (dumped.2.store.nodes.map (·.id)).Perm
          ("root" :: nodes.flatMap (ring.shownIds dumped.2.registry)) ∧
        (dumped.2.store.nodes.map (·.id)).Nodup ∧ (dumped.2.store.nodes.map (·.target)).Nodup ∧
        4 = dumped.2.store.nodes.length := by
  have success : (ring.dump 0 [] Sink.collecting.watched (.start .empty)).1 = .ok ⟨4, 6, 0⟩ := rfl
  rcases dump_covers Sink.obliging_collecting (Prod.ext success rfl) with
    ⟨nodes, nodup, covered, _, _, ids, nodupIds, nodupTargets, _, counted⟩
  exact ⟨success, nodes, nodup, covered, ids, nodupIds, nodupTargets, counted⟩

end Graph
end InjectionPlan
