import InjectionPlan.Proofs.Processing
import InjectionPlan.Proofs.Wires
import Mathlib.Data.Set.Function

namespace InjectionPlan

/-!
# The order in which nodes are shown

Identifiers are numbered in the order in which nodes are met.  If the same nodes are shown in
another order, or some of them again, the identifiers change and nothing else: a renaming takes what
one session hands over to what the other hands over (`Graph.showNodes_renamed`).

The renaming goes from an identifier to the node that has it and from there to the identifier that
the node has in the other session.  In a cycle the two sessions may have waited for the targets of
different nodes.  That does not show in the end, since edges are handed over with the targets
recorded by then.
-/

/-! ## The text that stands for a text -/

namespace Registry

/-- The node from whose identifier a text is made. -/
def named? (registry : Registry) (write : String -> String) (text : String) : Option NodeId :=
  (registry.identifiers.entries.find? fun entry => write entry.2.text = text).map Prod.fst

/-- What stands in another registry for the identifier of a node, or of a provider. -/
def rename (before after : Registry) (text : String) : String :=
  match before.named? id text, before.named? providerId text with
  | some node, _ => (after.identifierFor node).text
  | none, some node => providerId (after.identifierFor node).text
  | none, none => text

end Registry

/-- An endpoint with the part before the colon renamed. -/
def renameEnd (rename : String -> String) (endpoint : String) : String :=
  let (node, port) := Diagram.splitPort endpoint.toList
  rename (String.ofList node) ++ port.elim "" fun port => ":" ++ String.ofList port

def Diagram.Node.renamed (rename : String -> String) (node : Diagram.Node) : Diagram.Node :=
  { node with id := rename node.id, target := renameEnd rename node.target }

def Diagram.Edge.renamed (rename : String -> String) (edge : Diagram.Edge) : Diagram.Edge :=
  { edge with source := renameEnd rename edge.source, target := renameEnd rename edge.target }

theorem renameEnd_of_colon_not_mem (rename : String -> String) {text : String}
    (plain : ':' ∉ text.toList) : renameEnd rename text = rename text := by
  rw [renameEnd, Diagram.splitPort_of_colon_not_mem plain]
  dsimp only
  rw [String.ofList_toList]
  exact String.append_empty

theorem renameEnd_append_port (rename : String -> String) {text : String}
    (plain : ':' ∉ text.toList) (port : String) :
    renameEnd rename (text ++ ":" ++ port) = rename text ++ ":" ++ port := by
  rw [renameEnd, toList_append_port, Diagram.splitPort_append_port plain]
  dsimp only [Option.elim]
  rw [String.ofList_toList, String.ofList_toList, String.append_assoc]

theorem renameEnd_headerOf (rename : String -> String) {id : String} (plain : ':' ∉ id.toList) :
    renameEnd rename (headerOf id) = headerOf (rename id) :=
  renameEnd_append_port rename plain Diagram.headerPort

/-! ## From node to node -/

namespace Registry

variable {registry : Registry}

theorem mem_entries_iff {node : NodeId} {identifier : Identifier} :
    (node, identifier) ∈ registry.identifiers.entries <->
      registry.identifier? node = some identifier :=
  (registry.identifiers.get?_eq_some_iff node identifier).symm

theorem named?_eq {graph : Graph} (sound : registry.Sound graph) {write : String -> String}
    (injective : forall left right, write left = write right -> left = right) {node : NodeId}
    {identifier : Identifier} (known : registry.identifier? node = some identifier) :
    registry.named? write (write identifier.text) = some node := by
  unfold named?
  cases found : registry.identifiers.entries.find?
      fun entry => write entry.2.text = write identifier.text with
  | none =>
      have different := List.find?_eq_none.mp found _ (mem_entries_iff.mpr known)
      simp at different
  | some entry =>
      rcases entry with ⟨other, given⟩
      have same : write given.text = write identifier.text := by simpa using List.find?_some found
      cases Identifier.text_injective (injective _ _ same)
      have knownToo := mem_entries_iff.mp (List.mem_of_find?_eq_some found)
      rw [sound.distinct node other identifier known knownToo, Option.map_some]

theorem named?_eq_none {write : String -> String} {text : String}
    (different : forall identifier : Identifier, write identifier.text ≠ text) :
    registry.named? write text = none := by
  rw [named?, Option.map_eq_none_iff, List.find?_eq_none]
  intro entry _
  simpa using different entry.2

variable {graph : Graph} (sound : registry.Sound graph) (after : Registry) {node : NodeId}
  {identifier : Identifier} (known : registry.identifier? node = some identifier)

include sound known

theorem rename_text :
    registry.rename after identifier.text = (after.identifierFor node).text := by
  have named : registry.named? id identifier.text = some node :=
    named?_eq sound (fun _ _ same => same) known
  rw [rename, named]

theorem rename_providerId :
    registry.rename after (providerId identifier.text) =
      providerId (after.identifierFor node).text := by
  have unnamed : registry.named? id (providerId identifier.text) = none :=
    named?_eq_none fun other same => identifier.providerId_ne_text other same.symm
  have named : registry.named? providerId (providerId identifier.text) = some node :=
    named?_eq sound (fun _ _ same => Identifier.providerId_injective same) known
  rw [rename, unnamed, named]

end Registry

/-! ## Descriptors under other identifiers -/

section

variable (rename : String -> String)

@[simp] theorem renamed_ellipse {id : String} (plain : ':' ∉ id.toList) (label : String) :
    (ellipse id label).renamed rename = ellipse (rename id) label := by
  have target := renameEnd_of_colon_not_mem rename plain
  exact congrArg (fun target => { ellipse (rename id) label with target := target }) target

@[simp] theorem renamed_setText (node : Diagram.Node) (name text : String) :
    (node.setText name text).renamed rename = (node.renamed rename).setText name text := rfl

@[simp] theorem renamed_toNode (component : Diagram.Component) {id : String}
    (plain : ':' ∉ id.toList) :
    (component.toNode id).renamed rename = component.toNode (rename id) := by
  have target := renameEnd_headerOf rename plain
  exact congrArg (fun target => { component.toNode (rename id) with target := target }) target

theorem renamed_dependencyEdge {owner : String} (plain : ':' ∉ owner.toList) (port : Nat)
    (target : String) (transient : Bool) :
    (dependencyEdge owner port target transient).renamed rename =
      dependencyEdge (rename owner) port (renameEnd rename target) transient := by
  have source := renameEnd_append_port rename plain (toString port)
  have renamed (edge : Diagram.Edge) (same : edge.source = owner ++ ":" ++ toString port) :
      edge.renamed rename =
        { edge with
          source := rename owner ++ ":" ++ toString port
          target := renameEnd rename edge.target } := by
    rw [Diagram.Edge.renamed, same, source]
  cases transient
  · exact renamed (dependencyEdge owner port target false) rfl
  · exact renamed (dependencyEdge owner port target true) rfl

theorem renamed_providerEdge (provided provider : String) :
    (providerEdge provided provider).renamed rename =
      providerEdge (renameEnd rename provided) (renameEnd rename provider) := rfl

end

/-- A portrait differs from one under another identifier by the identifiers only. -/
theorem Scene.portrait_renamed (scene : Scene) (node : NodeId) (data : Node)
    (satisfaction : Satisfaction) {rename : String -> String} {left right : Identifier}
    (own : rename left.text = right.text)
    (provider : rename (providerId left.text) = providerId right.text) :
    let before := scene.portrait node data satisfaction left.text
    let after := scene.portrait node data satisfaction right.text
    after.nodes = before.nodes.map (·.renamed rename) ∧
      after.backEdges = before.backEdges.map (·.renamed rename) ∧
      after.owner = rename before.owner ∧ ':' ∉ before.owner.toList := by
  have plain := left.colon_not_mem_text
  have plainProvider := left.colon_not_mem_providerId
  cases satisfaction with
  | null type => simp [portrait, plain, own]
  | ofInstance type value => simp [portrait, plain, own]
  | ofClass type => simp [portrait, plain, own]
  | ofProviderClass needed type =>
      simp [portrait, plain, plainProvider, own, provider, renamed_providerEdge,
        renameEnd_headerOf]
  | ofProviderInstance needed label type =>
      simp [portrait, plain, plainProvider, own, provider, renamed_providerEdge,
        renameEnd_headerOf, renameEnd_of_colon_not_mem]

/-! ## What is shown of a node -/

/-- A renaming takes the identifiers of the nodes in one registry to those in another. -/
structure Registry.Renames (rename : String -> String) (before after : Registry) : Prop where
  texts : forall node identifier, before.identifier? node = some identifier ->
    exists other, after.identifier? node = some other ∧ rename identifier.text = other.text ∧
      rename (providerId identifier.text) = providerId other.text
  roots : forall node, before.identifier? node = some .root <->
    after.identifier? node = some .root

namespace Registry.Renames

variable {rename : String -> String} {before after : Registry}
  (renames : Renames rename before after)

include renames

theorem endpoint (graph : Graph) {node : NodeId} (known : (before.identifier? node).isSome) :
    graph.endpoint node (after.identifierFor node) =
      renameEnd rename (graph.endpoint node (before.identifierFor node)) := by
  rcases Option.isSome_iff_exists.mp known with ⟨left, known⟩
  rcases renames.texts node left known with ⟨right, knownAfter, own, _⟩
  have plain := renameEnd_of_colon_not_mem rename left.colon_not_mem_text
  have header := renameEnd_headerOf rename left.colon_not_mem_text
  rw [own] at plain header
  have roots := renames.roots node
  rw [known, knownAfter, Option.some.injEq, Option.some.injEq] at roots
  rw [identifierFor_of_known known, identifierFor_of_known knownAfter]
  cases left with
  | root =>
      cases roots.mp rfl
      rw [endpoint_root]
      exact plain.symm
  | numbered first =>
      cases right with
      | root => cases roots.mpr rfl
      | numbered second =>
          unfold Graph.endpoint
          cases graph.satisfaction? node with
          | none => exact plain.symm
          | some satisfaction =>
              cases satisfaction with
              | null type => exact plain.symm
              | ofInstance type value => exact plain.symm
              | ofClass type => exact header.symm
              | ofProviderClass provider type => exact header.symm
              | ofProviderInstance provider label type => exact header.symm

end Registry.Renames

namespace Scene

/-- Whether a node has a portrait does not depend on identifiers. -/
theorem portrait?_uniform (scene : Scene) (node : NodeId) :
    (forall registry, scene.portrait? registry node = none) ∨
      exists data satisfaction, scene.graph.satisfaction? node = some satisfaction ∧
        forall registry, scene.portrait? registry node =
          some (scene.portraitIn registry node data satisfaction) := by
  unfold Graph.satisfaction? portrait?
  cases scene.graph.node? node with
  | none => exact Or.inl fun _ => rfl
  | some data =>
      cases bound : data.satisfaction with
      | none => exact Or.inl fun _ => by rw [Option.bind_some, bound, Option.map_none]
      | some satisfaction =>
          refine Or.inr ⟨data, satisfaction, bound, fun _ => ?_⟩
          rw [Option.bind_some, bound, Option.map_some]

theorem missingOf_eq (scene : Scene) (before after : Registry) (node : NodeId) :
    scene.missingOf after node = scene.missingOf before node := by
  rw [missingOf_eq_unbound, missingOf_eq_unbound]

variable (scene : Scene) {rename : String -> String} {before after : Registry}
  (renames : Registry.Renames rename before after) {node : NodeId}

include renames

/-- The portraits of a node with an identifier differ by the identifiers only. -/
theorem portraitIn_renamed (known : (before.identifier? node).isSome) (data : Node)
    (satisfaction : Satisfaction) :
    let left := scene.portraitIn before node data satisfaction
    let right := scene.portraitIn after node data satisfaction
    right.nodes = left.nodes.map (·.renamed rename) ∧
      right.backEdges = left.backEdges.map (·.renamed rename) ∧
      right.owner = rename left.owner ∧ ':' ∉ left.owner.toList := by
  rcases Option.isSome_iff_exists.mp known with ⟨identifier, known⟩
  rcases renames.texts node identifier known with ⟨other, knownAfter, own, provider⟩
  rw [portraitIn, portraitIn, Registry.identifierFor_of_known known,
    Registry.identifierFor_of_known knownAfter]
  exact scene.portrait_renamed node data satisfaction own provider

theorem descriptors_renamed (known : (before.identifier? node).isSome) :
    scene.descriptors after node = (scene.descriptors before node).map (·.renamed rename) := by
  unfold descriptors
  rcases scene.portrait?_uniform node with unshown | ⟨data, satisfaction, _, shown⟩
  · rw [unshown, unshown]
    rfl
  · rw [shown, shown]
    exact (scene.portraitIn_renamed renames known data satisfaction).1

theorem edgesOf_renamed (known : (before.identifier? node).isSome)
    (onward : forall edge, edge ∈ scene.graph.branches node ->
      (before.identifier? edge.tail).isSome) :
    scene.edgesOf after node = (scene.edgesOf before node).map (·.renamed rename) := by
  unfold edgesOf
  rcases scene.portrait?_uniform node with unshown | ⟨data, satisfaction, bound, shown⟩
  · rw [unshown, unshown]
    rfl
  · rcases scene.portraitIn_renamed renames known data satisfaction with
      ⟨_, backEdges, owner, plain⟩
    have branches (registry : Registry) :
        leadingOn (scene.portraitIn registry node data satisfaction).branches =
          scene.graph.branches node :=
      scene.leadingOn_portrait data bound _
    rw [shown, shown, Option.elim_some, Option.elim_some, List.map_append, backEdges, stops, stops,
      Graph.leadsFrom_itinerary, Graph.leadsFrom_itinerary, branches, branches, List.map_map, owner]
    congr 1
    apply List.map_congr_left
    intro row member
    rcases row with ⟨edge, port⟩
    have leads := onward edge (List.fst_mem_of_mem_zipIdx member)
    dsimp only [Function.comp]
    rw [renamed_dependencyEdge rename plain, renames.endpoint scene.graph leads]

end Scene

/-! ## What is shown in two sessions -/

namespace Graph

variable {graph : Graph}

theorem Reached.mono {waiting others seen : List NodeId} {node : NodeId}
    (reached : graph.Reached waiting seen node)
    (within : forall node, node ∈ waiting -> node ∈ others) : graph.Reached others seen node := by
  induction reached with
  | start waits new => exact .start (within _ waits) new
  | step _ leads new ih => exact .step ih leads new

/-- What a search finds does not depend on the order in which nodes wait. -/
theorem preorder_perm {waiting others : List NodeId}
    (same : forall node, node ∈ waiting <-> node ∈ others) (seen : List NodeId) :
    (graph.preorder waiting seen).Perm (graph.preorder others seen) := by
  rw [List.perm_ext_iff_of_nodup (graph.nodup_preorder _ _) (graph.nodup_preorder _ _)]
  intro node
  rw [mem_preorder_iff, mem_preorder_iff]
  exact ⟨fun reached => reached.mono fun node => (same node).mp,
    fun reached => reached.mono fun node => (same node).mpr⟩

end Graph

namespace Presented

variable {State : Type u} {scene : Scene} {root : NodeId} {stops : List Stop} {summary : Summary}
  {session : Session (Watched State)}
  (presented : Presented scene root stops summary session)

include presented

theorem found_known {node : NodeId} (found : node ∈ scene.graph.preorder (heads stops) [root]) :
    (session.registry.identifier? node).isSome :=
  (presented.known node).mpr (Or.inr found)

/-- Where the branches of a node that is found lead is known, too. -/
theorem branch_known {node : NodeId} (found : node ∈ scene.graph.preorder (heads stops) [root])
    {edge : Edge} (branch : edge ∈ scene.graph.branches node) :
    (session.registry.identifier? edge.tail).isSome := by
  rw [presented.known, Graph.mem_preorder_iff]
  by_cases same : edge.tail = root
  · exact Or.inl same
  · have reached := (scene.graph.mem_preorder_iff _ _ node).mp found
    exact Or.inr (.step reached (List.mem_map_of_mem branch) (mt List.mem_singleton.mp same))

theorem root_iff (node : NodeId) :
    session.registry.identifier? node = some .root <-> node = root := by
  constructor
  · intro known
    exact presented.sound.distinct node root .root known presented.rootKnown
  · rintro rfl
    exact presented.rootKnown

/-- Descriptors have the identifiers of nodes or of their providers. -/
theorem named {id : String} (member : id ∈ session.store.nodes.map (·.id)) :
    exists node identifier, session.registry.identifier? node = some identifier ∧
      (id = identifier.text ∨ id = providerId identifier.text) := by
  rcases List.mem_map.mp member with ⟨shown, taken, rfl⟩
  rcases List.mem_cons.mp (presented.nodes.mem_iff.mp taken) with isRoot | behind
  · rw [isRoot]
    exact ⟨root, .root, presented.rootKnown, Or.inl rfl⟩
  · rcases List.mem_flatMap.mp behind with ⟨node, found, inDescriptors⟩
    rcases Option.isSome_iff_exists.mp (presented.found_known found) with ⟨identifier, known⟩
    have inIds := List.mem_map_of_mem (f := (·.id)) inDescriptors
    rcases Option.isSome_iff_exists.mp (presented.bound node found) with ⟨satisfaction, bound⟩
    rw [scene.map_id_descriptors, Graph.shownIds, bound, Option.elim_some,
      Registry.identifierFor_of_known known, Satisfaction.mem_shownIds] at inIds
    rcases inIds with ⟨_, provider⟩ | own
    · exact ⟨node, identifier, known, Or.inr provider⟩
    · exact ⟨node, identifier, known, Or.inl own⟩

end Presented

/-- A renaming takes what was handed over in one session to what was handed over in another. -/
structure Session.Renaming {State : Type u} {Other : Type v} (rename : String -> String)
    (first : Session (Watched State)) (second : Session (Watched Other)) : Prop where
  bijective : Set.BijOn rename {id | id ∈ first.store.nodes.map (·.id)}
    {id | id ∈ second.store.nodes.map (·.id)}
  root : rename "root" = "root"
  identifiers : forall node identifier, first.registry.identifier? node = some identifier ->
    exists other, second.registry.identifier? node = some other ∧
      rename identifier.text = other.text ∧ rename (identifier.text ++ "P") = other.text ++ "P"
  nodes : second.store.nodes.Perm (first.store.nodes.map (·.renamed rename))
  edges : second.store.edges.Perm (first.store.edges.map (·.renamed rename))

namespace Presented

variable {State : Type u} {Other : Type v} {scene : Scene} {root : NodeId}
  {nodes others : List NodeId} {summary otherSummary : Summary}
  {first : Session (Watched State)} {second : Session (Watched Other)}

theorem renames (left : Presented scene root (turns nodes) summary first)
    (right : Presented scene root (turns others) otherSummary second)
    (same : forall node, node ∈ nodes <-> node ∈ others) :
    Registry.Renames (first.registry.rename second.registry) first.registry second.registry where
  texts node identifier known := by
    have found : (second.registry.identifier? node).isSome := by
      have knownToo := (left.known node).mp (by rw [known]; rfl)
      rw [heads_turns, (Graph.preorder_perm same [root]).mem_iff, ← heads_turns others] at knownToo
      exact (right.known node).mpr knownToo
    rcases Option.isSome_iff_exists.mp found with ⟨other, knownAfter⟩
    refine ⟨other, knownAfter, ?_, ?_⟩
    · rw [Registry.rename_text left.sound _ known, Registry.identifierFor_of_known knownAfter]
    · rw [Registry.rename_providerId left.sound _ known,
        Registry.identifierFor_of_known knownAfter]
  roots node := by rw [left.root_iff, right.root_iff]

end Presented

/-- The same nodes have been found. -/
theorem found_perm (scene : Scene) (root : NodeId) {nodes others : List NodeId}
    (same : forall node, node ∈ nodes <-> node ∈ others) :
    (scene.graph.preorder (heads (turns others)) [root]).Perm
      (scene.graph.preorder (heads (turns nodes)) [root]) := by
  rw [heads_turns, heads_turns]
  exact (Graph.preorder_perm same [root]).symm

/-- No edge leads to the stops at several nodes. -/
theorem Scene.leadsFrom_turns (scene : Scene) (registry : Registry) (nodes : List NodeId) :
    (turns nodes).flatMap (scene.leadsFrom registry) = [] := by
  induction nodes with
  | nil => rfl
  | cons node rest ih => exact ih

theorem missing_turns (nodes : List NodeId) : (turns nodes).flatMap Stop.missing = [] := by
  induction nodes with
  | nil => rfl
  | cons node rest ih => exact ih

theorem renamed_rootNode {rename : String -> String}
    (root : rename Identifier.root.text = Identifier.root.text) :
    Session.rootNode.renamed rename = Session.rootNode := by
  have target := renameEnd_of_colon_not_mem rename Identifier.root.colon_not_mem_text
  rw [root] at target
  exact congrArg₂ (fun id target => { Session.rootNode with id := id, target := target }) root
    target

namespace Presented

variable {State : Type u} {Other : Type v} {scene : Scene} {root : NodeId}
  {nodes others : List NodeId} {summary otherSummary : Summary}
  {first : Session (Watched State)} {second : Session (Watched Other)}
  (left : Presented scene root (turns nodes) summary first)
  (right : Presented scene root (turns others) otherSummary second)

include left right

theorem rename_root : first.registry.rename second.registry "root" = "root" := by
  have known := Registry.rename_text left.sound second.registry left.rootKnown
  rwa [Registry.identifierFor_of_known right.rootKnown] at known

variable (same : forall node, node ∈ nodes <-> node ∈ others)

include same

theorem nodes_renamed : second.store.nodes.Perm
    (first.store.nodes.map (·.renamed (first.registry.rename second.registry))) := by
  have renames := left.renames right same
  have descriptors := List.flatMap_congr fun node found =>
    scene.descriptors_renamed renames (left.found_known found)
  have rootNode := renamed_rootNode (left.rename_root right)
  calc
    List.Perm second.store.nodes _ := right.nodes
    List.Perm _ _ := ((found_perm scene root same).flatMap_right _).cons _
    List.Perm _ (List.map _ (Session.rootNode :: _)) := by
      rw [descriptors, ← List.map_flatMap, List.map_cons, rootNode]
    List.Perm _ _ := (left.nodes.map _).symm

theorem edges_renamed : second.store.edges.Perm
    (first.store.edges.map (·.renamed (first.registry.rename second.registry))) := by
  have renames := left.renames right same
  have edges := List.flatMap_congr fun node found =>
    scene.edgesOf_renamed renames (left.found_known found) fun edge => left.branch_known found
  have leftEdges := left.edges
  have rightEdges := right.edges
  rw [scene.leadsFrom_turns, List.nil_append] at leftEdges rightEdges
  calc
    List.Perm second.store.edges _ := rightEdges
    List.Perm _ _ := (found_perm scene root same).flatMap_right _
    List.Perm _ _ := by rw [edges, ← List.map_flatMap]
    List.Perm _ _ := (leftEdges.map _).symm

theorem summaries_eq : summary = otherSummary := by
  have nodesCount := (left.nodes_renamed right same).length_eq
  have edgesCount := (left.edges_renamed right same).length_eq
  rw [List.length_map] at nodesCount edgesCount
  have leftUnbound := left.unboundCounted
  have rightUnbound := right.unboundCounted
  rw [missing_turns, List.nil_append] at leftUnbound rightUnbound
  have missing := List.flatMap_congr fun node
      (_ : node ∈ scene.graph.preorder (heads (turns nodes)) [root]) =>
    scene.missingOf_eq first.registry second.registry node
  have unbound : otherSummary.unboundParameters = summary.unboundParameters := by
    rw [rightUnbound, ((found_perm scene root same).flatMap_right _).length_eq, missing,
      leftUnbound]
  cases summary
  cases otherSummary
  simp only [Summary.mk.injEq]
  exact ⟨left.nodesCounted.trans (nodesCount.symm.trans right.nodesCounted.symm),
    left.edgesCounted.trans (edgesCount.symm.trans right.edgesCounted.symm), unbound.symm⟩

/-- Every identifier can be found back. -/
theorem rename_back {id : String} (member : id ∈ first.store.nodes.map (·.id)) :
    second.registry.rename first.registry (first.registry.rename second.registry id) = id := by
  rcases left.named member with ⟨node, identifier, known, written⟩
  rcases (left.renames right same).texts node identifier known with
    ⟨other, knownAfter, own, provider⟩
  rcases written with rfl | rfl
  · rw [own, Registry.rename_text right.sound _ knownAfter, Registry.identifierFor_of_known known]
  · rw [provider, Registry.rename_providerId right.sound _ knownAfter,
      Registry.identifierFor_of_known known]

theorem bijOn_rename : Set.BijOn (first.registry.rename second.registry)
    {id | id ∈ first.store.nodes.map (·.id)} {id | id ∈ second.store.nodes.map (·.id)} := by
  have ids : (second.store.nodes.map (·.id)).Perm
      ((first.store.nodes.map (·.id)).map (first.registry.rename second.registry)) := by
    have renamed := (left.nodes_renamed right same).map (·.id)
    rw [List.map_map] at renamed ⊢
    exact renamed
  refine ⟨fun id member => ?_, fun id member other memberToo equal => ?_, fun id member => ?_⟩
  · exact ids.mem_iff.mpr (List.mem_map_of_mem member)
  · rw [← left.rename_back right same member, equal, left.rename_back right same memberToo]
  · exact List.mem_map.mp (ids.mem_iff.mp member)

theorem renaming_rename :
    first.Renaming (first.registry.rename second.registry) second where
  bijective := left.bijOn_rename right same
  root := left.rename_root right
  identifiers := (left.renames right same).texts
  nodes := left.nodes_renamed right same
  edges := left.edges_renamed right same

end Presented

/-! ## Sessions -/

/-- When the same nodes are shown in another order and any number of times, then, apart from the
identifiers, the same is handed over, and it sums up to the same. -/
theorem Graph.showNodes_renamed {State : Type u} {Other : Type v} (graph : Graph) (root : NodeId)
    (unshared : List NodeId) {nodes others : List NodeId}
    (same : forall node, node ∈ nodes <-> node ∈ others) {sink : Sink State}
    (obliging : sink.Obliging) (store : State) {otherSink : Sink Other}
    (otherObliging : otherSink.Obliging) (otherStore : Other) {summary otherSummary : Summary}
    {first : Session (Watched State)} {second : Session (Watched Other)}
    (shown : graph.showNodes root unshared nodes sink.watched (.start store) =
      (.ok summary, first))
    (shownToo : graph.showNodes root unshared others otherSink.watched (.start otherStore) =
      (.ok otherSummary, second)) :
    (exists rename, first.Renaming rename second) ∧ summary = otherSummary := by
  have left := showNodes_presented obliging shown
  have right := showNodes_presented otherObliging shownToo
  exact ⟨⟨_, left.renaming_rename right same⟩, left.summaries_eq right same⟩

/-- The ring entered from either side, where the second session shows a node once more.  The node
that is met first waits for the target of the other. -/
theorem Graph.ring_renamed :
    let first := ring.showNodes 0 [] [1, 2] Sink.collecting.watched (.start .empty)
    let second := ring.showNodes 0 [] [2, 1, 2] Sink.collecting.watched (.start .empty)
    first.1 = .ok ⟨4, 5, 0⟩ ∧ first.1 = second.1 ∧
      first.2.registry.identifier? 1 = some (.numbered 1) ∧
      second.2.registry.identifier? 1 = some (.numbered 2) ∧
      exists rename, first.2.Renaming rename second.2 := by
  have same : forall node, node ∈ [1, 2] <-> node ∈ [2, 1, 2] := by simp [or_comm]
  have shown : (ring.showNodes 0 [] [1, 2] Sink.collecting.watched (.start .empty)).1 =
      .ok ⟨4, 5, 0⟩ := rfl
  have shownToo : (ring.showNodes 0 [] [2, 1, 2] Sink.collecting.watched (.start .empty)).1 =
      .ok ⟨4, 5, 0⟩ := rfl
  rcases showNodes_renamed ring 0 [] same Sink.obliging_collecting .empty
    Sink.obliging_collecting .empty (Prod.ext shown rfl) (Prod.ext shownToo rfl) with
    ⟨renamed, _⟩
  exact ⟨shown, rfl, rfl, rfl, renamed⟩

end InjectionPlan
