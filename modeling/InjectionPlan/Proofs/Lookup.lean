import InjectionPlan.Proofs.Refusals
import InjectionPlan.Proofs.Rows

namespace InjectionPlan

/-!
# Looking up what has been collected

A sink that keeps everything is asked for the node with an identifier and for the edges that leave
the node or one of its ports.  The answer is found by splitting sources at the first colon.  After a
dump that succeeds this divides the edges among the nodes (`Collected.Divided`): identifiers have
no colon, so what stands before it in a source is the identifier of one node, and no identifier is
mistaken for another one that it begins with.

The edges of a component that comes from a provider are thereby told from those of the provider
(`Graph.dump_divided`).  From the component itself only the edge back to its provider leaves, and
from the provider one edge for each row of its table.
-/

/-! ## Lists in groups -/

/-- Items that are grouped by keys are all there, each of them once. -/
theorem groups_perm {α κ : Type} [DecidableEq κ] (key : α -> κ) {keys : List κ}
    (different : keys.Nodup) {items : List α} (all : forall item, item ∈ items -> key item ∈ keys) :
    (keys.flatMap fun chosen => items.filter fun item => key item = chosen).Perm items := by
  induction keys generalizing items with
  | nil =>
      have nothing : items = [] := List.eq_nil_iff_forall_not_mem.mpr fun item member =>
        nomatch all item member
      rw [nothing]
      exact .refl _
  | cons first rest ih =>
      obtain ⟨notLater, different⟩ := List.nodup_cons.mp different
      have others : (rest.flatMap fun chosen => items.filter fun item => key item = chosen) =
          rest.flatMap fun chosen =>
            (items.filter fun item => !decide (key item = first)).filter fun item =>
              key item = chosen := by
        apply List.flatMap_congr
        intro chosen member
        rw [List.filter_filter]
        apply List.filter_congr
        intro item _
        by_cases isChosen : key item = chosen
        · have notFirst : key item ≠ first := fun isFirst => notLater (isFirst ▸ isChosen ▸ member)
          rw [decide_eq_true isChosen, decide_eq_false notFirst]
          rfl
        · rw [decide_eq_false isChosen]
          rfl
      have covered (item : α)
          (member : item ∈ items.filter fun item => !decide (key item = first)) :
          key item ∈ rest := by
        rcases List.mem_filter.mp member with ⟨inItems, notFirst⟩
        rcases List.mem_cons.mp (all item inItems) with isFirst | inRest
        · simp [isFirst] at notFirst
        · exact inRest
      have later := ih different covered
      rw [List.flatMap_cons, others]
      exact (later.append_left _).trans (List.filter_append_perm _ items)

/-- If all items but one contribute nothing, that one contributes everything. -/
theorem flatMap_eq_of_alone {α β : Type} {items : List α} (different : items.Nodup) {item : α}
    (member : item ∈ items) {parts : α -> List β}
    (others : forall other, other ∈ items -> other ≠ item -> parts other = []) :
    items.flatMap parts = parts item := by
  rcases List.append_of_mem member with ⟨before, after, rfl⟩
  have alone := (List.nodup_cons.mp (List.nodup_middle.mp different)).1
  have nothing (part : List α) (inside : part ⊆ before ++ after) : part.flatMap parts = [] := by
    apply List.flatMap_eq_nil_iff.mpr
    intro other inPart
    have inOthers := inside inPart
    apply others other
    · exact List.perm_middle.mem_iff.mpr (List.mem_cons_of_mem _ inOthers)
    · intro same
      exact alone (same ▸ inOthers)
  rw [List.flatMap_append, List.flatMap_cons, nothing before (List.subset_append_left _ _),
    nothing after (List.subset_append_right _ _), List.nil_append, List.append_nil]

/-! ## Sources -/

namespace Collected

/-- The edges of an identifier without a colon are those whose source it is up to the colon. -/
theorem edgesFrom_eq (collected : Collected) {id : String} (plain : ':' ∉ id.toList) :
    collected.edgesFrom id =
      collected.edges.toList.filter fun edge => stem edge.source = id.toList := by
  apply List.filter_congr
  intro edge _
  rw [Bool.eq_iff_iff, Bool.or_eq_true, decide_eq_true_iff, decide_eq_true_iff]
  by_cases colon : ':' ∈ edge.source.toList
  · rcases List.eq_append_cons_of_mem colon with ⟨node, port, split, noColon⟩
    have notId : edge.source ≠ id := fun same => plain (same ▸ colon)
    rw [stem, split, Diagram.splitPort_append_port noColon]
    simp [notId, ← String.toList_inj]
  · rw [stem, Diagram.splitPort_of_colon_not_mem colon]
    simp [String.toList_inj]

theorem mem_edgesFrom (collected : Collected) {id : String} (plain : ':' ∉ id.toList)
    (edge : Diagram.Edge) :
    edge ∈ collected.edgesFrom id <-> edge ∈ collected.edges ∧ stem edge.source = id.toList := by
  rw [collected.edgesFrom_eq plain, List.mem_filter, Array.mem_toList_iff, decide_eq_true_iff]

end Collected

/-- The ports of a node: the header of its table and the rows. -/
def Diagram.Node.ports (node : Diagram.Node) : List String :=
  node.component.elim [] fun component =>
    headerOf node.id :: rowPorts node.id component.dependencies.length

theorem Diagram.Node.mem_ports (node : Diagram.Node) (port : String) :
    port ∈ node.ports <->
      node.component.isSome ∧ port = headerOf node.id ∨ port ∈ node.numberedPorts := by
  unfold ports numberedPorts
  cases node.component <;> simp

theorem Diagram.Node.stem_of_mem_ports (node : Diagram.Node) {port : String}
    (plain : ':' ∉ node.id.toList) (member : port ∈ node.ports) : stem port = node.id.toList := by
  rcases (node.mem_ports port).mp member with ⟨_, header⟩ | numbered
  · rw [header]
    exact stem_headerOf plain
  · exact node.stem_of_mem_numberedPorts plain numbered

/-- How the nodes and edges that have been collected are found. -/
structure Collected.Divided (collected : Collected) : Prop where
  distinct : (collected.nodes.toList.map (·.id)).Nodup
  found : forall node, node ∈ collected.nodes -> collected.node? node.id = some node
  /-- The edges of a node are those that leave from it or from one of its ports. -/
  leaving : forall node, node ∈ collected.nodes ->
    collected.edgesFrom node.id =
      collected.edges.toList.filter fun edge => edge.source = node.id ∨ edge.source ∈ node.ports
  once : forall edge, edge ∈ collected.edges ->
    ∃! id, id ∈ collected.nodes.toList.map (·.id) ∧ edge ∈ collected.edgesFrom id
  apart : forall first second, first ∈ collected.nodes -> second ∈ collected.nodes ->
    first.id ≠ second.id -> (collected.edgesFrom first.id).Disjoint (collected.edgesFrom second.id)
  all : (collected.nodes.toList.flatMap fun node => collected.edgesFrom node.id).Perm
    collected.edges.toList

namespace Graph

variable {State : Type u} {graph : Graph} {root : NodeId} {unshared : List NodeId}
  {summary : Summary}

namespace Shown

variable {session : Session (Watched State)}

/-- Each edge leaves from a node or from one of its ports. -/
theorem source_of_node (shown : graph.Shown root unshared summary session) {edge : Diagram.Edge}
    (member : edge ∈ session.store.edges) :
    exists node, node ∈ session.store.nodes ∧
      (edge.source = node.id ∨ edge.source ∈ node.ports) := by
  rcases shown.source_cases member with isRoot | ⟨node, taken, numbered | ⟨provided, header⟩⟩
  · exact ⟨Session.rootNode, shown.nodes.mem_iff.mpr List.mem_cons_self, Or.inl isRoot⟩
  · exact ⟨node, taken, Or.inr ((node.mem_ports _).mpr (Or.inr numbered))⟩
  · have tabular : node.component.isSome := by
      rcases Option.any_eq_true _ _ |>.mp provided with ⟨component, isTable, _⟩
      rw [isTable]
      rfl
    exact ⟨node, taken, Or.inr ((node.mem_ports _).mpr (Or.inl ⟨tabular, header⟩))⟩

theorem stem_of_leaving (shown : graph.Shown root unshared summary session) {node : Diagram.Node}
    (taken : node ∈ session.store.nodes) {source : String}
    (leaves : source = node.id ∨ source ∈ node.ports) : stem source = node.id.toList := by
  have plain := shown.colon_not_mem_id taken
  rcases leaves with own | port
  · rw [own]
    exact stem_of_colon_not_mem plain
  · exact node.stem_of_mem_ports plain port

/-- What stands before the colon tells from which node an edge leaves. -/
theorem stem_source_iff (shown : graph.Shown root unshared summary session) {edge : Diagram.Edge}
    (member : edge ∈ session.store.edges) {node : Diagram.Node}
    (taken : node ∈ session.store.nodes) :
    stem edge.source = node.id.toList <-> edge.source = node.id ∨ edge.source ∈ node.ports := by
  constructor
  · intro same
    rcases shown.source_of_node member with ⟨other, takenToo, leaves⟩
    have sameId : other.id = node.id :=
      String.toList_injective ((shown.stem_of_leaving takenToo leaves).symm.trans same)
    rwa [List.inj_on_of_nodup_map shown.nodup_ids takenToo taken sameId] at leaves
  · exact shown.stem_of_leaving taken

theorem divided (shown : graph.Shown root unshared summary session) {collected : Collected}
    (nodes : session.store.nodes = collected.nodes.toList)
    (edges : session.store.edges = collected.edges.toList) : collected.Divided := by
  have taken {node : Diagram.Node} (member : node ∈ collected.nodes) :
      node ∈ session.store.nodes := by
    rw [nodes]
    exact Array.mem_toList_iff.mpr member
  have handed {edge : Diagram.Edge} (member : edge ∈ collected.edges) :
      edge ∈ session.store.edges := by
    rw [edges]
    exact Array.mem_toList_iff.mpr member
  have plain {node : Diagram.Node} (member : node ∈ collected.nodes) : ':' ∉ node.id.toList :=
    shown.colon_not_mem_id (taken member)
  have distinct : (collected.nodes.toList.map (·.id)).Nodup := nodes ▸ shown.nodup_ids
  refine ⟨distinct, fun node member => ?_, fun node member => ?_, fun edge member => ?_,
    fun first second inFirst inSecond different => ?_, ?_⟩
  · rw [Collected.node?, ← Array.find?_toList]
    exact find?_of_nodup_ids distinct (Array.mem_toList_iff.mpr member)
  · rw [collected.edgesFrom_eq (plain member)]
    apply List.filter_congr
    intro edge inEdges
    rw [Bool.eq_iff_iff, decide_eq_true_iff, decide_eq_true_iff]
    exact shown.stem_source_iff (handed (Array.mem_toList_iff.mp inEdges)) (taken member)
  · rcases shown.source_of_node (handed member) with ⟨node, inNodes, leaves⟩
    have inCollected : node ∈ collected.nodes := Array.mem_toList_iff.mp (nodes ▸ inNodes)
    have stemOf := shown.stem_of_leaving inNodes leaves
    refine ⟨node.id, ⟨List.mem_map_of_mem (nodes ▸ inNodes),
      (collected.mem_edgesFrom (plain inCollected) edge).mpr ⟨member, stemOf⟩⟩, ?_⟩
    rintro id ⟨isId, leavesToo⟩
    rcases List.mem_map.mp isId with ⟨other, inNodesToo, rfl⟩
    have stemToo := ((collected.mem_edgesFrom (plain (Array.mem_toList_iff.mp inNodesToo))
      edge).mp leavesToo).2
    exact String.toList_injective (stemToo.symm.trans stemOf)
  · apply List.disjoint_left.mpr
    intro edge fromFirst fromSecond
    have stemFirst := ((collected.mem_edgesFrom (plain inFirst) edge).mp fromFirst).2
    have stemSecond := ((collected.mem_edgesFrom (plain inSecond) edge).mp fromSecond).2
    exact different (String.toList_injective (stemFirst.symm.trans stemSecond))
  · have grouped : (collected.nodes.toList.flatMap fun node => collected.edgesFrom node.id) =
        ((collected.nodes.toList.map (·.id)).map String.toList).flatMap fun letters =>
          collected.edges.toList.filter fun edge => stem edge.source = letters := by
      rw [List.flatMap_map, List.flatMap_map]
      apply List.flatMap_congr
      intro node member
      exact collected.edgesFrom_eq (plain (Array.mem_toList_iff.mp member))
    have different : ((collected.nodes.toList.map (·.id)).map String.toList).Nodup :=
      distinct.map fun _ _ => String.toList_injective
    rw [grouped]
    apply groups_perm (fun edge : Diagram.Edge => stem edge.source) different
    intro edge member
    rcases shown.source_of_node (edges ▸ member) with ⟨node, inNodes, leaves⟩
    rw [shown.stem_of_leaving inNodes leaves]
    exact List.mem_map_of_mem (List.mem_map_of_mem (nodes ▸ inNodes))

end Shown

/-! ## Components from providers -/

theorem stem_of_mem_branchWires {session : Session (Watched State)} {node : NodeId} {owner : String}
    (plain : ':' ∉ owner.toList) {wire : Wire}
    (member : wire ∈ graph.branchWires node owner session) : stem wire.source = owner.toList := by
  rcases List.mem_map.mp member with ⟨_, _, rfl⟩
  exact stem_append_port plain

theorem stem_backWire (identifier : Identifier) (session : Session (Watched State)) :
    stem (backWire identifier.text session).source = identifier.text.toList :=
  stem_append_port identifier.colon_not_mem_text

/-- A component that is constructed has a row for each edge that leads on. -/
theorem length_dependencyRows {node : NodeId} (member : node ∈ graph.constructed root) :
    (dependencyRows (graph.dependencies node)).length = (graph.branches node).length := by
  rcases (graph.mem_constructed_iff root node).mp member with ⟨_, satisfaction, bound, composite⟩
  rw [dependencyRows, List.length_map, branches, bound, Option.any_some, if_pos composite]

namespace Shown

variable {session : Session (Watched State)}

/-- The wires of a node leave from one of the identifiers under which it is shown. -/
theorem stem_of_mem_wires (shown : graph.Shown root unshared summary session) {node : NodeId}
    (found : node ∈ graph.discovery root) {wire : Wire} (member : wire ∈ graph.wires session node) :
    exists id, id ∈ graph.shownIds session.registry node ∧ stem wire.source = id.toList := by
  have owner := shown.ownerOf_mem found
  have own := shown.own_mem found
  have plain := (session.registry.identifierFor node).colon_not_mem_text
  have plainProvider := (session.registry.identifierFor node).colon_not_mem_providerId
  have back (fromHeader : wire ∈ [backWire (session.registry.identifierFor node).text session]) :
      stem wire.source = (session.registry.identifierFor node).text.toList := by
    rw [List.mem_singleton.mp fromHeader]
    exact stem_backWire _ session
  unfold wires at member
  split at member
  · exact ⟨_, own, stem_of_mem_branchWires plain member⟩
  · next bound =>
    rcases List.mem_append.mp member with fromRow | fromHeader
    · rw [ownerOf, bound] at owner
      exact ⟨_, owner, stem_of_mem_branchWires plainProvider fromRow⟩
    · exact ⟨_, own, back fromHeader⟩
  · exact ⟨_, own, back member⟩
  · cases member

/-- What leaves from an identifier under which a node is shown is among the wires of that node. -/
theorem filter_stem_perm (shown : graph.Shown root unshared summary session) {node : NodeId}
    (found : node ∈ graph.discovery root) {id : String}
    (shownAs : id ∈ graph.shownIds session.registry node) :
    ((session.store.edges.map Diagram.Edge.wire).filter fun wire =>
        stem wire.source = id.toList).Perm
      ((graph.wires session node).filter fun wire => stem wire.source = id.toList) := by
  have fromRoot : (graph.rootWires root session).filter (fun wire =>
      stem wire.source = id.toList) = [] := by
    apply List.filter_eq_nil_iff.mpr
    intro wire member same
    rcases List.mem_map.mp member with ⟨edge, _, rfl⟩
    have stemRoot : stem "root" = "root".toList :=
      stem_of_colon_not_mem Identifier.root.colon_not_mem_text
    rw [decide_eq_true_iff, stemRoot, String.toList_inj] at same
    subst same
    exact shown.root_not_mem (List.mem_flatMap.mpr ⟨node, found, shownAs⟩)
  have others (other : NodeId) (foundToo : other ∈ graph.discovery root)
      (different : other ≠ node) :
      (graph.wires session other).filter (fun wire => stem wire.source = id.toList) = [] := by
    apply List.filter_eq_nil_iff.mpr
    intro wire member same
    rcases shown.stem_of_mem_wires foundToo member with ⟨otherId, shownToo, stemOf⟩
    rw [decide_eq_true_iff, stemOf, String.toList_inj] at same
    exact different (shown.eq_of_shown foundToo found shownToo (same ▸ shownAs))
  have nodes : (graph.discovery root).Nodup := graph.nodup_preorder _ _
  have all := shown.wires_perm.filter fun wire => stem wire.source = id.toList
  rwa [List.filter_append, fromRoot, List.nil_append, List.filter_flatMap,
    flatMap_eq_of_alone nodes found others] at all

/-- From a component whose provider is constructed only the edge back to the provider leaves. -/
theorem filter_back (shown : graph.Shown root unshared summary session) {node : NodeId}
    (found : node ∈ graph.discovery root) {provider type : ComponentType}
    (bound : graph.satisfaction? node = some (.ofProviderClass provider type)) :
    (session.store.edges.map Diagram.Edge.wire).filter (fun wire =>
        stem wire.source = (session.registry.identifierFor node).text.toList) =
      [backWire (session.registry.identifierFor node).text session] := by
  have all := shown.filter_stem_perm found (shown.own_mem found)
  rw [wires, bound] at all
  dsimp only at all
  generalize session.registry.identifierFor node = identifier at all ⊢
  have rows : (graph.branchWires node (providerId identifier.text) session).filter (fun wire =>
      stem wire.source = identifier.text.toList) = [] := by
    apply List.filter_eq_nil_iff.mpr
    intro wire member same
    rw [decide_eq_true_iff,
      stem_of_mem_branchWires identifier.colon_not_mem_providerId member,
      String.toList_inj] at same
    exact Identifier.providerId_ne_text _ _ same
  rw [List.filter_append, ← providerId, rows, List.nil_append, List.filter_singleton,
    stem_backWire, decide_eq_true rfl] at all
  exact List.perm_singleton.mp all

end Shown

/-! ## What a dump leaves behind in a sink that keeps everything -/

/-- What has been collected is what is handed over when the sink is watched. -/
theorem dump_collected {session : Session Collected}
    (dumped : graph.dump root unshared Sink.collecting .empty = (.ok summary, session)) :
    exists seen, graph.dump root unshared Sink.collecting.watched (.start .empty) =
        (.ok summary, seen) ∧
      seen.registry = session.registry ∧ seen.store.nodes = session.store.nodes.toList ∧
      seen.store.edges = session.store.edges.toList := by
  rcases graph.dump_alike root unshared Sink.collecting .empty with ⟨handovers, alike⟩
  rcases graph.dump_obliging root unshared Sink.obliging_collecting .empty with ⟨_, nodes, edges⟩
  rw [script, alike, dumped] at nodes edges
  rw [alike, dumped]
  exact ⟨session.watch handovers, rfl, rfl, nodes, edges⟩

/-- Each edge that a dump has collected is found under one identifier, and under each identifier the
edges that leave from it or from its ports.  A component from a provider that is shown has just the
edge back to its provider, and the provider has one edge for each row. -/
theorem dump_divided {session : Session Collected}
    (dumped : graph.dump root unshared Sink.collecting .empty = (.ok summary, session)) :
    session.store.Divided ∧
      forall node provider type, graph.Traversed root node -> node ≠ root ->
        graph.satisfaction? node = some (.ofProviderClass provider type) ->
        exists number, session.registry.identifier? node = some (.numbered number) ∧
          let id := "N" ++ toString number
          exists own auxiliary component back, session.store.node? id = some own ∧
            session.store.node? (id ++ "P") = some auxiliary ∧
            auxiliary.component = some component ∧ session.store.edgesFrom id = [back] ∧
            back.wire = ⟨id ++ ":" ++ "H", some auxiliary.target,
              [("style", .text "dotted"), ("dir", .text "back"), ("arrowhead", .text "vee")]⟩ ∧
            (session.store.edgesFrom (id ++ "P")).map (·.source) =
              rowPorts (id ++ "P") component.dependencies.length := by
  rcases dump_collected dumped with ⟨seen, watched, registry, nodes, edges⟩
  have shown := dump_shown Sink.obliging_collecting watched
  refine ⟨shown.divided nodes edges, fun node provider type traversed notRoot bound => ?_⟩
  have found : node ∈ graph.discovery root :=
    (graph.mem_discovery_iff root node).mpr ⟨traversed, notRoot⟩
  have made : node ∈ graph.constructed root :=
    (graph.mem_constructed_iff root node).mpr ⟨found, _, bound, rfl⟩
  rcases shown.numbered found with ⟨number, known⟩
  have identifier := Registry.identifierFor_of_known known
  have owner : graph.ownerOf seen.registry node = providerId (Identifier.numbered number).text := by
    rw [ownerOf, bound, identifier]
    rfl
  have lookup (id : String) : session.store.node? id =
      seen.store.nodes.find? fun other => other.id = id := by
    rw [Collected.node?, nodes, Array.find?_toList]
  have leaving {id : String} (plain : ':' ∉ id.toList) :
      (session.store.edgesFrom id).map Diagram.Edge.wire =
        (seen.store.edges.map Diagram.Edge.wire).filter fun wire =>
          stem wire.source = id.toList := by
    rw [session.store.edgesFrom_eq plain, List.filter_map, edges]
    rfl
  refine ⟨number, registry ▸ known, ?_⟩
  -- The node itself and the edge back.
  rcases shown.provided_bare found (by rw [bound]; rfl) with ⟨bare, ownTable, _⟩
  rw [identifier] at ownTable
  rcases Option.bind_eq_some_iff.mp ownTable with ⟨own, ownFound, _⟩
  have backWires := shown.filter_back found bound
  rw [identifier, ← leaving (Identifier.numbered number).colon_not_mem_text] at backWires
  rcases List.map_eq_singleton_iff.mp backWires with ⟨back, ownEdges, wire⟩
  -- The provider and its rows.
  rcases shown.rows made with ⟨component, table, _, dependencies, _⟩
  rw [owner] at table
  rcases Option.bind_eq_some_iff.mp table with ⟨auxiliary, auxiliaryFound, tabular⟩
  have auxiliaryId : auxiliary.id = providerId (Identifier.numbered number).text := by
    simpa using List.find?_some auxiliaryFound
  have target := shown.targetOf_eq (List.mem_of_find?_eq_some auxiliaryFound)
  rw [auxiliaryId] at target
  rcases dump_in_sequence Sink.obliging_collecting watched with ⟨steps, _, sequenced⟩
  have rows := sequenced.fromRows node (sequenced.covers ▸ found)
  rw [owner, ← leaving (Identifier.numbered number).colon_not_mem_providerId] at rows
  have sources := congrArg (List.map Wire.source) rows
  rw [List.map_map, map_source_branchWires, ← length_dependencyRows made, ← dependencies]
    at sources
  refine ⟨own, auxiliary, component, back, (lookup _).trans ownFound,
    (lookup _).trans auxiliaryFound, tabular, ownEdges, wire.trans ?_, sources⟩
  exact congrArg (fun target => Wire.mk (headerOf _) target _) target

/-- In the ring the node behind the root comes from a provider, and the edges to both dependencies
leave from there. -/
theorem ring_divided :
    let dumped := ring.dump 0 [] Sink.collecting .empty
    dumped.1 = .ok ⟨4, 6, 0⟩ ∧ dumped.2.store.Divided ∧
      (exists back, dumped.2.store.edgesFrom "N1" = [back] ∧ back.source = "N1:H") ∧
      (dumped.2.store.edgesFrom "N1P").map (·.source) = ["N1P:1", "N1P:2"] := by
  have success : (ring.dump 0 [] Sink.collecting .empty).1 = .ok ⟨4, 6, 0⟩ := rfl
  have dumped : ring.dump 0 [] Sink.collecting .empty =
      (.ok ⟨4, 6, 0⟩, (ring.dump 0 [] Sink.collecting .empty).2) := Prod.ext success rfl
  rcases dump_divided dumped with ⟨divided, providers⟩
  have leaves : ring.edges[0] ∈ ring.outgoingEdges 0 := List.mem_singleton_self _
  have traversed : ring.Traversed 0 1 := .first leaves
  rcases providers 1 _ _ traversed (by decide) rfl with
    ⟨number, known, own, auxiliary, component, back, _, provider, tabular, edges, wire, rows⟩
  have first : (ring.dump 0 [] Sink.collecting .empty).2.registry.identifier? 1 =
      some (.numbered 1) := rfl
  cases first.symm.trans known
  have id : "N" ++ toString 1 = "N1" := rfl
  have provided : "N1" ++ "P" = "N1P" := rfl
  have header : "N1" ++ ":" ++ "H" = "N1:H" := rfl
  have ports : rowPorts "N1P" 2 = ["N1P:1", "N1P:2"] := rfl
  have tables : (((ring.dump 0 [] Sink.collecting .empty).2.store.node? "N1P").bind
      (·.component)).map (·.dependencies.length) = some 2 := rfl
  rw [id] at edges wire
  rw [id, provided] at provider rows
  rw [header] at wire
  rw [provider, Option.bind_some, tabular, Option.map_some] at tables
  rw [Option.some.inj tables, ports] at rows
  exact ⟨success, divided, ⟨back, edges, congrArg Wire.source wire⟩, rows⟩

end Graph
end InjectionPlan
