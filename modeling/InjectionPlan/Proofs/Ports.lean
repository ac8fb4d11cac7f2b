import InjectionPlan.Proofs.Wires
import Mathlib.Data.List.Perm.Basic

namespace InjectionPlan

/-!
# Where edges start and end

From the wires of a dump it follows that the diagram is closed: each edge ends at one of its nodes,
and leaves from the root, from the row of a table or from the header of a component that comes from
a provider.  Each row of each table has its edge, since a table has a row for each edge that leads
on and the rows are numbered as the edges are.
-/

/-! ## Numbered ports -/

/-- The ports of a number of rows. -/
def rowPorts (owner : String) (rows : Nat) : List String :=
  (List.range' 1 rows).map fun port => owner ++ ":" ++ toString port

/-- The numbered ports of a node: those of the rows in its table. -/
def Diagram.Node.numberedPorts (node : Diagram.Node) : List String :=
  node.component.elim [] fun component => rowPorts node.id component.dependencies.length

/-- The port of a row tells the number of the row. -/
theorem eq_of_rowPort {owner : String} {first second : Nat}
    (same : owner ++ ":" ++ toString first = owner ++ ":" ++ toString second) :
    first = second := by
  have letters := congrArg String.toList same
  simp only [String.toList_append] at letters
  have numerals := String.toList_injective (List.append_cancel_left letters)
  have texts : (Identifier.numbered first).text = (Identifier.numbered second).text :=
    congrArg ("N" ++ ·) numerals
  cases Identifier.text_injective texts
  rfl

theorem nodup_rowPorts (owner : String) (rows : Nat) : (rowPorts owner rows).Nodup := by
  apply (List.nodup_range' 1).map
  intro first second same
  exact eq_of_rowPort same

theorem stem_of_mem_rowPorts {owner port : String} {rows : Nat} (plain : ':' ∉ owner.toList)
    (member : port ∈ rowPorts owner rows) : stem port = owner.toList := by
  rcases List.mem_map.mp member with ⟨number, _, rfl⟩
  exact stem_append_port plain

theorem Diagram.Node.mem_numberedPorts (node : Diagram.Node) {port : String}
    (member : port ∈ node.numberedPorts) :
    exists component, node.component = some component ∧
      port ∈ rowPorts node.id component.dependencies.length := by
  unfold numberedPorts at member
  cases shown : node.component with
  | none =>
      rw [shown] at member
      cases member
  | some component =>
      rw [shown] at member
      exact ⟨component, rfl, member⟩

theorem Diagram.Node.stem_of_mem_numberedPorts (node : Diagram.Node) {port : String}
    (plain : ':' ∉ node.id.toList) (member : port ∈ node.numberedPorts) :
    stem port = node.id.toList := by
  rcases node.mem_numberedPorts member with ⟨component, _, inRows⟩
  exact stem_of_mem_rowPorts plain inRows

theorem Identifier.text_not_mem_rowPorts (identifier : Identifier) (owner : String) (rows : Nat) :
    identifier.text ∉ rowPorts owner rows := by
  intro member
  rcases List.mem_map.mp member with ⟨number, _, same⟩
  apply identifier.colon_not_mem_text
  rw [← same, String.toList_append, String.toList_append]
  exact List.mem_append_left _ (List.mem_append_right _ (by decide))

/-- The header has no number. -/
theorem headerOf_not_mem_rowPorts (id owner : String) (rows : Nat) :
    headerOf id ∉ rowPorts owner rows := by
  intro member
  rcases List.mem_map.mp member with ⟨number, _, same⟩
  have letters := congrArg (fun text => text.toList.getLast?) same
  have header : (headerOf id).toList.getLast? = some 'H' := by
    simp [headerOf, Diagram.headerPort]
  have digits : (toString number).toList = Nat.toDigits 10 number := by
    rw [Nat.toString_eq_repr, Nat.toList_repr]
  have nonempty : Nat.toDigits 10 number ≠ [] := Nat.toDigits_ne_nil
  rw [header, String.toList_append, List.getLast?_append, digits,
    List.getLast?_eq_some_getLast nonempty] at letters
  have last : (Nat.toDigits 10 number).getLast nonempty = 'H' := by simpa using letters
  have digit := Nat.isDigit_of_mem_toDigits (by decide) (by decide) (List.getLast_mem nonempty)
  rw [last] at digit
  cases digit

/-! ## The tables of a node -/

/-- What comes from a provider is marked so. -/
theorem Scene.provided_mem_portrait (scene : Scene) (node : NodeId) (data : Node)
    {satisfaction : Satisfaction} (provided : satisfaction.provider?.isSome) (id : String) :
    exists shown, shown ∈ (scene.portrait node data satisfaction id).nodes ∧ shown.id = id ∧
      shown.component.any (·.provided) := by
  cases satisfaction with
  | null type => cases provided
  | ofInstance type value => cases provided
  | ofClass type => cases provided
  | ofProviderClass provider type =>
      exact ⟨_, List.mem_cons_of_mem _ (List.mem_singleton_self _), rfl, rfl⟩
  | ofProviderInstance provider label type =>
      exact ⟨_, List.mem_cons_of_mem _ (List.mem_singleton_self _), rfl, rfl⟩

theorem Diagram.Component.label?_toNode (component : Diagram.Component) (id : String) :
    (component.toNode id).label? = some (.html component.label) := by
  simp [toNode, Diagram.Node.label?, Diagram.Node.set]

/-- A table is what its label says. -/
theorem Scene.label?_portrait (scene : Scene) (node : NodeId) (data : Node)
    (satisfaction : Satisfaction) (id : String) {shown : Diagram.Node}
    (member : shown ∈ (scene.portrait node data satisfaction id).nodes)
    {component : Diagram.Component} (tabular : shown.component = some component) :
    shown.label? = some (.html component.label) := by
  cases satisfaction with
  | null type =>
      rw [List.mem_singleton.mp member] at tabular
      cases tabular
  | ofInstance type value =>
      rw [List.mem_singleton.mp member] at tabular
      cases tabular
  | ofClass type =>
      rw [List.mem_singleton.mp member] at tabular ⊢
      cases tabular
      exact Diagram.Component.label?_toNode _ _
  | ofProviderClass provider type =>
      rcases List.mem_cons.mp member with first | last
      · rw [first] at tabular ⊢
        cases tabular
        exact Diagram.Component.label?_toNode _ _
      · rw [List.mem_singleton.mp last] at tabular ⊢
        cases tabular
        exact Diagram.Component.label?_toNode _ _
  | ofProviderInstance provider label type =>
      rcases List.mem_cons.mp member with first | last
      · rw [first] at tabular
        cases tabular
      · rw [List.mem_singleton.mp last] at tabular ⊢
        cases tabular
        exact Diagram.Component.label?_toNode _ _

theorem Diagram.Component.addParameter_eq (component : Diagram.Component) (qualifier : Qualifier)
    (value : Option Instance) :
    component.addParameter qualifier value =
      { component with
        parameters := component.parameters ++
          [qualifier.display ++ ": " ++ value.elim "unbound" fun value => value.display] } := by
  cases value <;> rfl

namespace Graph

/-- The rows of the parameters that edges ask for. -/
def parameterRows (graph : Graph) (edges : List Edge) : List String :=
  edges.filterMap fun edge => edge.desire.parameter?.map fun qualifier =>
    qualifier.display ++ ": " ++ (graph.value? edge.tail).elim "unbound" fun value => value.display

/-- The rows of the dependencies that edges ask for. -/
def dependencyRows (edges : List Edge) : List String :=
  (leadingOn edges).map fun edge => edge.desire.display

/-- By filling in edges their rows are added. -/
theorem filled_eq (graph : Graph) (edges : List Edge) (component : Diagram.Component) :
    graph.filled edges component =
      { component with
        parameters := component.parameters ++ graph.parameterRows edges
        dependencies := component.dependencies ++ dependencyRows edges } := by
  induction edges generalizing component with
  | nil => simp [filled, parameterRows, dependencyRows, leadingOn]
  | cons edge rest ih =>
      unfold filled
      cases asked : edge.desire.parameter? with
      | some qualifier =>
          dsimp only
          rw [ih, Diagram.Component.addParameter_eq, dependencyRows, dependencyRows,
            leadingOn_cons_of_parameter asked]
          simp [parameterRows, asked, value?]
      | none =>
          dsimp only
          rw [ih, dependencyRows, dependencyRows, leadingOn_cons_of_dependency asked]
          simp [Diagram.Component.addDependency, parameterRows, asked]

/-- Each edge that leads on has its row. -/
theorem length_dependencies_filled (graph : Graph) (edges : List Edge)
    (component : Diagram.Component) :
    (graph.filled edges component).dependencies.length =
      component.dependencies.length + (leadingOn edges).length := by
  rw [filled_eq, List.length_append, dependencyRows, List.length_map]

variable {State : Type u} {graph : Graph}

theorem map_source_branchWires (graph : Graph) (node : NodeId) (owner : String)
    (session : Session (Watched State)) :
    (graph.branchWires node owner session).map Wire.source =
      rowPorts owner (graph.branches node).length := by
  rw [branchWires, List.map_map, rowPorts, ← List.zipIdx_map_snd 1 (graph.branches node),
    List.map_map]
  rfl

/-- The header of a component that comes from a provider. -/
def providedHeaders (graph : Graph) (registry : Registry) (node : NodeId) : List String :=
  (graph.satisfaction? node).elim [] fun satisfaction =>
    satisfaction.provider?.elim [] fun _ => [headerOf (registry.identifierFor node).text]

theorem mem_providedHeaders (graph : Graph) {registry : Registry} {node : NodeId} {header : String}
    (member : header ∈ graph.providedHeaders registry node) :
    exists satisfaction, graph.satisfaction? node = some satisfaction ∧
      satisfaction.provider?.isSome ∧ header = headerOf (registry.identifierFor node).text := by
  unfold providedHeaders at member
  cases bound : graph.satisfaction? node with
  | none =>
      rw [bound] at member
      cases member
  | some satisfaction =>
      rw [bound, Option.elim_some] at member
      cases provider : satisfaction.provider? with
      | none =>
          rw [provider] at member
          cases member
      | some type =>
          rw [provider] at member
          refine ⟨satisfaction, rfl, ?_, List.mem_singleton.mp member⟩
          rw [provider]
          rfl

theorem target_of_mem_wires (graph : Graph) (session : Session (Watched State)) (node : NodeId)
    {wire : Wire} (member : wire ∈ graph.wires session node) :
    exists id, wire.target = session.store.targetOf id := by
  have branch {owner : String} (fromRow : wire ∈ graph.branchWires node owner session) :
      exists id, wire.target = session.store.targetOf id := by
    rcases List.mem_map.mp fromRow with ⟨_, _, rfl⟩
    exact ⟨_, rfl⟩
  have back {id : String} (fromHeader : wire ∈ [backWire id session]) :
      exists id, wire.target = session.store.targetOf id := by
    rw [List.mem_singleton.mp fromHeader]
    exact ⟨_, rfl⟩
  unfold wires at member
  split at member
  · exact branch member
  · rcases List.mem_append.mp member with fromRow | fromHeader
    · exact branch fromRow
    · exact back fromHeader
  · exact back member
  · cases member

/-- The sources of the wires of a node are its numbered ports and the header of what comes from a
provider. -/
theorem map_source_wires {scene : Scene} {session : Session (Watched State)} {node : NodeId}
    {data : Node} {satisfaction : Satisfaction}
    (bound : scene.graph.satisfaction? node = some satisfaction) :
    (scene.graph.wires session node).map Wire.source =
      (scene.portraitIn session.registry node data satisfaction).nodes.flatMap
          Diagram.Node.numberedPorts ++
        satisfaction.provider?.elim [] fun _ =>
          [headerOf (session.registry.identifierFor node).text] := by
  have rows (type : ComponentType) (provider : Bool) (composite : satisfaction.isComposite = true) :
      (scene.table node data type provider).dependencies.length =
        (scene.graph.branches node).length := by
    rw [Scene.table, length_dependencies_filled, branches, bound, Option.any_some, composite,
      if_pos rfl]
    exact Nat.zero_add _
  have sources (owner : String) := scene.graph.map_source_branchWires node owner session
  rw [wires, bound]
  cases satisfaction with
  | null type => rfl
  | ofInstance type value => rfl
  | ofClass type =>
      apply (sources _).trans
      change _ = (rowPorts _ (scene.table node data type false).dependencies.length ++ []) ++ []
      rw [rows type false rfl, List.append_nil, List.append_nil]
      rfl
  | ofProviderClass provider type =>
      dsimp only
      rw [List.map_append, sources]
      change _ = (rowPorts _ (scene.table node data provider true).dependencies.length ++ []) ++ _
      rw [rows provider true rfl, List.append_nil]
      rfl
  | ofProviderInstance provider label type => rfl

namespace Shown

variable {root : NodeId} {unshared : List NodeId} {summary : Summary}
  {session : Session (Watched State)}

/-- The sources of all edges: the root, each numbered port once, and the headers of the components
that come from providers. -/
theorem sources_perm (shown : graph.Shown root unshared summary session) :
    (session.store.edges.map (·.source)).Perm
      ((graph.outgoingEdges root).map (fun _ => "root") ++
        (session.store.nodes.flatMap Diagram.Node.numberedPorts ++
          (graph.discovery root).flatMap (graph.providedHeaders session.registry))) := by
  have wires := shown.wires_perm.map Wire.source
  rw [List.map_map, List.map_append, List.map_flatMap, rootWires, List.map_map] at wires
  refine wires.trans (List.Perm.append_left _ ?_)
  have own (node : NodeId) (found : node ∈ graph.discovery root) :
      (graph.wires session node).map Wire.source =
        ((graph.scene unshared).descriptors session.registry node).flatMap
            Diagram.Node.numberedPorts ++
          graph.providedHeaders session.registry node := by
    rcases shown.portrayed found with ⟨data, satisfaction, bound, portrayed⟩
    have inScene : (graph.scene unshared).graph.satisfaction? node = some satisfaction := bound
    rw [providedHeaders, bound, Option.elim_some, Scene.descriptors, portrayed]
    exact map_source_wires inScene
  rw [List.flatMap_congr own]
  refine (List.flatMap_append_perm _ _ _).symm.trans (List.Perm.append_right _ ?_)
  rw [← List.flatMap_assoc]
  have ports := (shown.nodes.flatMap_right Diagram.Node.numberedPorts).symm
  exact ports

theorem colon_not_mem_id (shown : graph.Shown root unshared summary session)
    {node : Diagram.Node} (member : node ∈ session.store.nodes) : ':' ∉ node.id.toList := by
  rw [← shown.stem_target member]
  intro colon
  have different := List.mem_takeWhile_imp colon
  simp at different

theorem nodup_ports (shown : graph.Shown root unshared summary session) :
    (session.store.nodes.flatMap Diagram.Node.numberedPorts).Nodup := by
  refine List.nodup_flatMap.mpr ⟨fun node member => ?_, ?_⟩
  · unfold Diagram.Node.numberedPorts
    cases node.component with
    | none => exact List.nodup_nil
    | some component => exact nodup_rowPorts _ _
  · have different := List.pairwise_map.mp shown.nodup_ids
    apply different.imp_of_mem
    intro left right inLeft inRight different
    apply List.disjoint_left.mpr
    intro port first second
    have leftStem := left.stem_of_mem_numberedPorts (shown.colon_not_mem_id inLeft) first
    have rightStem := right.stem_of_mem_numberedPorts (shown.colon_not_mem_id inRight) second
    exact different (String.toList_injective (leftStem.symm.trans rightStem))

/-- From each numbered port one edge leaves. -/
theorem count_source (shown : graph.Shown root unshared summary session) {node : Diagram.Node}
    (member : node ∈ session.store.nodes) {port : String} (numbered : port ∈ node.numberedPorts) :
    (session.store.edges.map (·.source)).count port = 1 := by
  rcases node.mem_numberedPorts numbered with ⟨component, _, inRows⟩
  have notRoot : port ∉ (graph.outgoingEdges root).map fun _ => "root" := by
    intro inRoot
    rcases List.mem_map.mp inRoot with ⟨_, _, same⟩
    exact Identifier.root.text_not_mem_rowPorts _ _ (same ▸ inRows)
  have notHeader : port ∉ (graph.discovery root).flatMap
      (graph.providedHeaders session.registry) := by
    intro inHeaders
    rcases List.mem_flatMap.mp inHeaders with ⟨other, _, header⟩
    rcases graph.mem_providedHeaders header with ⟨_, _, _, same⟩
    exact headerOf_not_mem_rowPorts _ _ _ (same ▸ inRows)
  have once := List.count_eq_one_of_mem shown.nodup_ports
    (List.mem_flatMap.mpr ⟨node, member, numbered⟩)
  rw [shown.sources_perm.count_eq, List.count_append, List.count_append, once,
    List.count_eq_zero_of_not_mem notRoot, List.count_eq_zero_of_not_mem notHeader]

/-- An edge leaves from the root, from a numbered port, or from the header of a component that
comes from a provider. -/
theorem source_cases (shown : graph.Shown root unshared summary session) {edge : Diagram.Edge}
    (member : edge ∈ session.store.edges) :
    edge.source = "root" ∨ exists node, node ∈ session.store.nodes ∧
      (edge.source ∈ node.numberedPorts ∨
        node.component.any (·.provided) ∧ edge.source = headerOf node.id) := by
  have source := shown.sources_perm.mem_iff.mp (List.mem_map_of_mem member)
  rcases List.mem_append.mp source with fromRoot | behind
  · rcases List.mem_map.mp fromRoot with ⟨_, _, same⟩
    exact Or.inl same.symm
  · rcases List.mem_append.mp behind with fromRow | fromHeader
    · rcases List.mem_flatMap.mp fromRow with ⟨node, inNodes, numbered⟩
      exact Or.inr ⟨node, inNodes, Or.inl numbered⟩
    · rcases List.mem_flatMap.mp fromHeader with ⟨node, found, header⟩
      rcases graph.mem_providedHeaders header with ⟨satisfaction, bound, provided, same⟩
      rcases shown.portrayed found with ⟨data, other, boundToo, portrayed⟩
      cases bound.symm.trans boundToo
      rcases (graph.scene unshared).provided_mem_portrait node data provided
          (session.registry.identifierFor node).text with ⟨own, inPortrait, id, marked⟩
      exact Or.inr ⟨own, shown.taken found portrayed inPortrait, Or.inr ⟨marked, by rw [id, same]⟩⟩

/-- Every edge ends at a node that has been taken. -/
theorem target_mem (shown : graph.Shown root unshared summary session) {edge : Diagram.Edge}
    (member : edge ∈ session.store.edges) :
    edge.target ∈ session.store.nodes.map (·.target) := by
  have wire := shown.wires_perm.mem_iff.mp (List.mem_map_of_mem member)
  obtain ⟨id, target⟩ : exists id, edge.wire.target = session.store.targetOf id := by
    rcases List.mem_append.mp wire with fromRoot | behind
    · rcases List.mem_map.mp fromRoot with ⟨_, _, same⟩
      exact ⟨_, congrArg Wire.target same.symm⟩
    · rcases List.mem_flatMap.mp behind with ⟨node, _, inWires⟩
      exact graph.target_of_mem_wires session node inWires
  rcases Option.map_eq_some_iff.mp target.symm with ⟨node, found, same⟩
  exact same ▸ List.mem_map_of_mem (List.mem_of_find?_eq_some found)

/-- The table of a node that has been taken is what its label says. -/
theorem label?_eq (shown : graph.Shown root unshared summary session) {node : Diagram.Node}
    (member : node ∈ session.store.nodes) {component : Diagram.Component}
    (tabular : node.component = some component) : node.label? = some (.html component.label) := by
  rcases List.mem_cons.mp (shown.nodes.mem_iff.mp member) with isRoot | behind
  · rw [isRoot] at tabular
    cases tabular
  · rcases List.mem_flatMap.mp behind with ⟨found, inDiscovery, inDescriptors⟩
    rcases shown.portrayed inDiscovery with ⟨data, satisfaction, _, portrayed⟩
    rw [Scene.descriptors, portrayed] at inDescriptors
    exact Scene.label?_portrait _ found data satisfaction _ inDescriptors tabular

end Shown

/-- A dump that succeeds hands over the wires of the root and of the nodes that are met, and no
others.  So each edge ends at one node of the diagram, each numbered port has one edge, and each
edge leaves from a place that is shown. -/
theorem dump_wires {root : NodeId} {unshared : List NodeId} {sink : Sink State}
    (obliging : sink.Obliging) {store : State} {summary : Summary}
    {session : Session (Watched State)}
    (dumped : graph.dump root unshared sink.watched (.start store) = (.ok summary, session)) :
    (exists nodes : List NodeId, nodes.Nodup ∧
        (forall node, node ∈ nodes <-> graph.Traversed root node ∧ node ≠ root) ∧
        (session.store.nodes.map (·.id)).Perm
          ("root" :: nodes.flatMap (graph.shownIds session.registry)) ∧
        (session.store.nodes.map (·.id)).Nodup ∧
        (session.store.edges.map Diagram.Edge.wire).Perm
          (graph.rootWires root session ++ nodes.flatMap (graph.wires session))) ∧
      (forall edge, edge ∈ session.store.edges ->
        (session.store.nodes.map (·.target)).count edge.target = 1) ∧
      (forall node, node ∈ session.store.nodes -> forall port, port ∈ node.numberedPorts ->
        (session.store.edges.map (·.source)).count port = 1) ∧
      (forall edge, edge ∈ session.store.edges ->
        edge.source = "root" ∨ exists node, node ∈ session.store.nodes ∧
          (edge.source ∈ node.numberedPorts ∨
            node.component.any (·.provided) ∧ edge.source = headerOf node.id)) ∧
      (forall node component, node ∈ session.store.nodes -> node.component = some component ->
        node.label? = some (.html component.label)) ∧
      summary.edges = session.store.edges.length := by
  have shown := dump_shown obliging dumped
  refine ⟨⟨graph.discovery root, graph.nodup_preorder _ _, graph.mem_discovery_iff root,
    shown.ids_perm, shown.nodup_ids, shown.wires_perm⟩, fun edge member => ?_,
    fun node member port numbered => shown.count_source member numbered,
    fun edge member => shown.source_cases member,
    fun node component member tabular => shown.label?_eq member tabular, shown.edgesCounted⟩
  exact List.count_eq_one_of_mem shown.nodup_targets (shown.target_mem member)

/-- In the ring an edge leads back to the root, and others to nodes that are still being shown when
the edge is found. -/
theorem ring_wired :
    let dumped := ring.dump 0 [] Sink.collecting.watched (.start .empty)
    dumped.1 = .ok ⟨4, 6, 0⟩ ∧
      (exists nodes : List NodeId, (forall node, node ∈ nodes <->
          ring.Traversed 0 node ∧ node ≠ 0) ∧
        (dumped.2.store.edges.map Diagram.Edge.wire).Perm
          (ring.rootWires 0 dumped.2 ++ nodes.flatMap (ring.wires dumped.2))) ∧
      (forall edge, edge ∈ dumped.2.store.edges ->
        (dumped.2.store.nodes.map (·.target)).count edge.target = 1) ∧
      (forall node, node ∈ dumped.2.store.nodes -> forall port, port ∈ node.numberedPorts ->
        (dumped.2.store.edges.map (·.source)).count port = 1) := by
  have success : (ring.dump 0 [] Sink.collecting.watched (.start .empty)).1 = .ok ⟨4, 6, 0⟩ := rfl
  rcases dump_wires Sink.obliging_collecting (Prod.ext success rfl) with
    ⟨⟨nodes, _, covered, _, _, wires⟩, targets, ports, _⟩
  exact ⟨success, ⟨nodes, covered, wires⟩, targets, ports⟩

end Graph
end InjectionPlan
