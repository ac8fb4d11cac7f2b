import Mathlib.Algebra.GroupWithZero.Nat
import InjectionPlan.Proofs.Logging
import InjectionPlan.Proofs.Ports
import InjectionPlan.Proofs.Sequence

namespace InjectionPlan

/-!
# The rows of tables

In the table of a component that is constructed, or of its provider, each edge that leaves the
component has one row: a parameter with its value, or a dependency (`Graph.filled_eq`).  All other
tables are without rows.  The parameters without a value are counted where the rows are made, each
of them once, whatever happens between two rows, and for each of them there is a warning in the log
(`Graph.dump_rows`).  The root has no table.  Its edges are all followed, also if they ask for a
parameter, and they are not counted.
-/

/-- The table of the node that was taken under an identifier. -/
def Watched.componentOf {State : Type u} (watched : Watched State) (id : String) :
    Option Diagram.Component :=
  (watched.nodes.find? fun node => node.id = id).bind (·.component)

namespace Graph

/-- The components that are constructed, of those that are met. -/
def constructed (graph : Graph) (root : NodeId) : List NodeId :=
  (graph.discovery root).filter fun node =>
    (graph.satisfaction? node).any Satisfaction.isComposite

theorem mem_constructed_iff (graph : Graph) (root node : NodeId) :
    node ∈ graph.constructed root <-> node ∈ graph.discovery root ∧
      exists satisfaction, graph.satisfaction? node = some satisfaction ∧
        satisfaction.isComposite = true := by
  rw [constructed, List.mem_filter]
  cases graph.satisfaction? node <;> simp

/-! ## The rows of one table -/

/-- Each edge has one row. -/
theorem length_rows (graph : Graph) (edges : List Edge) :
    (graph.parameterRows edges).length + (dependencyRows edges).length = edges.length := by
  induction edges with
  | nil => rfl
  | cons edge rest ih =>
      cases asked : edge.desire.parameter? with
      | some qualifier =>
          rw [dependencyRows, leadingOn_cons_of_parameter asked]
          simp only [parameterRows, dependencyRows, List.filterMap_cons, asked, Option.map_some,
            List.length_cons] at ih ⊢
          omega
      | none =>
          rw [dependencyRows, leadingOn_cons_of_dependency asked]
          simp only [parameterRows, dependencyRows, List.filterMap_cons, asked, Option.map_none,
            List.length_cons, List.map_cons] at ih ⊢
          omega

theorem missing_rootStops (edges : List Edge) : (rootStops edges).flatMap Stop.missing = [] := by
  induction edges with
  | nil => rfl
  | cons edge rest ih => exact ih

end Graph

namespace Scene

variable (scene : Scene) (registry : Registry) (node : NodeId) (data : Node)

theorem parameters_table (type : ComponentType) (provider : Bool) :
    (scene.table node data type provider).parameters =
      scene.graph.parameterRows (scene.graph.dependencies node) := by
  rw [table, Graph.filled_eq]
  rfl

theorem dependencies_table (type : ComponentType) (provider : Bool) :
    (scene.table node data type provider).dependencies =
      Graph.dependencyRows (scene.graph.dependencies node) := by
  rw [table, Graph.filled_eq]
  rfl

/-- A component that is constructed has a table where the edges to its dependencies leave. -/
theorem table_mem_portrait {satisfaction : Satisfaction}
    (composite : satisfaction.isComposite = true) (id : String) :
    exists type provider, (scene.table node data type provider).toNode
        (scene.portrait node data satisfaction id).owner ∈
      (scene.portrait node data satisfaction id).nodes := by
  cases satisfaction with
  | null type => cases composite
  | ofInstance type value => cases composite
  | ofClass type => exact ⟨type, false, List.mem_singleton_self _⟩
  | ofProviderClass provider type => exact ⟨provider, true, List.mem_cons_self⟩
  | ofProviderInstance provider label type => cases composite

/-- What comes from a provider has a table. -/
theorem providedTable_mem_portrait {satisfaction : Satisfaction}
    (provided : satisfaction.provider?.isSome) (id : String) :
    exists type, (scene.providedTable node data type).toNode id ∈
      (scene.portrait node data satisfaction id).nodes := by
  cases satisfaction with
  | null type => cases provided
  | ofInstance type value => cases provided
  | ofClass type => cases provided
  | ofProviderClass provider type =>
      exact ⟨type, List.mem_cons_of_mem _ (List.mem_singleton_self _)⟩
  | ofProviderInstance provider label type =>
      exact ⟨type, List.mem_cons_of_mem _ (List.mem_singleton_self _)⟩

/-- A node has no other tables. -/
theorem component_portrait {satisfaction : Satisfaction} {id : String} {shown : Diagram.Node}
    (member : shown ∈ (scene.portrait node data satisfaction id).nodes)
    {component : Diagram.Component} (tabular : shown.component = some component) :
    satisfaction.isComposite = true ∧
        shown.id = (scene.portrait node data satisfaction id).owner ∨
      component.provided = true ∧ component.parameters = [] ∧ component.dependencies = [] := by
  cases satisfaction with
  | null type =>
      rw [List.mem_singleton.mp member] at tabular
      cases tabular
  | ofInstance type value =>
      rw [List.mem_singleton.mp member] at tabular
      cases tabular
  | ofClass type =>
      rw [List.mem_singleton.mp member]
      exact Or.inl ⟨rfl, rfl⟩
  | ofProviderClass provider type =>
      rcases List.mem_cons.mp member with first | last
      · rw [first]
        exact Or.inl ⟨rfl, rfl⟩
      · rw [List.mem_singleton.mp last] at tabular
        cases tabular
        exact Or.inr ⟨rfl, rfl, rfl⟩
  | ofProviderInstance provider label type =>
      rcases List.mem_cons.mp member with first | last
      · rw [first] at tabular
        cases tabular
      · rw [List.mem_singleton.mp last] at tabular
        cases tabular
        exact Or.inr ⟨rfl, rfl, rfl⟩

end Scene
/-! ## The rows of a dump -/

namespace Graph

variable {State : Type u}

/-- How the tables, the count and the warnings of a session that has ended fit the edges of the
components that are constructed. -/
structure Tabled (graph : Graph) (root : NodeId) (summary : Summary)
    (session : Session (Watched State)) : Prop where
  /-- A component that is constructed has one row for each of its edges, in their order. -/
  rows : forall node, node ∈ graph.constructed root -> exists component,
    session.store.componentOf (graph.ownerOf session.registry node) = some component ∧
      component.parameters = graph.parameterRows (graph.dependencies node) ∧
      component.dependencies = dependencyRows (graph.dependencies node) ∧
      component.parameters.length + component.dependencies.length =
        (graph.outgoingEdges node).length
  /-- What comes from a provider has a table without rows. -/
  provided : forall node, node ∈ graph.discovery root ->
    ((graph.satisfaction? node).bind Satisfaction.provider?).isSome -> exists component,
      session.store.componentOf (session.registry.identifierFor node).text = some component ∧
        component.provided = true ∧ component.parameters = [] ∧ component.dependencies = []
  /-- There are no other tables. -/
  others : forall shown component, shown ∈ session.store.nodes ->
    shown.component = some component ->
      (exists node, node ∈ graph.constructed root ∧
        shown.id = graph.ownerOf session.registry node) ∨
      component.provided = true ∧ component.parameters = [] ∧ component.dependencies = []
  /-- The parameters without a value are counted, each of them where its row is. -/
  counted : summary.unboundParameters = ((graph.constructed root).map fun node =>
    ((graph.outgoingEdges node).filterMap graph.unbound?).length).sum
  /-- For each of them there is a warning, and there are no other warnings. -/
  warned : (session.log.toList.filter LogEvent.isWarning).Perm
    ((graph.constructed root).flatMap fun node =>
      ((graph.outgoingEdges node).filterMap graph.unbound?).map .parameterNotBound)
  warnings : summary.unboundParameters = (session.log.toList.filter LogEvent.isWarning).length
  /-- The root has no table. -/
  rootBare : session.store.componentOf "root" = none
  /-- All its edges are followed and drawn, also those that ask for a parameter. -/
  rootFollowed : forall edge, edge ∈ graph.outgoingEdges root ->
    edge.tail = root ∨ edge.tail ∈ graph.discovery root
  rootDrawn : (session.store.edges.map Diagram.Edge.wire).filter
      (fun wire => wire.source = "root") =
    (graph.dependencies root).map fun edge =>
      ⟨"root", session.endOf edge.tail, [("arrowhead", .text "vee")]⟩

namespace Shown

variable {graph : Graph} {root : NodeId} {unshared : List NodeId} {summary : Summary}
  {session : Session (Watched State)}

theorem componentOf_eq (shown : graph.Shown root unshared summary session) {node : Diagram.Node}
    (member : node ∈ session.store.nodes) :
    session.store.componentOf node.id = node.component := by
  rw [Watched.componentOf, find?_of_nodup_ids shown.nodup_ids member, Option.bind_some]

theorem rows (shown : graph.Shown root unshared summary session) {node : NodeId}
    (member : node ∈ graph.constructed root) :
    exists component,
      session.store.componentOf (graph.ownerOf session.registry node) = some component ∧
        component.parameters = graph.parameterRows (graph.dependencies node) ∧
        component.dependencies = dependencyRows (graph.dependencies node) ∧
        component.parameters.length + component.dependencies.length =
          (graph.outgoingEdges node).length := by
  rcases (graph.mem_constructed_iff root node).mp member with
    ⟨found, satisfaction, bound, composite⟩
  rcases shown.portrayed found with ⟨data, other, boundToo, portrayed⟩
  cases bound.symm.trans boundToo
  rcases (graph.scene unshared).table_mem_portrait node data composite
    (session.registry.identifierFor node).text with ⟨type, provider, inPortrait⟩
  have taken := shown.taken found portrayed inPortrait
  have owner := (graph.scene unshared).portrait_owner session.registry node data bound
  have parameters := (graph.scene unshared).parameters_table node data type provider
  have dependencies := (graph.scene unshared).dependencies_table node data type provider
  refine ⟨(graph.scene unshared).table node data type provider, ?_, parameters, dependencies, ?_⟩
  · have table := shown.componentOf_eq taken
    rw [← Scene.portraitIn, owner] at table
    exact table
  · rw [parameters, dependencies]
    exact (graph.length_rows _).trans (sortEdges_perm _).length_eq

theorem provided_bare (shown : graph.Shown root unshared summary session) {node : NodeId}
    (found : node ∈ graph.discovery root)
    (provided : ((graph.satisfaction? node).bind Satisfaction.provider?).isSome) :
    exists component,
      session.store.componentOf (session.registry.identifierFor node).text = some component ∧
        component.provided = true ∧ component.parameters = [] ∧ component.dependencies = [] := by
  rcases shown.portrayed found with ⟨data, satisfaction, bound, portrayed⟩
  rw [bound, Option.bind_some] at provided
  rcases (graph.scene unshared).providedTable_mem_portrait node data provided
    (session.registry.identifierFor node).text with ⟨type, inPortrait⟩
  exact ⟨_, shown.componentOf_eq (shown.taken found portrayed inPortrait), rfl, rfl, rfl⟩

theorem tables (shown : graph.Shown root unshared summary session) {node : Diagram.Node}
    {component : Diagram.Component} (member : node ∈ session.store.nodes)
    (tabular : node.component = some component) :
    (exists found, found ∈ graph.constructed root ∧
        node.id = graph.ownerOf session.registry found) ∨
      component.provided = true ∧ component.parameters = [] ∧ component.dependencies = [] := by
  rcases List.mem_cons.mp (shown.nodes.mem_iff.mp member) with isRoot | behind
  · rw [isRoot] at tabular
    cases tabular
  · rcases List.mem_flatMap.mp behind with ⟨found, inDiscovery, inDescriptors⟩
    rcases shown.portrayed inDiscovery with ⟨data, satisfaction, bound, portrayed⟩
    rw [Scene.descriptors, portrayed] at inDescriptors
    rcases (graph.scene unshared).component_portrait found data inDescriptors tabular with
      ⟨composite, owner⟩ | bare
    · rw [← Scene.portraitIn, Scene.portrait_owner _ _ _ _ bound] at owner
      exact Or.inl ⟨found, (graph.mem_constructed_iff root found).mpr
        ⟨inDiscovery, satisfaction, bound, composite⟩, owner⟩
    · exact Or.inr bare

end Shown

private theorem flatMap_filter {α β : Type} (chosen : α -> Bool) (parts : α -> List β)
    (items : List α) :
    (items.filter chosen).flatMap parts =
      items.flatMap fun item => if chosen item then parts item else [] := by
  induction items with
  | nil => rfl
  | cons item rest ih => cases picked : chosen item <;> simp [picked, ih]

/-- The parameters found without a value on a tour from the root are those of the components that
are constructed. -/
theorem unboundIn_perm {graph : Graph} {root : NodeId} {unshared : List NodeId}
    {course : Course Unit}
    (tour : Tour (graph.scene unshared) (rootStops (graph.dependencies root)) (.rooted root) course)
    (success : course.result = .ok ()) :
    (unboundIn course.actions).Perm ((graph.constructed root).flatMap fun node =>
      (graph.outgoingEdges node).filterMap graph.unbound?) := by
  have discovers := discovers_of_tour tour
  rw [Discovers, success] at discovers
  have identified := discovers.1
  have unbound := tour.unbound_perm success (Registry.sound_rooted graph root)
    (fun _ _ known => known)
  rw [missing_rootStops, List.nil_append, identified] at unbound
  refine unbound.trans ?_
  rw [constructed, flatMap_filter]
  refine List.Perm.flatMap_left _ fun node _ => ?_
  rw [Scene.missingOf_eq_unbound]
  change (if (graph.satisfaction? node).any Satisfaction.isComposite then
    (graph.dependencies node).filterMap graph.unbound? else []).Perm _
  split
  · exact (sortEdges_perm _).filterMap _
  · exact .refl _

/-- In a dump that succeeds each edge of a component that is constructed has become one row, and the
parameters without a value have been counted and warned of, each of them once. -/
theorem dump_rows {graph : Graph} {root : NodeId} {unshared : List NodeId} {sink : Sink State}
    (obliging : sink.Obliging) {store : State} {summary : Summary}
    {session : Session (Watched State)}
    (dumped : graph.dump root unshared sink.watched (.start store) = (.ok summary, session)) :
    (graph.constructed root).Nodup ∧
      (forall node, node ∈ graph.constructed root <->
        graph.Traversed root node ∧ node ≠ root ∧ exists satisfaction,
          graph.satisfaction? node = some satisfaction ∧ satisfaction.isComposite = true) ∧
      graph.Tabled root summary session := by
  have shown := dump_shown obliging dumped
  rcases dump_logged dumped with ⟨course, tour, success, log, counted⟩
  rcases dump_follows obliging dumped with ⟨steps, actions, search, follows, _, _, edges⟩
  have calm := tour.notes_calm (calm_rootStops _)
  have unbound := unboundIn_perm tour success
  have warnings : session.log.toList.filter LogEvent.isWarning =
      (unboundIn course.actions).map .parameterNotBound := by
    rw [log, List.filter_cons_of_neg Bool.false_ne_true, List.filter_append, filter_eventsIn calm]
    exact List.append_nil _
  refine ⟨(graph.nodup_preorder _ _).filter _, fun node => ?_, {
    rows := fun node => shown.rows
    provided := fun node => shown.provided_bare
    others := fun node component => shown.tables
    counted := ?_
    warned := ?_
    warnings := ?_
    rootBare := ?_
    rootFollowed := ?_
    rootDrawn := ?_ }⟩
  · rw [mem_constructed_iff, mem_discovery_iff, and_assoc]
  · rw [counted, unbound.length_eq, List.length_flatMap]
  · rw [warnings]
    have warned := unbound.map LogEvent.parameterNotBound
    rwa [List.map_flatMap] at warned
  · rw [counted, warnings, List.length_map]
  · exact shown.componentOf_eq (shown.nodes.mem_iff.mpr List.mem_cons_self)
  · intro edge leaves
    by_cases same : edge.tail = root
    · exact Or.inl same
    · exact Or.inr ((graph.mem_discovery_iff root _).mpr ⟨.first leaves, same⟩)
  · rw [edges, follows.queued]
    have drawn := shown.map_wire_drawn search
    rw [drawn]
    exact shown.filter_fromRoot search

/-- A component from a provider, which asks for a value, for a parameter that has one, and for one
that has none.  The last is also asked for by the root, as a parameter, too. -/
def panel : Graph :=
  let type : ComponentType := ⟨"plan.Part", true, false⟩
  let edge (head tail : NodeId) (qualifier : Option Qualifier) : Edge :=
    ⟨head, tail, type, .simple, qualifier, false⟩
  { nodes := #[.ofSatisfaction (.ofClass type), .ofSatisfaction (.ofProviderClass type type),
      .ofSatisfaction (.null type), .ofSatisfaction (.ofInstance type (.bool true))]
    edges := #[edge 0 1 none, edge 0 2 (some ⟨"plan.Extra", true⟩), edge 1 2 none,
      edge 1 2 (some ⟨"plan.Limit", true⟩), edge 1 3 (some ⟨"plan.Depth", true⟩)]
    outgoing := #[#[0, 1], #[2, 3, 4]] }

theorem panel_rows :
    let dumped := panel.dump 0 [] Sink.collecting.watched (.start .empty)
    dumped.1 = .ok ⟨4, 4, 1⟩ ∧ panel.Tabled 0 ⟨4, 4, 1⟩ dumped.2 := by
  have success : (panel.dump 0 [] Sink.collecting.watched (.start .empty)).1 = .ok ⟨4, 4, 1⟩ := rfl
  exact ⟨success, (dump_rows Sink.obliging_collecting (Prod.ext success rfl)).2.2⟩

end Graph
end InjectionPlan
