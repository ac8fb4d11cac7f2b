import InjectionPlan.Proofs.Guises
import InjectionPlan.Proofs.Refusals

namespace InjectionPlan

/-!
# What is shared, and what it changes

Whether components are shared is told by marks: types may be marked shareable, nodes have cache
policies, and nodes may be listed as unshared.  Without its marks a graph is toured like the graph
itself, and only the flags of the tables differ (`Guise.unmarked`).  So two graphs that are the same
without their marks are shown alike, whichever of their nodes are not shared
(`Graph.dump_sharing`), and the flags of each table are known from the one node that it belongs to
(`Graph.TellsSharing`).
-/

/-! ## Graphs without marks -/

def ComponentType.unmarked (type : ComponentType) : ComponentType :=
  { type with shareable := false }

def Satisfaction.unmarked : Satisfaction -> Satisfaction
  | .null type => .null type.unmarked
  | .ofClass type => .ofClass type.unmarked
  | .ofInstance type value => .ofInstance type.unmarked value
  | .ofProviderClass provider type => .ofProviderClass provider.unmarked type.unmarked
  | .ofProviderInstance provider label type =>
    .ofProviderInstance provider.unmarked label type.unmarked

def Desire.unmarked (desire : Desire) : Desire :=
  { desire with desiredType := desire.desiredType.unmarked }

namespace Diagram

/-- A component with the flags of one that is shared and not shareable. -/
def Component.unmarked (component : Component) : Component :=
  { component with shareable := false, shared := true }

/-- A node whose table, if it has one, is drawn without marks. -/
def Node.unmarked (node : Node) : Node :=
  match node.component with
  | some component => component.unmarked.toNode node.id
  | none => node

end Diagram

/-- The guise of graphs without marks. -/
def Guise.unmarked : Guise where
  satisfaction := Satisfaction.unmarked
  desire := Desire.unmarked
  cachePolicy _ := .noPreference
  shown := Diagram.Node.unmarked
  instance? satisfaction := by cases satisfaction <;> rfl
  injectionPoint _ := rfl
  typeName _ := rfl
  rootNode := rfl

/-- A graph without the marks of types and without cache policies. -/
def Graph.unmarked (graph : Graph) : Graph :=
  Guise.unmarked.graph graph

/-! ## Touring graphs without marks -/

namespace Guise

theorem node?_graph (guise : Guise) (graph : Graph) (node : NodeId) :
    (guise.graph graph).node? node = (graph.node? node).map guise.node :=
  Array.getElem?_map

theorem dependencies_graph (guise : Guise) (graph : Graph) (node : NodeId) :
    (guise.graph graph).dependencies node = (graph.dependencies node).map guise.edge := by
  have leaving : (guise.graph graph).outgoingEdges node =
      (graph.outgoingEdges node).map guise.edge := by
    have kept : (guise.graph graph).outgoing = graph.outgoing := rfl
    unfold Graph.outgoingEdges
    rw [kept]
    split
    · rw [List.map_filterMap]
      exact List.filterMap_congr fun number _ => Array.getElem?_map
    · rfl
  rw [Graph.dependencies, leaving, sortEdges_map guise.key_edge, Graph.dependencies]

end Guise

/-- A node without marks is shareable only if it holds a value. -/
theorem Node.isShareable_unmarked {data : Node} {satisfaction : Satisfaction}
    (bound : data.satisfaction = some satisfaction) :
    (Guise.unmarked.node data).isShareable = satisfaction.instance?.isSome := by
  have unmarked : (Guise.unmarked.node data).satisfaction = some satisfaction.unmarked := by
    rw [Guise.node, bound]
    rfl
  rw [isShareable, unmarked]
  cases satisfaction <;> rfl

/-- Rows do not depend on the flags of their table. -/
theorem Graph.filled_unmarked (graph : Graph) (edges : List Edge)
    (component : Diagram.Component) :
    graph.filled edges component.unmarked = (graph.filled edges component).unmarked := by
  induction edges generalizing component with
  | nil => rfl
  | cons edge rest ih =>
      rw [filled, filled]
      split
      · exact ih (component.addParameter _ _)
      · exact ih (component.addDependency edge.desire)

section

variable (graph : Graph) (unshared : List NodeId) (node : NodeId) {data : Node}
  {satisfaction : Satisfaction} (bound : data.satisfaction = some satisfaction)

include bound

theorem Graph.table_unmarked (type : ComponentType) (provider : Bool)
    (noValue : satisfaction.instance? = none) :
    (graph.unmarked.scene []).table node (Guise.unmarked.node data) type.unmarked provider =
      ((graph.scene unshared).table node data type provider).unmarked := by
  have flag : (!provider && (Guise.unmarked.node data).isShareable) = false := by
    rw [Node.isShareable_unmarked bound, noValue]
    exact Bool.and_false _
  have shared : (graph.unmarked.scene []).isUnshared node = false := rfl
  rw [Scene.table, flag, shared, Scene.table, ← filled_unmarked]
  have dependencies := Guise.unmarked.dependencies_graph graph node
  have filled := Guise.filled_of_node (Guise.unmarked.node?_graph graph) (graph.dependencies node)
  rw [← dependencies] at filled
  exact filled _

theorem Graph.providedTable_unmarked (type : ComponentType)
    (noValue : satisfaction.instance? = none) :
    (graph.unmarked.scene []).providedTable node (Guise.unmarked.node data) type.unmarked =
      ((graph.scene unshared).providedTable node data type).unmarked := by
  have shared : (graph.unmarked.scene []).isUnshared node = false := rfl
  rw [Scene.providedTable, shared, Node.isShareable_unmarked bound, noValue]
  rfl

end

theorem Guise.fits_unmarked (graph : Graph) (unshared : List NodeId) :
    Guise.unmarked.Fits (graph.scene unshared) (graph.unmarked.scene []) where
  node := Guise.unmarked.node?_graph graph
  dependencies := Guise.unmarked.dependencies_graph graph
  portrait node data satisfaction id bound := by
    have branches : (graph.unmarked.scene []).graph.dependencies node =
        (graph.dependencies node).map Guise.unmarked.edge :=
      Guise.unmarked.dependencies_graph graph node
    have table := graph.table_unmarked unshared node bound
    have provided := graph.providedTable_unmarked unshared node bound
    change Scene.portrait _ node _ satisfaction.unmarked id = _
    cases satisfaction with
    | null type => rfl
    | ofInstance type value => rfl
    | ofClass type =>
        simp only [Satisfaction.unmarked, Scene.portrait, branches, table type false rfl]
        rfl
    | ofProviderClass provider type =>
        simp only [Satisfaction.unmarked, Scene.portrait, branches, table provider true rfl,
          provided type rfl]
        rfl
    | ofProviderInstance provider label type =>
        simp only [Satisfaction.unmarked, Scene.portrait, provided type rfl]
        rfl

/-- The script of a graph without marks is that of the graph, but for the flags of tables. -/
theorem Graph.script_unmarked (graph : Graph) (root : NodeId) (unshared : List NodeId) :
    graph.unmarked.script root [] = Guise.unmarked.script (graph.script root unshared) :=
  (Guise.fits_unmarked graph unshared).script root

/-! ## Nodes that are the same without marks -/

namespace Diagram

/-- Two tables with the same title and the same rows, of components that come about alike. -/
structure Component.SameButSharing (left right : Component) : Prop where
  typeName : left.typeName = right.typeName
  parameters : left.parameters = right.parameters
  dependencies : left.dependencies = right.dependencies
  provider : left.provider = right.provider
  provided : left.provided = right.provided

/-- Two nodes that are the same but for what their tables tell of sharing. -/
structure Node.SameButSharing (left right : Node) : Prop where
  id : left.id = right.id
  target : left.target = right.target
  names : left.attributes.keys = right.attributes.keys
  attributes : forall name, left.component = none ∨ name ≠ "label" ->
    left.attributes.get? name = right.attributes.get? name
  component : Option.Rel Component.SameButSharing left.component right.component

/-- Nodes with a component are the tables of their components. -/
def Node.Tabled (node : Node) : Prop :=
  forall component, node.component = some component -> node = component.toNode node.id

theorem Node.Tabled.toNode (component : Component) (id : String) :
    (component.toNode id).Tabled := by
  intro other same
  cases same
  rfl

theorem Node.Tabled.of_none {node : Node} (bare : node.component = none) : node.Tabled := by
  intro component same
  cases bare.symm.trans same

theorem Node.unmarked_of_none {node : Node} (bare : node.component = none) :
    node.unmarked = node := by
  rw [unmarked, bare]

theorem Component.sameButSharing_of_unmarked {left right : Component}
    (same : left.unmarked = right.unmarked) : left.SameButSharing right where
  typeName := congrArg (·.typeName) same
  parameters := congrArg (·.parameters) same
  dependencies := congrArg (·.dependencies) same
  provider := congrArg (·.provider) same
  provided := congrArg (·.provided) same

theorem Component.keys_toNode (component : Component) (id : String) :
    (component.toNode id).attributes.keys = ["shape", "label"] := rfl

/-- Only the label of a table depends on flags. -/
theorem Component.get?_toNode_of_ne_label (left right : Component) (id : String) {name : String}
    (other : name ≠ "label") :
    (left.toNode id).attributes.get? name = (right.toNode id).attributes.get? name := by
  have bare (component : Component) : (component.toNode id).attributes.get? name =
      ((Node.plain id).setText "shape" "plaintext").attributes.get? name :=
    (Table.get?_set _ _ _ _).trans (if_neg (Ne.symm other))
  rw [bare, bare]

/-- Tables that are the same without marks are the same but for sharing. -/
theorem Node.Tabled.sameButSharing {left right : Node} (tabled : left.Tabled)
    (tabledToo : right.Tabled) (same : left.unmarked = right.unmarked) :
    left.SameButSharing right := by
  cases shown : left.component with
  | none =>
      cases shownToo : right.component with
      | none =>
          rw [unmarked_of_none shown, unmarked_of_none shownToo] at same
          subst same
          exact ⟨rfl, rfl, rfl, fun _ _ => rfl, by rw [shown]; exact .none⟩
      | some component =>
          rw [unmarked_of_none shown, tabledToo component shownToo] at same
          rw [same] at shown
          cases shown
  | some component =>
      have first := tabled component shown
      generalize left.id = id at first
      subst first
      cases shownToo : right.component with
      | none =>
          rw [unmarked_of_none shownToo] at same
          rw [← same] at shownToo
          cases shownToo
      | some other =>
          have second := tabledToo other shownToo
          generalize right.id = otherId at second
          subst second
          have ids : id = otherId := congrArg Node.id same
          subst ids
          have components : some component.unmarked = some other.unmarked :=
            congrArg Node.component same
          refine ⟨rfl, rfl, ?_, fun name apart => ?_, ?_⟩
          · rw [Component.keys_toNode, Component.keys_toNode]
          · rcases apart with impossible | notLabel
            · cases impossible
            · exact component.get?_toNode_of_ne_label other id notLabel
          · exact .some (Component.sameButSharing_of_unmarked (Option.some.inj components))

theorem Node.forall₂_sameButSharing {left right : List Node}
    (tabled : forall node, node ∈ left -> node.Tabled)
    (tabledToo : forall node, node ∈ right -> node.Tabled)
    (same : left.map Node.unmarked = right.map Node.unmarked) :
    List.Forall₂ Node.SameButSharing left right := by
  induction left generalizing right with
  | nil =>
      rw [List.map_eq_nil_iff.mp same.symm]
      exact .nil
  | cons first rest ih =>
      rcases List.map_eq_cons_iff.mp same.symm with ⟨other, others, rfl, firsts, rests⟩
      rcases List.forall_mem_cons.mp tabled with ⟨own, later⟩
      rcases List.forall_mem_cons.mp tabledToo with ⟨ownToo, laterToo⟩
      exact .cons (own.sameButSharing ownToo firsts.symm) (ih later laterToo rests.symm)

end Diagram

/-! ## What tables tell of sharing -/

theorem Graph.filled_flags (graph : Graph) (edges : List Edge) (component : Diagram.Component) :
    (graph.filled edges component).shareable = component.shareable ∧
      (graph.filled edges component).shared = component.shared := by
  induction edges generalizing component with
  | nil => exact ⟨rfl, rfl⟩
  | cons edge rest ih =>
      rw [filled]
      split
      · exact ih _
      · exact ih _

/-- Whether a table is drawn as that of a shareable component: a provider beside a node never is,
and what it gives only if the node is shared. -/
def Satisfaction.drawnShareable (satisfaction : Satisfaction) (own isShareable shared : Bool) :
    Bool :=
  match satisfaction with
  | .ofClass _ => isShareable
  | _ => own && isShareable && shared

namespace Scene

variable (scene : Scene) (node : NodeId) (data : Node) (satisfaction : Satisfaction)

theorem tabled_portrait (id : String) :
    forall shown, shown ∈ (scene.portrait node data satisfaction id).nodes -> shown.Tabled := by
  cases satisfaction with
  | null type => exact List.forall_mem_singleton.mpr (.of_none rfl)
  | ofInstance type value => exact List.forall_mem_singleton.mpr (.of_none rfl)
  | ofClass type => exact List.forall_mem_singleton.mpr (.toNode _ id)
  | ofProviderClass provider type =>
      exact List.forall_mem_cons.mpr ⟨.toNode _ (providerId id),
        List.forall_mem_singleton.mpr (.toNode _ id)⟩
  | ofProviderInstance provider label type =>
      exact List.forall_mem_cons.mpr ⟨.of_none rfl,
        List.forall_mem_singleton.mpr (.toNode _ id)⟩

/-- The flags of a component that a node shows, with the identifier of that node of the diagram. -/
def Flagged (identifier : Identifier) (shown : Diagram.Node) : Prop :=
  forall component, shown.component = some component ->
    component.shared = !scene.isUnshared node ∧
      component.shareable = satisfaction.drawnShareable (decide (shown.id = identifier.text))
        data.isShareable (!scene.isUnshared node)

theorem flagged_table (type : ComponentType) (provider : Bool) :
    (scene.table node data type provider).shared = (!scene.isUnshared node) ∧
      (scene.table node data type provider).shareable = (!provider && data.isShareable) :=
  (scene.graph.filled_flags _ _).symm

theorem flagged_portrait (identifier : Identifier) :
    forall shown, shown ∈ (scene.portrait node data satisfaction identifier.text).nodes ->
      scene.Flagged node data satisfaction identifier shown := by
  have flagless {shown : Diagram.Node} (bare : shown.component = none) :
      scene.Flagged node data satisfaction identifier shown := by
    intro component same
    cases bare.symm.trans same
  have apart : providerId identifier.text ≠ identifier.text :=
    Identifier.providerId_ne_text identifier identifier
  have own (component : Diagram.Component) (shared : component.shared = !scene.isUnshared node)
      (shareable : component.shareable = satisfaction.drawnShareable true data.isShareable
        (!scene.isUnshared node)) :
      scene.Flagged node data satisfaction identifier (component.toNode identifier.text) := by
    intro other same
    cases same
    have itself : decide ((component.toNode identifier.text).id = identifier.text) = true :=
      decide_eq_true rfl
    rw [itself]
    exact ⟨shared, shareable⟩
  cases satisfaction with
  | null type => exact List.forall_mem_singleton.mpr (flagless rfl)
  | ofInstance type value => exact List.forall_mem_singleton.mpr (flagless rfl)
  | ofClass type =>
      rcases scene.flagged_table node data type false with ⟨shared, shareable⟩
      exact List.forall_mem_singleton.mpr (own _ shared shareable)
  | ofProviderClass provider type =>
      rcases scene.flagged_table node data provider true with ⟨shared, shareable⟩
      refine List.forall_mem_cons.mpr ⟨fun other same => ?_,
        List.forall_mem_singleton.mpr (own _ rfl rfl)⟩
      cases same
      refine ⟨shared, shareable.trans ?_⟩
      have beside : decide (((scene.table node data provider true).toNode
          (providerId identifier.text)).id = identifier.text) = false := decide_eq_false apart
      rw [beside]
      rfl
  | ofProviderInstance provider label type =>
      exact List.forall_mem_cons.mpr ⟨flagless rfl,
        List.forall_mem_singleton.mpr (own _ rfl rfl)⟩

end Scene

/-- The table under an identifier is that of one node and tells how that node is shared. -/
structure Graph.TellsSharing (graph : Graph) (unshared : List NodeId) (registry : Registry)
    (id : String) (component : Diagram.Component) (node : NodeId) : Prop where
  shown : id ∈ graph.shownIds registry node
  only : forall other, (registry.identifier? other).isSome -> id ∈ graph.shownIds registry other ->
    other = node
  shared : component.shared = decide (node ∉ unshared)
  shareable : exists data satisfaction identifier, graph.node? node = some data ∧
    data.satisfaction = some satisfaction ∧ registry.identifier? node = some identifier ∧
      component.shareable = satisfaction.drawnShareable (decide (id = identifier.text))
        data.isShareable (decide (node ∉ unshared))

namespace Graph

/-- Each node that has been shown is the root, or one that its portrait in the graph asks for. -/
theorem script_portrayed {graph : Graph} {root : NodeId} {unshared : List NodeId}
    {course : Course Unit}
    (tour : Tour (graph.scene unshared) (rootStops (graph.dependencies root)) (.rooted root) course)
    {shown : Diagram.Node} (member : shown ∈ course.script.nodes) :
    shown = Session.rootNode ∨ exists node data satisfaction identifier,
      graph.node? node = some data ∧ data.satisfaction = some satisfaction ∧
        course.registry.identifier? node = some identifier ∧
        shown ∈ ((graph.scene unshared).portrait node data satisfaction identifier.text).nodes := by
  rcases List.mem_cons.mp member with isRoot | offered
  · exact Or.inl isRoot
  rcases tour.offered_mem (Registry.sound_rooted graph root) (fun _ _ has => has) offered with
    ⟨node, identified, descriptor⟩
  have known := (tour.identifier?_isSome_iff node).mpr (Or.inr identified)
  rcases Option.isSome_iff_exists.mp known with ⟨identifier, has⟩
  refine Or.inr ⟨node, ?_⟩
  unfold Scene.descriptors Scene.portrait? at descriptor
  cases present : graph.node? node with
  | none =>
      have present : (graph.scene unshared).graph.node? node = none := present
      rw [present] at descriptor
      cases descriptor
  | some data =>
      have present : (graph.scene unshared).graph.node? node = some data := present
      rw [present, Option.bind_some] at descriptor
      cases bound : data.satisfaction with
      | none =>
          rw [bound] at descriptor
          cases descriptor
      | some satisfaction =>
          rw [bound, Option.map_some, Option.elim_some, Scene.portraitIn,
            Registry.identifierFor_of_known has] at descriptor
          exact ⟨data, satisfaction, identifier, rfl, bound, has, descriptor⟩

theorem isShared_scene {graph : Graph} {node : NodeId} {data : Node}
    (present : graph.node? node = some data) (unshared : List NodeId) :
    (!(graph.scene unshared).isUnshared node) = decide (node ∉ unshared) := by
  have inside : graph.contains node = true := by
    rw [contains_eq_isSome, present]
    rfl
  rw [decide_not]
  apply congrArg not
  exact decide_eq_decide.mpr ((Session.mem_inGraph graph unshared node).trans (and_iff_left inside))

theorem tells_of_tour {graph : Graph} {root : NodeId} {unshared : List NodeId}
    {course : Course Unit}
    (tour : Tour (graph.scene unshared) (rootStops (graph.dependencies root)) (.rooted root) course)
    {shown : Diagram.Node} (member : shown ∈ course.script.nodes) {component : Diagram.Component}
    (has : shown.component = some component) :
    exists node, graph.TellsSharing unshared course.registry shown.id component node := by
  have sound := (tour.sound (Registry.sound_rooted graph root)).1
  rcases script_portrayed tour member with rfl | ⟨node, data, satisfaction, identifier, found⟩
  · cases has
  rcases found with ⟨present, bound, known, descriptor⟩
  have own : shown.id ∈ graph.shownIds course.registry node := by
    have inIds := List.mem_map_of_mem (f := (·.id)) descriptor
    rw [Scene.map_id_portrait] at inIds
    rwa [shownIds, satisfaction?, present, Option.bind_some, bound, Option.elim_some,
      Registry.identifierFor_of_known known]
  have flags := (graph.scene unshared).flagged_portrait node data satisfaction identifier shown
    descriptor component has
  rw [isShared_scene present] at flags
  refine ⟨node, own, fun other otherKnown otherIds => ?_, flags.1,
    data, satisfaction, identifier, present, bound, known, flags.2⟩
  rcases Option.isSome_iff_exists.mp otherKnown with ⟨otherIdentifier, otherHas⟩
  have same := eq_of_mem_shownIds otherIds own
  rw [Registry.identifierFor_of_known otherHas, Registry.identifierFor_of_known known] at same
  subst same
  exact sound.distinct other node _ otherHas known

theorem tabled_script (graph : Graph) (root : NodeId) (unshared : List NodeId) :
    forall shown, shown ∈ (graph.script root unshared).nodes -> shown.Tabled := by
  intro shown member
  cases inside : graph.contains root with
  | false =>
      rw [script_of_not_contains inside] at member
      cases member
  | true =>
      rcases Tour.total (graph.scene unshared) (rootStops (graph.dependencies root))
        (.rooted root) with ⟨course, tour⟩
      rw [script_of_tour inside tour] at member
      rcases script_portrayed tour member with rfl | ⟨node, data, satisfaction, identifier, found⟩
      · exact .of_none rfl
      · exact Scene.tabled_portrait _ node data satisfaction _ shown found.2.2.2

/-- Graphs that are the same without marks have scripts that are the same but for sharing. -/
theorem script_sharing {first second : Graph} (same : first.unmarked = second.unmarked)
    (root : NodeId) (unshared others : List NodeId) :
    (first.script root unshared).result = (second.script root others).result ∧
      (first.script root unshared).edges = (second.script root others).edges ∧
      List.Forall₂ Diagram.Node.SameButSharing (first.script root unshared).nodes
        (second.script root others).nodes := by
  have bare := first.script_unmarked root unshared
  rw [same, second.script_unmarked root others] at bare
  exact ⟨(congrArg Script.result bare).symm, (congrArg Script.edges bare).symm,
    Diagram.Node.forall₂_sameButSharing (first.tabled_script root unshared)
      (second.tabled_script root others) (congrArg Script.nodes bare).symm⟩

variable {State : Type u} {Other : Type v}

/-- Every table that a dump hands over tells of the one node that it belongs to. -/
theorem dump_tells (graph : Graph) (root : NodeId) (unshared : List NodeId) {sink : Sink State}
    (obliging : sink.Obliging) (store : State) :
    let dumped := graph.dump root unshared sink.watched (.start store)
    forall shown, shown ∈ dumped.2.store.nodes -> forall component,
      shown.component = some component -> exists node,
        graph.TellsSharing unshared dumped.2.registry shown.id component node := by
  dsimp only
  intro shown member component has
  have taken := (graph.dump_obliging root unshared obliging store).2.1
  cases inside : graph.contains root with
  | false =>
      rw [taken, script_of_not_contains inside] at member
      cases member
  | true =>
      rcases dump_toured inside unshared obliging store with ⟨course, tour, toured⟩
      rw [taken, script_of_tour inside tour] at member
      rw [toured.registry]
      exact tells_of_tour tour member has

/-- Two graphs that differ in cache policies and in the marks of types come to the same whichever of
their nodes are listed as unshared.  The same edges are handed over, and the same nodes but for the
flags of their tables.  These are settled, in each of the dumps, by the node that a table belongs
to. -/
theorem dump_sharing {first second : Graph} (same : first.unmarked = second.unmarked)
    (root : NodeId) (unshared others : List NodeId) {sink : Sink State} (obliging : sink.Obliging)
    (store : State) {other : Sink Other} (obligingToo : other.Obliging) (idle : Other) :
    let dumped := first.dump root unshared sink.watched (.start store)
    let again := second.dump root others other.watched (.start idle)
    dumped.1 = again.1 ∧ dumped.2.store.edges = again.2.store.edges ∧
      List.Forall₂ Diagram.Node.SameButSharing dumped.2.store.nodes again.2.store.nodes ∧
      (forall shown, shown ∈ dumped.2.store.nodes -> forall component,
        shown.component = some component -> exists node,
          first.TellsSharing unshared dumped.2.registry shown.id component node) ∧
      (forall shown, shown ∈ again.2.store.nodes -> forall component,
        shown.component = some component -> exists node,
          second.TellsSharing others again.2.registry shown.id component node) := by
  dsimp only
  rcases script_sharing same root unshared others with ⟨results, edges, nodes⟩
  rcases first.dump_obliging root unshared obliging store with ⟨result, shown, wired⟩
  rcases second.dump_obliging root others obligingToo idle with ⟨resultToo, shownToo, wiredToo⟩
  refine ⟨?_, ?_, ?_, first.dump_tells root unshared obliging store,
    second.dump_tells root others obligingToo idle⟩
  · rw [result, results, resultToo]
  · rw [wired, edges, wiredToo]
  · rw [shown, shownToo]
    exact nodes

/-- The ring with other marks: no type is shareable, and what comes from the provider is built
anew each time. -/
def plainRing : Graph :=
  let type : ComponentType := ⟨"plan.Part", false, false⟩
  let edge (head tail : NodeId) (member : String) (transient : Bool) : Edge :=
    ⟨head, tail, type, .field member, none, transient⟩
  { nodes := #[.ofSatisfaction (.ofClass type),
      ⟨some (.ofProviderClass type type), .newInstance⟩, ⟨some (.ofClass type), .memoize⟩]
    edges := #[edge 0 1 "first" false, edge 1 2 "next" true, edge 1 0 "owner" false,
      edge 2 1 "back" false, edge 2 2 "self" false]
    outgoing := #[#[0], #[1, 2], #[3, 4]] }

theorem unmarked_plainRing : plainRing.unmarked = ring.unmarked := by
  simp only [unmarked, Guise.graph, plainRing, ring, List.map_toArray]
  rfl

/-- In the ring two components are shareable, and one of them is not shared.  With other marks none
is shareable, and the others are not shared.  Nodes that are not in the graph, or listed twice, do
not matter. -/
theorem ring_sharing :
    let dumped := ring.dump 0 [2] Sink.collecting.watched (.start .empty)
    let again := plainRing.dump 0 [1, 7, 1] Sink.collecting.watched (.start .empty)
    dumped.1 = .ok ⟨4, 6, 0⟩ ∧ again.1 = .ok ⟨4, 6, 0⟩ ∧
      dumped.2.store.edges = again.2.store.edges ∧
      List.Forall₂ Diagram.Node.SameButSharing dumped.2.store.nodes again.2.store.nodes ∧
      dumped.2.store.nodes.map (·.component.map fun component =>
          (component.shareable, component.shared)) =
        [none, some (true, false), some (false, true), some (true, true)] ∧
      again.2.store.nodes.map (·.component.map fun component =>
          (component.shareable, component.shared)) =
        [none, some (false, true), some (false, false), some (false, false)] := by
  rcases dump_sharing unmarked_plainRing.symm 0 [2] [1, 7, 1]
    Sink.obliging_collecting .empty Sink.obliging_collecting .empty with
    ⟨results, edges, nodes, _⟩
  exact ⟨rfl, results ▸ rfl, edges, nodes, rfl, rfl⟩

end Graph
end InjectionPlan
