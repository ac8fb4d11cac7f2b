import InjectionPlan.Proofs.Building
import InjectionPlan.Proofs.Coverage

namespace InjectionPlan

/-!
# Dumps that fail

In a graph that has been built a dump can fail in two ways only: the root is not in the graph, or a
node that is met has no satisfaction.  In the second case the first such node in the order of
discovery ends the dump (`Graph.dump_outcome`).

What has been shown until then is found by comparing two graphs: the one at hand and the one in
which that node is bound to nothing.  A tour through the first that does not fail at the node is a
tour through the second (`Tour.unaffected`), and one that does fail there is the beginning of one
through the second, up to the moment in which the node itself is offered (`Tour.resumed`).
-/

/-- A node with nothing bound to it. -/
def Node.withNull (type : ComponentType) (data : Node) : Node :=
  { data with satisfaction := some (.null type) }

/-- The graph with nothing bound to a node. -/
def Graph.withNull (graph : Graph) (node : NodeId) (type : ComponentType) : Graph :=
  { graph with nodes := graph.nodes.modify node (Node.withNull type) }

def Scene.withNull (scene : Scene) (node : NodeId) (type : ComponentType) : Scene :=
  { scene with graph := scene.graph.withNull node type }

namespace Graph

theorem node?_withNull (graph : Graph) (node : NodeId) (type : ComponentType) (other : NodeId) :
    (graph.withNull node type).node? other =
      if node = other then (graph.node? other).map (Node.withNull type) else graph.node? other :=
  Array.getElem?_modify

theorem contains_withNull (graph : Graph) (node : NodeId) (type : ComponentType) (other : NodeId) :
    (graph.withNull node type).contains other = graph.contains other := by
  unfold contains size withNull
  rw [Array.size_modify]

theorem scene_withNull (graph : Graph) (node : NodeId) (type : ComponentType)
    (unshared : List NodeId) :
    (graph.withNull node type).scene unshared = (graph.scene unshared).withNull node type := by
  have same : (graph.withNull node type).contains = graph.contains :=
    funext (graph.contains_withNull node type)
  unfold scene Session.inGraph
  rw [same]
  rfl

section

variable {graph : Graph} {node : NodeId} (unbound : graph.satisfaction? node = none)
  (type : ComponentType)

include unbound

/-- A node without satisfaction holds no value, nor does one to which nothing is bound. -/
theorem instance?_withNull (other : NodeId) :
    ((graph.withNull node type).node? other).bind Node.instance? =
      (graph.node? other).bind Node.instance? := by
  rw [node?_withNull]
  split
  · next same =>
    subst same
    unfold satisfaction? at unbound
    cases present : graph.node? node with
    | none => rfl
    | some data =>
        rw [present, Option.bind_some] at unbound
        rw [Option.map_some, Option.bind_some, Option.bind_some, Node.instance?, Node.instance?,
          unbound]
        rfl
  · rfl

theorem filled_withNull (edges : List Edge) (component : Diagram.Component) :
    (graph.withNull node type).filled edges component = graph.filled edges component := by
  induction edges generalizing component with
  | nil => rfl
  | cons edge rest ih =>
      unfold filled
      rw [instance?_withNull unbound]
      split
      · exact ih _
      · exact ih _

theorem itinerary_withNull (owner : String) (shown : Nat) (edges : List Edge) :
    (graph.withNull node type).itinerary owner shown edges = graph.itinerary owner shown edges := by
  induction edges generalizing shown with
  | nil => rfl
  | cons edge rest ih =>
      unfold itinerary
      rw [instance?_withNull unbound]
      split
      · rw [ih]
      · rw [ih]

end

end Graph

namespace Scene

variable {scene : Scene} {node : NodeId} (unbound : scene.graph.satisfaction? node = none)
  (type : ComponentType)

include unbound

theorem portrait_withNull (other : NodeId) (data : Node) (satisfaction : Satisfaction)
    (id : String) :
    (scene.withNull node type).portrait other data satisfaction id =
      scene.portrait other data satisfaction id := by
  have tables (shown : ComponentType) (provider : Bool) :
      (scene.withNull node type).table other data shown provider =
        scene.table other data shown provider :=
    Graph.filled_withNull unbound type (scene.graph.dependencies other) _
  cases satisfaction with
  | null shown => rfl
  | ofInstance shown value => rfl
  | ofClass shown =>
      simp only [portrait, tables]
      rfl
  | ofProviderClass provider shown =>
      simp only [portrait, tables]
      rfl
  | ofProviderInstance provider label shown => rfl

theorem stops_withNull (portrait : Portrait) :
    (scene.withNull node type).stops portrait = scene.stops portrait :=
  Graph.itinerary_withNull unbound type _ _ _

theorem portraitIn_withNull (registry : Registry) (other : NodeId) (data : Node)
    (satisfaction : Satisfaction) :
    (scene.withNull node type).portraitIn registry other data satisfaction =
      scene.portraitIn registry other data satisfaction :=
  portrait_withNull unbound type other data satisfaction _

theorem showing_withNull (registry : Registry) (other : NodeId) (data : Node)
    (satisfaction : Satisfaction) (actions : List Action) :
    (scene.withNull node type).showing registry other data satisfaction actions =
      scene.showing registry other data satisfaction actions := by
  unfold showing
  rw [portraitIn_withNull unbound]

omit unbound in
/-- A node to which nothing is bound can be shown. -/
theorem fresh_withNull {registry : Registry} {data : Node}
    (unknown : registry.identifier? node = none) (present : scene.graph.node? node = some data) :
    (scene.withNull node type).Fresh registry node (data.withNull type) (.null type) where
  unknown := unknown
  present := by
    refine (scene.graph.node?_withNull node type node).trans ?_
    rw [if_pos rfl, present, Option.map_some]
  bound := rfl

/-- A node that can be shown can be shown when nothing is bound to another. -/
theorem Fresh.withNull {registry : Registry} {other : NodeId} {data : Node}
    {satisfaction : Satisfaction} (fresh : scene.Fresh registry other data satisfaction) :
    (scene.withNull node type).Fresh registry other data satisfaction where
  unknown := fresh.unknown
  present := by
    have different : node ≠ other := by
      intro same
      rw [same, fresh.satisfaction?_eq] at unbound
      cases unbound
    refine (scene.graph.node?_withNull node type other).trans ?_
    rw [if_neg different, fresh.present]
  bound := fresh.bound

end Scene

namespace Tour

variable {scene : Scene} {node : NodeId} {stops : List Stop} {registry : Registry}
  {course : Course Unit}

/-- A tour that does not fail at a node without satisfaction does not depend on it. -/
theorem unaffected (tour : Tour scene stops registry course)
    (unbound : scene.graph.satisfaction? node = none) (type : ComponentType)
    (elsewhere : course.result ≠ .error (.missingSatisfaction node)) :
    Tour (scene.withNull node type) stops registry course := by
  induction tour with
  | done => exact .done
  | row _ ih => exact .row (ih elsewhere)
  | known has _ ih => exact .known has (ih elsewhere)
  | @foreign other _ _ _ _ unknown absent =>
      refine .foreign unknown ((scene.graph.node?_withNull node type other).trans ?_)
      rw [absent]
      split <;> rfl
  | @bare other _ _ _ _ data unknown present nothing =>
      have different : node ≠ other := fun same => elsewhere (same ▸ rfl)
      refine .bare unknown ((scene.graph.node?_withNull node type other).trans ?_) nothing
      rw [if_neg different, present]
  | failed fresh _ ih =>
      have within := ih elsewhere
      rw [← scene.stops_withNull unbound type, ← scene.portraitIn_withNull unbound type] at within
      exact .failed (fresh.withNull unbound type) within
  | shown fresh _ _ ihWithin ihLater =>
      have within := ihWithin (fun impossible => by cases impossible)
      have later := ihLater elsewhere
      rw [← Scene.stops_withNull unbound type, ← Scene.portraitIn_withNull unbound type] at within
      rw [← Scene.portraitIn_withNull unbound type] at later
      rw [← Scene.showing_withNull unbound type, ← Scene.portraitIn_withNull unbound type]
      exact .shown (fresh.withNull unbound type) within later

/-- A node at which a tour fails has got its identifier. -/
theorem identified_of_fault (tour : Tour scene stops registry course)
    (failed : course.result = .error (.missingSatisfaction node)) :
    (course.registry.identifier? node).isSome := by
  induction tour with
  | done => cases failed
  | row _ ih => exact ih failed
  | known _ _ ih => exact ih failed
  | foreign _ _ => cases failed
  | bare _ _ _ =>
      cases failed
      rw [Registry.identifier?_identify_self]
      rfl
  | failed _ _ ih => exact ih failed
  | shown _ _ _ _ ih => exact ih failed

/-- The actions of a course go on behind those of another with an offer. -/
def Continues (first : List Action) (node : Diagram.Node) (actions : List Action) : Prop :=
  exists event later, actions = first ++ .note event :: .offer node :: later

theorem Continues.behind {first actions : List Action} {node : Diagram.Node}
    (continues : Continues first node actions) (before : List Action) :
    Continues (before ++ first) node (before ++ actions) := by
  rcases continues with ⟨event, later, rfl⟩
  exact ⟨event, later, (List.append_assoc ..).symm⟩

theorem Continues.extended {first actions : List Action} {node : Diagram.Node}
    (continues : Continues first node actions) (last : List Action) :
    Continues first node (actions ++ last) := by
  rcases continues with ⟨event, later, rfl⟩
  exact ⟨event, later ++ last, List.append_assoc ..⟩

/-- Where a tour fails at a node, the node is offered if nothing is bound to it. -/
theorem resumed (tour : Tour scene stops registry course)
    (unbound : scene.graph.satisfaction? node = none) (type : ComponentType)
    (failed : course.result = .error (.missingSatisfaction node)) :
    exists patched, Tour (scene.withNull node type) stops registry patched ∧
      Continues course.actions
        (ellipse (course.registry.identifierFor node).text (nullLabel type)) patched.actions := by
  induction tour with
  | done => cases failed
  | row _ ih =>
      rcases ih failed with ⟨patched, tour, continues⟩
      exact ⟨_, .row tour, continues.behind _⟩
  | known has _ ih =>
      rcases ih failed with ⟨patched, tour, continues⟩
      exact ⟨_, .known has tour, continues.behind _⟩
  | foreign _ _ => cases failed
  | @bare other events leads rest registry data unknown present nothing =>
      cases failed
      have fresh := Scene.fresh_withNull type unknown present
      rcases Tour.total (scene.withNull node type) rest _ with ⟨course, later⟩
      have same : (registry.identify node).identifierFor node = registry.identifierFor node :=
        Registry.identifierFor_of_known (registry.identifier?_identify_self node)
      have continues : Continues [.identify node]
          (ellipse ((registry.identify node).identifierFor node).text (nullLabel type))
          ((scene.withNull node type).showing registry node (data.withNull type) (.null type) []) :=
        ⟨_, [.record _ _], by rw [same]; rfl⟩
      exact ⟨_, .shown fresh .done later,
        ((continues.behind _).extended (Stop.linkActions leads _)).extended course.actions⟩
  | @failed other events leads rest registry data satisfaction actions reached error fresh _ ih =>
      rcases ih failed with ⟨⟨inner, last, result⟩, within, continues⟩
      rw [← scene.stops_withNull unbound type, ← scene.portraitIn_withNull unbound type] at within
      have freshNow := fresh.withNull unbound type
      have opened := continues.behind (opening other (registry.identifierFor other) satisfaction)
      cases result with
      | error error => exact ⟨_, .failed freshNow within, opened.behind _⟩
      | ok _ =>
          rcases Tour.total (scene.withNull node type) rest _ with ⟨course, later⟩
          have closed : Continues _ _
              ((scene.withNull node type).showing registry other data satisfaction inner) :=
            (opened.extended _).extended _
          exact ⟨_, .shown freshNow within later,
            ((closed.behind _).extended (Stop.linkActions leads _)).extended course.actions⟩
  | shown fresh within _ _ ihLater =>
      rcases ihLater failed with ⟨patched, later, continues⟩
      have within := within.unaffected unbound type (fun impossible => by cases impossible)
      rw [← Scene.stops_withNull unbound type, ← Scene.portraitIn_withNull unbound type] at within
      rw [← Scene.portraitIn_withNull unbound type] at later
      refine ⟨_, .shown (fresh.withNull unbound type) within later, ?_⟩
      rw [Scene.showing_withNull unbound type, Scene.portraitIn_withNull unbound type]
      exact continues.behind _

end Tour
/-! ## Dumps -/

namespace Graph

variable {State : Type u} {graph : Graph} {root : NodeId}

/-- Whatever is met in a graph that has been built is in the graph. -/
theorem Built.contains_of_traversed (built : graph.Built) {node : NodeId}
    (traversed : graph.Traversed root node) : graph.contains node = true := by
  have consistent := built.consistent
  have tailInside {head : NodeId} {edge : Edge} (leaves : edge ∈ graph.outgoingEdges head) :
      graph.contains edge.tail = true := by
    rw [consistent.leaving] at leaves
    have member := Array.mem_toList_iff.mp (List.mem_of_mem_filter leaves)
    exact decide_eq_true (consistent.ends edge member).2
  cases traversed with
  | first leaves => exact tailInside leaves
  | further _ _ _ _ leaves _ => exact tailInside leaves

variable {unshared : List NodeId} {sink : Sink State}

/-- A tour that fails does so at the first node without satisfaction. -/
theorem Built.fault_of_tour (built : graph.Built) {course : Course Unit} {error : DumpError}
    (tour : Tour (graph.scene unshared) (rootStops (graph.dependencies root)) (.rooted root) course)
    (failed : course.result = .error error) :
    exists before node after, graph.discovery root = before ++ node :: after ∧
      (forall other, other ∈ before -> (graph.satisfaction? other).isSome) ∧
      graph.Traversed root node ∧ node ≠ root ∧ graph.satisfaction? node = none ∧
      error = .missingSatisfaction node := by
  have discovers := discovers_of_tour tour
  rw [Discovers, failed] at discovers
  rcases discovers with ⟨before, node, after, found, bound, unbound, fault⟩
  have met : node ∈ graph.discovery root := by
    rw [found]
    exact List.mem_append_right _ List.mem_cons_self
  rcases (graph.mem_discovery_iff root node).mp met with ⟨traversed, notRoot⟩
  rw [Graph.fault, built.contains_of_traversed traversed, if_pos rfl] at fault
  exact ⟨before, node, after, found, bound, traversed, notRoot, unbound, fault⟩

/-- If nothing were bound to the node at which a tour fails, the dump would show the same nodes
and then that node. -/
theorem nodes_dump_withNull (inside : graph.contains root = true) (obliging : sink.Obliging)
    (store : State) {course : Course Unit}
    (tour : Tour (graph.scene unshared) (rootStops (graph.dependencies root)) (.rooted root) course)
    {node : NodeId} (unbound : graph.satisfaction? node = none)
    (failed : course.result = .error (.missingSatisfaction node)) (type : ComponentType) :
    exists later,
      ((graph.withNull node type).dump root unshared sink.watched (.start store)).2.store.nodes =
        Session.rootNode :: offeredIn course.actions ++
          ellipse (course.registry.identifierFor node).text (nullLabel type) :: later := by
  have stillInside : (graph.withNull node type).contains root = true := by
    rw [contains_withNull, inside]
  rcases dump_toured stillInside unshared obliging store with ⟨other, otherTour, toured⟩
  rw [scene_withNull] at otherTour
  rcases tour.resumed unbound type failed with ⟨patched, patchedTour, event, later, actions⟩
  cases patchedTour.unique otherTour
  refine ⟨offeredIn later, ?_⟩
  rw [toured.nodes, actions, offeredIn_append]
  rfl

/-- No node that has been shown bears the identifier of the node at which a tour fails. -/
theorem id_ne_of_fault {result : Except DumpError Summary}
    {session : Session (Watched State)} {course : Course Unit}
    (tour : Tour (graph.scene unshared) (rootStops (graph.dependencies root)) (.rooted root) course)
    (toured : Toured course result session) {node : NodeId} (notRoot : node ≠ root)
    (unbound : graph.satisfaction? node = none) {identifier : Identifier}
    (known : course.registry.identifier? node = some identifier) {shown : Diagram.Node}
    (member : shown ∈ session.store.nodes) : shown.id ≠ identifier.text := by
  have sound := (tour.sound (Registry.sound_rooted graph root)).1
  rw [toured.nodes] at member
  rcases List.mem_cons.mp member with isRoot | offered
  · intro same
    rw [isRoot] at same
    have isRoot : Identifier.root = identifier := Identifier.text_injective same
    subst isRoot
    exact notRoot (sound.distinct node root .root known tour.identifier?_root)
  · rcases tour.offered_mem (Registry.sound_rooted graph root) (fun _ _ has => has) offered with
      ⟨other, identified, descriptor⟩
    have otherKnown := (tour.identifier?_isSome_iff other).mpr (Or.inr identified)
    intro same
    rcases Scene.eq_of_mem_descriptors sound known otherKnown descriptor same with ⟨rfl, bound⟩
    have bound : (graph.satisfaction? node).isSome := bound
    rw [unbound] at bound
    cases bound

/-- From a root in the graph, a dump succeeds exactly if all that is met has a satisfaction. -/
theorem Built.dump_succeeds_iff (built : graph.Built) (inside : graph.contains root = true)
    (unshared : List NodeId) (obliging : sink.Obliging) (store : State) :
    (exists summary, (graph.dump root unshared sink.watched (.start store)).1 = .ok summary) <->
      forall node, graph.Traversed root node -> node ≠ root ->
        (graph.satisfaction? node).isSome := by
  constructor
  · rintro ⟨summary, success⟩ node traversed notRoot
    have shown := dump_shown obliging (Prod.ext success rfl)
    exact shown.bound node ((graph.mem_discovery_iff root node).mpr ⟨traversed, notRoot⟩)
  · intro bound
    rcases dump_toured inside unshared obliging store with ⟨course, tour, toured⟩
    have answers := toured.answers
    cases result : course.result with
    | ok _ =>
        rw [result] at answers
        rcases answers with ⟨_, success⟩
        exact ⟨_, success⟩
    | error error =>
        rcases built.fault_of_tour tour result with
          ⟨_, node, _, _, _, traversed, notRoot, unbound, _⟩
        have isBound := bound node traversed notRoot
        rw [unbound] at isBound
        cases isBound

/-- A dump that fails has carried out a tour which fails likewise. -/
theorem dump_failed (inside : graph.contains root = true) (unshared : List NodeId)
    (obliging : sink.Obliging) (store : State) {error : DumpError}
    (failed : (graph.dump root unshared sink.watched (.start store)).1 = .error error) :
    exists course,
      Tour (graph.scene unshared) (rootStops (graph.dependencies root)) (.rooted root) course ∧
      course.result = .error error ∧
      Toured course (.error error)
        (graph.dump root unshared sink.watched (.start store)).2 ∧
      (graph.dump root unshared sink.watched (.start store)).2.store.edges = [] := by
  rcases dump_toured inside unshared obliging store with ⟨course, tour, toured⟩
  have answers := toured.answers
  have edges := toured.edges
  cases result : course.result with
  | ok _ =>
      rw [result] at answers
      rcases answers with ⟨_, success⟩
      cases failed.symm.trans success
  | error other =>
      rw [result] at answers edges
      cases failed.symm.trans answers
      rw [failed] at toured
      exact ⟨course, tour, result, toured, edges⟩

/-- In a graph that has been built, a dump succeeds if the root is in the graph and all that is met
has a satisfaction.  Otherwise it fails at the root, without having shown anything, or at the first
node without satisfaction, when it has shown what comes before that node and no edge. -/
theorem dump_outcome (built : graph.Built) (root : NodeId) (unshared : List NodeId)
    (obliging : sink.Obliging) (store : State) :
    let dumped := graph.dump root unshared sink.watched (.start store)
    ((exists summary, dumped.1 = .ok summary) <->
      graph.contains root = true ∧ forall node, graph.Traversed root node -> node ≠ root ->
        (graph.satisfaction? node).isSome) ∧
    (graph.contains root = false ->
      dumped.1 = .error (.unknownNode root) ∧ dumped.2.store.handovers = []) ∧
    (graph.contains root = true -> forall error, dumped.1 = .error error ->
      exists before node after, graph.discovery root = before ++ node :: after ∧
        (forall other, other ∈ before -> (graph.satisfaction? other).isSome) ∧
        graph.Traversed root node ∧ node ≠ root ∧ graph.satisfaction? node = none ∧
        error = .missingSatisfaction node ∧ dumped.2.store.edges = [] ∧
        exists identifier, dumped.2.registry.identifier? node = some identifier ∧
          (forall shown, shown ∈ dumped.2.store.nodes -> shown.id ≠ identifier.text) ∧
          forall type, exists later,
            ((graph.withNull node type).dump root unshared sink.watched
              (.start store)).2.store.nodes =
              dumped.2.store.nodes ++ ellipse identifier.text (nullLabel type) :: later) := by
  dsimp only
  cases inside : graph.contains root with
  | false =>
      rw [dump_of_not_contains inside]
      refine ⟨?_, fun _ => ⟨rfl, rfl⟩, fun impossible => by cases impossible⟩
      constructor
      · rintro ⟨summary, impossible⟩
        cases impossible
      · rintro ⟨impossible, _⟩
        cases impossible
  | true =>
      refine ⟨?_, (fun impossible => by cases impossible), ?_⟩
      · rw [built.dump_succeeds_iff inside unshared obliging store]
        exact ⟨fun bound => ⟨rfl, bound⟩, fun both => both.2⟩
      · intro _ error failed
        rcases dump_failed inside unshared obliging store failed with
          ⟨course, tour, result, toured, edges⟩
        rcases built.fault_of_tour tour result with
          ⟨before, node, after, found, bound, traversed, notRoot, unbound, rfl⟩
        rcases Option.isSome_iff_exists.mp (tour.identified_of_fault result) with
          ⟨identifier, known⟩
        refine ⟨before, node, after, found, bound, traversed, notRoot, unbound, rfl, edges,
          identifier, ?_, ?_, ?_⟩
        · rw [toured.registry]
          exact known
        · intro shown member
          exact id_ne_of_fault tour toured notRoot unbound known member
        · intro type
          rcases nodes_dump_withNull inside obliging store tour unbound result type with
            ⟨later, nodes⟩
          rw [Registry.identifierFor_of_known known, ← toured.nodes] at nodes
          exact ⟨later, nodes⟩

/-- A component that needs one without satisfaction, and is needed by the root. -/
def gap : Graph :=
  let type : ComponentType := ⟨"plan.Part", true, false⟩
  let edge (head tail : NodeId) : Edge := ⟨head, tail, type, .simple, none, false⟩
  { nodes := #[.ofSatisfaction (.ofClass type), .ofSatisfaction (.ofClass type),
      ⟨none, .noPreference⟩]
    edges := #[edge 0 1, edge 1 2]
    outgoing := #[#[0], #[1], #[]] }

theorem gap_built : gap.Built := by
  have nodes := ((Built.empty.addNode gap.nodes[0]).addNode gap.nodes[1]).addNode gap.nodes[2]
  have first := nodes.addEdge (show Graph.addEdge _ gap.edges[0] = .ok _ from rfl)
  exact first.addEdge (show Graph.addEdge _ gap.edges[1] = .ok gap from rfl)

theorem gap_fails :
    let dumped := gap.dump 0 [] Sink.collecting.watched (.start .empty)
    dumped.1 = .error (.missingSatisfaction 2) ∧ dumped.2.store.edges = [] ∧
      exists identifier, dumped.2.registry.identifier? 2 = some identifier ∧
        forall type, exists later,
          ((gap.withNull 2 type).dump 0 [] Sink.collecting.watched (.start .empty)).2.store.nodes =
            dumped.2.store.nodes ++ ellipse identifier.text (nullLabel type) :: later := by
  have failed : (gap.dump 0 [] Sink.collecting.watched (.start .empty)).1 =
      .error (.missingSatisfaction 2) := rfl
  rcases dump_outcome gap_built 0 [] Sink.obliging_collecting .empty with ⟨_, _, fails⟩
  rcases fails rfl _ failed with
    ⟨_, node, _, _, _, _, _, _, same, edges, identifier, known, _, resumes⟩
  cases same
  exact ⟨failed, edges, identifier, known, resumes⟩

end Graph
end InjectionPlan
