import InjectionPlan.Proofs.Ordering
import InjectionPlan.Proofs.Refusals

namespace InjectionPlan

/-!
# Graphs within graphs

A graph, as far as it can be reached from a root, may occur in another one with other numbers of
its nodes.  Then a dump from the root and a dump from its place in the other graph hand over the
same descriptors (`Graph.dump_embedded`).  In particular nothing depends on the order in which
nodes are declared, and nothing on nodes and edges that cannot be reached.

A tour through the first graph has an image in the second: the same stops in the places of their
nodes (`Tour.embedded`).  Registries match if places have the identifiers of the nodes placed there.
-/

/-! ## Putting nodes into other places -/

section

variable (place : NodeId -> NodeId)

def Edge.placed (edge : Edge) : Edge :=
  { edge with head := place edge.head, tail := place edge.tail }

def Stop.placed : Stop -> Stop
  | .row qualifier value => .row qualifier value
  | .turn node events leads => .turn (place node) events leads

def Action.placed : Action -> Action
  | .identify node => .identify (place node)
  | action => action

def DumpError.placed : DumpError -> DumpError
  | .unknownNode node => .unknownNode (place node)
  | .missingSatisfaction node => .missingSatisfaction (place node)
  | .emptyTarget node => .emptyTarget (place node)
  | error => error

def Portrait.placed (portrait : Portrait) : Portrait :=
  { portrait with branches := portrait.branches.map (·.placed place) }

@[simp] theorem Portrait.target_placed (portrait : Portrait) :
    (portrait.placed place).target = portrait.target := rfl

@[simp] theorem Edge.desire_placed (edge : Edge) : (edge.placed place).desire = edge.desire := rfl

@[simp] theorem Edge.tail_placed (edge : Edge) : (edge.placed place).tail = place edge.tail := rfl

theorem offeredIn_placed (actions : List Action) :
    offeredIn (actions.map (·.placed place)) = offeredIn actions := by
  rw [offeredIn, offeredIn, List.filterMap_map]
  exact List.filterMap_congr fun action _ => by cases action <;> rfl

theorem queuedIn_placed (actions : List Action) :
    queuedIn (actions.map (·.placed place)) = queuedIn actions := by
  rw [queuedIn, queuedIn, List.filterMap_map]
  exact List.filterMap_congr fun action _ => by cases action <;> rfl

theorem unboundIn_placed (actions : List Action) :
    unboundIn (actions.map (·.placed place)) = unboundIn actions := by
  rw [unboundIn, unboundIn, List.filterMap_map]
  exact List.filterMap_congr fun action _ => by cases action <;> rfl

@[simp] theorem Action.placed_note (event : LogEvent) :
    (Action.note event).placed place = .note event := rfl

@[simp] theorem placed_rowActions (qualifier : Qualifier) (value : Option Instance) :
    (Stop.rowActions qualifier value).map (·.placed place) = Stop.rowActions qualifier value := by
  cases value <;> rfl

@[simp] theorem placed_linkActions (leads : List Diagram.Edge) (target : String) :
    (Stop.linkActions leads target).map (·.placed place) = Stop.linkActions leads target := by
  simp [Stop.linkActions, Action.placed]

@[simp] theorem placed_closing (portrait : Portrait) :
    portrait.closing.map (·.placed place) = portrait.closing := by
  simp [Portrait.closing, Function.comp_def, Action.placed]

@[simp] theorem placed_opening (node : NodeId) (identifier : Identifier)
    (satisfaction : Satisfaction) :
    (opening node identifier satisfaction).map (·.placed place) =
      opening (place node) identifier satisfaction := rfl

/-- The order of edges is that of their desires. -/
theorem sortEdges_placed (edges : List Edge) :
    sortEdges (edges.map (·.placed place)) = (sortEdges edges).map (·.placed place) :=
  sortEdges_map (fun edge => congrArg OrderKey.of (edge.desire_placed place)) edges

end

/-! ## Embeddings -/

namespace Graph

/-- The nodes that edges of any kind lead to from a root on. -/
inductive Reachable (graph : Graph) (root : NodeId) : NodeId -> Prop
  | start : Reachable graph root root
  | along {node : NodeId} {edge : Edge} (before : Reachable graph root node)
    (leaves : edge ∈ graph.outgoingEdges node) : Reachable graph root edge.tail

/-- What can be reached from a root in one graph has its place in another: different nodes have
different places, and in its place each node has the same data and the same edges, in the same
order, to the places of the same nodes. -/
structure Embedding (small large : Graph) (root : NodeId) (place : NodeId -> NodeId) : Prop where
  injective : forall left right, small.Reachable root left -> small.Reachable root right ->
    place left = place right -> left = right
  node : forall node, small.Reachable root node -> large.node? (place node) = small.node? node
  edges : forall node, small.Reachable root node ->
    large.outgoingEdges (place node) = (small.outgoingEdges node).map (·.placed place)

variable {small large : Graph} {root : NodeId} {place : NodeId -> NodeId}

theorem Reachable.of_dependency {node : NodeId} (reachable : small.Reachable root node)
    {edge : Edge} (leaves : edge ∈ small.dependencies node) : small.Reachable root edge.tail :=
  .along reachable ((small.mem_dependencies node edge).mp leaves)

theorem Reachable.of_onward {node other : NodeId} (reachable : small.Reachable root node)
    (leads : other ∈ small.onward node) : small.Reachable root other := by
  rcases List.mem_map.mp leads with ⟨edge, branch, rfl⟩
  rcases (small.mem_branches_iff node edge).mp branch with ⟨_, _, _, leaves, _⟩
  exact .along reachable leaves

/-- What can be reached stays in a list of nodes that no edge leaves. -/
theorem Reachable.mem_of_closed {node : NodeId} (reachable : small.Reachable root node)
    (nodes : List NodeId) (start : root ∈ nodes)
    (closed : forall node, node ∈ nodes ->
      forall edge, edge ∈ small.outgoingEdges node -> edge.tail ∈ nodes) : node ∈ nodes := by
  induction reachable with
  | start => exact start
  | along _ leaves ih => exact closed _ ih _ leaves

namespace Embedding

/-- What is asked of an embedding can be checked node by node. -/
theorem of_closed (nodes : List NodeId) (start : root ∈ nodes)
    (closed : forall node, node ∈ nodes ->
      forall edge, edge ∈ small.outgoingEdges node -> edge.tail ∈ nodes)
    (injective : forall left, left ∈ nodes -> forall right, right ∈ nodes ->
      place left = place right -> left = right)
    (node : forall node, node ∈ nodes -> large.node? (place node) = small.node? node)
    (edges : forall node, node ∈ nodes ->
      large.outgoingEdges (place node) = (small.outgoingEdges node).map (·.placed place)) :
    small.Embedding large root place where
  injective left right reachable reachableToo :=
    injective left (reachable.mem_of_closed nodes start closed) right
      (reachableToo.mem_of_closed nodes start closed)
  node other reachable := node other (reachable.mem_of_closed nodes start closed)
  edges other reachable := edges other (reachable.mem_of_closed nodes start closed)

variable (embedding : small.Embedding large root place)

include embedding

theorem dependencies {node : NodeId} (reachable : small.Reachable root node) :
    large.dependencies (place node) = (small.dependencies node).map (·.placed place) := by
  rw [Graph.dependencies, embedding.edges node reachable, sortEdges_placed, Graph.dependencies]

theorem contains {node : NodeId} (reachable : small.Reachable root node) :
    large.contains (place node) = small.contains node := by
  rw [contains_eq_isSome, contains_eq_isSome, embedding.node node reachable]

theorem filled (edges : List Edge)
    (reachable : forall edge, edge ∈ edges -> small.Reachable root edge.tail)
    (component : Diagram.Component) :
    large.filled (edges.map (·.placed place)) component = small.filled edges component := by
  induction edges generalizing component with
  | nil => rfl
  | cons edge rest ih =>
      have data := embedding.node edge.tail (reachable edge List.mem_cons_self)
      have later := ih fun other member => reachable other (List.mem_cons_of_mem _ member)
      rw [List.map_cons, Graph.filled, Graph.filled, Edge.desire_placed, Edge.tail_placed, data]
      split
      · exact later _
      · exact later _

theorem itinerary (owner : String) (shown : Nat) (edges : List Edge)
    (reachable : forall edge, edge ∈ edges -> small.Reachable root edge.tail) :
    large.itinerary owner shown (edges.map (·.placed place)) =
      (small.itinerary owner shown edges).map (·.placed place) := by
  induction edges generalizing shown with
  | nil => rfl
  | cons edge rest ih =>
      have data := embedding.node edge.tail (reachable edge List.mem_cons_self)
      have later := fun shown => ih shown fun other member =>
        reachable other (List.mem_cons_of_mem _ member)
      rw [List.map_cons, Graph.itinerary, Graph.itinerary, Edge.desire_placed, Edge.tail_placed,
        data]
      split
      · rw [later]
        rfl
      · rw [later]
        rfl

end Embedding
end Graph

/-- An embedding of what is shown, with the same nodes unshared. -/
structure Scene.Embedding (small large : Scene) (root : NodeId) (place : NodeId -> NodeId) : Prop
    extends small.graph.Embedding large.graph root place where
  unshared : forall node, small.graph.Reachable root node ->
    (place node ∈ large.unshared <-> node ∈ small.unshared)

namespace Scene.Embedding

variable {small large : Scene} {root : NodeId} {place : NodeId -> NodeId}
  (embedding : small.Embedding large root place)

include embedding

theorem isUnshared {node : NodeId} (reachable : small.graph.Reachable root node) :
    large.isUnshared (place node) = small.isUnshared node := by
  rw [Scene.isUnshared, Scene.isUnshared]
  exact decide_eq_decide.mpr (embedding.unshared node reachable)

theorem table {node : NodeId} (reachable : small.graph.Reachable root node) (data : Node)
    (type : ComponentType) (provider : Bool) :
    large.table (place node) data type provider = small.table node data type provider := by
  rw [Scene.table, embedding.dependencies reachable, embedding.isUnshared reachable,
    embedding.filled _ fun edge leaves => reachable.of_dependency leaves, Scene.table]

theorem portrait {node : NodeId} (reachable : small.graph.Reachable root node) (data : Node)
    (satisfaction : Satisfaction) (id : String) :
    large.portrait (place node) data satisfaction id =
      (small.portrait node data satisfaction id).placed place := by
  have provided (type : ComponentType) :
      large.providedTable (place node) data type = small.providedTable node data type := by
    rw [providedTable, embedding.isUnshared reachable, providedTable]
  cases satisfaction with
  | null type => rfl
  | ofInstance type value => rfl
  | ofClass type =>
      simp only [Scene.portrait, embedding.table reachable, embedding.dependencies reachable]
      rfl
  | ofProviderClass provider type =>
      simp only [Scene.portrait, embedding.table reachable, embedding.dependencies reachable,
        provided]
      rfl
  | ofProviderInstance provider label type =>
      simp only [Scene.portrait, provided]
      rfl

/-- The stops of a node lead on from it. -/
theorem stops {registry : Registry} {node : NodeId} {data : Node} {satisfaction : Satisfaction}
    (reachable : small.graph.Reachable root node) :
    large.stops ((small.portraitIn registry node data satisfaction).placed place) =
      (small.stops (small.portraitIn registry node data satisfaction)).map (·.placed place) := by
  apply embedding.itinerary
  intro edge branch
  have leaves : edge ∈ small.graph.dependencies node := by
    cases satisfaction with
    | null type => cases branch
    | ofInstance type value => cases branch
    | ofClass type => exact branch
    | ofProviderClass provider type => exact branch
    | ofProviderInstance provider label type => cases branch
  exact reachable.of_dependency leaves

end Scene.Embedding

/-! ## Matching registries -/

/-- The places of nodes have the identifiers of the nodes, and the rest is the same. -/
structure Registry.Matches (graph : Graph) (root : NodeId) (place : NodeId -> NodeId)
    (left right : Registry) : Prop where
  identifiers : forall node, graph.Reachable root node ->
    right.identifier? (place node) = left.identifier? node
  assigned : right.assigned = left.assigned
  targets : forall text, right.target? text = left.target? text

namespace Registry.Matches

section

variable {graph : Graph} {root : NodeId} {place : NodeId -> NodeId} {left right : Registry}
  (same : Matches graph root place left right)

include same

theorem identifierFor {node : NodeId} (reachable : graph.Reachable root node) :
    right.identifierFor (place node) = left.identifierFor node := by
  rw [Registry.identifierFor, same.identifiers node reachable, same.assigned,
    Registry.identifierFor]

theorem resolve (text : String) : right.resolve text = left.resolve text := by
  rw [Registry.resolve, same.targets, Registry.resolve]

theorem recordTarget (id target : String) :
    Matches graph root place (left.recordTarget id target) (right.recordTarget id target) where
  identifiers := same.identifiers
  assigned := same.assigned
  targets text := by rw [target?_recordTarget, target?_recordTarget, same.targets]

end

variable {small large : Graph} {root : NodeId} {place : NodeId -> NodeId} {left right : Registry}

/-- Nodes in different places get their identifiers independently of each other. -/
theorem identify (same : Matches small root place left right)
    (embedding : small.Embedding large root place) {node : NodeId}
    (reachable : small.Reachable root node) (unknown : left.identifier? node = none) :
    Matches small root place (left.identify node) (right.identify (place node)) where
  identifiers other otherReachable := by
    have apart : place node = place other <-> node = other :=
      ⟨embedding.injective node other reachable otherReachable, congrArg place⟩
    rw [identifier?_identify, identifier?_identify, same.identifierFor reachable,
      same.identifiers other otherReachable]
    exact if_congr apart rfl rfl
  assigned := by
    rw [assigned_identify unknown, assigned_identify, same.assigned]
    rw [same.identifiers node reachable, unknown]
  targets text := by rw [target?_identify, target?_identify, same.targets]

theorem rooted (embedding : small.Embedding large root place) :
    Matches small root place (.rooted root) (.rooted (place root)) where
  identifiers node reachable := by
    have apart : place root = place node <-> root = node :=
      ⟨embedding.injective root node .start reachable, congrArg place⟩
    rw [identifier?_rooted, identifier?_rooted]
    exact if_congr apart rfl rfl
  assigned := rfl
  targets _ := rfl

end Registry.Matches

/-! ## Tours -/

namespace Scene.Embedding

variable {small large : Scene} {root : NodeId} {place : NodeId -> NodeId}
  (embedding : small.Embedding large root place) {registry other : Registry}
  (same : Registry.Matches small.graph root place registry other) {node : NodeId}
  (reachable : small.graph.Reachable root node)

include embedding same reachable

theorem portraitIn (data : Node) (satisfaction : Satisfaction) :
    large.portraitIn other (place node) data satisfaction =
      (small.portraitIn registry node data satisfaction).placed place := by
  rw [Scene.portraitIn, same.identifierFor reachable, embedding.portrait reachable,
    Scene.portraitIn]

theorem fresh {data : Node} {satisfaction : Satisfaction}
    (fresh : small.Fresh registry node data satisfaction) :
    large.Fresh other (place node) data satisfaction where
  unknown := (same.identifiers node reachable).trans fresh.unknown
  present := (embedding.node node reachable).trans fresh.present
  bound := fresh.bound

end Scene.Embedding

/-- What is done to show a node is done in its place. -/
theorem Scene.Embedding.showing {small large : Scene} {root : NodeId} {place : NodeId -> NodeId}
    (embedding : small.Embedding large root place) {registry other : Registry}
    (same : Registry.Matches small.graph root place registry other) {node : NodeId}
    (reachable : small.graph.Reachable root node) (data : Node) (satisfaction : Satisfaction)
    (actions : List Action) :
    large.showing other (place node) data satisfaction (actions.map (·.placed place)) =
      (small.showing registry node data satisfaction actions).map (·.placed place) := by
  simp only [Scene.showing, List.map_append, placed_opening, placed_closing,
    same.identifierFor reachable, embedding.portraitIn same reachable]
  rfl

/-- The same stops can be made in the places of their nodes, and the same comes of it. -/
theorem Tour.embedded {small large : Scene} {root : NodeId} {place : NodeId -> NodeId}
    {stops : List Stop} {registry : Registry} {course : Course Unit}
    (tour : Tour small stops registry course) (embedding : small.Embedding large root place)
    (reachable : forall node, node ∈ heads stops -> small.graph.Reachable root node)
    {other : Registry} (same : Registry.Matches small.graph root place registry other) :
    exists reached, Registry.Matches small.graph root place course.registry reached ∧
      Tour large (stops.map (·.placed place)) other
        ⟨course.actions.map (·.placed place), reached,
          course.result.mapError (DumpError.placed place)⟩ := by
  induction tour generalizing other with
  | done => exact ⟨other, same, .done⟩
  | row _ ih =>
      rcases ih reachable same with ⟨reached, sameLater, later⟩
      refine ⟨reached, sameLater, ?_⟩
      simpa [Course.after, Stop.placed] using Tour.row later
  | @known node events leads rest registry course identifier has _ ih =>
      have here := reachable node List.mem_cons_self
      rcases ih (fun other member => reachable other (List.mem_cons_of_mem _ member)) same with
        ⟨reached, sameLater, later⟩
      have tour : Tour large ((Stop.turn node events leads :: rest).map (·.placed place)) other _ :=
        .known ((same.identifiers node here).trans has) later
      refine ⟨reached, sameLater, ?_⟩
      simpa [Course.after, Stop.placed, Function.comp_def, same.resolve] using tour
  | @foreign node events leads rest registry unknown absent =>
      have here := reachable node List.mem_cons_self
      have tour : Tour large ((Stop.turn node events leads :: rest).map (·.placed place)) other _ :=
        .foreign ((same.identifiers node here).trans unknown)
          ((embedding.node node here).trans absent)
      refine ⟨other, same, ?_⟩
      simpa [Stop.placed, Function.comp_def, Except.mapError, DumpError.placed] using tour
  | @bare node events leads rest registry data unknown present unbound =>
      have here := reachable node List.mem_cons_self
      have tour : Tour large ((Stop.turn node events leads :: rest).map (·.placed place)) other _ :=
        .bare ((same.identifiers node here).trans unknown)
          ((embedding.node node here).trans present) unbound
      refine ⟨_, same.identify embedding.toEmbedding here unknown, ?_⟩
      simpa [Stop.placed, Action.placed, Function.comp_def, Except.mapError, DumpError.placed]
        using tour
  | @failed node events leads rest registry data satisfaction actions reached error fresh _ ih =>
      have here := reachable node List.mem_cons_self
      have inside := ih (fun other member => here.of_onward (fresh.heads_stops ▸ member))
        (same.identify embedding.toEmbedding here fresh.unknown)
      rw [← embedding.stops here] at inside
      rcases inside with ⟨last, sameInside, within⟩
      rw [← embedding.portraitIn same here] at within
      have tour : Tour large ((Stop.turn node events leads :: rest).map (·.placed place)) other _ :=
        .failed (embedding.fresh same here fresh) within
      refine ⟨last, sameInside, ?_⟩
      simpa [Stop.placed, Function.comp_def, Except.mapError, same.identifierFor here] using tour
  | @shown node events leads rest registry course data satisfaction actions reached fresh within
      behind ihWithin ihLater =>
      have here := reachable node List.mem_cons_self
      have inside := ihWithin (fun other member => here.of_onward (fresh.heads_stops ▸ member))
        (same.identify embedding.toEmbedding here fresh.unknown)
      rw [← embedding.stops here] at inside
      rcases inside with ⟨last, sameInside, within⟩
      rw [← embedding.portraitIn same here] at within
      rcases ihLater (fun other member => reachable other (List.mem_cons_of_mem _ member))
        (sameInside.recordTarget _ _) with ⟨final, sameLater, later⟩
      refine ⟨final, sameLater, ?_⟩
      have tour : Tour large ((Stop.turn node events leads :: rest).map (·.placed place)) other _ :=
        .shown (embedding.fresh same here fresh) within (by
          rw [same.identifierFor here, embedding.portraitIn same here]
          exact later)
      rw [embedding.showing same here, embedding.portraitIn same here] at tour
      simpa [Course.after, Stop.placed, Function.comp_def] using tour

/-! ## Dumps -/

theorem rootStops_placed (place : NodeId -> NodeId) (edges : List Edge) :
    rootStops (edges.map (·.placed place)) = (rootStops edges).map (·.placed place) := by
  rw [rootStops, rootStops, List.map_map, List.map_map]
  rfl

namespace Graph

variable {small large : Graph} {root : NodeId} {place : NodeId -> NodeId}
  {unshared otherUnshared : List NodeId}

/-- Nodes that are not in the graph may be named unshared without being so. -/
theorem Embedding.scene (embedding : small.Embedding large root place)
    (alike : forall node, small.Reachable root node ->
      (place node ∈ otherUnshared <-> node ∈ unshared)) :
    (small.scene unshared).Embedding (large.scene otherUnshared) root place where
  toEmbedding := embedding
  unshared node reachable := by
    rw [Graph.scene, Graph.scene, Session.mem_inGraph, Session.mem_inGraph, alike node reachable,
      embedding.contains reachable]

/-- The script of a dump is the same in another place, up to the node that an error names. -/
theorem script_embedded (embedding : small.Embedding large root place)
    (alike : forall node, small.Reachable root node ->
      (place node ∈ otherUnshared <-> node ∈ unshared)) :
    large.script (place root) otherUnshared =
      { small.script root unshared with
        result := (small.script root unshared).result.mapError (DumpError.placed place) } := by
  have inside := embedding.contains Reachable.start
  cases contained : small.contains root with
  | false =>
      rw [script_of_not_contains contained, script_of_not_contains (inside.trans contained)]
      rfl
  | true =>
      rcases Tour.total (small.scene unshared) (rootStops (small.dependencies root))
        (.rooted root) with ⟨course, tour⟩
      have reachable : forall node, node ∈ heads (rootStops (small.dependencies root)) ->
          small.Reachable root node := by
        intro node member
        rw [heads_rootStops] at member
        rcases List.mem_map.mp member with ⟨edge, leaves, rfl⟩
        exact Reachable.start.of_dependency leaves
      rcases tour.embedded (embedding.scene alike) reachable (.rooted embedding) with
        ⟨reached, same, image⟩
      rw [← rootStops_placed, ← embedding.dependencies .start] at image
      rw [script_of_tour contained tour, script_of_tour (inside.trans contained) image]
      have resolved : Queue.retarget reached = Queue.retarget course.registry := by
        funext edge
        rw [Queue.retarget, Queue.retarget, same.resolve]
      rcases course with ⟨actions, registry, result⟩
      dsimp only at resolved
      simp only [Course.script, offeredIn_placed, queuedIn_placed, unboundIn_placed, resolved]
      cases result <;> rfl

variable {State : Type u}

/-- Any sink comes to be in the same state. -/
private theorem dump_in_place (embedding : small.Embedding large root place)
    (alike : forall node, small.Reachable root node ->
      (place node ∈ otherUnshared <-> node ∈ unshared)) (sink : Sink State) (store : State) :
    let dumped := small.dump root unshared sink store
    let image := large.dump (place root) otherUnshared sink store
    image.1 = dumped.1.mapError (DumpError.placed place) ∧ image.2.store = dumped.2.store := by
  have plays := small.dump_eq_play root unshared sink store
  have playsImage := large.dump_eq_play (place root) otherUnshared sink store
  rw [script_embedded embedding alike] at playsImage
  generalize small.script root unshared = script at plays playsImage
  rcases Prod.mk.inj plays with ⟨result, stored⟩
  rcases Prod.mk.inj playsImage with ⟨resultImage, storedImage⟩
  refine ⟨?_, storedImage.trans stored.symm⟩
  rw [result, resultImage]
  change Script.outcome _ (sink.takeAll script.descriptors store).1 =
    (script.outcome (sink.takeAll script.descriptors store).1).mapError _
  cases (sink.takeAll script.descriptors store).1 <;> rfl

/-- A dump from the place of a root in another graph hands over what a dump from the root does,
gets the same answers, and comes to the same, up to the node that an error names.  Watching the
sink makes no difference. -/
theorem dump_embedded (embedding : small.Embedding large root place)
    (alike : forall node, small.Reachable root node ->
      (place node ∈ otherUnshared <-> node ∈ unshared)) (sink : Sink State) (store : State) :
    let dumped := small.dump root unshared sink.watched (.start store)
    let image := large.dump (place root) otherUnshared sink.watched (.start store)
    image.2.store.handovers = dumped.2.store.handovers ∧
      image.1 = dumped.1.mapError (DumpError.placed place) ∧
      (large.dump (place root) otherUnshared sink store).2.store =
        (small.dump root unshared sink store).2.store ∧
      (large.dump (place root) otherUnshared sink store).1 =
        (small.dump root unshared sink store).1.mapError (DumpError.placed place) := by
  rcases dump_in_place embedding alike sink.watched (.start store) with ⟨results, stores⟩
  rcases dump_in_place embedding alike sink store with ⟨bareResults, bareStores⟩
  exact ⟨congrArg Watched.handovers stores, results, bareStores, bareResults⟩

/-- The ring in another order of its nodes, behind a node that needs its root and one part of it. -/
def annex : Graph :=
  let type : ComponentType := ⟨"plan.Part", true, false⟩
  let edge (head tail : NodeId) (member : String) (transient : Bool) : Edge :=
    ⟨head, tail, type, .field member, none, transient⟩
  { nodes := #[.ofSatisfaction (.ofClass type), .ofSatisfaction (.ofClass type),
      .ofSatisfaction (.ofClass type), .ofSatisfaction (.ofProviderClass type type)]
    edges := #[edge 0 2 "ring" false, edge 1 3 "back" false, edge 3 1 "next" true,
      edge 1 1 "self" false, edge 3 2 "owner" false, edge 2 3 "first" false, edge 0 1 "part" true]
    outgoing := #[#[0, 6], #[1, 3], #[5], #[2, 4]] }

/-- Where the nodes of the ring stand in the annex. -/
def annexed : NodeId -> NodeId
  | 0 => 2
  | 1 => 3
  | 2 => 1
  | node => node

theorem ring_embedding : ring.Embedding annex 0 annexed :=
  .of_closed [0, 1, 2] (by decide) (by decide) (by decide) (by decide) (by decide)

/-- One part of the ring and the node in front of it are not shared.  Of the latter nothing
shows. -/
theorem ring_annexed :
    let dumped := ring.dump 0 [2] Sink.collecting.watched (.start .empty)
    let image := annex.dump 2 [0, 1] Sink.collecting.watched (.start .empty)
    image.2.store.handovers = dumped.2.store.handovers ∧ image.1 = dumped.1 ∧
      dumped.1 = .ok ⟨4, 6, 0⟩ := by
  have alike : forall node, ring.Reachable 0 node ->
      (annexed node ∈ [0, 1] <-> node ∈ [2]) := by
    intro node reachable
    have member := reachable.mem_of_closed [0, 1, 2] (by decide) (by decide)
    clear reachable
    revert node
    decide
  rcases dump_embedded ring_embedding alike Sink.collecting .empty with
    ⟨handovers, results, _⟩
  exact ⟨handovers, results, rfl⟩

end Graph
end InjectionPlan
