import InjectionPlan.Proofs.Ordering
import InjectionPlan.Proofs.Script

namespace InjectionPlan

/-!
# Graphs in another guise

A guise changes what nodes and desires say without changing what a tour looks at: the place of an
injection, the parameter asked for, the value of a node.  A scene in another guise is toured stop by
stop like the scene itself, and all that differs is how the nodes of the diagram look
(`Tour.guised`).  Registries need no guise: the same identifiers are given and the same targets are
recorded.

The guise that changes nothing is of use for graphs that keep their edges in another order.
-/

/-- A change of what a graph says and of how the nodes of its diagram look. -/
structure Guise where
  satisfaction : Satisfaction -> Satisfaction
  desire : Desire -> Desire
  cachePolicy : CachePolicy -> CachePolicy
  shown : Diagram.Node -> Diagram.Node
  instance? : forall plain, (satisfaction plain).instance? = plain.instance?
  injectionPoint : forall plain, (desire plain).injectionPoint = plain.injectionPoint
  typeName : forall plain, (desire plain).desiredType.name = plain.desiredType.name
  rootNode : shown Session.rootNode = Session.rootNode

namespace Guise

/-- The guise that changes nothing. -/
def plain : Guise where
  satisfaction := id
  desire := id
  cachePolicy := id
  shown := id
  instance? _ := rfl
  injectionPoint _ := rfl
  typeName _ := rfl
  rootNode := rfl

section

variable (guise : Guise)

def node (node : Node) : Node :=
  ⟨node.satisfaction.map guise.satisfaction, guise.cachePolicy node.cachePolicy⟩

def edge (edge : Edge) : Edge :=
  { edge with desire := guise.desire edge.desire }

def graph (graph : Graph) : Graph :=
  { graph with nodes := graph.nodes.map guise.node, edges := graph.edges.map guise.edge }

def event : LogEvent -> LogEvent
  | .dispatching identifier satisfaction => .dispatching identifier (guise.satisfaction satisfaction)
  | .dependency desire => .dependency (guise.desire desire)
  | event => event

def stop : Stop -> Stop
  | .row qualifier value => .row qualifier value
  | .turn node events leads => .turn node (events.map guise.event) leads

def action : Action -> Action
  | .offer node => .offer (guise.shown node)
  | .note event => .note (guise.event event)
  | action => action

def portrait (portrait : Portrait) : Portrait :=
  { portrait with
    branches := portrait.branches.map guise.edge
    nodes := portrait.nodes.map guise.shown }

def script (script : Script) : Script :=
  { script with nodes := script.nodes.map guise.shown }

/-! ## What a guise leaves alone -/

@[simp] theorem parameter?_desire (desire : Desire) :
    (guise.desire desire).parameter? = desire.parameter? := by
  rw [Desire.parameter?, Desire.qualifier, guise.injectionPoint]
  rfl

@[simp] theorem isTransient_desire (desire : Desire) :
    (guise.desire desire).isTransient = desire.isTransient := by
  rw [Desire.isTransient, guise.injectionPoint]
  rfl

@[simp] theorem display_desire (desire : Desire) :
    (guise.desire desire).display = desire.display := by
  rw [Desire.display, Desire.qualifier, guise.injectionPoint, ComponentType.shortName,
    guise.typeName]
  rfl

@[simp] theorem desire_edge (edge : Edge) : (guise.edge edge).desire = guise.desire edge.desire :=
  rfl

@[simp] theorem tail_edge (edge : Edge) : (guise.edge edge).tail = edge.tail := rfl

theorem key_edge (edge : Edge) : (guise.edge edge).key = edge.key := by
  unfold Edge.key OrderKey.of Desire.qualifier
  rw [desire_edge, guise.injectionPoint, guise.typeName]

@[simp] theorem instance?_node (node : Node) : (guise.node node).instance? = node.instance? := by
  rw [Node.instance?, Node.instance?, Guise.node, Option.bind_map]
  exact congrArg _ (funext guise.instance?)

@[simp] theorem target_portrait (portrait : Portrait) :
    (guise.portrait portrait).target = portrait.target := rfl

@[simp] theorem action_note (event : LogEvent) :
    guise.action (.note event) = .note (guise.event event) := rfl

@[simp] theorem actions_rowActions (qualifier : Qualifier) (value : Option Instance) :
    (Stop.rowActions qualifier value).map guise.action = Stop.rowActions qualifier value := by
  cases value <;> rfl

@[simp] theorem actions_linkActions (leads : List Diagram.Edge) (target : String) :
    (Stop.linkActions leads target).map guise.action = Stop.linkActions leads target := by
  simp [Stop.linkActions, action]

@[simp] theorem actions_closing (portrait : Portrait) :
    portrait.closing.map guise.action = (guise.portrait portrait).closing := by
  simp [Portrait.closing, Guise.portrait, action, Function.comp_def]

@[simp] theorem actions_opening (node : NodeId) (identifier : Identifier)
    (satisfaction : Satisfaction) :
    (opening node identifier satisfaction).map guise.action =
      opening node identifier (guise.satisfaction satisfaction) := rfl

theorem offeredIn_actions (actions : List Action) :
    offeredIn (actions.map guise.action) = (offeredIn actions).map guise.shown := by
  rw [offeredIn, offeredIn, List.filterMap_map, List.map_filterMap]
  exact List.filterMap_congr fun action _ => by cases action <;> rfl

theorem queuedIn_actions (actions : List Action) :
    queuedIn (actions.map guise.action) = queuedIn actions := by
  rw [queuedIn, queuedIn, List.filterMap_map]
  exact List.filterMap_congr fun action _ => by cases action <;> rfl

theorem unboundIn_actions (actions : List Action) :
    unboundIn (actions.map guise.action) = unboundIn actions := by
  rw [unboundIn, unboundIn, List.filterMap_map]
  exact List.filterMap_congr fun action _ => by cases action <;> rfl

end

/-! ## Scenes -/

/-- A scene that shows another one in a guise.  Which edges of a node come first may be known from
other edges, as long as it comes to the same. -/
structure Fits (guise : Guise) (scene disguised : Scene) : Prop where
  node : forall node, disguised.graph.node? node = (scene.graph.node? node).map guise.node
  dependencies : forall node,
    disguised.graph.dependencies node = (scene.graph.dependencies node).map guise.edge
  portrait : forall (node : NodeId) (data : Node) (satisfaction : Satisfaction) (id : String),
    data.satisfaction = some satisfaction ->
      disguised.portrait node (guise.node data) (guise.satisfaction satisfaction) id =
        guise.portrait (scene.portrait node data satisfaction id)

section

variable {guise : Guise} {first second : Graph}
  (node : forall node, second.node? node = (first.node? node).map guise.node)

include node

theorem value_of_node (edge : Edge) :
    (second.node? (guise.edge edge).tail).bind Node.instance? =
      (first.node? edge.tail).bind Node.instance? := by
  rw [tail_edge, node, Option.bind_map]
  exact congrArg _ (funext guise.instance?_node)

theorem filled_of_node (edges : List Edge) (component : Diagram.Component) :
    second.filled (edges.map guise.edge) component = first.filled edges component := by
  induction edges generalizing component with
  | nil => rfl
  | cons edge rest ih =>
      have added : component.addDependency (guise.desire edge.desire) =
          component.addDependency edge.desire := by
        rw [Diagram.Component.addDependency, display_desire, Diagram.Component.addDependency]
      rw [List.map_cons, Graph.filled, Graph.filled, value_of_node node, desire_edge,
        parameter?_desire]
      split
      · exact ih _
      · rw [added]
        exact ih _

theorem itinerary_of_node (owner : String) (shown : Nat) (edges : List Edge) :
    second.itinerary owner shown (edges.map guise.edge) =
      (first.itinerary owner shown edges).map guise.stop := by
  induction edges generalizing shown with
  | nil => rfl
  | cons edge rest ih =>
      rw [List.map_cons, Graph.itinerary, Graph.itinerary, value_of_node node, desire_edge,
        parameter?_desire]
      split
      · rw [ih]
        rfl
      · rw [ih, isTransient_desire]
        rfl

end

namespace Fits

variable {guise : Guise} {scene disguised : Scene} (fits : guise.Fits scene disguised)

include fits

theorem stops (portrait : Portrait) :
    disguised.stops (guise.portrait portrait) = (scene.stops portrait).map guise.stop :=
  itinerary_of_node fits.node _ _ _

theorem fresh {registry : Registry} {node : NodeId} {data : Node} {satisfaction : Satisfaction}
    (fresh : scene.Fresh registry node data satisfaction) :
    disguised.Fresh registry node (guise.node data) (guise.satisfaction satisfaction) where
  unknown := fresh.unknown
  present := by rw [fits.node, fresh.present, Option.map_some]
  bound := by rw [Guise.node, fresh.bound, Option.map_some]

section

variable {registry : Registry} {node : NodeId} {data : Node} {satisfaction : Satisfaction}
  (fresh : scene.Fresh registry node data satisfaction)

include fresh

theorem portraitIn :
    disguised.portraitIn registry node (guise.node data) (guise.satisfaction satisfaction) =
      guise.portrait (scene.portraitIn registry node data satisfaction) :=
  fits.portrait node data satisfaction _ fresh.bound

theorem stopsIn :
    disguised.stops (disguised.portraitIn registry node (guise.node data)
        (guise.satisfaction satisfaction)) =
      (scene.stops (scene.portraitIn registry node data satisfaction)).map guise.stop := by
  rw [fits.portraitIn fresh, fits.stops]

theorem showing (actions : List Action) :
    disguised.showing registry node (guise.node data) (guise.satisfaction satisfaction)
        (actions.map guise.action) =
      (scene.showing registry node data satisfaction actions).map guise.action := by
  simp only [Scene.showing, List.map_append, actions_opening, actions_closing,
    fits.portraitIn fresh]
  rfl

end
end Fits
end Guise

/-! ## Tours -/

/-- In another guise, the same stops are made with the same outcome. -/
theorem Tour.guised {guise : Guise} {scene disguised : Scene} (fits : guise.Fits scene disguised)
    {stops : List Stop} {registry : Registry} {course : Course Unit}
    (tour : Tour scene stops registry course) :
    Tour disguised (stops.map guise.stop) registry
      { course with actions := course.actions.map guise.action } := by
  induction tour with
  | done => exact .done
  | row _ ih => simpa [Course.after, Guise.stop] using Tour.row ih
  | @known node events leads rest registry course identifier has _ ih =>
      have tour : Tour disguised ((Stop.turn node events leads :: rest).map guise.stop) _ _ :=
        .known has ih
      simpa [Course.after, Guise.stop, Function.comp_def] using tour
  | @foreign node events leads rest registry unknown absent =>
      have absent : disguised.graph.node? node = none := by
        rw [fits.node, absent, Option.map_none]
      have tour : Tour disguised ((Stop.turn node events leads :: rest).map guise.stop) _ _ :=
        .foreign unknown absent
      simpa [Guise.stop, Function.comp_def] using tour
  | @bare node events leads rest registry data unknown present unbound =>
      have present : disguised.graph.node? node = some (guise.node data) := by
        rw [fits.node, present, Option.map_some]
      have unbound : (guise.node data).satisfaction = none := by
        rw [Guise.node, unbound, Option.map_none]
      have tour : Tour disguised ((Stop.turn node events leads :: rest).map guise.stop) _ _ :=
        .bare unknown present unbound
      simpa [Guise.stop, Guise.action, Function.comp_def] using tour
  | @failed node events leads rest registry data satisfaction actions reached error fresh _ ih =>
      rw [← fits.stopsIn fresh] at ih
      have tour : Tour disguised ((Stop.turn node events leads :: rest).map guise.stop) _ _ :=
        .failed (fits.fresh fresh) ih
      simpa [Guise.stop, Function.comp_def] using tour
  | @shown node events leads rest registry course data satisfaction actions reached fresh _ _
      ihWithin ihLater =>
      rw [← fits.stopsIn fresh] at ihWithin
      have target : (disguised.portraitIn registry node (guise.node data)
          (guise.satisfaction satisfaction)).target =
            (scene.portraitIn registry node data satisfaction).target := by
        rw [fits.portraitIn fresh, Guise.target_portrait]
      rw [← target] at ihLater
      have tour : Tour disguised ((Stop.turn node events leads :: rest).map guise.stop) _ _ :=
        .shown (fits.fresh fresh) ihWithin ihLater
      rw [fits.showing fresh, target] at tour
      simpa [Course.after, Guise.stop, Function.comp_def] using tour

/-! ## Scripts -/

theorem Guise.rootStops_edge (guise : Guise) (edges : List Edge) :
    rootStops (edges.map guise.edge) = (rootStops edges).map guise.stop := by
  rw [rootStops, rootStops, List.map_map, List.map_map]
  rfl

theorem Course.script_guised (guise : Guise) (course : Course Unit) :
    script { course with actions := course.actions.map guise.action } =
      guise.script course.script := by
  simp only [script, Guise.script, guise.offeredIn_actions, guise.queuedIn_actions,
    guise.unboundIn_actions, List.map_cons, guise.rootNode, List.length_map]

/-- What is handed over in another guise is the same but for the looks of the nodes. -/
theorem Guise.Fits.script {guise : Guise} {first second : Graph} {unshared others : List NodeId}
    (fits : guise.Fits (first.scene unshared) (second.scene others)) (root : NodeId) :
    second.script root others = guise.script (first.script root unshared) := by
  have inside : second.contains root = first.contains root := by
    rw [Graph.contains_eq_isSome, Graph.contains_eq_isSome]
    exact (congrArg Option.isSome (fits.node root)).trans Option.isSome_map
  cases contained : first.contains root with
  | false =>
      rw [Graph.script_of_not_contains contained,
        Graph.script_of_not_contains (inside.trans contained)]
      rfl
  | true =>
      rcases Tour.total (first.scene unshared) (rootStops (first.dependencies root))
        (.rooted root) with ⟨course, tour⟩
      have disguised := tour.guised fits
      have dependencies : second.dependencies root = (first.dependencies root).map guise.edge :=
        fits.dependencies root
      rw [← guise.rootStops_edge, ← dependencies] at disguised
      rw [Graph.script_of_tour contained tour,
        Graph.script_of_tour (inside.trans contained) disguised, Course.script_guised]

end InjectionPlan
