import InjectionPlan.Diagram.Component
import InjectionPlan.Plan.Order
import InjectionPlan.Session.Log

namespace InjectionPlan

/-!
# Walks and the actions that they consist of

Showing a node means to show first all that it depends on.  What has to be done on such a walk
does not depend on the sink, only on the graph and on the identifiers and targets known so far.
So a walk is worked out without a sink: it yields the list of actions to be carried out, the
registry that they lead to, and either a result or the error that ends the walk.

Dependencies may lead back to a node that is still being shown, so the nesting of a walk needs a
bound.  A walk that exceeds it yields nothing at all.  The bound that is used, the number of nodes
without an identifier, is never exceeded, because every nested step begins by giving an identifier
to a node that had none.
-/

/-- One thing to be done while a graph is shown. -/
inductive Action
  /-- A node gets the next identifier. -/
  | identify (node : NodeId)
  /-- The edges that lead to an identifier are to end at a target. -/
  | record (id : Identifier) (target : String)
  /-- A node of the diagram is handed to the sink. -/
  | offer (node : Diagram.Node)
  /-- An edge of the diagram waits for the end. -/
  | enqueue (edge : Diagram.Edge)
  /-- A parameter turned out to have no value. -/
  | unbound (qualifier : Qualifier)
  /-- An event is logged. -/
  | note (event : LogEvent)
deriving DecidableEq

/-- The effect of an action on the registry. -/
def Registry.apply (registry : Registry) : Action -> Registry
  | .identify node => registry.identify node
  | .record id target => registry.recordTarget id.text target
  | .offer _ => registry
  | .enqueue _ => registry
  | .unbound _ => registry
  | .note _ => registry

/-- What a walk comes to. -/
structure Course (α : Type) where
  actions : List Action
  registry : Registry
  result : Except DumpError α

/-- A walk from a registry.  Nothing comes of it when its nesting exceeds the bound. -/
structure Walk (α : Type) where
  run : Registry -> Option (Course α)

namespace Walk

def pure (result : α) : Walk α where
  run registry := some ⟨[], registry, .ok result⟩

/-- Goes on after a walk, unless it ended with an error. -/
def bind (walk : Walk α) (next : α -> Walk β) : Walk β where
  run registry :=
    (walk.run registry).bind fun course =>
      match course.result with
      | .error error => some ⟨course.actions, course.registry, .error error⟩
      | .ok result =>
        ((next result).run course.registry).map fun later =>
          { later with actions := course.actions ++ later.actions }

instance : Monad Walk where
  pure := pure
  bind := bind

/-- Does one action. -/
def act (action : Action) : Walk Unit where
  run registry := some ⟨[action], registry.apply action, .ok ()⟩

/-- Ends with an error. -/
def fail (error : DumpError) : Walk α where
  run registry := some ⟨[], registry, .error error⟩

/-- Exceeds the bound. -/
def exceed : Walk α where
  run _ := none

/-- The registry reached. -/
def registry : Walk Registry where
  run reached := some ⟨[], reached, .ok reached⟩

@[simp] theorem run_pure (result : α) (registry : Registry) :
    (Pure.pure result : Walk α).run registry = some ⟨[], registry, .ok result⟩ := rfl

@[simp] theorem run_bind (walk : Walk α) (next : α -> Walk β) (registry : Registry) :
    (walk >>= next).run registry =
      (walk.run registry).bind fun course =>
        match course.result with
        | .error error => some ⟨course.actions, course.registry, .error error⟩
        | .ok result =>
          ((next result).run course.registry).map fun later =>
            { later with actions := course.actions ++ later.actions } := rfl

@[simp] theorem run_act (action : Action) (registry : Registry) :
    (act action).run registry = some ⟨[action], registry.apply action, .ok ()⟩ := rfl

@[simp] theorem run_fail (error : DumpError) (registry : Registry) :
    (fail error : Walk α).run registry = some ⟨[], registry, .error error⟩ := rfl

@[simp] theorem run_exceed (registry : Registry) : (exceed : Walk α).run registry = none := rfl

@[simp] theorem run_registry (reached : Registry) :
    registry.run reached = some ⟨[], reached, .ok reached⟩ := rfl

/-- Notes a parameter that has no value. -/
def checkBound (qualifier : Qualifier) : Option Instance -> Walk Unit
  | some _ => pure ()
  | none => act (.unbound qualifier)

/-- Hands a node to the sink and gives its target. -/
def offer (node : Diagram.Node) : Walk String := do
  act (.offer node)
  return node.target

end Walk

/-! ## The descriptors of a node -/

/-- The edge from a row of a component to what the row depends on. -/
def dependencyEdge (id : String) (port : Nat) (target : String) (transient : Bool) :
    Diagram.Edge :=
  let edge := (Diagram.Edge.plain (id ++ ":" ++ toString port) target).setText "arrowhead" "vee"
  if transient then edge.setText "style" "dashed" else edge

/-- The edge from what a provider gives back to the provider. -/
def providerEdge (provided provider : String) : Diagram.Edge :=
  (((Diagram.Edge.plain provided provider).setText "style" "dotted").setText "dir" "back").setText
    "arrowhead" "vee"

/-- A label in an ellipse. -/
def ellipse (id label : String) : Diagram.Node :=
  ((Diagram.Node.plain id).setText "label" label).setText "shape" "ellipse"

/-- The identifier of the provider beside a node. -/
def providerId (id : String) : String :=
  id ++ "P"

/-- The label of a node to which nothing is bound. -/
def nullLabel (type : ComponentType) : String :=
  if type.dataAccess then "DAO" else "null"

/-! ## Walking -/

/-- The graph that is shown, with the nodes that are not shared. -/
structure Scene where
  graph : Graph
  unshared : List NodeId

namespace Scene

def isUnshared (scene : Scene) (node : NodeId) : Bool :=
  decide (node ∈ scene.unshared)

/-- Adds the rows of a component for the edges that leave it.  A parameter is a row only; what
else it depends on is shown first, and an edge leads there from the row. -/
def rows (scene : Scene) (visit : NodeId -> Walk String) (id : String) :
    List Edge -> Diagram.Component -> Walk Diagram.Component
  | [], component => return component
  | edge :: rest, component =>
    match edge.desire.parameter? with
    | some qualifier => do
      Walk.act (.note (.parameter qualifier))
      let value := (scene.graph.node? edge.tail).bind Node.instance?
      Walk.checkBound qualifier value
      scene.rows visit id rest (component.addParameter qualifier value)
    | none => do
      Walk.act (.note (.dependency edge.desire))
      let component := component.addDependency edge.desire
      let target <- visit edge.tail
      Walk.act (.enqueue
        (dependencyEdge id component.lastPort target edge.desire.isTransient))
      scene.rows visit id rest component

/-- Shows the table of a node's component, or of its provider. -/
def component (scene : Scene) (visit : NodeId -> Walk String) (node : NodeId) (data : Node)
    (type : ComponentType) (id : String) (provider : Bool) : Walk String := do
  let start : Diagram.Component :=
    { Diagram.Component.ofType type with
      shareable := !provider && data.isShareable
      shared := !scene.isUnshared node
      provider := provider }
  let table <- scene.rows visit id (scene.graph.dependencies node) start
  Walk.offer (table.toNode id)

/-- Shows what a provider gives, with an edge back to the provider. -/
def provided (scene : Scene) (node : NodeId) (data : Node) (type : ComponentType) (id : String)
    (provider : String) : Walk String := do
  let unshared := scene.isUnshared node
  let table : Diagram.Component :=
    { Diagram.Component.ofType type with
      shareable := data.isShareable && !unshared
      shared := !unshared
      provided := true }
  let target <- Walk.offer (table.toNode id)
  Walk.act (.enqueue (providerEdge target provider))
  return target

/-- Shows a node according to its satisfaction and gives its target. -/
def render (scene : Scene) (visit : NodeId -> Walk String) (node : NodeId) (data : Node)
    (identifier : Identifier) : Walk String := do
  let id := identifier.text
  match data.satisfaction with
  | none => Walk.fail (.missingSatisfaction node)
  | some satisfaction =>
    Walk.act (.note (.dispatching identifier satisfaction))
    match satisfaction with
    | .null type => Walk.offer (ellipse id (nullLabel type))
    | .ofInstance _ value => Walk.offer (ellipse id value.display)
    | .ofClass type => scene.component visit node data type id false
    | .ofProviderClass provider type =>
      let target <- scene.component visit node data provider (providerId id) true
      scene.provided node data type id target
    | .ofProviderInstance provider label type =>
      let shown := (ellipse (providerId id) (label.getD provider.name)).setText "style" "dashed"
      let target <- Walk.offer shown
      scene.provided node data type id target

/-- Gives a node an identifier and shows it, and records its target. -/
def settle (scene : Scene) (visit : NodeId -> Walk String) (node : NodeId) (data : Node) :
    Walk String := do
  let identifier := (<- Walk.registry).identifierFor node
  Walk.act (.identify node)
  let target <- scene.render visit node data identifier
  if target.isEmpty then
    Walk.fail (.emptyTarget node)
  else
    Walk.act (.record identifier target)
    return target

/-- Gives the target of a node that has an identifier, and turns to the node otherwise. -/
def reach (scene : Scene) (node : NodeId) (turn : Node -> Walk String) : Walk String := do
  let registry <- Walk.registry
  match registry.identifier? node with
  | some identifier => return registry.resolve identifier.text
  | none =>
    match scene.graph.node? node with
    | none => Walk.fail (.unknownNode node)
    | some data => turn data

/-- Shows a node unless it has an identifier, with at most `depth` nodes being shown one inside
the other.  The target of a node that is still being shown is its identifier. -/
def visit (scene : Scene) : (depth : Nat) -> NodeId -> Walk String
  | 0, node => scene.reach node fun _ => Walk.exceed
  | depth + 1, node => scene.reach node fun data => scene.settle (scene.visit depth) node data

end Scene
end InjectionPlan
