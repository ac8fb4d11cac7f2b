import InjectionPlan.Proofs.Naming

namespace InjectionPlan

/-!
# What is shown of a node

The five kinds of satisfaction are shown in one way: the stops along the edges of a component are
made first, then all descriptors of the node are offered, and then an edge back to a provider is
queued.  None of the descriptors depends on what the stops come to.  So what is shown of a node is
given beforehand by its portrait, and `render_eq` reduces the rendering of any node to its stops
and its portrait.  All that is proved about walks starts from there.
-/

namespace Walk

theorem ext_run {left right : Walk α}
    (same : forall registry, left.run registry = right.run registry) : left = right := by
  cases left
  cases right
  exact congrArg Walk.mk (funext same)

private theorem bind_return (walk : Walk α) : (walk >>= fun result => Pure.pure result) = walk := by
  apply ext_run
  intro registry
  rw [run_bind]
  cases comes : walk.run registry with
  | none => rfl
  | some course =>
      rcases course with ⟨actions, reached, result⟩
      cases result with
      | error error => rfl
      | ok value => simp

private theorem bind_bind (walk : Walk α) (next : α -> Walk β) (last : β -> Walk γ) :
    (walk >>= next >>= last) = (walk >>= fun result => next result >>= last) := by
  apply ext_run
  intro registry
  simp only [run_bind]
  cases walk.run registry with
  | none => rfl
  | some course =>
      rcases course with ⟨actions, reached, result⟩
      cases result with
      | error error => rfl
      | ok value =>
          simp only [Option.bind_some]
          cases (next value).run reached with
          | none => rfl
          | some second =>
              rcases second with ⟨more, further, result⟩
              cases result with
              | error error => rfl
              | ok later =>
                  simp only [Option.map_some, Option.bind_some, Option.map_map]
                  cases (last later).run further with
                  | none => rfl
                  | some third => simp [List.append_assoc]

private theorem return_bind (result : α) (next : α -> Walk β) :
    (Pure.pure result >>= next) = next result := by
  apply ext_run
  intro registry
  simp

instance : LawfulMonad Walk := LawfulMonad.mk' Walk bind_return return_bind bind_bind

/-- Does several actions. -/
def actAll : List Action -> Walk Unit
  | [] => return
  | action :: rest => do
    act action
    actAll rest

@[simp] theorem run_actAll (actions : List Action) (registry : Registry) :
    (actAll actions).run registry =
      some ⟨actions, actions.foldl Registry.apply registry, .ok ()⟩ := by
  induction actions generalizing registry with
  | nil => rfl
  | cons action rest ih => simp [actAll, ih]

end Walk

/-! ## Stops -/

/-- An edge of a diagram with another target. -/
def Diagram.Edge.leadingTo (edge : Diagram.Edge) (target : String) : Diagram.Edge :=
  { edge with target := target }

/-- A stop on the way along the edges of a node. -/
inductive Stop
  /-- A parameter becomes a row. -/
  | row (qualifier : Qualifier) (value : Option Instance)
  /-- A node is turned to, after events were logged; then edges are queued that lead there. -/
  | turn (node : NodeId) (events : List LogEvent) (leads : List Diagram.Edge)

namespace Stop

/-- What is done for a row. -/
def rowActions (qualifier : Qualifier) : Option Instance -> List Action
  | some _ => [.note (.parameter qualifier)]
  | none => [.note (.parameter qualifier), .unbound qualifier]

/-- The queueing of edges that lead to a target. -/
def linkActions (leads : List Diagram.Edge) (target : String) : List Action :=
  leads.map fun edge => .enqueue (edge.leadingTo target)

/-- The node that is turned to. -/
def head? : Stop -> Option NodeId
  | row _ _ => none
  | turn node _ _ => some node

end Stop

/-- Makes the stops one after the other. -/
def Walk.travel (visit : NodeId -> Walk String) : List Stop -> Walk Unit
  | [] => return
  | .row qualifier value :: rest => do
    actAll (Stop.rowActions qualifier value)
    travel visit rest
  | .turn node events leads :: rest => do
    actAll (events.map .note)
    let target <- visit node
    actAll (Stop.linkActions leads target)
    travel visit rest

namespace Graph

/-- The stops along edges, when a number of dependencies of their head have been shown before. -/
def itinerary (graph : Graph) (owner : String) : (shown : Nat) -> List Edge -> List Stop
  | _, [] => []
  | shown, edge :: rest =>
    match edge.desire.parameter? with
    | some qualifier =>
      .row qualifier ((graph.node? edge.tail).bind Node.instance?) ::
        graph.itinerary owner shown rest
    | none =>
      .turn edge.tail [.dependency edge.desire]
          [dependencyEdge owner (shown + 1) "" edge.desire.isTransient] ::
        graph.itinerary owner (shown + 1) rest

/-- A component with the rows for edges added. -/
def filled (graph : Graph) : List Edge -> Diagram.Component -> Diagram.Component
  | [], component => component
  | edge :: rest, component =>
    match edge.desire.parameter? with
    | some qualifier =>
      graph.filled rest
        (component.addParameter qualifier ((graph.node? edge.tail).bind Node.instance?))
    | none => graph.filled rest (component.addDependency edge.desire)

end Graph

namespace Scene

private theorem checkBound_eq (qualifier : Qualifier) (value : Option Instance) (walk : Walk α) :
    (do Walk.act (.note (.parameter qualifier)); Walk.checkBound qualifier value; walk) =
      (do Walk.actAll (Stop.rowActions qualifier value); walk) := by
  cases value with
  | none => simp [Walk.actAll, Stop.rowActions, Walk.checkBound]
  | some value =>
      have nothing : Walk.checkBound qualifier (some value) = pure () := rfl
      simp [Walk.actAll, Stop.rowActions, nothing]

theorem leadingTo_dependencyEdge (owner : String) (port : Nat) (target : String)
    (transient : Bool) :
    (dependencyEdge owner port "" transient).leadingTo target =
      dependencyEdge owner port target transient := by
  cases transient <;> rfl

/-- The rows of a component do not depend on what the stops come to. -/
theorem rows_eq (scene : Scene) (visit : NodeId -> Walk String) (id : String) (edges : List Edge)
    (component : Diagram.Component) :
    scene.rows visit id edges component = (do
      Walk.travel visit (scene.graph.itinerary id component.lastPort edges)
      return scene.graph.filled edges component) := by
  induction edges generalizing component with
  | nil => simp [rows, Graph.itinerary, Graph.filled, Walk.travel]
  | cons edge rest ih =>
      unfold rows Graph.itinerary Graph.filled
      cases edge.desire.parameter? with
      | some qualifier =>
          simp only [ih, Walk.travel, bind_assoc]
          exact checkBound_eq _ _ _
      | none =>
          have port : (component.addDependency edge.desire).lastPort = component.lastPort + 1 := by
            simp [Diagram.Component.addDependency, Diagram.Component.lastPort]
          simp [ih, Walk.travel, Walk.actAll, Stop.linkActions, leadingTo_dependencyEdge, port]

end Scene

/-! ## Portraits -/

/-- What is shown of one node. -/
structure Portrait where
  /-- The identifier that the edges to dependencies leave from. -/
  owner : String
  /-- The edges of the graph that become rows. -/
  branches : List Edge
  /-- The descriptors in the order in which they are offered. -/
  nodes : List Diagram.Node
  /-- The edges to a provider. -/
  backEdges : List Diagram.Edge
  /-- Where edges to the node end. -/
  target : String

/-- What is done when all stops have been made. -/
def Portrait.closing (portrait : Portrait) : List Action :=
  portrait.nodes.map .offer ++ portrait.backEdges.map .enqueue

namespace Scene

/-- The table of a component that is constructed, with a row for each edge. -/
def table (scene : Scene) (node : NodeId) (data : Node) (type : ComponentType) (provider : Bool) :
    Diagram.Component :=
  scene.graph.filled (scene.graph.dependencies node)
    { Diagram.Component.ofType type with
      shareable := !provider && data.isShareable
      shared := !scene.isUnshared node
      provider := provider }

/-- The table of a component that comes from a provider. -/
def providedTable (scene : Scene) (node : NodeId) (data : Node) (type : ComponentType) :
    Diagram.Component :=
  { Diagram.Component.ofType type with
    shareable := data.isShareable && !scene.isUnshared node
    shared := !scene.isUnshared node
    provided := true }

/-- What is shown of a node with a satisfaction under an identifier. -/
def portrait (scene : Scene) (node : NodeId) (data : Node) (satisfaction : Satisfaction)
    (id : String) : Portrait :=
  match satisfaction with
  | .null type =>
    { owner := id
      branches := []
      nodes := [ellipse id (nullLabel type)]
      backEdges := []
      target := id }
  | .ofInstance _ value =>
    { owner := id
      branches := []
      nodes := [ellipse id value.display]
      backEdges := []
      target := id }
  | .ofClass type =>
    { owner := id
      branches := scene.graph.dependencies node
      nodes := [(scene.table node data type false).toNode id]
      backEdges := []
      target := headerOf id }
  | .ofProviderClass provider type =>
    { owner := providerId id
      branches := scene.graph.dependencies node
      nodes :=
        [(scene.table node data provider true).toNode (providerId id),
          (scene.providedTable node data type).toNode id]
      backEdges := [providerEdge (headerOf id) (headerOf (providerId id))]
      target := headerOf id }
  | .ofProviderInstance provider label type =>
    { owner := providerId id
      branches := []
      nodes :=
        [(ellipse (providerId id) (label.getD provider.name)).setText "style" "dashed",
          (scene.providedTable node data type).toNode id]
      backEdges := [providerEdge (headerOf id) (providerId id)]
      target := headerOf id }

/-- The last descriptor of a node has the node's own identifier and target.  Before it there is at
most one, that of the provider. -/
theorem portrait_nodes (scene : Scene) (node : NodeId) (data : Node) (satisfaction : Satisfaction)
    (id : String) :
    exists own, own.id = id ∧ own.target = (scene.portrait node data satisfaction id).target ∧
      ((scene.portrait node data satisfaction id).nodes = [own] ∨
        exists provider, provider.id = providerId id ∧
          (scene.portrait node data satisfaction id).nodes = [provider, own]) := by
  cases satisfaction with
  | null type => exact ⟨_, rfl, rfl, Or.inl rfl⟩
  | ofInstance type value => exact ⟨_, rfl, rfl, Or.inl rfl⟩
  | ofClass type => exact ⟨_, rfl, rfl, Or.inl rfl⟩
  | ofProviderClass provider type => exact ⟨_, rfl, rfl, Or.inr ⟨_, rfl, rfl⟩⟩
  | ofProviderInstance provider label type => exact ⟨_, rfl, rfl, Or.inr ⟨_, rfl, rfl⟩⟩

theorem own_mem_portrait (scene : Scene) (node : NodeId) (data : Node)
    (satisfaction : Satisfaction) (id : String) :
    exists own, own ∈ (scene.portrait node data satisfaction id).nodes ∧ own.id = id ∧
      own.target = (scene.portrait node data satisfaction id).target := by
  rcases scene.portrait_nodes node data satisfaction id with
    ⟨own, sameId, sameTarget, alone | ⟨provider, _, both⟩⟩
  · exact ⟨own, alone ▸ List.mem_singleton_self own, sameId, sameTarget⟩
  · exact ⟨own, both ▸ List.mem_cons_of_mem _ (List.mem_singleton_self own), sameId, sameTarget⟩

/-- The stops that a portrait asks for. -/
def stops (scene : Scene) (portrait : Portrait) : List Stop :=
  scene.graph.itinerary portrait.owner 0 portrait.branches

private theorem offer_eq (node : Diagram.Node) (next : String -> Walk α) :
    (Walk.offer node >>= next) = (do Walk.act (.offer node); next node.target) := by
  simp [Walk.offer]

private theorem component_eq (scene : Scene) (visit : NodeId -> Walk String) (node : NodeId)
    (data : Node) (type : ComponentType) (id : String) (provider : Bool)
    (next : String -> Walk α) :
    (scene.component visit node data type id provider >>= next) = (do
      Walk.travel visit (scene.graph.itinerary id 0 (scene.graph.dependencies node))
      Walk.act (.offer ((scene.table node data type provider).toNode id))
      next (headerOf id)) := by
  unfold component
  simp only [rows_eq, bind_assoc, pure_bind, offer_eq]
  rfl

private theorem provided_eq (scene : Scene) (node : NodeId) (data : Node) (type : ComponentType)
    (id provider : String) :
    scene.provided node data type id provider = (do
      Walk.act (.offer ((scene.providedTable node data type).toNode id))
      Walk.act (.enqueue (providerEdge (headerOf id) provider))
      return headerOf id) := by
  unfold provided
  simp only [offer_eq]
  rfl

/-- Every node is rendered by making its stops and then showing its portrait. -/
theorem render_eq (scene : Scene) (visit : NodeId -> Walk String) (node : NodeId) {data : Node}
    {satisfaction : Satisfaction} (bound : data.satisfaction = some satisfaction)
    (identifier : Identifier) :
    scene.render visit node data identifier = (do
      Walk.act (.note (.dispatching identifier satisfaction))
      let portrait := scene.portrait node data satisfaction identifier.text
      Walk.travel visit (scene.stops portrait)
      Walk.actAll portrait.closing
      return portrait.target) := by
  unfold render
  rw [bound]
  apply bind_congr
  intro _
  cases satisfaction with
  | null type =>
      simp only [portrait, stops, Graph.itinerary, Walk.travel, Portrait.closing, List.map_cons,
        List.map_nil, List.append_nil, Walk.actAll, pure_bind, bind_assoc]
      rfl
  | ofInstance type value =>
      simp only [portrait, stops, Graph.itinerary, Walk.travel, Portrait.closing, List.map_cons,
        List.map_nil, List.append_nil, Walk.actAll, pure_bind, bind_assoc]
      rfl
  | ofClass type =>
      simp only [portrait, stops, Portrait.closing, List.map_cons,
        List.map_nil, List.append_nil, Walk.actAll, pure_bind, bind_assoc]
      rw [← bind_pure (scene.component visit node data type identifier.text false), component_eq]
  | ofProviderClass provider type =>
      simp only [component_eq, provided_eq, portrait, stops, Portrait.closing, List.map_cons,
        List.map_nil, List.cons_append, List.nil_append, Walk.actAll, pure_bind, bind_assoc]
  | ofProviderInstance provider label type =>
      simp only [offer_eq, provided_eq, portrait, stops, Graph.itinerary, Walk.travel,
        Portrait.closing, List.map_cons, List.map_nil, List.cons_append, List.nil_append,
        Walk.actAll, pure_bind, bind_assoc]
      rfl

end Scene

/-! ## Identifiers and targets of descriptors -/

/-- The identifiers under which a node is shown: that of its provider, if it has one, and its
own. -/
def Satisfaction.shownIds (satisfaction : Satisfaction) (id : String) : List String :=
  (satisfaction.provider?.elim [] fun _ => [providerId id]) ++ [id]

theorem Satisfaction.mem_shownIds (satisfaction : Satisfaction) (id shown : String) :
    shown ∈ satisfaction.shownIds id <->
      satisfaction.provider?.isSome ∧ shown = providerId id ∨ shown = id := by
  unfold shownIds
  cases satisfaction.provider? <;> simp

/-- Nodes with different identifiers are shown under different ones. -/
theorem Identifier.eq_of_mem_shownIds {left right : Identifier}
    {first second : Satisfaction} {shown : String} (inLeft : shown ∈ first.shownIds left.text)
    (inRight : shown ∈ second.shownIds right.text) : left = right := by
  rw [Satisfaction.mem_shownIds] at inLeft inRight
  rcases inLeft with ⟨_, provider⟩ | own
  · rcases inRight with ⟨_, providerToo⟩ | ownToo
    · exact text_injective (providerId_injective (provider.symm.trans providerToo))
    · exact absurd (provider.symm.trans ownToo) (left.providerId_ne_text right)
  · rcases inRight with ⟨_, providerToo⟩ | ownToo
    · exact absurd (providerToo.symm.trans own) (right.providerId_ne_text left)
    · exact text_injective (own.symm.trans ownToo)

theorem Satisfaction.nodup_shownIds (satisfaction : Satisfaction) (identifier : Identifier) :
    (satisfaction.shownIds identifier.text).Nodup := by
  have different := identifier.providerId_ne_text identifier
  unfold shownIds
  cases satisfaction.provider? <;> simp [different]

theorem Satisfaction.ne_empty_of_mem_shownIds {satisfaction : Satisfaction}
    {identifier : Identifier} {shown : String}
    (member : shown ∈ satisfaction.shownIds identifier.text) : shown ≠ "" := by
  intro empty
  rw [mem_shownIds, empty] at member
  rcases member with ⟨_, provider⟩ | own
  · have letters := congrArg String.toList provider
    rw [providerId, String.toList_append] at letters
    cases List.append_ne_nil_of_right_ne_nil _ (by decide) letters.symm
  · exact identifier.text_ne_empty own.symm

namespace Scene

theorem map_id_portrait (scene : Scene) (node : NodeId) (data : Node)
    (satisfaction : Satisfaction) (id : String) :
    (scene.portrait node data satisfaction id).nodes.map (·.id) = satisfaction.shownIds id := by
  cases satisfaction <;> rfl

/-- What comes before the colon of a target is the identifier. -/
theorem stem_target_portrait (scene : Scene) (node : NodeId) (data : Node)
    (satisfaction : Satisfaction) (identifier : Identifier) {shown : Diagram.Node}
    (member : shown ∈ (scene.portrait node data satisfaction identifier.text).nodes) :
    stem shown.target = shown.id.toList := by
  have plain := stem_of_colon_not_mem identifier.colon_not_mem_text
  have plainProvider := stem_of_colon_not_mem identifier.colon_not_mem_providerId
  have header := stem_headerOf identifier.colon_not_mem_text
  have headerProvider := stem_headerOf identifier.colon_not_mem_providerId
  cases satisfaction with
  | null type =>
      rw [List.mem_singleton.mp member]
      exact plain
  | ofInstance type value =>
      rw [List.mem_singleton.mp member]
      exact plain
  | ofClass type =>
      rw [List.mem_singleton.mp member]
      exact header
  | ofProviderClass provider type =>
      rcases List.mem_cons.mp member with first | last
      · rw [first]
        exact headerProvider
      · rw [List.mem_singleton.mp last]
        exact header
  | ofProviderInstance provider label type =>
      rcases List.mem_cons.mp member with first | last
      · rw [first]
        exact plainProvider
      · rw [List.mem_singleton.mp last]
        exact header

end Scene
end InjectionPlan
