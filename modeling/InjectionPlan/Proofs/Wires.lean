import InjectionPlan.Proofs.Coverage

namespace InjectionPlan

/-!
# How a dump connects what it shows

The edges that a successful dump hands over are these (`Graph.Shown.wires_perm`): one for each edge
of the root, one for each edge of a component that leads on, which leaves from the row of that
edge, and one from each component that comes from a provider to the provider.  An edge to a node
always ends at the target of the node of the diagram that shows it, also when that target was not
yet known as the edge was found.
-/

/-- What is seen of an edge: its source, its target if there is one, and its attributes. -/
structure Wire where
  source : String
  target : Option String
  attributes : List (String × Diagram.AttributeValue)

def Diagram.Edge.wire (edge : Diagram.Edge) : Wire :=
  ⟨edge.source, some edge.target, edge.attributes.entries⟩

section

variable {State : Type u}

/-- The target of the node that was taken under an identifier. -/
def Watched.targetOf (watched : Watched State) (id : String) : Option String :=
  (watched.nodes.find? fun node => node.id = id).map (·.target)

/-- The target of the node of the diagram that shows a node under its own identifier. -/
def Session.endOf (session : Session (Watched State)) (node : NodeId) : Option String :=
  session.store.targetOf (session.registry.identifierFor node).text

namespace Graph

/-- The wires for the edges of the root. -/
def rootWires (graph : Graph) (root : NodeId) (session : Session (Watched State)) : List Wire :=
  (graph.outgoingEdges root).map fun edge =>
    ⟨"root", session.endOf edge.tail, [("arrowhead", .text "vee")]⟩

/-- The wires for the edges of a component that lead on, each from its port. -/
def branchWires (graph : Graph) (node : NodeId) (owner : String)
    (session : Session (Watched State)) : List Wire :=
  ((graph.branches node).zipIdx 1).map fun (edge, port) =>
    ⟨owner ++ ":" ++ toString port, session.endOf edge.tail,
      ("arrowhead", .text "vee") ::
        if edge.desire.isTransient then [("style", .text "dashed")] else []⟩

/-- The wire from a component to its provider. -/
def backWire (id : String) (session : Session (Watched State)) : Wire :=
  ⟨id ++ ":" ++ "H", session.store.targetOf (id ++ "P"),
    [("style", .text "dotted"), ("dir", .text "back"), ("arrowhead", .text "vee")]⟩

/-- The wires that a node asks for. -/
def wires (graph : Graph) (session : Session (Watched State)) (node : NodeId) : List Wire :=
  let id := (session.registry.identifierFor node).text
  match graph.satisfaction? node with
  | some (.ofClass _) => graph.branchWires node id session
  | some (.ofProviderClass _ _) =>
    graph.branchWires node (id ++ "P") session ++ [backWire id session]
  | some (.ofProviderInstance _ _ _) => [backWire id session]
  | _ => []

end Graph

end

/-! ## Targets -/

theorem find?_of_nodup_ids {nodes : List Diagram.Node} (nodup : (nodes.map (·.id)).Nodup)
    {node : Diagram.Node} (member : node ∈ nodes) :
    nodes.find? (fun other => other.id = node.id) = some node := by
  cases found : nodes.find? (fun other => other.id = node.id) with
  | none =>
      have different := List.find?_eq_none.mp found node member
      simp at different
  | some other =>
      have same : other.id = node.id := by simpa using List.find?_some found
      rw [List.inj_on_of_nodup_map nodup (List.mem_of_find?_eq_some found) member same]

namespace Graph
namespace Shown

variable {State : Type u} {graph : Graph} {root : NodeId} {unshared : List NodeId}
  {summary : Summary} {session : Session (Watched State)}

theorem targetOf_eq (shown : graph.Shown root unshared summary session) {node : Diagram.Node}
    (member : node ∈ session.store.nodes) : session.store.targetOf node.id = some node.target := by
  rw [Watched.targetOf, find?_of_nodup_ids shown.nodup_ids member, Option.map_some]

/-- The descriptors of a node that is met have been taken. -/
theorem taken (shown : graph.Shown root unshared summary session) {node : NodeId}
    (found : node ∈ graph.discovery root) {data : Node} {satisfaction : Satisfaction}
    (portrayed : (graph.scene unshared).portrait? session.registry node =
      some ((graph.scene unshared).portraitIn session.registry node data satisfaction))
    {descriptor : Diagram.Node}
    (member : descriptor ∈
      ((graph.scene unshared).portraitIn session.registry node data satisfaction).nodes) :
    descriptor ∈ session.store.nodes := by
  refine shown.nodes.mem_iff.mpr (List.mem_cons_of_mem _ (List.mem_flatMap.mpr ⟨node, found, ?_⟩))
  rw [Scene.descriptors, portrayed]
  exact member

/-- What is shown of a node that is met. -/
theorem portrayed (shown : graph.Shown root unshared summary session) {node : NodeId}
    (found : node ∈ graph.discovery root) :
    exists data satisfaction, graph.satisfaction? node = some satisfaction ∧
      (graph.scene unshared).portrait? session.registry node =
        some ((graph.scene unshared).portraitIn session.registry node data satisfaction) := by
  rcases (graph.scene unshared).portrait?_cases session.registry node with ⟨nothing, _⟩ | portrayed
  · have bound := shown.bound node found
    rw [show graph.satisfaction? node = none from nothing] at bound
    cases bound
  · exact portrayed

/-- An edge to a node that is met ends at the node of the diagram that shows it. -/
theorem endOf_eq (shown : graph.Shown root unshared summary session) {node : NodeId}
    (met : node = root ∨ node ∈ graph.discovery root) :
    session.endOf node =
      some (graph.endpoint node (session.registry.identifierFor node)) := by
  rcases met with isRoot | found
  · have taken : Session.rootNode ∈ session.store.nodes :=
      shown.nodes.mem_iff.mpr List.mem_cons_self
    have target := shown.targetOf_eq taken
    rw [Session.endOf, isRoot, Registry.identifierFor_of_known shown.rootKnown,
      Registry.endpoint_root]
    exact target
  · rcases shown.portrayed found with ⟨data, satisfaction, bound, portrayed⟩
    rcases shown.numbered found with ⟨number, known⟩
    rcases (graph.scene unshared).own_mem_portrait node data satisfaction
        (session.registry.identifierFor node).text with ⟨own, member, id, target⟩
    have found := shown.targetOf_eq (shown.taken found portrayed member)
    rw [id, target, Registry.identifierFor_of_known known,
      Scene.portrait_target _ data bound] at found
    rw [Session.endOf, Registry.identifierFor_of_known known]
    exact found

/-- The back edge of a portrait ends at the provider, as it was taken. -/
theorem map_wire_backEdges (shown : graph.Shown root unshared summary session) {node : NodeId}
    (found : node ∈ graph.discovery root) {data : Node} {satisfaction : Satisfaction}
    (portrayed : (graph.scene unshared).portrait? session.registry node =
      some ((graph.scene unshared).portraitIn session.registry node data satisfaction)) :
    (((graph.scene unshared).portraitIn session.registry node data satisfaction).backEdges).map
        Diagram.Edge.wire =
      satisfaction.provider?.elim [] fun _ =>
        [backWire (session.registry.identifierFor node).text session] := by
  have taken {descriptor : Diagram.Node}
      (member : descriptor ∈
        ((graph.scene unshared).portraitIn session.registry node data satisfaction).nodes) :
      descriptor ∈ session.store.nodes :=
    shown.taken found portrayed member
  cases satisfaction with
  | null type => rfl
  | ofInstance type value => rfl
  | ofClass type => rfl
  | ofProviderClass provider type =>
      have target := shown.targetOf_eq (taken List.mem_cons_self)
      exact congrArg (fun target => [Wire.mk _ target _]) target.symm
  | ofProviderInstance provider label type =>
      have target := shown.targetOf_eq (taken List.mem_cons_self)
      exact congrArg (fun target => [Wire.mk _ target _]) target.symm

end Shown

/-- The edges from the rows of a component, numbered in their order. -/
theorem leadsFrom_itinerary (scene : Scene) (registry : Registry) (owner : String) (shown : Nat)
    (edges : List Edge) :
    (scene.graph.itinerary owner shown edges).flatMap (scene.leadsFrom registry) =
      ((leadingOn edges).zipIdx (shown + 1)).map fun (edge, port) =>
        dependencyEdge owner port
          (scene.graph.endpoint edge.tail (registry.identifierFor edge.tail))
          edge.desire.isTransient := by
  induction edges generalizing shown with
  | nil => rfl
  | cons edge rest ih =>
      unfold itinerary
      cases asked : edge.desire.parameter? with
      | some qualifier =>
          rw [leadingOn_cons_of_parameter asked]
          exact ih shown
      | none =>
          rw [leadingOn_cons_of_dependency asked, List.zipIdx_cons, List.map_cons,
            List.flatMap_cons, ih (shown + 1), Scene.leadsFrom, List.map_singleton,
            Scene.leadingTo_dependencyEdge]
          rfl

namespace Shown

variable {State : Type u} {graph : Graph} {root : NodeId} {unshared : List NodeId}
  {summary : Summary} {session : Session (Watched State)}

/-- Where the branches of a node that is met lead is met, too. -/
theorem met_of_branch {node : NodeId} (found : node ∈ graph.discovery root) {edge : Edge}
    (branch : edge ∈ graph.branches node) :
    edge.tail = root ∨ edge.tail ∈ graph.discovery root := by
  rcases (graph.mem_discovery_iff root node).mp found with ⟨traversed, notRoot⟩
  rcases (graph.mem_branches_iff node edge).mp branch with
    ⟨satisfaction, bound, composite, leaves, dependency⟩
  by_cases same : edge.tail = root
  · exact Or.inl same
  · exact Or.inr ((graph.mem_discovery_iff root _).mpr
      ⟨.further traversed notRoot bound composite leaves dependency, same⟩)

theorem branchWires_eq (shown : graph.Shown root unshared summary session) {node : NodeId}
    (found : node ∈ graph.discovery root) (owner : String) :
    ((graph.branches node).zipIdx 1).map (fun (edge, port) => (dependencyEdge owner port
        (graph.endpoint edge.tail (session.registry.identifierFor edge.tail))
        edge.desire.isTransient).wire) =
      graph.branchWires node owner session := by
  apply List.map_congr_left
  intro (edge, port) member
  have branch : edge ∈ graph.branches node := List.fst_mem_of_mem_zipIdx member
  dsimp only
  rw [shown.endOf_eq (met_of_branch found branch)]
  cases edge.desire.isTransient <;> rfl

/-- The edges that the portrait of a node asks for are its wires. -/
theorem wires_eq (shown : graph.Shown root unshared summary session) {node : NodeId}
    (found : node ∈ graph.discovery root) :
    ((graph.scene unshared).edgesOf session.registry node).map Diagram.Edge.wire =
      graph.wires session node := by
  rcases shown.portrayed found with ⟨data, satisfaction, bound, portrayed⟩
  have back := shown.map_wire_backEdges found portrayed
  have branches := shown.branchWires_eq found
  unfold Graph.branches at branches
  rw [Scene.edgesOf, portrayed, Option.elim_some, List.map_append, back, wires, bound]
  unfold Scene.stops
  rw [leadsFrom_itinerary, List.map_map]
  rw [bound] at branches
  cases satisfaction with
  | null type => rfl
  | ofInstance type value => rfl
  | ofClass type =>
      exact (List.append_nil _).trans (branches (session.registry.identifierFor node).text)
  | ofProviderClass provider type =>
      exact congrArg (· ++ _) (branches (providerId (session.registry.identifierFor node).text))
  | ofProviderInstance provider label type => rfl

theorem rootWires_perm (shown : graph.Shown root unshared summary session) :
    (((rootStops (graph.dependencies root)).flatMap
        ((graph.scene unshared).leadsFrom session.registry)).map Diagram.Edge.wire).Perm
      (graph.rootWires root session) := by
  have stops (edges : List Edge)
      (leaves : forall edge, edge ∈ edges -> edge ∈ graph.outgoingEdges root) :
      ((rootStops edges).flatMap
          ((graph.scene unshared).leadsFrom session.registry)).map Diagram.Edge.wire =
        edges.map fun edge => ⟨"root", session.endOf edge.tail, [("arrowhead", .text "vee")]⟩ := by
    induction edges with
    | nil => rfl
    | cons edge rest ih =>
        have met : edge.tail = root ∨ edge.tail ∈ graph.discovery root := by
          by_cases same : edge.tail = root
          · exact Or.inl same
          · exact Or.inr ((graph.mem_discovery_iff root _).mpr
              ⟨.first (leaves edge List.mem_cons_self), same⟩)
        rw [List.map_cons, shown.endOf_eq met,
          ← ih fun other member => leaves other (List.mem_cons_of_mem _ member)]
        rfl
  rw [stops _ fun edge member => (graph.mem_dependencies root edge).mp member]
  exact (sortEdges_perm _).map _

theorem wires_perm (shown : graph.Shown root unshared summary session) :
    (session.store.edges.map Diagram.Edge.wire).Perm
      (graph.rootWires root session ++ (graph.discovery root).flatMap (graph.wires session)) := by
  apply (shown.edges.map _).trans
  rw [List.map_append]
  have own := List.flatMap_congr fun node (found : node ∈ graph.discovery root) =>
    shown.wires_eq found
  rw [← List.map_flatMap] at own
  rw [own]
  exact shown.rootWires_perm.append_right _

end Shown
end Graph

end InjectionPlan
