import InjectionPlan.Proofs.Conduct
import InjectionPlan.Proofs.Ordering

namespace InjectionPlan

/-!
# Which nodes are shown, and in which order

All edges of the root are followed, and from then on those edges of components that do not ask
for a parameter.  `Graph.Traversed` says which nodes are met that way.  `Graph.preorder` gives
the order in which a depth-first search meets them: the nodes that wait form a stack, and the
nodes that a node leads to are put on top of it.  Neither mentions registries or nesting.  A tour
identifies nodes in exactly this order, up to the first that has no satisfaction
(`Tour.discovers`).
-/

/-! ## The order of the edges -/

theorem Graph.mem_dependencies (graph : Graph) (node : NodeId) (edge : Edge) :
    edge ∈ graph.dependencies node <-> edge ∈ graph.outgoingEdges node :=
  (sortEdges_perm (graph.outgoingEdges node)).mem_iff

/-! ## Where the edges of a node lead -/

/-- Whether a component is constructed, so that its edges are followed. -/
def Satisfaction.isComposite : Satisfaction -> Bool
  | .ofClass _ => true
  | .ofProviderClass _ _ => true
  | _ => false

/-- The edges that do not ask for a parameter. -/
def leadingOn (edges : List Edge) : List Edge :=
  edges.filter fun edge => !edge.desire.isParameter

theorem leadingOn_cons_of_parameter {edge : Edge} {qualifier : Qualifier}
    (parameter : edge.desire.parameter? = some qualifier) (rest : List Edge) :
    leadingOn (edge :: rest) = leadingOn rest := by
  simp [leadingOn, Desire.isParameter, parameter]

theorem leadingOn_cons_of_dependency {edge : Edge} (dependency : edge.desire.parameter? = none)
    (rest : List Edge) : leadingOn (edge :: rest) = edge :: leadingOn rest := by
  simp [leadingOn, Desire.isParameter, dependency]

namespace Graph

/-- The edges of a component that lead on, in the order in which they are shown. -/
def branches (graph : Graph) (node : NodeId) : List Edge :=
  if (graph.satisfaction? node).any Satisfaction.isComposite then
    leadingOn (graph.dependencies node)
  else []

/-- The nodes that a node leads on to. -/
def onward (graph : Graph) (node : NodeId) : List NodeId :=
  (graph.branches node).map Edge.tail

/-- The nodes that are met from a root on. -/
inductive Traversed (graph : Graph) (root : NodeId) : NodeId -> Prop
  | first {edge : Edge} (leaves : edge ∈ graph.outgoingEdges root) :
    Traversed graph root edge.tail
  | further {node : NodeId} {satisfaction : Satisfaction} {edge : Edge}
    (before : Traversed graph root node) (notRoot : node ≠ root)
    (bound : graph.satisfaction? node = some satisfaction)
    (composite : satisfaction.isComposite = true) (leaves : edge ∈ graph.outgoingEdges node)
    (dependency : edge.desire.isParameter = false) : Traversed graph root edge.tail

theorem mem_branches_iff (graph : Graph) (node : NodeId) (edge : Edge) :
    edge ∈ graph.branches node <->
      exists satisfaction, graph.satisfaction? node = some satisfaction ∧
        satisfaction.isComposite = true ∧ edge ∈ graph.outgoingEdges node ∧
        edge.desire.isParameter = false := by
  unfold branches
  cases bound : graph.satisfaction? node with
  | none => simp
  | some satisfaction =>
      cases composite : satisfaction.isComposite with
      | false => simp [composite]
      | true => simp [composite, leadingOn, graph.mem_dependencies]

/-- The number of nodes of a graph that have not been seen. -/
def unseen (graph : Graph) (seen : List NodeId) : Nat :=
  (List.range graph.size).countP (· ∉ seen)

theorem onward_eq_nil_of_absent {graph : Graph} {node : NodeId} (absent : ¬ node < graph.size) :
    graph.onward node = [] := by
  have nothing : graph.satisfaction? node = none := by
    have outside : graph.node? node = none := Array.getElem?_eq_none (Nat.le_of_not_lt absent)
    rw [satisfaction?, outside, Option.bind_none]
  rw [onward, branches, nothing]
  rfl

private theorem countP_cons_le (node : NodeId) (seen nodes : List NodeId) :
    nodes.countP (· ∉ node :: seen) ≤ nodes.countP (· ∉ seen) := by
  apply List.countP_mono_left
  intro other _ notSeen
  simp only [List.mem_cons, not_or, decide_eq_true_eq] at notSeen ⊢
  exact notSeen.2

theorem unseen_cons_le (graph : Graph) (node : NodeId) (seen : List NodeId) :
    graph.unseen (node :: seen) ≤ graph.unseen seen :=
  countP_cons_le node seen _

theorem unseen_cons_lt (graph : Graph) {node : NodeId} {seen : List NodeId}
    (inside : node < graph.size) (new : node ∉ seen) :
    graph.unseen (node :: seen) < graph.unseen seen := by
  rcases List.append_of_mem (List.mem_range.mpr inside) with ⟨before, after, range⟩
  have first := countP_cons_le node seen before
  have last := countP_cons_le node seen after
  unfold unseen
  rw [range, List.countP_append, List.countP_append, List.countP_cons, List.countP_cons]
  simp only [List.mem_cons_self, not_true_eq_false, decide_false, Bool.false_eq_true, if_false, new,
    not_false_eq_true, decide_true, if_true]
  omega

/-- The nodes found by a depth-first search, each when it is met first. -/
def preorder (graph : Graph) : (waiting seen : List NodeId) -> List NodeId
  | [], _ => []
  | node :: rest, seen =>
    if node ∈ seen then graph.preorder rest seen
    else node :: graph.preorder (graph.onward node ++ rest) (node :: seen)
termination_by waiting seen => (graph.unseen seen, waiting.length)
decreasing_by
  · exact Prod.Lex.right _ (Nat.lt_succ_self _)
  · next new =>
    by_cases inside : node < graph.size
    · exact Prod.Lex.left _ _ (graph.unseen_cons_lt inside new)
    · rw [onward_eq_nil_of_absent inside, List.nil_append]
      rcases Nat.lt_or_eq_of_le (graph.unseen_cons_le node seen) with less | same
      · exact Prod.Lex.left _ _ less
      · rw [same]
        exact Prod.Lex.right _ (Nat.lt_succ_self _)

theorem preorder_of_seen (graph : Graph) {node : NodeId} {seen : List NodeId} (old : node ∈ seen)
    (rest : List NodeId) : graph.preorder (node :: rest) seen = graph.preorder rest seen := by
  rw [preorder, if_pos old]

theorem preorder_of_new (graph : Graph) {node : NodeId} {seen : List NodeId} (new : node ∉ seen)
    (rest : List NodeId) :
    graph.preorder (node :: rest) seen =
      node :: graph.preorder (graph.onward node ++ rest) (node :: seen) := by
  rw [preorder, if_neg new]

/-- What waits further below is looked at when all that waits above it has been found. -/
theorem preorder_append (graph : Graph) (first second seen : List NodeId) :
    graph.preorder (first ++ second) seen =
      graph.preorder first seen ++
        graph.preorder second ((graph.preorder first seen).reverse ++ seen) := by
  induction first, seen using preorder.induct graph with
  | case1 seen =>
      rw [preorder]
      rfl
  | case2 node rest seen old ih =>
      rw [List.cons_append, preorder_of_seen graph old, preorder_of_seen graph old, ih]
  | case3 node rest seen new ih =>
      rw [List.cons_append, preorder_of_new graph new, preorder_of_new graph new,
        ← List.append_assoc, ih]
      simp

/-- The nodes that are met from some nodes on without passing through others. -/
inductive Reached (graph : Graph) (waiting seen : List NodeId) : NodeId -> Prop
  | start {node : NodeId} (waits : node ∈ waiting) (new : node ∉ seen) :
    Reached graph waiting seen node
  | step {node other : NodeId} (before : Reached graph waiting seen node)
    (leads : other ∈ graph.onward node) (new : other ∉ seen) : Reached graph waiting seen other

theorem Reached.new {graph : Graph} {waiting seen : List NodeId} {node : NodeId}
    (reached : graph.Reached waiting seen node) : node ∉ seen := by
  cases reached with
  | start _ new => exact new
  | step _ _ new => exact new

/-- A way that passes through a node begins anew behind the last visit to it. -/
private theorem reached_cons_iff {graph : Graph} {node other : NodeId} {rest seen : List NodeId}
    (new : node ∉ seen) :
    graph.Reached (node :: rest) seen other <->
      other = node ∨ graph.Reached (graph.onward node ++ rest) (node :: seen) other := by
  constructor
  · intro reached
    induction reached with
    | @start met waits unseen =>
        rcases List.mem_cons.mp waits with same | later
        · exact Or.inl same
        · by_cases same : met = node
          · exact Or.inl same
          · exact Or.inr (.start (List.mem_append_right _ later)
              (List.not_mem_cons_of_ne_of_not_mem same unseen))
    | @step before met _ leads unseen ih =>
        by_cases same : met = node
        · exact Or.inl same
        · have unseen := List.not_mem_cons_of_ne_of_not_mem same unseen
          rcases ih with atNode | reached
          · exact Or.inr (.start (List.mem_append_left _ (atNode ▸ leads)) unseen)
          · exact Or.inr (.step reached leads unseen)
  · rintro (same | reached)
    · rw [same]
      exact .start List.mem_cons_self new
    · have start : graph.Reached (node :: rest) seen node := .start List.mem_cons_self new
      induction reached with
      | start waits unseen =>
          have unseen := List.not_mem_of_not_mem_cons unseen
          rcases List.mem_append.mp waits with leads | later
          · exact .step start leads unseen
          · exact .start (List.mem_cons_of_mem _ later) unseen
      | step _ leads unseen ih => exact .step ih leads (List.not_mem_of_not_mem_cons unseen)

theorem mem_preorder_iff (graph : Graph) (waiting seen : List NodeId) (node : NodeId) :
    node ∈ graph.preorder waiting seen <-> graph.Reached waiting seen node := by
  induction waiting, seen using preorder.induct graph with
  | case1 seen =>
      rw [preorder]
      constructor
      · intro member
        cases member
      · intro reached
        induction reached with
        | start waits _ => cases waits
        | step _ _ _ ih => cases ih
  | case2 first rest seen old ih =>
      rw [preorder_of_seen graph old, ih]
      clear ih
      constructor
      · intro reached
        induction reached with
        | start waits new => exact .start (List.mem_cons_of_mem _ waits) new
        | step _ leads new ih => exact .step ih leads new
      · intro reached
        induction reached with
        | start waits new =>
            rcases List.mem_cons.mp waits with same | later
            · exact absurd (same ▸ old) new
            · exact .start later new
        | step _ leads new ih => exact .step ih leads new
  | case3 first rest seen new ih =>
      rw [preorder_of_new graph new, List.mem_cons, ih, reached_cons_iff new]

theorem nodup_preorder (graph : Graph) (waiting seen : List NodeId) :
    (graph.preorder waiting seen).Nodup := by
  induction waiting, seen using preorder.induct graph with
  | case1 seen =>
      rw [preorder]
      exact List.nodup_nil
  | case2 node rest seen old ih => rwa [preorder_of_seen graph old]
  | case3 node rest seen new ih =>
      rw [preorder_of_new graph new]
      refine List.nodup_cons.mpr ⟨fun again => ?_, ih⟩
      exact ((graph.mem_preorder_iff _ _ node).mp again).new List.mem_cons_self

/-- The nodes of a graph in the order in which they are met from a root on. -/
def discovery (graph : Graph) (root : NodeId) : List NodeId :=
  graph.preorder ((graph.dependencies root).map Edge.tail) [root]

theorem mem_discovery_iff (graph : Graph) (root node : NodeId) :
    node ∈ graph.discovery root <-> graph.Traversed root node ∧ node ≠ root := by
  rw [discovery, mem_preorder_iff]
  constructor
  · intro reached
    refine ⟨?_, fun same => reached.new (List.mem_singleton.mpr same)⟩
    induction reached with
    | start waits _ =>
        rcases List.mem_map.mp waits with ⟨edge, leaves, rfl⟩
        exact .first ((graph.mem_dependencies root edge).mp leaves)
    | @step before _ reached leads _ ih =>
        rcases List.mem_map.mp leads with ⟨edge, branch, rfl⟩
        rcases (graph.mem_branches_iff before edge).mp branch with
          ⟨satisfaction, bound, composite, leaves, dependency⟩
        have notRoot : before ≠ root := fun same => reached.new (List.mem_singleton.mpr same)
        exact .further ih notRoot bound composite leaves dependency
  · rintro ⟨traversed, notRoot⟩
    induction traversed with
    | @first edge leaves =>
        exact .start (List.mem_map_of_mem ((graph.mem_dependencies root edge).mpr leaves))
          (mt List.mem_singleton.mp notRoot)
    | @further before satisfaction edge _ beforeNotRoot bound composite leaves dependency ih =>
        have branch := (graph.mem_branches_iff before edge).mpr
          ⟨satisfaction, bound, composite, leaves, dependency⟩
        exact .step (ih beforeNotRoot) (List.mem_map_of_mem branch)
          (mt List.mem_singleton.mp notRoot)

end Graph

/-! ## Tours -/

/-- The nodes that are turned to on the way. -/
def heads (stops : List Stop) : List NodeId :=
  stops.filterMap Stop.head?

@[simp] theorem heads_row (qualifier : Qualifier) (value : Option Instance) (rest : List Stop) :
    heads (.row qualifier value :: rest) = heads rest := rfl

@[simp] theorem heads_turn (node : NodeId) (events : List LogEvent) (leads : List Diagram.Edge)
    (rest : List Stop) : heads (.turn node events leads :: rest) = node :: heads rest := rfl

theorem heads_itinerary (graph : Graph) (owner : String) (shown : Nat) (edges : List Edge) :
    heads (graph.itinerary owner shown edges) = (leadingOn edges).map Edge.tail := by
  induction edges generalizing shown with
  | nil => rfl
  | cons edge rest ih =>
      unfold Graph.itinerary
      cases asked : edge.desire.parameter? with
      | some qualifier => rw [leadingOn_cons_of_parameter asked, heads_row, ih]
      | none =>
          rw [leadingOn_cons_of_dependency asked, heads_turn, ih]
          rfl

/-- The edges that become rows and lead on are the branches of the node. -/
theorem Scene.leadingOn_portrait (scene : Scene) {node : NodeId} (data : Node)
    {satisfaction : Satisfaction} (bound : scene.graph.satisfaction? node = some satisfaction)
    (id : String) :
    leadingOn (scene.portrait node data satisfaction id).branches = scene.graph.branches node := by
  rw [Graph.branches, bound]
  cases satisfaction <;> rfl

/-- The stops of a node turn to the nodes that it leads on to. -/
theorem Scene.Fresh.heads_stops {scene : Scene} {registry : Registry} {node : NodeId}
    {data : Node} {satisfaction : Satisfaction}
    (fresh : scene.Fresh registry node data satisfaction) :
    heads (scene.stops (scene.portraitIn registry node data satisfaction)) =
      scene.graph.onward node := by
  rw [stops, heads_itinerary, Graph.onward, portraitIn,
    scene.leadingOn_portrait data fresh.satisfaction?_eq]

/-- The error that a node without satisfaction causes. -/
def Graph.fault (graph : Graph) (node : NodeId) : DumpError :=
  if graph.contains node then .missingSatisfaction node else .unknownNode node

theorem Graph.fault_of_present {graph : Graph} {node : NodeId} {data : Node}
    (present : graph.node? node = some data) : graph.fault node = .missingSatisfaction node := by
  have inside : node < graph.size := (Array.getElem?_eq_some_iff.mp present).1
  rw [fault, contains, decide_eq_true inside, if_pos rfl]

theorem Graph.fault_of_absent {graph : Graph} {node : NodeId}
    (absent : graph.node? node = none) : graph.fault node = .unknownNode node := by
  have outside : ¬ node < graph.size := Nat.not_lt.mpr (Array.getElem?_eq_none_iff.mp absent)
  rw [fault, contains, decide_eq_false outside]
  rfl

/-- How the actions and the result of a tour fit the nodes that a depth-first search finds. -/
def Graph.Discovers (graph : Graph) (found : List NodeId) (course : Course Unit) : Prop :=
  match course.result with
  | .ok () => identifiedIn course.actions = found ∧
      forall node, node ∈ found -> (graph.satisfaction? node).isSome
  | .error error => exists before node after, found = before ++ node :: after ∧
      (forall other, other ∈ before -> (graph.satisfaction? other).isSome) ∧
      graph.satisfaction? node = none ∧ error = graph.fault node

/-- Actions put before a course add the nodes that they identify. -/
theorem Graph.Discovers.after {graph : Graph} {found : List NodeId} {course : Course Unit}
    (discovers : graph.Discovers found course) (actions : List Action)
    (bound : forall node, node ∈ identifiedIn actions -> (graph.satisfaction? node).isSome) :
    graph.Discovers (identifiedIn actions ++ found) (course.after actions) := by
  have both {nodes : List NodeId}
      (later : forall node, node ∈ nodes -> (graph.satisfaction? node).isSome) :
      forall node, node ∈ identifiedIn actions ++ nodes ->
        (graph.satisfaction? node).isSome := by
    intro node member
    rcases List.mem_append.mp member with first | second
    · exact bound node first
    · exact later node second
  rcases course with ⟨later, registry, result⟩
  cases result with
  | ok _ =>
      rcases discovers with ⟨identified, allBound⟩
      exact ⟨by rw [Course.after, identifiedIn_append, identified], both allBound⟩
  | error error =>
      rcases discovers with ⟨before, node, behind, split, allBound, unbound, fault⟩
      exact ⟨identifiedIn actions ++ before, node, behind,
        by rw [split, List.append_assoc], both allBound, unbound, fault⟩

/-- If the nodes seen are those with identifiers, then after some actions they are so with the nodes
that have been identified. -/
theorem mem_seen_iff_applyAll {registry : Registry} {seen : List NodeId}
    (same : forall node, node ∈ seen <-> (registry.identifier? node).isSome)
    (actions : List Action) :
    forall node, node ∈ (identifiedIn actions).reverse ++ seen <->
      ((registry.applyAll actions).identifier? node).isSome := by
  intro node
  rw [Registry.identifier?_applyAll_isSome, List.mem_append, List.mem_reverse, same node, or_comm]

theorem mem_cons_iff_identify {registry : Registry} {seen : List NodeId}
    (same : forall node, node ∈ seen <-> (registry.identifier? node).isSome) (node : NodeId) :
    forall other, other ∈ node :: seen <-> ((registry.identify node).identifier? other).isSome :=
  mem_seen_iff_applyAll same [.identify node]

/-- A tour finds the nodes that a depth-first search finds, in the same order, and fails at the
first of them that has no satisfaction. -/
theorem Tour.discovers {scene : Scene} {stops : List Stop} {registry : Registry}
    {course : Course Unit} (tour : Tour scene stops registry course) {seen : List NodeId}
    (same : forall node, node ∈ seen <-> (registry.identifier? node).isSome) :
    scene.graph.Discovers (scene.graph.preorder (heads stops) seen) course := by
  induction tour generalizing seen with
  | done =>
      rw [show heads [] = [] from rfl, Graph.preorder]
      exact ⟨rfl, fun node member => by cases member⟩
  | @row qualifier value rest registry course _ ih =>
      have discovers := (ih same).after (Stop.rowActions qualifier value) (by simp)
      simpa using discovers
  | @known node events leads rest registry course identifier has _ ih =>
      have old : node ∈ seen := (same node).mpr (by rw [has]; rfl)
      rw [heads_turn, scene.graph.preorder_of_seen old]
      have discovers := (ih same).after
        (events.map .note ++ Stop.linkActions leads (registry.resolve identifier.text)) (by simp)
      simpa using discovers
  | @foreign node events leads rest registry unknown absent =>
      have new : node ∉ seen := fun old => by simpa [unknown] using (same node).mp old
      have unbound : scene.graph.satisfaction? node = none := by
        rw [Graph.satisfaction?, absent, Option.bind_none]
      rw [heads_turn, scene.graph.preorder_of_new new]
      exact ⟨[], node, _, rfl, fun other member => (List.not_mem_nil member).elim, unbound,
        (Graph.fault_of_absent absent).symm⟩
  | @bare node events leads rest registry data unknown present unbound =>
      have new : node ∉ seen := fun old => by simpa [unknown] using (same node).mp old
      have nothing : scene.graph.satisfaction? node = none := by
        rw [Graph.satisfaction?, present, Option.bind_some, unbound]
      rw [heads_turn, scene.graph.preorder_of_new new]
      exact ⟨[], node, _, rfl, fun other member => (List.not_mem_nil member).elim, nothing,
        (Graph.fault_of_present present).symm⟩
  | @failed node events leads rest registry data satisfaction actions reached error fresh _ ih =>
      have new : node ∉ seen := fun old => by simpa [fresh.unknown] using (same node).mp old
      have discovers := ih (mem_cons_iff_identify same node)
      rw [fresh.heads_stops] at discovers
      rcases discovers with ⟨before, bare, behind, split, allBound, unbound, fault⟩
      rw [heads_turn, scene.graph.preorder_of_new new, Graph.preorder_append, split]
      refine ⟨node :: before, bare, _, by rw [List.append_assoc]; rfl, ?_, unbound, fault⟩
      intro other member
      rcases List.mem_cons.mp member with first | later
      · rw [first, fresh.satisfaction?_eq]
        rfl
      · exact allBound other later
  | @shown node events leads rest registry course data satisfaction actions reached fresh within _
      ihWithin ihLater =>
      have new : node ∉ seen := fun old => by simpa [fresh.unknown] using (same node).mp old
      have sameInside := mem_cons_iff_identify same node
      rcases ihWithin sameInside with ⟨identified, allBound⟩
      rw [fresh.heads_stops] at identified allBound
      have reaches : reached = (registry.identify node).applyAll actions := within.registry_eq
      have sameAfter := mem_seen_iff_applyAll sameInside actions
      rw [identified, ← reaches] at sameAfter
      have discovers := (ihLater sameAfter).after
        (events.map .note ++ scene.showing registry node data satisfaction actions ++
          Stop.linkActions leads (scene.portraitIn registry node data satisfaction).target)
      simp only [identifiedIn_append, identifiedIn_notes, identifiedIn_showing,
        identifiedIn_linkActions, List.nil_append, List.append_nil, identified] at discovers
      rw [heads_turn, scene.graph.preorder_of_new new, Graph.preorder_append, ← List.cons_append]
      apply discovers
      intro other member
      rcases List.mem_cons.mp member with first | later
      · rw [first, fresh.satisfaction?_eq]
        rfl
      · exact allBound other later

end InjectionPlan
