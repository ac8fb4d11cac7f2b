import InjectionPlan.Proofs.Carrying
import InjectionPlan.Proofs.Discovery
import InjectionPlan.Proofs.Outcome

namespace InjectionPlan

/-!
# Dumps

A dump makes one stop for each edge of the root.  So what it comes to is known from a tour, up to
what the sink refuses (`Session.showAll_eq`).  A sink that refuses nothing has in the end been
handed the root and the descriptors offered on the tour, and behind them, if the tour has
succeeded, the edges queued (`Graph.dump_toured`).
-/

/-! ## The registry in which only the root is known -/

namespace Registry

/-- The registry in which only the root is known. -/
def rooted (root : NodeId) : Registry where
  identifiers := Table.empty.set root .root
  targets := Table.empty.set Identifier.root.text Identifier.root.text

theorem reserveRoot_empty (root : NodeId) : empty.reserveRoot root = .ok (rooted root) := rfl

theorem identifier?_rooted (root node : NodeId) :
    (rooted root).identifier? node = if root = node then some .root else none :=
  Table.get?_set .empty root node Identifier.root

theorem target?_rooted (root : NodeId) (text : String) :
    (rooted root).target? text =
      if Identifier.root.text = text then some Identifier.root.text else none :=
  Table.get?_set .empty Identifier.root.text text Identifier.root.text

/-- Only the root has an identifier. -/
theorem mem_root_iff (root node : NodeId) :
    node ∈ [root] <-> ((rooted root).identifier? node).isSome := by
  rw [identifier?_rooted, List.mem_singleton, eq_comm]
  by_cases equal : root = node <;> simp [equal]

theorem hasRoot_rooted (root : NodeId) : (rooted root).hasRoot = true := rfl

theorem endpoint_root (graph : Graph) (node : NodeId) :
    graph.endpoint node .root = Identifier.root.text := by
  unfold Graph.endpoint
  split <;> first | rfl | contradiction

theorem sound_rooted (graph : Graph) (root : NodeId) : (rooted root).Sound graph where
  distinct first second identifier left right := by
    rw [identifier?_rooted] at left right
    split at left
    · next isFirst =>
      split at right
      · next isSecond => exact isFirst.symm.trans isSecond
      · cases right
    · cases left
  numbered node number known := by
    rw [identifier?_rooted] at known
    split at known <;> cases known
  recorded text target found := by
    rw [target?_rooted] at found
    split at found
    · next same =>
      cases found
      refine ⟨root, .root, ?_, same.symm, (endpoint_root graph root).symm⟩
      rw [identifier?_rooted, if_pos rfl]
    · cases found

/-- No action takes the root away. -/
theorem hasRoot_applyAll {registry : Registry} (rootSet : registry.hasRoot = true)
    (actions : List Action) : (registry.applyAll actions).hasRoot = true := by
  induction actions generalizing registry with
  | nil => exact rootSet
  | cons action rest ih =>
      apply ih
      have recorded : (registry.target? Identifier.root.text).isSome := rootSet
      change ((registry.apply action).target? Identifier.root.text).isSome
      cases action with
      | identify node => rwa [apply, target?_identify]
      | record identifier target =>
          rw [apply, target?_recordTarget]
          split
          · rfl
          · exact recorded
      | offer node => exact recorded
      | enqueue edge => exact recorded
      | unbound qualifier => exact recorded
      | note event => exact recorded

end Registry

/-! ## Showing what the edges of the root lead to -/

/-- The stops along the edges of the root. -/
def rootStops (edges : List Edge) : List Stop :=
  edges.map fun edge => .turn edge.tail [] [Session.rootEdge ""]

namespace Session

variable {State : Type u}

/-- Edges are queued behind those that wait. -/
theorem performAll_linkActions (session : Session State) (leads : List Diagram.Edge)
    (target : String) :
    session.performAll (Stop.linkActions leads target) =
      (.ok (), { session with
        queue := ⟨session.queue.edges ++ leads.map (·.leadingTo target)⟩ }) := by
  induction leads generalizing session with
  | nil =>
      rw [List.map_nil, List.append_nil]
      rfl
  | cons edge rest ih =>
      refine (ih (session.enqueue (edge.leadingTo target))).trans ?_
      simp [enqueue, Queue.enqueue]

/-- Showing a node, queueing edges that lead there, and carrying out a tour from then on is carrying
out a tour in which the node is the first stop. -/
theorem process_onward {session : Session State} (rootSet : session.registry.hasRoot = true)
    (node : NodeId) (leads : List Diagram.Edge) {stops : List Stop}
    {onward : Session State -> Except DumpError Unit × Session State}
    (carries : forall next : Session State, next.registry.hasRoot = true ->
      next.scene = session.scene -> exists course,
        Tour session.scene stops next.registry course ∧ onward next = next.carryOut course) :
    exists course, Tour session.scene (.turn node [] leads :: stops) session.registry course ∧
      (match session.process node with
        | (.error error, next) => (.error error, next)
        | (.ok target, next) => onward
          { next with queue := ⟨next.queue.edges ++ leads.map (·.leadingTo target)⟩ }) =
        session.carryOut course := by
  have turn := session.scene.turn_course node session.registry
  have processed : session.process node =
      session.carryOut (session.scene.course node session.registry) := by
    rw [process, if_pos rootSet]
  rw [processed]
  have reaches := turn.tour.registry_eq
  generalize session.scene.course node session.registry = visited at turn reaches
  rcases visited with ⟨actions, reached, result⟩
  dsimp only at reaches
  cases result with
  | error error =>
      have tour : Tour session.scene (.turn node [] leads :: stops) session.registry
          ⟨actions, reached, .error error⟩ := Tour.of_turn_error turn
      refine ⟨_, tour, ?_⟩
      simp only [carryOut]
      cases session.performAll actions with
      | mk answer next => cases answer <;> rfl
  | ok target =>
      have further {course : Course Unit} (later : Tour session.scene stops reached course) :
          Tour session.scene (.turn node [] leads :: stops) session.registry
            (course.after (actions ++ Stop.linkActions leads target)) :=
        Tour.of_turn_ok turn later
      cases performed : session.performAll actions with
      | mk answer next =>
          cases answer with
          | error refusal =>
              rcases Tour.total session.scene stops reached with ⟨course, later⟩
              refine ⟨_, further later, ?_⟩
              simp only [carryOut, performed, Course.after, performAll_append]
          | ok _ =>
              have advanced := performAll_ok performed
              have rootKept : next.registry.hasRoot = true := by
                rw [advanced.registry]
                exact Registry.hasRoot_applyAll rootSet actions
              rcases carries { next with
                queue := ⟨next.queue.edges ++ leads.map (·.leadingTo target)⟩ } rootKept
                advanced.scene with ⟨course, later, carried⟩
              have later : Tour session.scene stops reached course := by
                rw [reaches, ← advanced.registry]
                exact later
              refine ⟨_, further later, ?_⟩
              simp only [carryOut, performed, Course.after, performAll_append,
                performAll_linkActions, carried]

/-- Showing what edges lead to is carrying out a tour. -/
theorem showAll_eq {session : Session State} (rootSet : session.registry.hasRoot = true)
    (edges : List Edge) :
    exists course, Tour session.scene (rootStops edges) session.registry course ∧
      session.showAll edges = session.carryOut course := by
  induction edges generalizing session with
  | nil => exact ⟨_, .done, rfl⟩
  | cons edge rest ih =>
      have carries (next : Session State) (rootKept : next.registry.hasRoot = true)
          (same : next.scene = session.scene) :
          exists course, Tour session.scene (rootStops rest) next.registry course ∧
            next.showAll rest = next.carryOut course := by
        rw [← same]
        exact ih rootKept
      exact process_onward rootSet edge.tail [rootEdge ""] carries

/-- Carrying out a walk for a watched sink that refuses nothing. -/
theorem carryOut_obliging {session : Session (Watched State)} {sink : Sink State}
    (isWatched : session.sink = sink.watched) (obliging : sink.Obliging) (course : Course α) :
    exists next, session.carryOut course = (course.result, next) ∧
      session.Advanced next course.actions ∧ session.Handed next (offeredIn course.actions) := by
  have willing : session.sink.Obliging := isWatched ▸ obliging.watched
  rcases performAll_obliging willing course.actions with ⟨next, performed⟩
  refine ⟨next, ?_, performAll_ok performed, performAll_handed isWatched performed⟩
  rw [carryOut, performed]

end Session

/-- A watched sink that refuses nothing takes all edges that wait. -/
theorem Queue.flushFrom_obliging (registry : Registry) {sink : Sink State}
    (obliging : sink.Obliging) (taken : Nat) (edges : List Diagram.Edge) (seen : Watched State) :
    exists next : Watched State,
      flushFrom registry sink.watched taken edges seen =
        ⟨.ok (taken + edges.length), empty, next⟩ ∧
      next.handovers =
        seen.handovers ++ (edges.map (retarget registry)).map (.edge · (.ok ())) := by
  induction edges generalizing taken seen with
  | nil => exact ⟨seen, rfl, (List.append_nil _).symm⟩
  | cons edge rest ih =>
      cases offered : sink.watched.takeEdge (retarget registry edge) seen with
      | mk answer middle =>
          have takes := obliging.watched.takesEdge (retarget registry edge) seen
          rw [offered] at takes
          dsimp only at takes
          subst takes
          rcases ih (taken + 1) middle with ⟨next, flushed, handovers⟩
          refine ⟨next, ?_, ?_⟩
          · rw [flushFrom, offered]
            dsimp only
            rw [flushed, List.length_cons]
            congr 2
            omega
          · rw [handovers, Sink.takeEdge_watched offered, List.append_assoc]
            rfl

/-! ## Dumps -/

/-- The scene of a session that has been started. -/
def Graph.scene (graph : Graph) (unshared : List NodeId) : Scene :=
  ⟨graph, Session.inGraph graph unshared⟩

theorem Graph.contains_eq_isSome (graph : Graph) (node : NodeId) :
    graph.contains node = (graph.node? node).isSome := by
  rw [contains, node?, size, Bool.eq_iff_iff, decide_eq_true_iff, isSome_getElem?]

theorem Session.mem_inGraph (graph : Graph) (nodes : List NodeId) (node : NodeId) :
    node ∈ inGraph graph nodes <-> node ∈ nodes ∧ graph.contains node = true := by
  rw [inGraph, List.mem_eraseDups, List.mem_filter]

/-- How what comes of a dump fits a tour from the root, when the sink has taken everything. -/
structure Toured {State : Type u} (course : Course Unit) (answer : Except DumpError Summary)
    (session : Session (Watched State)) : Prop where
  registry : session.registry = course.registry
  nodes : session.store.nodes = Session.rootNode :: offeredIn course.actions
  edges : session.store.edges =
    match course.result with
    | .ok () => (queuedIn course.actions).map (Queue.retarget course.registry)
    | .error _ => []
  answers :
    match course.result with
    | .ok () => exists unbound,
        answer = .ok ⟨session.store.nodes.length, session.store.edges.length, unbound⟩
    | .error error => answer = .error error

namespace Watched

variable {State : Type u}

theorem nodes_of_handovers {watched : Watched State} {nodes : List Diagram.Node}
    {edges : List Diagram.Edge}
    (handovers : watched.handovers =
      nodes.map (.node · (.ok ())) ++ edges.map (.edge · (.ok ()))) : watched.nodes = nodes := by
  rw [Watched.nodes, handovers, List.filterMap_append, List.filterMap_map, List.filterMap_map]
  simp [Function.comp_def, Handover.takenNode?]

theorem edges_of_handovers {watched : Watched State} {nodes : List Diagram.Node}
    {edges : List Diagram.Edge}
    (handovers : watched.handovers =
      nodes.map (.node · (.ok ())) ++ edges.map (.edge · (.ok ()))) : watched.edges = edges := by
  rw [Watched.edges, handovers, List.filterMap_append, List.filterMap_map, List.filterMap_map]
  simp [Function.comp_def, Handover.takenEdge?]

end Watched

namespace Graph

variable {State : Type u}

theorem dump_of_not_contains {graph : Graph} {root : NodeId} (outside : graph.contains root = false)
    (unshared : List NodeId) (sink : Sink State) (store : State) :
    graph.dump root unshared sink store =
      (.error (.unknownNode root), Session.start graph unshared sink store) := by
  have refused : (Session.start graph unshared sink store).setRoot root =
      (.error (.unknownNode root), Session.start graph unshared sink store) := by
    unfold Session.setRoot
    exact if_neg (ne_true_of_eq_false outside)
  rw [dump, refused]

/-- The session in which the root has been shown. -/
private theorem setRoot_obliging {graph : Graph} {root : NodeId}
    (inside : graph.contains root = true) (unshared : List NodeId) {sink : Sink State}
    (obliging : sink.Obliging) (store : State) :
    exists session : Session (Watched State),
      (Session.start graph unshared sink.watched (.start store)).setRoot root =
        (.ok .root, session) ∧
      session.scene = graph.scene unshared ∧ session.sink = sink.watched ∧
      session.registry = .rooted root ∧ session.queue = .empty ∧ session.nodesWritten = 1 ∧
      session.store.handovers = [.node Session.rootNode (.ok ())] := by
  cases offered : sink.watched.takeNode Session.rootNode (.start store) with
  | mk answer next =>
      have takes := obliging.watched.takesNode Session.rootNode (.start store)
      rw [offered] at takes
      dsimp only at takes
      subst takes
      refine ⟨{ Session.start graph unshared sink.watched (.start store) with
        registry := .rooted root, store := next, nodesWritten := 1 }, ?_, rfl, rfl, rfl, rfl, rfl,
        Sink.takeNode_watched offered⟩
      unfold Session.setRoot
      apply (if_pos inside).trans
      simp only [Session.start, Registry.reserveRoot_empty, Session.offer, offered]

theorem dump_toured {graph : Graph} {root : NodeId} (inside : graph.contains root = true)
    (unshared : List NodeId) {sink : Sink State} (obliging : sink.Obliging) (store : State) :
    let dumped := graph.dump root unshared sink.watched (.start store)
    exists course,
      Tour (graph.scene unshared) (rootStops (graph.dependencies root)) (.rooted root) course ∧
        Toured course dumped.1 dumped.2 := by
  dsimp only
  rcases setRoot_obliging inside unshared obliging store with
    ⟨first, rootSet, scene, isWatched, registry, queue, written, handovers⟩
  have hasRoot : first.registry.hasRoot = true := by
    rw [registry]
    exact Registry.hasRoot_rooted root
  rcases Session.showAll_eq hasRoot (graph.dependencies root) with ⟨course, tour, shown⟩
  rcases Session.carryOut_obliging isWatched obliging course with ⟨next, carried, advanced, handed⟩
  rw [scene, registry] at tour
  have reaches : next.registry = course.registry := by
    rw [advanced.registry, registry, tour.registry_eq]
  have seen : next.store.handovers =
      (Session.rootNode :: offeredIn course.actions).map (.node · (.ok ())) := by
    rw [handed, handovers]
    rfl
  refine ⟨course, tour, ?_⟩
  rw [dump, rootSet]
  dsimp only
  rw [shown, carried]
  rcases course with ⟨actions, reached, result⟩
  cases result with
  | error error =>
      have all : next.store.handovers =
          (Session.rootNode :: offeredIn actions).map (.node · (.ok ())) ++
            ([] : List Diagram.Edge).map (.edge · (.ok ())) := by
        rw [seen, List.map_nil, List.append_nil]
      exact ⟨reaches, Watched.nodes_of_handovers all, Watched.edges_of_handovers all, rfl⟩
  | ok _ =>
      have rootKept : next.registry.hasRoot = true := by
        rw [advanced.registry]
        exact Registry.hasRoot_applyAll hasRoot actions
      have waiting : next.queue.edges = queuedIn actions := by
        rw [advanced.queue, queue]
        rfl
      rcases Queue.flushFrom_obliging next.registry obliging 0 next.queue.edges next.store with
        ⟨last, flushed, lastHandovers⟩
      have all : last.handovers =
          (Session.rootNode :: offeredIn actions).map (.node · (.ok ())) ++
            ((queuedIn actions).map (Queue.retarget reached)).map (.edge · (.ok ())) := by
        rw [lastHandovers, seen, waiting, reaches]
      dsimp only
      rw [Session.finish, if_pos rootKept]
      rw [← isWatched, ← advanced.sink] at flushed
      simp only [Queue.flush, flushed]
      refine ⟨reaches, Watched.nodes_of_handovers all, Watched.edges_of_handovers all,
        next.unboundParameters, ?_⟩
      dsimp only [Session.logged]
      rw [Watched.nodes_of_handovers all, Watched.edges_of_handovers all, advanced.nodesWritten,
        written, waiting]
      simp [Nat.add_comm]

end Graph

/-! ## Successful dumps -/

namespace Tour

variable {scene : Scene} {stops : List Stop} {root : NodeId} {course : Course Unit}

/-- The nodes with identifiers are the root and those identified on the way. -/
theorem identifier?_isSome_iff (tour : Tour scene stops (.rooted root) course) (node : NodeId) :
    (course.registry.identifier? node).isSome <->
      node = root ∨ node ∈ identifiedIn course.actions := by
  rw [tour.registry_eq, Registry.identifier?_applyAll_isSome, Registry.identifier?_rooted]
  by_cases same : root = node
  · simp [same]
  · simp [same, Ne.symm same]

theorem identifier?_root (tour : Tour scene stops (.rooted root) course) :
    course.registry.identifier? root = some .root := by
  rw [tour.registry_eq]
  apply Registry.identifier?_applyAll_of_known
  rw [Registry.identifier?_rooted, if_pos rfl]

/-- When a tour from the root succeeds, every target has been recorded. -/
theorem complete (tour : Tour scene stops (.rooted root) course)
    (success : course.result = .ok ()) : course.registry.Complete scene.graph := by
  intro node identifier known
  have rootedSound := Registry.sound_rooted scene.graph root
  have identified := (tour.identifier?_isSome_iff node).mp (by rw [known]; rfl)
  rcases identified with same | onTheWay
  · subst same
    have rootKnown : (Registry.rooted node).identifier? node = some .root := by
      rw [Registry.identifier?_rooted, if_pos rfl]
    cases known.symm.trans tour.identifier?_root
    rw [(tour.sound rootedSound).2.targets node .root rootKnown, Registry.target?_rooted,
      if_pos rfl, Registry.endpoint_root]
  · rcases tour.recorded success rootedSound node onTheWay with ⟨other, knownToo, target⟩
    cases known.symm.trans knownToo
    exact target

end Tour

/-- What is known of a session in which a dump has succeeded. -/
structure Graph.Shown {State : Type u} (graph : Graph) (root : NodeId) (unshared : List NodeId)
    (summary : Summary) (session : Session (Watched State)) : Prop where
  sound : session.registry.Sound graph
  complete : session.registry.Complete graph
  rootKnown : session.registry.identifier? root = some .root
  known : forall node, (session.registry.identifier? node).isSome <->
    node = root ∨ node ∈ graph.discovery root
  bound : forall node, node ∈ graph.discovery root -> (graph.satisfaction? node).isSome
  nodes : session.store.nodes.Perm (Session.rootNode ::
    (graph.discovery root).flatMap ((graph.scene unshared).descriptors session.registry))
  edges : session.store.edges.Perm
    ((rootStops (graph.dependencies root)).flatMap
        ((graph.scene unshared).leadsFrom session.registry) ++
      (graph.discovery root).flatMap ((graph.scene unshared).edgesOf session.registry))
  nodesCounted : summary.nodes = session.store.nodes.length
  edgesCounted : summary.edges = session.store.edges.length

theorem heads_rootStops (edges : List Edge) : heads (rootStops edges) = edges.map Edge.tail := by
  induction edges with
  | nil => rfl
  | cons edge rest ih => exact congrArg (edge.tail :: ·) ih

namespace Graph

variable {State : Type u} {graph : Graph} {root : NodeId} {unshared : List NodeId}

/-- A tour from the root finds the nodes of the graph in the order of discovery. -/
theorem discovers_of_tour {course : Course Unit}
    (tour : Tour (graph.scene unshared) (rootStops (graph.dependencies root)) (.rooted root)
      course) : graph.Discovers (graph.discovery root) course := by
  have discovers := tour.discovers (Registry.mem_root_iff root)
  rwa [heads_rootStops] at discovers

theorem dump_shown {sink : Sink State} (obliging : sink.Obliging) {store : State}
    {summary : Summary} {session : Session (Watched State)}
    (dumped : graph.dump root unshared sink.watched (.start store) = (.ok summary, session)) :
    graph.Shown root unshared summary session := by
  cases inside : graph.contains root with
  | false =>
      rw [dump_of_not_contains inside] at dumped
      cases dumped
  | true =>
      rcases dump_toured inside unshared obliging store with ⟨course, tour, toured⟩
      rw [dumped] at toured
      have answers := toured.answers
      have edges := toured.edges
      have discovers := discovers_of_tour tour
      cases result : course.result with
      | error error =>
          rw [result] at answers
          cases answers
      | ok _ =>
          rw [result] at answers edges
          rw [Graph.Discovers, result] at discovers
          rcases answers with ⟨unbound, same⟩
          have counted := Except.ok.inj same
          dsimp only at counted
          subst counted
          rcases discovers with ⟨identified, bound⟩
          have rootedSound := Registry.sound_rooted graph root
          have sound := (tour.sound rootedSound).1
          have complete := tour.complete result
          have offered := tour.offered_perm result rootedSound (fun _ _ known => known)
          have queued :=
            tour.queued_perm result rootedSound (fun _ _ known => known) complete sound
          rw [identified, ← toured.registry] at offered queued
          refine ⟨toured.registry ▸ sound, toured.registry ▸ complete,
            toured.registry ▸ tour.identifier?_root, fun node => ?_, bound, ?_, ?_, rfl, rfl⟩
          · rw [toured.registry, tour.identifier?_isSome_iff, identified]
          · rw [toured.nodes]
            exact offered.cons _
          · rw [edges, ← toured.registry]
            exact queued

end Graph
end InjectionPlan
