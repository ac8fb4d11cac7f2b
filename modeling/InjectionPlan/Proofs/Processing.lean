import InjectionPlan.Proofs.Refusals

namespace InjectionPlan

/-!
# Sessions that show several nodes

In a session that goes from its root over several nodes to its end, each node is a stop, and no edge
leads there.  If the sink refuses nothing and all succeeds, it is known from the registry that is
reached what has been handed over (`Graph.showNodes_presented`): what a depth-first search finds
from the nodes on, apart from the root, with all edges between.  The order is not known, and this
description does not depend on it.
-/

namespace Session

variable {State : Type u}

/-- Shows several nodes, one after the other, until one fails. -/
def processAll : (session : Session State) -> List NodeId -> Except DumpError Unit × Session State
  | session, [] => (.ok (), session)
  | session, node :: rest =>
    match session.process node with
    | (.error error, next) => (.error error, next)
    | (.ok _, next) => processAll next rest

end Session

/-- A session that shows its root and several nodes, and then ends. -/
def Graph.showNodes {State : Type u} (graph : Graph) (root : NodeId) (unshared nodes : List NodeId)
    (sink : Sink State) (store : State) : Except DumpError Summary × Session State :=
  graph.runSession root unshared (·.processAll nodes) sink store

/-- The stops at several nodes. -/
def turns (nodes : List NodeId) : List Stop :=
  nodes.map fun node => .turn node [] []

theorem heads_turns (nodes : List NodeId) : heads (turns nodes) = nodes := by
  induction nodes with
  | nil => rfl
  | cons node rest ih => exact congrArg (node :: ·) ih

namespace Session

variable {State : Type u}

/-- Showing several nodes is carrying out a tour. -/
theorem processAll_eq {session : Session State} (rootSet : session.registry.hasRoot = true)
    (nodes : List NodeId) :
    exists course, Tour session.scene (turns nodes) session.registry course ∧
      session.processAll nodes = session.carryOut course := by
  induction nodes generalizing session with
  | nil => exact ⟨_, .done, rfl⟩
  | cons node rest ih =>
      have carries (next : Session State) (rootKept : next.registry.hasRoot = true)
          (same : next.scene = session.scene) :
          exists course, Tour session.scene (turns rest) next.registry course ∧
            next.processAll rest = next.carryOut course := by
        rw [← same]
        exact ih rootKept
      rcases process_onward rootSet node [] carries with ⟨course, tour, carried⟩
      refine ⟨course, tour, ?_⟩
      simp only [List.map_nil, List.append_nil] at carried
      exact carried

end Session

/-! ## What is handed over -/

/-- What is known of a session that has succeeded after making stops. -/
structure Presented {State : Type u} (scene : Scene) (root : NodeId) (stops : List Stop)
    (summary : Summary) (session : Session (Watched State)) : Prop where
  sound : session.registry.Sound scene.graph
  complete : session.registry.Complete scene.graph
  rootKnown : session.registry.identifier? root = some .root
  known : forall node, (session.registry.identifier? node).isSome <->
    node = root ∨ node ∈ scene.graph.preorder (heads stops) [root]
  bound : forall node, node ∈ scene.graph.preorder (heads stops) [root] ->
    (scene.graph.satisfaction? node).isSome
  nodes : session.store.nodes.Perm (Session.rootNode ::
    (scene.graph.preorder (heads stops) [root]).flatMap (scene.descriptors session.registry))
  edges : session.store.edges.Perm (stops.flatMap (scene.leadsFrom session.registry) ++
    (scene.graph.preorder (heads stops) [root]).flatMap (scene.edgesOf session.registry))
  nodesCounted : summary.nodes = session.store.nodes.length
  edgesCounted : summary.edges = session.store.edges.length
  unboundCounted : summary.unboundParameters = (stops.flatMap Stop.missing ++
    (scene.graph.preorder (heads stops) [root]).flatMap
      (scene.missingOf session.registry)).length

namespace Graph

variable {State : Type u} {graph : Graph} {root : NodeId} {unshared : List NodeId}

/-- What has been taken by a watched sink that refuses nothing. -/
theorem Played.taken {course : Course Unit} {sink : Sink State} {store : State}
    {summary : Summary} {session : Session (Watched State)} (obliging : sink.Obliging)
    (played : Played course sink.watched (.start store) (.ok summary, session)) :
    course.script.result = .ok summary ∧ session.registry = course.registry ∧
      session.store.nodes = course.script.nodes ∧ session.store.edges = course.script.edges := by
  have received := sink.takeAll_watched course.script.descriptors
    (show (Watched.start store).handovers = ([] : List Diagram.Descriptor).map _ from rfl)
  rcases Prod.mk.inj played.script with ⟨result, stored⟩
  dsimp only at result stored
  rw [obliging.watched.takeAll, ← stored] at received
  rw [obliging.watched.takeAll] at result
  have taken : session.store.Received course.script.descriptors (.ok ()) := received
  exact ⟨result.symm, played.registry summary rfl, taken.taken⟩

theorem Played.presented {stops : List Stop} {course : Course Unit}
    (tour : Tour (graph.scene unshared) stops (.rooted root) course) {sink : Sink State}
    (obliging : sink.Obliging) {store : State} {summary : Summary}
    {session : Session (Watched State)}
    (played : Played course sink.watched (.start store) (.ok summary, session)) :
    Presented (graph.scene unshared) root stops summary session := by
  rcases played.taken obliging with ⟨result, registry, nodes, edges⟩
  cases success : course.result with
  | error error =>
      rw [Course.script, success] at result
      cases result
  | ok _ =>
      rw [Course.script, success] at result edges
      cases Except.ok.inj result
      have rootedSound := Registry.sound_rooted graph root
      have sound := (tour.sound rootedSound).1
      have complete := tour.complete success
      have discovers := tour.discovers (Registry.mem_root_iff root)
      rw [Graph.Discovers, success] at discovers
      rcases discovers with ⟨identified, bound⟩
      have offered := tour.offered_perm success rootedSound (fun _ _ known => known)
      have queued :=
        tour.queued_perm success rootedSound (fun _ _ known => known) complete sound
      have unbound := tour.unbound_perm success rootedSound (fun _ _ known => known)
      rw [identified, ← registry] at offered queued unbound
      rw [← registry] at sound complete
      refine ⟨sound, complete, registry ▸ tour.identifier?_root, fun node => ?_, bound, ?_, ?_, ?_,
        ?_, unbound.length_eq⟩
      · rw [registry, tour.identifier?_isSome_iff, identified]
      · rw [nodes]
        exact offered.cons _
      · rw [edges, ← registry]
        exact queued
      · rw [nodes]
        rfl
      · rw [edges, List.length_map]

theorem showNodes_presented {nodes : List NodeId} {sink : Sink State} (obliging : sink.Obliging)
    {store : State} {summary : Summary} {session : Session (Watched State)}
    (shown : graph.showNodes root unshared nodes sink.watched (.start store) =
      (.ok summary, session)) :
    Presented (graph.scene unshared) root (turns nodes) summary session := by
  cases inside : graph.contains root with
  | false =>
      have refused : (Session.start graph unshared sink.watched (.start store)).setRoot root =
          (.error (.unknownNode root), Session.start graph unshared sink.watched (.start store)) :=
        if_neg (ne_true_of_eq_false inside)
      rw [showNodes, runSession, refused] at shown
      cases shown
  | true =>
      rcases Tour.total (graph.scene unshared) (turns nodes) (.rooted root) with ⟨course, tour⟩
      have played : Played course sink.watched (.start store)
          (graph.showNodes root unshared nodes sink.watched (.start store)) := by
        refine played_of_tour inside tour (fun begun scene registry => ?_) _ _
        have rooted : begun.registry.hasRoot = true := registry ▸ Registry.hasRoot_rooted root
        rcases Session.processAll_eq rooted nodes with ⟨other, same, carried⟩
        rw [scene, registry] at same
        cases tour.unique same
        exact carried
      rw [shown] at played
      exact played.presented tour obliging

end Graph
end InjectionPlan
