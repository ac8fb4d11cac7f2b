import InjectionPlan.Proofs.Handover
import InjectionPlan.Session.Basic

namespace InjectionPlan

/-!
# Watching changes nothing

A session whose sink is watched goes the way it goes with the bare sink: each operation has the
same result, and the session that goes on is the same apart from the record of what was handed
over.  So what is proved with a sink under watch holds of the sink on its own
(`Graph.dump_alike`).
-/

namespace Session

variable {State : Type u}

theorem node_taken {sink : Sink State} {node : Diagram.Node} {store next : State}
    {answer : Except Refusal Unit} (taken : sink.takeNode node store = (answer, next))
    (handovers : List Handover) :
    sink.watched.takeNode node ⟨store, handovers⟩ =
      (answer, ⟨next, handovers ++ [.node node answer]⟩) := by
  simp only [Sink.watched, taken]

theorem edge_taken {sink : Sink State} {edge : Diagram.Edge} {store next : State}
    {answer : Except Refusal Unit} (taken : sink.takeEdge edge store = (answer, next))
    (handovers : List Handover) :
    sink.watched.takeEdge edge ⟨store, handovers⟩ =
      (answer, ⟨next, handovers ++ [.edge edge answer]⟩) := by
  simp only [Sink.watched, taken]

/-- The session with its sink under watch. -/
def watch (session : Session State) (handovers : List Handover) : Session (Watched State) :=
  { session with sink := session.sink.watched, store := ⟨session.store, handovers⟩ }

/-- What an operation comes to with the sink under watch, and what it comes to without. -/
def Alike (seen : α × Session (Watched State)) (unseen : α × Session State) : Prop :=
  exists handovers, seen = (unseen.1, unseen.2.watch handovers)

theorem offer_alike (session : Session State) (handovers : List Handover)
    (node : Diagram.Node) :
    Alike ((session.watch handovers).offer node) (session.offer node) := by
  cases taken : session.sink.takeNode node session.store with
  | mk answer store =>
      refine ⟨handovers ++ [.node node answer], ?_⟩
      have seen : (session.watch handovers).sink.takeNode node (session.watch handovers).store =
          (answer, ⟨store, _⟩) := node_taken taken handovers
      rw [offer, offer, taken, seen]
      cases answer with
      | ok _ => rfl
      | error _ => rfl

theorem perform_alike (session : Session State) (handovers : List Handover) (action : Action) :
    Alike ((session.watch handovers).perform action) (session.perform action) := by
  cases action with
  | offer node => exact session.offer_alike handovers node
  | enqueue edge => exact ⟨handovers, rfl⟩
  | identify node => exact ⟨handovers, rfl⟩
  | record identifier target => exact ⟨handovers, rfl⟩
  | unbound qualifier => exact ⟨handovers, rfl⟩
  | note event => exact ⟨handovers, rfl⟩

theorem performAll_alike (session : Session State) (handovers : List Handover)
    (actions : List Action) :
    Alike ((session.watch handovers).performAll actions) (session.performAll actions) := by
  induction actions generalizing session handovers with
  | nil => exact ⟨handovers, rfl⟩
  | cons action rest ih =>
      rcases session.perform_alike handovers action with ⟨after, same⟩
      rw [performAll, performAll, same]
      cases session.perform action with
      | mk answer next =>
          cases answer with
          | ok _ => exact ih next after
          | error _ => exact ⟨after, rfl⟩

theorem carryOut_alike (session : Session State) (handovers : List Handover)
    (course : Course α) :
    Alike ((session.watch handovers).carryOut course) (session.carryOut course) := by
  rcases session.performAll_alike handovers course.actions with ⟨after, same⟩
  rw [carryOut, carryOut, same]
  cases session.performAll course.actions with
  | mk answer next =>
      cases answer with
      | ok _ => exact ⟨after, rfl⟩
      | error _ => exact ⟨after, rfl⟩

theorem setRoot_alike (session : Session State) (handovers : List Handover) (root : NodeId) :
    Alike ((session.watch handovers).setRoot root) (session.setRoot root) := by
  cases inside : session.scene.graph.contains root with
  | false =>
      have seenInside : (session.watch handovers).scene.graph.contains root = false := inside
      refine ⟨handovers, ?_⟩
      rw [setRoot, setRoot, inside, seenInside]
      rfl
  | true =>
      have seenInside : (session.watch handovers).scene.graph.contains root = true := inside
      cases reserved : session.registry.reserveRoot root with
      | error error =>
          have seenReserved : (session.watch handovers).registry.reserveRoot root =
            .error error := reserved
          refine ⟨handovers, ?_⟩
          rw [setRoot, setRoot, inside, seenInside, reserved, seenReserved]
          rfl
      | ok registry =>
          have seenReserved : (session.watch handovers).registry.reserveRoot root =
            .ok registry := reserved
          rcases offer_alike { session with registry := registry } handovers rootNode with
            ⟨after, same⟩
          have seen : offer { session.watch handovers with registry := registry } rootNode = _ :=
            same
          rw [setRoot, setRoot, inside, seenInside, reserved, seenReserved]
          dsimp only [if_true]
          rw [seen]
          cases offer { session with registry := registry } rootNode with
          | mk answer next =>
              cases answer with
              | ok _ => exact ⟨after, rfl⟩
              | error _ => exact ⟨after, rfl⟩

theorem process_alike (session : Session State) (handovers : List Handover) (node : NodeId) :
    Alike ((session.watch handovers).process node) (session.process node) := by
  cases rooted : session.registry.hasRoot with
  | false =>
      have seenRooted : (session.watch handovers).registry.hasRoot = false := rooted
      refine ⟨handovers, ?_⟩
      rw [process, process, rooted, seenRooted]
      rfl
  | true =>
      have seenRooted : (session.watch handovers).registry.hasRoot = true := rooted
      rw [process, process, rooted, seenRooted]
      exact session.carryOut_alike handovers _

theorem showAll_alike (session : Session State) (handovers : List Handover) (edges : List Edge) :
    Alike ((session.watch handovers).showAll edges) (session.showAll edges) := by
  induction edges generalizing session handovers with
  | nil => exact ⟨handovers, rfl⟩
  | cons edge rest ih =>
      rcases session.process_alike handovers edge.tail with ⟨after, same⟩
      rw [showAll, showAll, same]
      cases session.process edge.tail with
      | mk answer next =>
          cases answer with
          | ok target => exact ih (next.enqueue (rootEdge target)) after
          | error _ => exact ⟨after, rfl⟩

/-- Edges are handed over as they are without watching. -/
theorem flushFrom_alike (registry : Registry) (sink : Sink State) (taken : Nat)
    (edges : List Diagram.Edge) (store : State) (handovers : List Handover) :
    let unseen := Queue.flushFrom registry sink taken edges store
    exists later, Queue.flushFrom registry sink.watched taken edges ⟨store, handovers⟩ =
      ⟨unseen.result, unseen.queue, ⟨unseen.store, later⟩⟩ := by
  dsimp only
  induction edges generalizing taken store handovers with
  | nil => exact ⟨handovers, rfl⟩
  | cons edge rest ih =>
      cases taking : sink.takeEdge (Queue.retarget registry edge) store with
      | mk answer next =>
          rw [Queue.flushFrom, Queue.flushFrom, taking, edge_taken taking handovers]
          cases answer with
          | ok _ => exact ih (taken + 1) next _
          | error _ => exact ⟨_, rfl⟩

theorem finish_alike (session : Session State) (handovers : List Handover) :
    Alike (session.watch handovers).finish session.finish := by
  cases rooted : session.registry.hasRoot with
  | false =>
      have seenRooted : (session.watch handovers).registry.hasRoot = false := rooted
      refine ⟨handovers, ?_⟩
      rw [finish, finish, rooted, seenRooted]
      rfl
  | true =>
      have seenRooted : (session.watch handovers).registry.hasRoot = true := rooted
      rcases flushFrom_alike session.registry session.sink 0 session.queue.edges session.store
        handovers with ⟨after, same⟩
      have seen : (session.watch handovers).queue.flush (session.watch handovers).registry
          (session.watch handovers).sink (session.watch handovers).store = _ := same
      refine ⟨after, ?_⟩
      rw [finish, finish, rooted, seenRooted]
      dsimp only [if_true]
      rw [seen]
      rw [← Queue.flush]
      cases session.queue.flush session.registry session.sink session.store with
      | mk result queue store =>
          cases result with
          | ok edges => rfl
          | error refusal => rfl

end Session

/-- A dump has the same result when its sink is watched, and leaves the sink in the same state. -/
theorem Graph.dump_alike {State : Type u} (graph : Graph) (root : NodeId) (unshared : List NodeId)
    (sink : Sink State) (store : State) :
    Session.Alike (graph.dump root unshared sink.watched (.start store))
      (graph.dump root unshared sink store) := by
  rcases (Session.start graph unshared sink store).setRoot_alike [] root with ⟨started, same⟩
  have seen : (Session.start graph unshared sink.watched (.start store)).setRoot root = _ := same
  rw [dump, dump, seen]
  cases (Session.start graph unshared sink store).setRoot root with
  | mk answer session =>
      cases answer with
      | error _ => exact ⟨started, rfl⟩
      | ok _ =>
          rcases session.showAll_alike started (graph.dependencies root) with ⟨after, sameAfter⟩
          dsimp only
          rw [sameAfter]
          cases session.showAll (graph.dependencies root) with
          | mk shown next =>
              cases shown with
              | error _ => exact ⟨after, rfl⟩
              | ok _ => exact next.finish_alike after

end InjectionPlan
