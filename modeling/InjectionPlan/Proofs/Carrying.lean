import InjectionPlan.Proofs.Conduct
import InjectionPlan.Proofs.Handover
import InjectionPlan.Session.Basic

namespace InjectionPlan

/-!
# Carrying out actions

What a session becomes by carrying out actions is known from the actions alone, up to the state of
the sink (`Session.performAll_ok`).  If the sink refuses a node, the actions before that node have
been carried out and no others (`Session.performAll_error`).
-/

namespace Session

variable {State : Type u}

/-- How a session has changed by carrying out actions. -/
structure Advanced (before after : Session State) (actions : List Action) : Prop where
  scene : after.scene = before.scene
  sink : after.sink = before.sink
  registry : after.registry = before.registry.applyAll actions
  queue : after.queue.edges = before.queue.edges ++ queuedIn actions
  nodesWritten : after.nodesWritten = before.nodesWritten + (offeredIn actions).length

theorem Advanced.trans {first second third : Session State} {before after : List Action}
    (left : first.Advanced second before) (right : second.Advanced third after) :
    first.Advanced third (before ++ after) where
  scene := right.scene.trans left.scene
  sink := right.sink.trans left.sink
  registry := by rw [right.registry, left.registry, Registry.applyAll_append]
  queue := by rw [right.queue, left.queue, queuedIn_append, List.append_assoc]
  nodesWritten := by
    rw [right.nodesWritten, left.nodesWritten, offeredIn_append, List.length_append, Nat.add_assoc]

/-- What has been handed to a watched sink when nodes have been taken. -/
def Handed (before after : Session (Watched State)) (nodes : List Diagram.Node) : Prop :=
  after.store.handovers = before.store.handovers ++ nodes.map (.node · (.ok ()))

theorem offer_ok {session next : Session State} {node : Diagram.Node}
    (taken : session.offer node = (.ok (), next)) :
    exists store, session.sink.takeNode node session.store = (.ok (), store) ∧
      next = { session with store := store, nodesWritten := session.nodesWritten + 1 } := by
  unfold offer at taken
  split at taken
  · next store takes =>
    cases taken
    exact ⟨store, takes, rfl⟩
  · cases taken

theorem offer_error {session next : Session State} {node : Diagram.Node} {refusal : Refusal}
    (refused : session.offer node = (.error refusal, next)) :
    exists store, session.sink.takeNode node session.store = (.error refusal, store) ∧
      next = { session with store := store } := by
  unfold offer at refused
  split at refused
  · cases refused
  · next other store refuses =>
    cases refused
    exact ⟨store, refuses, rfl⟩

theorem perform_ok {session next : Session State} {action : Action}
    (performed : session.perform action = (.ok (), next)) : session.Advanced next [action] := by
  cases action with
  | offer node =>
      rcases offer_ok performed with ⟨store, _, rfl⟩
      exact ⟨rfl, rfl, rfl, (List.append_nil _).symm, rfl⟩
  | enqueue edge =>
      cases performed
      exact ⟨rfl, rfl, rfl, rfl, rfl⟩
  | identify node =>
      cases performed
      exact ⟨rfl, rfl, rfl, (List.append_nil _).symm, rfl⟩
  | record identifier target =>
      cases performed
      exact ⟨rfl, rfl, rfl, (List.append_nil _).symm, rfl⟩
  | unbound qualifier =>
      cases performed
      exact ⟨rfl, rfl, rfl, (List.append_nil _).symm, rfl⟩
  | note event =>
      cases performed
      exact ⟨rfl, rfl, rfl, (List.append_nil _).symm, rfl⟩

/-- Only an offer is refused. -/
theorem perform_error {session next : Session State} {action : Action} {refusal : Refusal}
    (refused : session.perform action = (.error refusal, next)) :
    exists node, action = .offer node ∧ session.offer node = (.error refusal, next) := by
  cases action with
  | offer node => exact ⟨node, rfl, refused⟩
  | enqueue edge => cases refused
  | identify node => cases refused
  | record identifier target => cases refused
  | unbound qualifier => cases refused
  | note event => cases refused

theorem performAll_ok {session next : Session State} {actions : List Action}
    (performed : session.performAll actions = (.ok (), next)) : session.Advanced next actions := by
  induction actions generalizing session with
  | nil =>
      cases performed
      exact ⟨rfl, rfl, rfl, (List.append_nil _).symm, rfl⟩
  | cons action rest ih =>
      unfold performAll at performed
      split at performed
      · next middle first => exact (perform_ok first).trans (ih performed)
      · cases performed

/-- If a node is refused, the actions before it have been carried out. -/
theorem performAll_error {session next : Session State} {actions : List Action}
    {refusal : Refusal} (refused : session.performAll actions = (.error refusal, next)) :
    exists before node after middle, actions = before ++ .offer node :: after ∧
      session.performAll before = (.ok (), middle) ∧
      middle.offer node = (.error refusal, next) := by
  induction actions generalizing session with
  | nil => cases refused
  | cons action rest ih =>
      unfold performAll at refused
      split at refused
      · next reached first =>
        rcases ih refused with ⟨before, node, after, middle, split, performed, offered⟩
        refine ⟨action :: before, node, after, middle, by rw [split]; rfl, ?_, offered⟩
        rw [performAll, first]
        exact performed
      · next other reached first =>
        cases refused
        rcases perform_error first with ⟨node, rfl, offered⟩
        exact ⟨[], node, rest, session, rfl, rfl, offered⟩

theorem performAll_append (session : Session State) (first second : List Action) :
    session.performAll (first ++ second) =
      match session.performAll first with
      | (.ok (), next) => next.performAll second
      | (.error refusal, next) => (.error refusal, next) := by
  induction first generalizing session with
  | nil => rfl
  | cons action rest ih =>
      rw [List.cons_append, performAll, performAll]
      split
      · next reached _ => exact ih reached
      · rfl

/-! ## Watched sinks -/

section

variable {session next : Session (Watched State)} {sink : Sink State}

theorem Handed.trans {first second third : Session (Watched State)}
    {before after : List Diagram.Node} (left : first.Handed second before)
    (right : second.Handed third after) : first.Handed third (before ++ after) := by
  unfold Handed at left right ⊢
  rw [right, left, List.map_append, List.append_assoc]

theorem offer_handovers {node : Diagram.Node} {answer : Except Refusal Unit}
    (isWatched : session.sink = sink.watched) (offered : session.offer node = (answer, next)) :
    next.store.handovers = session.store.handovers ++ [.node node answer] := by
  cases answer with
  | ok _ =>
      rcases offer_ok offered with ⟨store, taken, rfl⟩
      rw [isWatched] at taken
      exact Sink.takeNode_watched taken
  | error refusal =>
      rcases offer_error offered with ⟨store, refused, rfl⟩
      rw [isWatched] at refused
      exact Sink.takeNode_watched refused

theorem perform_handed {action : Action} (isWatched : session.sink = sink.watched)
    (performed : session.perform action = (.ok (), next)) :
    session.Handed next (offeredIn [action]) := by
  cases action with
  | offer node => exact offer_handovers isWatched performed
  | enqueue edge =>
      cases performed
      exact (List.append_nil _).symm
  | identify node =>
      cases performed
      exact (List.append_nil _).symm
  | record identifier target =>
      cases performed
      exact (List.append_nil _).symm
  | unbound qualifier =>
      cases performed
      exact (List.append_nil _).symm
  | note event =>
      cases performed
      exact (List.append_nil _).symm

theorem performAll_handed {actions : List Action} (isWatched : session.sink = sink.watched)
    (performed : session.performAll actions = (.ok (), next)) :
    session.Handed next (offeredIn actions) := by
  induction actions generalizing session with
  | nil =>
      cases performed
      exact (List.append_nil _).symm
  | cons action rest ih =>
      unfold performAll at performed
      split at performed
      · next middle first =>
        have stillWatched := (perform_ok first).sink.trans isWatched
        have handed := (perform_handed isWatched first).trans (ih stillWatched performed)
        rwa [← offeredIn_append] at handed
      · cases performed

theorem performAll_obliging (obliging : session.sink.Obliging) (actions : List Action) :
    exists next, session.performAll actions = (.ok (), next) := by
  cases carried : session.performAll actions with
  | mk answer next =>
      cases answer with
      | ok _ => exact ⟨next, rfl⟩
      | error refusal =>
          rcases performAll_error carried with ⟨before, node, after, middle, _, performed, offered⟩
          rcases offer_error offered with ⟨store, refused, _⟩
          have takes := obliging.takesNode node middle.store
          rw [← (performAll_ok performed).sink, refused] at takes
          cases takes

end

end Session
end InjectionPlan
