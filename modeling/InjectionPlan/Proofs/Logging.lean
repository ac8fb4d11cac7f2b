import InjectionPlan.Proofs.Script

namespace InjectionPlan

/-!
# What is logged

An event is logged with each action that gives a node its identifier, that finds a parameter without
a value, or that is a note.  So what a session logs is known from the actions that are carried out
and the registry at their start (`Session.log_performAll`).  The notes of a tour are no warnings
(`Tour.notes_calm`), and so the warnings of a dump are those of the parameters without a value
(`Graph.dump_logged`, `filter_eventsIn`).
-/

/-- Whether an event is a warning. -/
def LogEvent.isWarning (event : LogEvent) : Bool :=
  event.level = "WARN"

/-! ## The events of actions -/

/-- The event that is logged with an action. -/
def Action.event? (registry : Registry) : Action -> Option LogEvent
  | identify node => some (.renderingNode node (registry.identifierFor node))
  | unbound qualifier => some (.parameterNotBound qualifier)
  | note event => some event
  | _ => none

/-- The events that are logged with actions, from a registry on. -/
def eventsIn : Registry -> List Action -> List LogEvent
  | _, [] => []
  | registry, action :: rest =>
    (action.event? registry).toList ++ eventsIn (registry.apply action) rest

/-- The event that is noted. -/
def Action.note? : Action -> Option LogEvent
  | note event => some event
  | _ => none

/-- The events that are noted, in this order. -/
def notesIn (actions : List Action) : List LogEvent :=
  actions.filterMap Action.note?

/-- If no warning is noted, the warnings are those of the parameters without a value. -/
theorem filter_eventsIn {actions : List Action}
    (calm : forall event, event ∈ notesIn actions -> event.isWarning = false)
    (registry : Registry) :
    (eventsIn registry actions).filter LogEvent.isWarning =
      (unboundIn actions).map .parameterNotBound := by
  induction actions generalizing registry with
  | nil => rfl
  | cons action rest ih =>
      rw [eventsIn, List.filter_append]
      cases action with
      | note event =>
          have notes : notesIn (.note event :: rest) = event :: notesIn rest := rfl
          rw [notes, List.forall_mem_cons] at calm
          rw [Action.event?, Option.toList_some,
            List.filter_cons_of_neg (Bool.not_eq_true _ ▸ calm.1)]
          exact ih calm.2 _
      | unbound qualifier => exact congrArg (_ :: ·) (ih calm _)
      | identify node => exact ih calm _
      | record identifier target => exact ih calm _
      | offer node => exact ih calm _
      | enqueue edge => exact ih calm _

namespace Session

variable {State : Type u} {session next : Session State}

theorem log_perform (session : Session State) (action : Action) :
    (session.perform action).2.log.toList =
      session.log.toList ++ (action.event? session.registry).toList := by
  cases action with
  | offer node =>
      have same : (session.offer node).2.log = session.log := by
        unfold offer
        split <;> rfl
      exact (congrArg Array.toList same).trans (List.append_nil _).symm
  | identify node => exact Array.toList_push
  | unbound qualifier => exact Array.toList_push
  | note event => exact Array.toList_push
  | record identifier target => exact (List.append_nil _).symm
  | enqueue edge => exact (List.append_nil _).symm

/-- By carrying out actions their events are logged, and nothing else. -/
theorem log_performAll {actions : List Action}
    (performed : session.performAll actions = (.ok (), next)) :
    next.log.toList = session.log.toList ++ eventsIn session.registry actions := by
  induction actions generalizing session with
  | nil =>
      cases performed
      exact (List.append_nil _).symm
  | cons action rest ih =>
      unfold performAll at performed
      split at performed
      · next middle first =>
        have own := session.log_perform action
        rw [first] at own
        have registry : middle.registry = session.registry.apply action :=
          (perform_ok first).registry
        rw [ih performed, own, registry, List.append_assoc]
        rfl
      · cases performed

end Session

/-! ## The notes of a tour -/

section

variable (first second : List Action) (events : List LogEvent) (qualifier : Qualifier)
  (value : Option Instance) (leads : List Diagram.Edge) (target : String) (portrait : Portrait)
  (node : NodeId) (identifier : Identifier) (satisfaction : Satisfaction) (scene : Scene)
  (registry : Registry) (data : Node)

@[simp] theorem notesIn_append : notesIn (first ++ second) = notesIn first ++ notesIn second :=
  List.filterMap_append

@[simp] theorem notesIn_notes : notesIn (events.map .note) = events := by
  simp [notesIn, List.filterMap_map, Function.comp_def, Action.note?]

@[simp] theorem notesIn_rowActions :
    notesIn (Stop.rowActions qualifier value) = [.parameter qualifier] := by
  cases value <;> rfl

@[simp] theorem notesIn_linkActions : notesIn (Stop.linkActions leads target) = [] := by
  simp [notesIn, Stop.linkActions, List.filterMap_map, Function.comp_def, Action.note?]

@[simp] theorem notesIn_closing : notesIn portrait.closing = [] := by
  simp [notesIn, Portrait.closing, List.filterMap_map, Function.comp_def, Action.note?]

@[simp] theorem notesIn_opening :
    notesIn (opening node identifier satisfaction) = [.dispatching identifier satisfaction] := rfl

@[simp] theorem notesIn_showing :
    notesIn (scene.showing registry node data satisfaction first) =
      .dispatching (registry.identifierFor node) satisfaction :: notesIn first := by
  simp [Scene.showing]
  rfl

end

/-- What is logged before a stop is no warning. -/
def Stop.Calm : Stop -> Prop
  | row _ _ => True
  | turn _ events _ => forall event, event ∈ events -> event.isWarning = false

theorem Graph.calm_itinerary (graph : Graph) (owner : String) (shown : Nat) (edges : List Edge) :
    forall stop, stop ∈ graph.itinerary owner shown edges -> stop.Calm := by
  induction edges generalizing shown with
  | nil => exact fun stop member => absurd member List.not_mem_nil
  | cons edge rest ih =>
      unfold itinerary
      split
      · exact List.forall_mem_cons.mpr ⟨trivial, ih shown⟩
      · refine List.forall_mem_cons.mpr ⟨fun event member => ?_, ih (shown + 1)⟩
        rw [List.mem_singleton.mp member]
        rfl

theorem calm_rootStops (edges : List Edge) :
    forall stop, stop ∈ rootStops edges -> stop.Calm := by
  intro stop member
  rcases List.mem_map.mp member with ⟨edge, _, rfl⟩
  exact fun event noted => absurd noted List.not_mem_nil

/-- On a tour no warning is noted. -/
theorem Tour.notes_calm {scene : Scene} {stops : List Stop} {registry : Registry}
    {course : Course Unit} (tour : Tour scene stops registry course)
    (calm : forall stop, stop ∈ stops -> stop.Calm) :
    forall event, event ∈ notesIn course.actions -> event.isWarning = false := by
  have inner (portrait : Portrait) : forall stop, stop ∈ scene.stops portrait -> stop.Calm :=
    scene.graph.calm_itinerary _ _ _
  have quiet (identifier : Identifier) (satisfaction : Satisfaction) :
      (LogEvent.dispatching identifier satisfaction).isWarning = false := rfl
  induction tour with
  | done => exact List.forall_mem_nil _
  | row _ ih =>
      rw [Course.after, notesIn_append, notesIn_rowActions]
      exact List.forall_mem_cons.mpr ⟨rfl, ih (List.forall_mem_cons.mp calm).2⟩
  | known _ _ ih =>
      rcases List.forall_mem_cons.mp calm with ⟨first, others⟩
      rw [Course.after, notesIn_append, notesIn_append, notesIn_notes, notesIn_linkActions,
        List.append_nil]
      exact List.forall_mem_append.mpr ⟨first, ih others⟩
  | foreign _ _ =>
      rw [notesIn_notes]
      exact (List.forall_mem_cons.mp calm).1
  | bare _ _ _ =>
      rw [notesIn_append, notesIn_notes]
      exact List.forall_mem_append.mpr ⟨(List.forall_mem_cons.mp calm).1, List.forall_mem_nil _⟩
  | failed _ _ ih =>
      rw [notesIn_append, notesIn_append, notesIn_notes, notesIn_opening]
      exact List.forall_mem_append.mpr
        ⟨(List.forall_mem_cons.mp calm).1, List.forall_mem_cons.mpr ⟨quiet _ _, ih (inner _)⟩⟩
  | shown _ _ _ ihWithin ihLater =>
      rcases List.forall_mem_cons.mp calm with ⟨first, others⟩
      rw [Course.after, notesIn_append, notesIn_append, notesIn_append, notesIn_notes,
        notesIn_showing, notesIn_linkActions, List.append_nil]
      exact List.forall_mem_append.mpr
        ⟨List.forall_mem_append.mpr
          ⟨first, List.forall_mem_cons.mpr ⟨quiet _ _, ihWithin (inner _)⟩⟩, ihLater others⟩

/-! ## Dumps -/

namespace Session

variable {State : Type u} {session next : Session State}

theorem setRoot_start_ok {graph : Graph} {root : NodeId} {unshared : List NodeId}
    {sink : Sink State} {store : State} {identifier : Identifier}
    (rootSet : (start graph unshared sink store).setRoot root = (.ok identifier, next)) :
    exists taken, next = { start graph unshared sink store with
      registry := .rooted root, store := taken, nodesWritten := 1 } := by
  have reserved : (start graph unshared sink store).registry.reserveRoot root =
      .ok (.rooted root) := Registry.reserveRoot_empty root
  unfold setRoot at rootSet
  rw [reserved] at rootSet
  dsimp only at rootSet
  split at rootSet
  · split at rootSet
    · next shown offered =>
      cases rootSet
      rcases offer_ok offered with ⟨taken, _, rfl⟩
      exact ⟨taken, rfl⟩
    · cases rootSet
  · cases rootSet

theorem finish_ok {summary : Summary} (finished : session.finish = (.ok summary, next)) :
    next.log.toList = session.log.toList ++ [.finished summary.nodes summary.edges] ∧
      summary.unboundParameters = session.unboundParameters := by
  unfold finish at finished
  split at finished
  · dsimp only at finished
    split at finished
    · cases finished
    · cases finished
      exact ⟨Array.toList_push, rfl⟩
  · cases finished

end Session

namespace Graph

variable {State : Type u}

/-- What a dump that succeeds has logged and counted is known from a tour from the root, whatever
the sink is. -/
theorem dump_logged {graph : Graph} {root : NodeId} {unshared : List NodeId} {sink : Sink State}
    {store : State} {summary : Summary} {session : Session State}
    (dumped : graph.dump root unshared sink store = (.ok summary, session)) :
    exists course,
      Tour (graph.scene unshared) (rootStops (graph.dependencies root)) (.rooted root) course ∧
        course.result = .ok () ∧
        session.log.toList = .unsharedNodes (Session.inGraph graph unshared).length ::
          (eventsIn (.rooted root) course.actions ++ [.finished summary.nodes summary.edges]) ∧
        summary.unboundParameters = (unboundIn course.actions).length := by
  unfold dump at dumped
  split at dumped
  · cases dumped
  · next identifier first rootSet =>
    rcases Session.setRoot_start_ok rootSet with ⟨taken, begun⟩
    have registry : first.registry = .rooted root := by rw [begun]
    have rooted : first.registry.hasRoot = true := registry ▸ Registry.hasRoot_rooted root
    split at dumped
    · cases dumped
    · next second showing =>
      rcases Session.showAll_eq rooted (graph.dependencies root) with ⟨course, tour, carries⟩
      subst begun
      rw [showing, Session.carryOut] at carries
      split at carries
      · next reached performed =>
        rcases Prod.mk.inj carries with ⟨success, same⟩
        subst same
        rcases Session.finish_ok dumped with ⟨log, counted⟩
        have unbound := Session.performAll_unbound performed
        rw [Session.log_performAll performed, List.append_assoc] at log
        exact ⟨course, tour, success.symm, log, counted.trans (unbound.trans (Nat.zero_add _))⟩
      · cases carries

end Graph
end InjectionPlan
