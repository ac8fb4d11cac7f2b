import InjectionPlan.Proofs.Dumping

namespace InjectionPlan

/-!
# The script of a dump

What a dump hands over, and in which order, does not depend on the sink: first come nodes, then
edges, and the first descriptor that is refused is the last.  So a dump has a script, which comes to
light with a sink that keeps everything (`Graph.script`), and every sink is played this script
(`Graph.dump_eq_play`).  What is said of two dumps, with different sinks or of different graphs,
can therefore be said of two scripts.
-/

/-! ## Handing over several descriptors -/

/-- A node or an edge of a diagram. -/
inductive Diagram.Descriptor
  | node (node : Diagram.Node)
  | edge (edge : Diagram.Edge)
deriving DecidableEq

namespace Sink

variable {State : Type u}

/-- Hands over one descriptor. -/
def take (sink : Sink State) : Diagram.Descriptor -> State -> Except Refusal Unit × State
  | .node node => sink.takeNode node
  | .edge edge => sink.takeEdge edge

/-- Hands over descriptors until one is refused. -/
def takeAll (sink : Sink State) :
    List Diagram.Descriptor -> State -> Except Refusal Unit × State
  | [], store => (.ok (), store)
  | descriptor :: rest, store =>
    match sink.take descriptor store with
    | (.ok (), next) => sink.takeAll rest next
    | (.error refusal, next) => (.error refusal, next)

theorem takeAll_append (sink : Sink State) (first second : List Diagram.Descriptor)
    (store : State) :
    sink.takeAll (first ++ second) store =
      match sink.takeAll first store with
      | (.ok (), next) => sink.takeAll second next
      | (.error refusal, next) => (.error refusal, next) := by
  induction first generalizing store with
  | nil => rfl
  | cons descriptor rest ih =>
      rw [List.cons_append, takeAll, takeAll]
      split
      · next reached _ => exact ih reached
      · rfl

theorem Obliging.take {sink : Sink State} (obliging : sink.Obliging)
    (descriptor : Diagram.Descriptor) (store : State) :
    (sink.take descriptor store).1 = .ok () := by
  cases descriptor with
  | node node => exact obliging.takesNode node store
  | edge edge => exact obliging.takesEdge edge store

theorem Obliging.takeAll {sink : Sink State} (obliging : sink.Obliging)
    (descriptors : List Diagram.Descriptor) (store : State) :
    (sink.takeAll descriptors store).1 = .ok () := by
  induction descriptors generalizing store with
  | nil => rfl
  | cons descriptor rest ih =>
      have takes := obliging.take descriptor store
      rw [Sink.takeAll]
      split
      · next next _ => exact ih next
      · next refusal next refused =>
        rw [refused] at takes
        cases takes

theorem takeAll_collecting_nodes (nodes : List Diagram.Node) (collected : Collected) :
    collecting.takeAll (nodes.map .node) collected =
      (.ok (), { collected with nodes := collected.nodes ++ nodes.toArray }) := by
  induction nodes generalizing collected with
  | nil => simp [takeAll]
  | cons node rest ih =>
      rw [List.map_cons, takeAll]
      refine (ih _).trans ?_
      simp

theorem takeAll_collecting_edges (edges : List Diagram.Edge) (collected : Collected) :
    collecting.takeAll (edges.map .edge) collected =
      (.ok (), { collected with edges := collected.edges ++ edges.toArray }) := by
  induction edges generalizing collected with
  | nil => simp [takeAll]
  | cons edge rest ih =>
      rw [List.map_cons, takeAll]
      refine (ih _).trans ?_
      simp

end Sink

/-! ## Scripts -/

/-- What is handed over as long as nothing is refused, and what it comes to. -/
structure Script where
  nodes : List Diagram.Node
  edges : List Diagram.Edge
  result : Except DumpError Summary

namespace Script

variable {State : Type u}

/-- All that is handed over: the nodes, then the edges. -/
def descriptors (script : Script) : List Diagram.Descriptor :=
  script.nodes.map .node ++ script.edges.map .edge

/-- What a script comes to, given the answer to its descriptors. -/
def outcome (script : Script) : Except Refusal Unit -> Except DumpError Summary
  | .ok () => script.result
  | .error refusal => .error (.sink refusal)

/-- Plays a script to a sink. -/
def play (script : Script) (sink : Sink State) (store : State) :
    Except DumpError Summary × State :=
  let handed := sink.takeAll script.descriptors store
  (script.outcome handed.1, handed.2)

theorem play_collecting (script : Script) :
    script.play Sink.collecting .empty =
      (script.result, ⟨script.nodes.toArray, script.edges.toArray⟩) := by
  rw [play, descriptors, Sink.takeAll_append, Sink.takeAll_collecting_nodes]
  dsimp only
  rw [Sink.takeAll_collecting_edges]
  simp [Collected.empty, outcome]

end Script

/-- The script of a dump whose stops have a course. -/
def Course.script (course : Course Unit) : Script where
  nodes := Session.rootNode :: offeredIn course.actions
  edges :=
    match course.result with
    | .ok () => (queuedIn course.actions).map (Queue.retarget course.registry)
    | .error _ => []
  result := course.result.map fun _ =>
    ⟨(offeredIn course.actions).length + 1, (queuedIn course.actions).length,
      (unboundIn course.actions).length⟩

/-- The script of a dump, as a sink that keeps everything shows it. -/
def Graph.script (graph : Graph) (root : NodeId) (unshared : List NodeId) : Script :=
  let dumped := graph.dump root unshared Sink.collecting .empty
  ⟨dumped.2.store.nodes.toList, dumped.2.store.edges.toList, dumped.1⟩

/-! ## Sessions play scripts -/

namespace Session

variable {State : Type u}

/-- To carry out actions is to hand over what they offer. -/
theorem performAll_takes (session : Session State) (actions : List Action) :
    ((session.performAll actions).1, (session.performAll actions).2.store) =
      session.sink.takeAll ((offeredIn actions).map .node) session.store := by
  induction actions generalizing session with
  | nil => rfl
  | cons action rest ih =>
      cases action with
      | offer node =>
          change _ = session.sink.takeAll (.node node :: (offeredIn rest).map .node) session.store
          rw [performAll, perform, Sink.takeAll, Sink.take]
          cases taken : session.sink.takeNode node session.store with
          | mk answer store =>
              rw [offer, taken]
              cases answer with
              | ok _ => exact ih _
              | error refusal => rfl
      | identify node => exact ih _
      | record identifier target => exact ih _
      | enqueue edge => exact ih _
      | unbound qualifier => exact ih _
      | note event => exact ih _

theorem performAll_unbound {session next : Session State} {actions : List Action}
    (performed : session.performAll actions = (.ok (), next)) :
    next.unboundParameters = session.unboundParameters + (unboundIn actions).length := by
  induction actions generalizing session with
  | nil =>
      cases performed
      rfl
  | cons action rest ih =>
      unfold performAll at performed
      split at performed
      · next middle first =>
        have later := ih performed
        cases action with
        | offer node =>
            rcases offer_ok first with ⟨store, _, rfl⟩
            exact later
        | unbound qualifier =>
            cases first
            rw [later]
            exact (Nat.add_right_comm ..).trans (Nat.add_assoc ..)
        | identify node =>
            cases first
            exact later
        | record identifier target =>
            cases first
            exact later
        | enqueue edge =>
            cases first
            exact later
        | note event =>
            cases first
            exact later
      · cases performed

end Session

/-- To flush a queue is to hand over its edges, each with the target recorded for its own. -/
theorem Queue.flushFrom_takes {State : Type u} (registry : Registry) (sink : Sink State)
    (taken : Nat) (edges : List Diagram.Edge) (store : State) :
    let flushed := flushFrom registry sink taken edges store
    let handed := sink.takeAll ((edges.map (retarget registry)).map .edge) store
    flushed.store = handed.2 ∧ flushed.result = handed.1.map fun _ => taken + edges.length := by
  dsimp only
  induction edges generalizing taken store with
  | nil => exact ⟨rfl, rfl⟩
  | cons edge rest ih =>
      rw [flushFrom, List.map_cons, List.map_cons, Sink.takeAll, Sink.take]
      cases sink.takeEdge (retarget registry edge) store with
      | mk answer next =>
          cases answer with
          | ok _ =>
              rcases ih (taken + 1) next with ⟨stores, results⟩
              refine ⟨stores, results.trans ?_⟩
              rw [List.length_cons, Nat.add_right_comm, ← Nat.add_assoc]
          | error refusal => exact ⟨rfl, rfl⟩

/-- To finish a session is to play what waits. -/
theorem Session.finish_plays {State : Type u} (session : Session State)
    (rooted : session.registry.hasRoot = true) :
    (session.finish.1, session.finish.2.store) =
      Script.play
        { nodes := []
          edges := session.queue.edges.map (Queue.retarget session.registry)
          result := .ok
            ⟨session.nodesWritten, session.queue.edges.length, session.unboundParameters⟩ }
        session.sink session.store := by
  rcases Queue.flushFrom_takes session.registry session.sink 0 session.queue.edges session.store
    with ⟨stores, results⟩
  rw [finish, if_pos rooted, Script.play, Script.descriptors]
  simp only [List.map_nil, List.nil_append]
  rw [← Queue.flush] at stores results
  generalize session.queue.flush session.registry session.sink session.store = flush at *
  rcases flush with ⟨result, queue, store⟩
  dsimp only at stores results ⊢
  subst stores results
  cases session.sink.takeAll ((session.queue.edges.map (Queue.retarget session.registry)).map
      .edge) session.store with
  | mk answer next =>
      cases answer with
      | ok _ => simp [Except.map, logged, Script.outcome]
      | error refusal => rfl

theorem Session.registry_finish {State : Type u} (session : Session State) :
    session.finish.2.registry = session.registry := by
  unfold finish
  split
  · dsimp only
    split <;> rfl
  · rfl

/-! ## Dumps play scripts -/

namespace Graph

variable {State : Type u} {graph : Graph} {root : NodeId} {unshared : List NodeId}

/-- Setting the root hands over the node that shows it. -/
private theorem setRoot_takes (inside : graph.contains root = true) (sink : Sink State)
    (store : State) :
    (Session.start graph unshared sink store).setRoot root =
      match sink.takeNode Session.rootNode store with
      | (.ok (), next) =>
        (.ok .root, { Session.start graph unshared sink store with
          registry := .rooted root, store := next, nodesWritten := 1 })
      | (.error refusal, next) =>
        (.error (.sink refusal), { Session.start graph unshared sink store with
          registry := .rooted root, store := next }) := by
  unfold Session.setRoot
  apply (if_pos inside).trans
  simp only [Session.start, Registry.reserveRoot_empty, Session.offer]
  cases sink.takeNode Session.rootNode store with
  | mk answer next => cases answer <;> rfl

/-- A session from its root to its end. -/
def runSession (graph : Graph) (root : NodeId) (unshared : List NodeId)
    (middle : Session State -> Except DumpError Unit × Session State) (sink : Sink State)
    (store : State) : Except DumpError Summary × Session State :=
  match (Session.start graph unshared sink store).setRoot root with
  | (.error error, session) => (.error error, session)
  | (.ok _, session) =>
    match middle session with
    | (.error error, session) => (.error error, session)
    | (.ok (), session) => session.finish

/-- What comes of a session in which a tour was carried out behind the root. -/
structure Played (course : Course Unit) (sink : Sink State) (store : State)
    (ended : Except DumpError Summary × Session State) : Prop where
  script : (ended.1, ended.2.store) = course.script.play sink store
  registry : forall summary, ended.1 = .ok summary -> ended.2.registry = course.registry

/-- From the session in which the root has been shown on, the rest of the script is played. -/
private theorem carryOut_takes (begun : Session State) (registry : begun.registry = .rooted root)
    (queue : begun.queue = .empty) (written : begun.nodesWritten = 1)
    (counted : begun.unboundParameters = 0) {course : Course Unit}
    (reaches : course.registry = (Registry.rooted root).applyAll course.actions) :
    let ended : Except DumpError Summary × Session State :=
      match begun.carryOut course with
      | (.error error, session) => (.error error, session)
      | (.ok (), session) => session.finish
    (ended.1, ended.2.store) =
        { course.script with nodes := offeredIn course.actions }.play begun.sink begun.store ∧
      forall summary, ended.1 = .ok summary -> ended.2.registry = course.registry := by
  have takes := begun.performAll_takes course.actions
  dsimp only
  rw [Session.carryOut, Script.play, Script.descriptors, Sink.takeAll_append, ← takes]
  cases performed : begun.performAll course.actions with
  | mk answer reached =>
      cases answer with
      | error refusal =>
          refine ⟨rfl, fun summary ends => ?_⟩
          cases ends
      | ok _ =>
          have advanced := Session.performAll_ok performed
          have unbound := Session.performAll_unbound performed
          have reached_eq : reached.registry = course.registry := by
            rw [advanced.registry, registry, reaches]
          dsimp only [Course.script]
          cases result : course.result with
          | error error =>
              refine ⟨rfl, fun summary ends => ?_⟩
              cases ends
          | ok _ =>
              have rootKept : reached.registry.hasRoot = true := by
                rw [advanced.registry, registry]
                exact Registry.hasRoot_applyAll (Registry.hasRoot_rooted root) course.actions
              have flushes := reached.finish_plays rootKept
              rw [reached_eq, advanced.queue, queue, advanced.nodesWritten, written, unbound,
                counted, advanced.sink, Nat.add_comm 1, Nat.zero_add] at flushes
              exact ⟨flushes, fun _ _ => reached.registry_finish.trans reached_eq⟩

/-- To show the root, carry out a tour and finish is to play the script of the tour. -/
theorem played_of_tour (inside : graph.contains root = true) {stops : List Stop}
    {course : Course Unit} (tour : Tour (graph.scene unshared) stops (.rooted root) course)
    {middle : Session State -> Except DumpError Unit × Session State}
    (carries : forall begun : Session State, begun.scene = graph.scene unshared ->
      begun.registry = .rooted root -> middle begun = begun.carryOut course)
    (sink : Sink State) (store : State) :
    Played course sink store (graph.runSession root unshared middle sink store) := by
  have first : course.script.descriptors = .node Session.rootNode ::
      { course.script with nodes := offeredIn course.actions }.descriptors := rfl
  rw [runSession, setRoot_takes inside]
  cases taken : sink.takeNode Session.rootNode store with
  | mk answer shown =>
      cases answer with
      | error refusal =>
          refine ⟨?_, fun _ impossible => nomatch impossible⟩
          rw [Script.play, first, Sink.takeAll, Sink.take, taken]
          rfl
      | ok _ =>
          let begun : Session State := { Session.start graph unshared sink store with
            registry := .rooted root, store := shown, nodesWritten := 1 }
          have takes := carryOut_takes begun rfl rfl rfl rfl tour.registry_eq
          rw [← carries begun rfl rfl] at takes
          refine ⟨?_, takes.2⟩
          rw [Script.play, first, Sink.takeAll, Sink.take, taken]
          exact takes.1

theorem dump_eq_runSession (graph : Graph) (root : NodeId) (unshared : List NodeId)
    (sink : Sink State) (store : State) :
    graph.dump root unshared sink store =
      graph.runSession root unshared (·.showAll (graph.dependencies root)) sink store := rfl

theorem played_dump (inside : graph.contains root = true) {course : Course Unit}
    (tour : Tour (graph.scene unshared) (rootStops (graph.dependencies root)) (.rooted root) course)
    (sink : Sink State) (store : State) :
    Played course sink store (graph.dump root unshared sink store) := by
  rw [dump_eq_runSession]
  refine played_of_tour inside tour (fun begun scene registry => ?_) sink store
  have rooted : begun.registry.hasRoot = true := registry ▸ Registry.hasRoot_rooted root
  rcases Session.showAll_eq rooted (graph.dependencies root) with ⟨other, same, shows⟩
  rw [scene, registry] at same
  cases tour.unique same
  exact shows

theorem script_of_not_contains (outside : graph.contains root = false) (unshared : List NodeId) :
    graph.script root unshared = ⟨[], [], .error (.unknownNode root)⟩ := by
  rw [script, dump_of_not_contains outside]
  rfl

theorem script_of_tour (inside : graph.contains root = true) {course : Course Unit}
    (tour : Tour (graph.scene unshared) (rootStops (graph.dependencies root)) (.rooted root)
      course) : graph.script root unshared = course.script := by
  have plays := (played_dump inside tour Sink.collecting .empty).script
  rw [Script.play_collecting] at plays
  have results := congrArg Prod.fst plays
  have stores := congrArg Prod.snd plays
  dsimp only at results stores
  rw [script, results, stores]

/-- Whatever the sink, a dump plays its script. -/
theorem dump_eq_play (graph : Graph) (root : NodeId) (unshared : List NodeId) (sink : Sink State)
    (store : State) :
    let dumped := graph.dump root unshared sink store
    (dumped.1, dumped.2.store) = (graph.script root unshared).play sink store := by
  cases inside : graph.contains root with
  | false =>
      rw [script_of_not_contains inside, dump_of_not_contains inside]
      rfl
  | true =>
      rcases Tour.total (graph.scene unshared) (rootStops (graph.dependencies root))
        (.rooted root) with ⟨course, tour⟩
      rw [script_of_tour inside tour]
      exact (played_dump inside tour sink store).script

end Graph
end InjectionPlan
