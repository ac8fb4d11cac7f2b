import InjectionPlan.Proofs.Calls
import InjectionPlan.Proofs.Flushing

namespace InjectionPlan

/-!
# What a session hands over in all

The counters of a session and its queue are kept at different places, and showing a node may be put
to an end between any two of them.  Still a node is counted just when the sink takes it
(`Session.Tallied`), and what waits in the queue are the edges queued by all calls so far, those of
the walks and those of the caller, in this order (`Session.queue_callAll`).  So the summary of a
finished session tells how many nodes and edges the sink has taken (`Session.finish_tallies`).
-/

namespace Session

variable {State : Type u}

/-! ## What waits -/

/-- The edges that a call queues: those that are found by showing a node, or the caller's own. -/
def enqueuedBy (session : Session State) : Call -> List Diagram.Edge
  | .setRoot _ => []
  | .process node => queuedIn (session.deeds node)
  | .enqueue edge => [edge]

/-- The edges that several calls queue, the oldest first. -/
def enqueued : (session : Session State) -> List Call -> List Diagram.Edge
  | _, [] => []
  | session, call :: rest => session.enqueuedBy call ++ (session.call call).enqueued rest

theorem queue_offer (session : Session State) (node : Diagram.Node) :
    (session.offer node).2.queue = session.queue := by
  unfold offer
  split <;> rfl

theorem queue_setRoot (session : Session State) (root : NodeId) :
    (session.setRoot root).2.queue = session.queue := by
  unfold setRoot
  split
  · split
    · rfl
    · next registry _ =>
      have kept := queue_offer { session with registry := registry } rootNode
      split
      · next offered =>
        rw [offered] at kept
        exact kept
      · next offered =>
        rw [offered] at kept
        exact kept
  · rfl

theorem queue_call (session : Session State) (call : Call) :
    (session.call call).queue.edges = session.queue.edges ++ session.enqueuedBy call := by
  cases call with
  | setRoot root =>
      rw [Session.call, queue_setRoot]
      exact (List.append_nil _).symm
  | process node => exact (session.advanced_process node).queue
  | enqueue edge => rfl

/-- In the queue wait the edges queued by all calls, whatever came of these. -/
theorem queue_callAll (session : Session State) (calls : List Call) :
    (session.callAll calls).queue.edges = session.queue.edges ++ session.enqueued calls := by
  induction calls generalizing session with
  | nil => exact (List.append_nil _).symm
  | cons call rest ih =>
      rw [enqueued, ← List.append_assoc, ← queue_call]
      exact ih (session.call call)

/-! ## What has been taken -/

/-- The nodes that the sink has taken have been counted, and it has not been handed an edge. -/
structure Tallied (session : Session (Watched State)) : Prop where
  counted : session.nodesWritten = session.store.nodes.length
  edgeless : forall edge answer, .edge edge answer ∉ session.store.handovers

variable {sink : Sink State} {session : Session (Watched State)}

namespace Tallied

theorem start (graph : Graph) (unshared : List NodeId) (sink : Sink State) (store : State) :
    (start graph unshared sink.watched (.start store)).Tallied where
  counted := rfl
  edgeless _ _ member := absurd member List.not_mem_nil

theorem offer (tallied : session.Tallied) (isWatched : session.sink = sink.watched)
    (node : Diagram.Node) : (session.offer node).2.Tallied := by
  cases offered : session.offer node with
  | mk answer next =>
      have handovers := offer_handovers isWatched offered
      have edgeless : forall edge reply, .edge edge reply ∉ next.store.handovers := by
        intro edge reply member
        rw [handovers] at member
        rcases List.mem_append.mp member with before | last
        · exact tallied.edgeless edge reply before
        · cases List.mem_singleton.mp last
      cases answer with
      | ok _ =>
          rcases offer_ok offered with ⟨store, _, rfl⟩
          have taken : Handed session _ [node] := handovers
          refine ⟨?_, edgeless⟩
          rw [taken.nodes, List.length_append, ← tallied.counted]
          rfl
      | error refusal =>
          have nodes := nodes_of_refused isWatched offered
          rcases offer_error offered with ⟨store, _, rfl⟩
          refine ⟨?_, edgeless⟩
          rw [nodes]
          exact tallied.counted

theorem perform (tallied : session.Tallied) (isWatched : session.sink = sink.watched)
    (action : Action) : (session.perform action).2.Tallied := by
  cases action with
  | offer node => exact tallied.offer isWatched node
  | enqueue edge => exact ⟨tallied.counted, tallied.edgeless⟩
  | identify node => exact ⟨tallied.counted, tallied.edgeless⟩
  | record identifier target => exact ⟨tallied.counted, tallied.edgeless⟩
  | unbound qualifier => exact ⟨tallied.counted, tallied.edgeless⟩
  | note event => exact ⟨tallied.counted, tallied.edgeless⟩

theorem performAll (tallied : session.Tallied) (isWatched : session.sink = sink.watched)
    (actions : List Action) : (session.performAll actions).2.Tallied := by
  induction actions generalizing session with
  | nil => exact tallied
  | cons action rest ih =>
      have first := tallied.perform isWatched action
      unfold Session.performAll
      cases performed : session.perform action with
      | mk answer next =>
          rw [performed] at first
          cases answer with
          | ok _ => exact ih first ((perform_ok performed).sink.trans isWatched)
          | error refusal => exact first

theorem call (tallied : session.Tallied) (isWatched : session.sink = sink.watched)
    (call : Call) : (session.call call).Tallied := by
  cases call with
  | setRoot root =>
      unfold Session.call setRoot
      dsimp only
      split
      · split
        · exact tallied
        · next registry _ =>
          have reserved : Tallied { session with registry := registry } :=
            ⟨tallied.counted, tallied.edgeless⟩
          have shown := reserved.offer isWatched rootNode
          split
          · next offered =>
            rw [offered] at shown
            exact shown
          · next offered =>
            rw [offered] at shown
            exact shown
      · exact tallied
  | process node =>
      unfold Session.call process
      dsimp only
      split
      · rw [carryOut_snd]
        exact tallied.performAll isWatched _
      · exact tallied
  | enqueue edge => exact ⟨tallied.counted, tallied.edgeless⟩

theorem callAll (tallied : session.Tallied) (orderly : session.Orderly sink)
    (calls : List Call) : (session.callAll calls).Tallied := by
  induction calls generalizing session with
  | nil => exact tallied
  | cons call rest ih => exact ih (tallied.call orderly.isWatched call) (orderly.call call)

end Tallied

end Session

/-! ## Handing over what waits -/

namespace Session

variable {State : Type u} {sink : Sink State} {session : Session (Watched State)}

/-- To finish a session is to hand over what waits, each edge with its final target. -/
theorem finish_watched (isWatched : session.sink = sink.watched)
    (rooted : session.registry.hasRoot = true) :
    let written := session.queue.edges.map (Queue.retarget session.registry)
    session.finish.1 =
        .ok ⟨session.nodesWritten, session.queue.edges.length, session.unboundParameters⟩ ∧
        session.finish.2.store.handovers =
          session.store.handovers ++ written.map (.edge · (.ok ())) ∨
      exists taken refused rest refusal, written = taken ++ refused :: rest ∧
        session.finish.1 = .error (.sink refusal) ∧
        session.finish.2.store.handovers =
          session.store.handovers ++ taken.map (.edge · (.ok ())) ++
            [.edge refused (.error refusal)] := by
  have handed := session.queue.flush_watched session.registry sink session.store
  rw [← isWatched] at handed
  rw [finish, if_pos rooted]
  generalize session.queue.flush session.registry session.sink session.store = flush at handed
  rcases flush with ⟨result, queue, store⟩
  rcases handed with ⟨success, _, handovers⟩ |
    ⟨before, edge, after, refusal, split, failure, _, handovers⟩
  · rw [Queue.Delivery.map_handover_accepted] at handovers
    cases success
    exact Or.inl ⟨rfl, handovers⟩
  · rw [List.map_append, Queue.Delivery.map_handover_accepted, ← List.append_assoc] at handovers
    cases failure
    refine Or.inr ⟨before.map (Queue.retarget session.registry), _,
      after.map (Queue.retarget session.registry), refusal, ?_, rfl, handovers⟩
    rw [split, List.map_append]
    rfl

namespace Tallied

/-- Edges are taken only at the end. -/
theorem edges_eq (tallied : session.Tallied) {watched : Watched State}
    {taken : List Diagram.Edge} {last : List Handover}
    (handovers : watched.handovers =
      session.store.handovers ++ taken.map (.edge · (.ok ())) ++ last)
    (refused : last.filterMap Handover.takenEdge? = []) : watched.edges = taken := by
  have before : session.store.handovers.filterMap Handover.takenEdge? = [] := by
    apply List.filterMap_eq_nil_iff.mpr
    intro handover member
    cases handover with
    | node node answer => rfl
    | edge edge answer => exact absurd member (tallied.edgeless edge answer)
  rw [Watched.edges, handovers, List.filterMap_append, List.filterMap_append, before, refused,
    List.filterMap_map, List.nil_append, List.append_nil]
  exact List.filterMap_some

/-- No node is handed over at the end. -/
theorem nodes_eq {watched : Watched State} {taken : List Diagram.Edge}
    (handovers : watched.handovers = session.store.handovers ++ taken.map (.edge · (.ok ()))) :
    watched.nodes = session.store.nodes := by
  rw [Watched.nodes, handovers, List.filterMap_append, List.filterMap_map]
  simp [Function.comp_def, Handover.takenNode?, Watched.nodes]

end Tallied

/-- Where a refused edge can be found among what has been handed over. -/
theorem Tallied.eq_of_refused (tallied : session.Tallied) {taken : List Diagram.Edge}
    {last : List Handover} {refused : Diagram.Edge} {refusal : Refusal}
    (member : .edge refused (.error refusal) ∈
      session.store.handovers ++ taken.map (.edge · (.ok ())) ++ last) :
    .edge refused (.error refusal) ∈ last := by
  rcases List.mem_append.mp member with sooner | atEnd
  · rcases List.mem_append.mp sooner with before | accepted
    · exact absurd before (tallied.edgeless refused (.error refusal))
    · rcases List.mem_map.mp accepted with ⟨edge, _, same⟩
      cases same
  · exact atEnd

namespace Tallied

/-- The ends to which a session can come. -/
theorem finish_cases (tallied : session.Tallied) (isWatched : session.sink = sink.watched) :
    let written := session.queue.edges.map (Queue.retarget session.registry)
    let finished := session.finish.2
    session.registry.hasRoot = false ∧ session.finish = (.error .rootNotSet, session) ∨
      session.finish.1 = .ok ⟨finished.store.nodes.length, session.queue.edges.length,
          session.unboundParameters⟩ ∧
        finished.store.edges = written ∧
        finished.store.handovers = session.store.handovers ++ written.map (.edge · (.ok ())) ∨
      exists taken refused rest refusal, written = taken ++ refused :: rest ∧
        session.finish.1 = .error (.sink refusal) ∧ finished.store.edges = taken ∧
        finished.store.handovers =
          session.store.handovers ++ taken.map (.edge · (.ok ())) ++
            [.edge refused (.error refusal)] := by
  intro written finished
  cases rooted : session.registry.hasRoot with
  | false =>
      refine Or.inl ⟨rfl, ?_⟩
      rw [finish, if_neg (ne_true_of_eq_false rooted)]
  | true =>
      rcases finish_watched isWatched rooted with
        ⟨success, handovers⟩ | ⟨taken, refused, rest, refusal, split, failure, handovers⟩
      · have all : finished.store.handovers =
            session.store.handovers ++ written.map (.edge · (.ok ())) ++ [] := by
          rw [List.append_nil]
          exact handovers
        have counted : session.nodesWritten = finished.store.nodes.length := by
          rw [Tallied.nodes_eq handovers]
          exact tallied.counted
        rw [counted] at success
        exact Or.inr (Or.inl ⟨success, tallied.edges_eq all rfl, handovers⟩)
      · exact Or.inr (Or.inr ⟨taken, refused, rest, refusal, split, failure,
          tallied.edges_eq handovers rfl, handovers⟩)

/-- If a session finishes, the sink has taken all edges. -/
theorem finish_ok (tallied : session.Tallied) (isWatched : session.sink = sink.watched)
    {summary : Summary} (success : session.finish.1 = .ok summary) :
    let written := session.queue.edges.map (Queue.retarget session.registry)
    let finished := session.finish.2
    summary.nodes = finished.store.nodes.length ∧
      summary.edges = session.queue.edges.length ∧ finished.store.edges = written ∧
      finished.store.handovers = session.store.handovers ++ written.map (.edge · (.ok ())) := by
  intro written finished
  rcases tallied.finish_cases isWatched with
    ⟨_, unfinished⟩ | ⟨finishes, edges, received⟩ | ⟨_, _, _, _, _, failure, _⟩
  · rw [unfinished] at success
    cases success
  · cases finishes.symm.trans success
    exact ⟨rfl, rfl, edges, received⟩
  · cases failure.symm.trans success

/-- If an edge has been refused, the sink has taken just the edges before it. -/
theorem finish_of_refused (tallied : session.Tallied) (isWatched : session.sink = sink.watched)
    {refused : Diagram.Edge} {refusal : Refusal}
    (member : .edge refused (.error refusal) ∈ session.finish.2.store.handovers) :
    session.finish.1 = .error (.sink refusal) ∧
      exists taken rest,
        session.queue.edges.map (Queue.retarget session.registry) = taken ++ refused :: rest ∧
          session.finish.2.store.edges = taken ∧
          session.finish.2.store.handovers =
            session.store.handovers ++ taken.map (.edge · (.ok ())) ++
              [.edge refused (.error refusal)] := by
  rcases tallied.finish_cases isWatched with
    ⟨_, unfinished⟩ | ⟨_, _, received⟩ | ⟨taken, other, rest, reason, split, failure, edges,
      received⟩
  · rw [unfinished] at member
    exact absurd member (tallied.edgeless refused (.error refusal))
  · rw [received, ← List.append_nil (session.store.handovers ++ _)] at member
    cases tallied.eq_of_refused member
  · have same := received ▸ member
    cases List.mem_singleton.mp (tallied.eq_of_refused same)
    exact ⟨failure, taken, rest, split, edges, received⟩

/-- There is no other way to fail but that there is no root or that an edge has been refused. -/
theorem finish_error (tallied : session.Tallied) (isWatched : session.sink = sink.watched)
    {error : DumpError} (fails : session.finish.1 = .error error) :
    error = .rootNotSet ∧ session.registry.hasRoot = false ∧ session.finish.2 = session ∨
      exists refused refusal, error = .sink refusal ∧
        .edge refused (.error refusal) ∈ session.finish.2.store.handovers := by
  rcases tallied.finish_cases isWatched with
    ⟨rootless, unfinished⟩ | ⟨finishes, _⟩ | ⟨_, refused, _, refusal, _, failure, _, received⟩
  · rw [unfinished] at fails ⊢
    cases fails
    exact Or.inl ⟨rfl, rootless, rfl⟩
  · cases finishes.symm.trans fails
  · cases failure.symm.trans fails
    refine Or.inr ⟨refused, refusal, rfl, ?_⟩
    rw [received]
    exact List.mem_append_right _ (List.mem_singleton_self _)

end Tallied

/-- What a session hands over in all, after any calls.  If it finishes, its summary counts the nodes
that the sink has taken and the edges that have been queued by the walks and the caller together,
and the sink has taken just these edges, in this order, each with its final target.  If the sink
refuses an edge, the session fails with the refusal, and just the edges before have been taken.
There is no other way for it to fail but that there is no root. -/
theorem finish_tallies (graph : Graph) (unshared : List NodeId) (sink : Sink State)
    (store : State) (calls : List Call) :
    let first := start graph unshared sink.watched (.start store)
    let session := first.callAll calls
    let finished := session.finish.2
    let written := (first.enqueued calls).map fun edge =>
      { edge with target := (session.registry.target? edge.target).getD edge.target }
    (forall summary, session.finish.1 = .ok summary ->
      summary.nodes = finished.store.nodes.length ∧
        summary.edges = (first.enqueued calls).length ∧ finished.store.edges = written ∧
        finished.store.handovers =
          session.store.handovers ++ written.map (.edge · (.ok ()))) ∧
    (forall refused refusal, .edge refused (.error refusal) ∈ finished.store.handovers ->
      session.finish.1 = .error (.sink refusal) ∧
        exists taken rest, written = taken ++ refused :: rest ∧ finished.store.edges = taken ∧
          finished.store.handovers =
            session.store.handovers ++ taken.map (.edge · (.ok ())) ++
              [.edge refused (.error refusal)]) ∧
    (forall error, session.finish.1 = .error error ->
      error = .rootNotSet ∧ session.registry.hasRoot = false ∧ finished = session ∨
        exists refused refusal, error = .sink refusal ∧
          .edge refused (.error refusal) ∈ finished.store.handovers) ∧
    session.store.edges = [] := by
  intro first session finished written
  have firstOrderly := orderly_start graph unshared sink store
  have isWatched : session.sink = sink.watched := (firstOrderly.callAll calls).isWatched
  have tallied : session.Tallied :=
    (Tallied.start graph unshared sink store).callAll firstOrderly calls
  have waiting : session.queue.edges = first.enqueued calls := first.queue_callAll calls
  refine ⟨?_, ?_, ?_, ?_⟩
  · intro summary success
    have taken := tallied.finish_ok isWatched success
    rw [waiting] at taken
    exact taken
  · intro refused refusal member
    have before := tallied.finish_of_refused isWatched member
    rw [waiting] at before
    exact before
  · intro error fails
    exact tallied.finish_error isWatched fails
  · apply tallied.edges_eq
    · rw [List.map_nil, List.append_nil, List.append_nil]
    · rfl

/-- In the ring a call fails before there is a root, and another one at a node that is refused.  The
edges found by then are counted with the caller's, but if only two edges can be taken the third one
ends the session. -/
theorem ring_tallies :
    let calls : List Call := [.process 1, .setRoot 0, .process 1, .enqueue (rootEdge "N1")]
    let session (edgeLimit : Option Nat) :=
      (start Graph.ring [] (Sink.limited (some 3) edgeLimit).watched (.start .empty)).callAll calls
    ((session none).finish.1 = .ok ⟨3, 5, 0⟩ ∧
        3 = (session none).finish.2.store.nodes.length ∧
        (session none).finish.2.store.edges.map (·.target) =
          ["N1", "N2:H", "N2:H", "root", "N1"]) ∧
      (session (some 2)).finish.1 = .error (.sink ⟨"edge quota exhausted"⟩) ∧
      (session (some 2)).finish.2.store.edges.map (·.target) = ["N1", "N2:H"] := by
  intro calls session
  have success : (session none).finish.1 = .ok ⟨3, 5, 0⟩ := rfl
  have refused : (session (some 2)).finish.2.store.handovers[6]? =
      some (.edge ⟨"N1P:1", "N2:H", _⟩ (.error ⟨"edge quota exhausted"⟩)) := rfl
  have tallies := finish_tallies Graph.ring [] (Sink.limited (some 3) none) .empty calls
  have fails := finish_tallies Graph.ring [] (Sink.limited (some 3) (some 2)) .empty calls
  rcases tallies.1 _ success with ⟨nodes, _, edges, _⟩
  rcases fails.2.1 _ _ (List.mem_of_getElem? refused) with ⟨failure, _⟩
  refine ⟨⟨success, nodes, ?_⟩, failure, rfl⟩
  have targets := congrArg (List.map Diagram.Edge.target) edges
  exact targets

end Session
end InjectionPlan
