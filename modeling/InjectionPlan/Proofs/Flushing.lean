import InjectionPlan.Proofs.Refusals

namespace InjectionPlan
namespace Queue

/-!
# Flushing a queue

To flush a queue is to hand over its edges, the oldest first, until the sink refuses one.  What the
sink takes before can be left out of the account: the flush then goes on with the edges behind
(`flushFrom_of_taken`).  So there are two ways in which a flush can end, with an empty queue or with
the edges behind the refused one.

Over any number of flushes, with edges enqueued in between, each edge is handed over at most once
and in its turn.  What has been handed over and what still waits are together the edges that were
enqueued (`Run.Accounted`), and one edge is lost for each flush that fails.
-/

variable {State : Type u}

/-! ## One flush -/

/-- Edges as they are handed over. -/
def written (registry : Registry) (edges : List Diagram.Edge) : List Diagram.Descriptor :=
  (edges.map (retarget registry)).map .edge

theorem takeAll_written_cons (registry : Registry) (sink : Sink State) (edge : Diagram.Edge)
    (rest : List Diagram.Edge) (store : State) :
    sink.takeAll (written registry (edge :: rest)) store =
      match sink.takeEdge (retarget registry edge) store with
      | (.ok (), next) => sink.takeAll (written registry rest) next
      | (.error refusal, next) => (.error refusal, next) := rfl

/-- A flush goes on behind the edges that are taken. -/
theorem flushFrom_of_taken {registry : Registry} {sink : Sink State} {edges : List Diagram.Edge}
    {store next : State} (taken : sink.takeAll (written registry edges) store = (.ok (), next))
    (count : Nat) (rest : List Diagram.Edge) :
    flushFrom registry sink count (edges ++ rest) store =
      flushFrom registry sink (count + edges.length) rest next := by
  induction edges generalizing count store with
  | nil =>
      cases taken
      rfl
  | cons edge others ih =>
      rw [takeAll_written_cons] at taken
      rw [List.cons_append, flushFrom]
      cases offered : sink.takeEdge (retarget registry edge) store with
      | mk answer after =>
          rw [offered] at taken
          cases answer with
          | ok _ =>
              have later := ih taken (count + 1)
              rw [List.length_cons, Nat.add_comm others.length, ← Nat.add_assoc]
              exact later
          | error refusal => cases taken

/-- All edges are taken, or there is a first one that is refused. -/
theorem takeAll_written_cases (registry : Registry) (sink : Sink State)
    (edges : List Diagram.Edge) (store : State) :
    (exists last, sink.takeAll (written registry edges) store = (.ok (), last)) ∨
      exists before edge after reached refusal last, edges = before ++ edge :: after ∧
        sink.takeAll (written registry before) store = (.ok (), reached) ∧
        sink.takeEdge (retarget registry edge) reached = (.error refusal, last) := by
  induction edges generalizing store with
  | nil => exact Or.inl ⟨store, rfl⟩
  | cons edge rest ih =>
      simp only [takeAll_written_cons]
      cases offered : sink.takeEdge (retarget registry edge) store with
      | mk answer next =>
          cases answer with
          | error refusal =>
              exact Or.inr ⟨[], edge, rest, store, refusal, next, rfl, rfl, offered⟩
          | ok _ =>
              rcases ih next with all | ⟨before, other, after, reached, refusal, last, rfl, taken,
                refused⟩
              · exact Or.inl all
              · refine Or.inr ⟨edge :: before, other, after, reached, refusal, last, rfl, ?_,
                  refused⟩
                rw [takeAll_written_cons, offered]
                exact taken

section

variable {queue : Queue} {registry : Registry} {sink : Sink State} {store last : State}

theorem flush_of_taken
    (taken : sink.takeAll (written registry queue.edges) store = (.ok (), last)) :
    queue.flush registry sink store = ⟨.ok queue.size, empty, last⟩ := by
  have behind := flushFrom_of_taken taken 0 []
  rw [List.append_nil, Nat.zero_add] at behind
  exact behind

theorem flush_of_refused {before after : List Diagram.Edge} {edge : Diagram.Edge}
    {refusal : Refusal} {reached : State} (split : queue.edges = before ++ edge :: after)
    (taken : sink.takeAll (written registry before) store = (.ok (), reached))
    (refused : sink.takeEdge (retarget registry edge) reached = (.error refusal, last)) :
    queue.flush registry sink store = ⟨.error refusal, ⟨after⟩, last⟩ := by
  rw [flush, split, flushFrom_of_taken taken, flushFrom, refused]

end

/-! ## Deliveries -/

/-- An edge that was handed over during a flush, the registry of that flush, and the answer. -/
structure Delivery where
  registry : Registry
  edge : Diagram.Edge
  answer : Except Refusal Unit

namespace Delivery

/-- What the sink is handed: the edge with the target that is recorded for its own. -/
def handover (delivery : Delivery) : Handover :=
  .edge (retarget delivery.registry delivery.edge) delivery.answer

def refusal? (delivery : Delivery) : Option Refusal :=
  match delivery.answer with
  | .ok () => none
  | .error refusal => some refusal

/-- Edges that were taken during a flush. -/
def accepted (registry : Registry) (edges : List Diagram.Edge) : List Delivery :=
  edges.map fun edge => ⟨registry, edge, .ok ()⟩

@[simp] theorem map_edge_accepted (registry : Registry) (edges : List Diagram.Edge) :
    (accepted registry edges).map edge = edges := by
  simp [accepted, Function.comp_def]

theorem map_handover_accepted (registry : Registry) (edges : List Diagram.Edge) :
    (accepted registry edges).map handover =
      (edges.map (retarget registry)).map (.edge · (.ok ())) := by
  rw [accepted, List.map_map, List.map_map]
  rfl

@[simp] theorem refusal?_accepted (registry : Registry) (edges : List Diagram.Edge) :
    (accepted registry edges).filterMap refusal? = [] := by
  simp [accepted, List.filterMap_map, Function.comp_def, refusal?]

end Delivery

theorem takeAll_written_handovers {registry : Registry} {sink : Sink State}
    {edges : List Diagram.Edge} {seen last : Watched State}
    (taken : sink.watched.takeAll (written registry edges) seen = (.ok (), last)) :
    last.handovers =
      seen.handovers ++ (Delivery.accepted registry edges).map Delivery.handover := by
  induction edges generalizing seen with
  | nil =>
      cases taken
      exact (List.append_nil _).symm
  | cons edge rest ih =>
      rw [takeAll_written_cons] at taken
      cases offered : sink.watched.takeEdge (retarget registry edge) seen with
      | mk answer next =>
          rw [offered] at taken
          cases answer with
          | ok _ =>
              rw [ih taken, Sink.takeEdge_watched offered, List.append_assoc]
              rfl
          | error refusal => cases taken

/-- What the sink is handed during a flush, and what then waits. -/
theorem flush_watched (queue : Queue) (registry : Registry) (sink : Sink State)
    (seen : Watched State) :
    let flush := queue.flush registry sink.watched seen
    flush.result = .ok queue.size ∧ flush.queue = empty ∧
        flush.store.handovers =
          seen.handovers ++ (Delivery.accepted registry queue.edges).map Delivery.handover ∨
      exists before edge after refusal, queue.edges = before ++ edge :: after ∧
        flush.result = .error refusal ∧ flush.queue = ⟨after⟩ ∧
        flush.store.handovers = seen.handovers ++
          (Delivery.accepted registry before ++ [Delivery.mk registry edge (.error refusal)]).map
            Delivery.handover := by
  dsimp only
  rcases takeAll_written_cases registry sink.watched queue.edges seen with
    ⟨last, taken⟩ | ⟨before, edge, after, reached, refusal, last, split, taken, refused⟩
  · rw [flush_of_taken taken]
    exact Or.inl ⟨rfl, rfl, takeAll_written_handovers taken⟩
  · rw [flush_of_refused split taken refused]
    refine Or.inr ⟨before, edge, after, refusal, split, rfl, rfl, ?_⟩
    dsimp only
    rw [Sink.takeEdge_watched refused, takeAll_written_handovers taken, List.map_append,
      List.append_assoc]
    rfl

/-! ## Several flushes -/

/-- Something that is done with a queue. -/
inductive Move
  | enqueue (edge : Diagram.Edge)
  | flush (registry : Registry)

namespace Move

def edge? : Move -> Option Diagram.Edge
  | .enqueue edge => some edge
  | .flush _ => none

end Move

/-- What comes of several moves: the result of each flush, what still waits, and the sink. -/
structure Run (State : Type u) where
  results : List (Except Refusal Nat)
  queue : Queue
  store : State

def run (sink : Sink State) : List Move -> Queue -> State -> Run State
  | [], queue, store => ⟨[], queue, store⟩
  | .enqueue edge :: rest, queue, store => run sink rest (queue.enqueue edge) store
  | .flush registry :: rest, queue, store =>
    let flushed := queue.flush registry sink store
    let later := run sink rest flushed.queue flushed.store
    { later with results := flushed.result :: later.results }

/-- The refusal with which a flush ends, if it fails. -/
def refusal? : Except Refusal Nat -> Option Refusal
  | .ok _ => none
  | .error refusal => some refusal

/-- Deliveries account for what happens to the edges that waited and to those that are enqueued. -/
structure Run.Accounted (run : Run (Watched State)) (queue : Queue) (moves : List Move)
    (seen : Watched State) (deliveries : List Delivery) : Prop where
  /-- The sink is handed the deliveries, and nothing else. -/
  handed : run.store.handovers = seen.handovers ++ deliveries.map Delivery.handover
  /-- All edges are delivered in turn, as far as they no longer wait. -/
  waiting : deliveries.map Delivery.edge ++ run.queue.edges =
    queue.edges ++ moves.filterMap Move.edge?
  flushed : forall delivery, delivery ∈ deliveries -> .flush delivery.registry ∈ moves
  /-- Each flush that fails has lost one edge. -/
  refused : deliveries.filterMap Delivery.refusal? = run.results.filterMap refusal?

/-- One flush accounts for the edges that waited. -/
theorem flush_accounted (queue : Queue) (registry : Registry) (sink : Sink State)
    (seen : Watched State) :
    let flush := queue.flush registry sink.watched seen
    exists deliveries : List Delivery,
      flush.store.handovers = seen.handovers ++ deliveries.map Delivery.handover ∧
      deliveries.map Delivery.edge ++ flush.queue.edges = queue.edges ∧
      (forall delivery, delivery ∈ deliveries -> delivery.registry = registry) ∧
      deliveries.filterMap Delivery.refusal? = [flush.result].filterMap refusal? := by
  have ofFlush (edges : List Diagram.Edge) (delivery : Delivery)
      (member : delivery ∈ Delivery.accepted registry edges) : delivery.registry = registry := by
    rcases List.mem_map.mp member with ⟨edge, _, rfl⟩
    rfl
  dsimp only
  rcases queue.flush_watched registry sink seen with
    ⟨result, rest, handovers⟩ | ⟨before, edge, after, refusal, split, result, rest, handovers⟩
  · refine ⟨_, handovers, ?_, ofFlush queue.edges, ?_⟩
    · rw [rest, Delivery.map_edge_accepted]
      exact List.append_nil _
    · rw [result, Delivery.refusal?_accepted]
      rfl
  · refine ⟨_, handovers, ?_, ?_, ?_⟩
    · rw [rest, split, List.map_append, Delivery.map_edge_accepted, List.append_assoc]
      rfl
    · intro delivery member
      rcases List.mem_append.mp member with taken | last
      · exact ofFlush before delivery taken
      · rw [List.mem_singleton.mp last]
    · rw [result, List.filterMap_append, Delivery.refusal?_accepted]
      rfl

theorem run_accounted (sink : Sink State) (moves : List Move) (queue : Queue)
    (seen : Watched State) :
    exists deliveries,
      (run sink.watched moves queue seen).Accounted queue moves seen deliveries := by
  induction moves generalizing queue seen with
  | nil => exact ⟨[], by simp [run], by simp [run], by simp, rfl⟩
  | cons move rest ih =>
      cases move with
      | enqueue edge =>
          rcases ih (queue.enqueue edge) seen with ⟨deliveries, handed, waiting, flushed, refused⟩
          refine ⟨deliveries, handed, waiting.trans ?_,
            fun delivery member => List.mem_cons_of_mem _ (flushed delivery member), refused⟩
          rw [enqueue, List.append_assoc]
          rfl
      | flush registry =>
          rcases queue.flush_accounted registry sink seen with
            ⟨now, handedNow, waitingNow, flushedNow, refusedNow⟩
          rcases ih (queue.flush registry sink.watched seen).queue
            (queue.flush registry sink.watched seen).store with
            ⟨later, handed, waiting, flushed, refused⟩
          refine ⟨now ++ later, ?_, ?_, ?_, ?_⟩
          · rw [List.map_append, ← List.append_assoc, ← handedNow]
            exact handed
          · rw [List.map_append, List.append_assoc]
            refine (congrArg (now.map Delivery.edge ++ ·) waiting).trans ?_
            rw [← List.append_assoc, waitingNow]
            rfl
          · intro delivery member
            rcases List.mem_append.mp member with first | other
            · rw [flushedNow delivery first]
              exact List.mem_cons_self
            · exact List.mem_cons_of_mem _ (flushed delivery other)
          · rw [List.filterMap_append, refusedNow, refused]
            exact (List.filterMap_append (l := [_])).symm

/-- Watching a sink changes nothing for the queue. -/
theorem run_alike (sink : Sink State) (moves : List Move) (queue : Queue) (store : State)
    (handovers : List Handover) :
    let unseen := run sink moves queue store
    exists later, run sink.watched moves queue ⟨store, handovers⟩ =
      ⟨unseen.results, unseen.queue, ⟨unseen.store, later⟩⟩ := by
  dsimp only
  induction moves generalizing queue store handovers with
  | nil => exact ⟨handovers, rfl⟩
  | cons move rest ih =>
      cases move with
      | enqueue edge => exact ih (queue.enqueue edge) store handovers
      | flush registry =>
          rcases Session.flushFrom_alike registry sink 0 queue.edges store handovers with
            ⟨after, same⟩
          have flushed : queue.flush registry sink.watched ⟨store, handovers⟩ = _ := same
          rcases ih (queue.flush registry sink store).queue (queue.flush registry sink store).store
            after with ⟨later, alike⟩
          refine ⟨later, ?_⟩
          rw [run, run, flushed]
          dsimp only
          rw [← flush, alike]

/-- A flush hands over the edges that wait in their order, each with its own source and attributes
and with the target that is recorded for its own, if there is one.  If the sink takes them all, the
queue is empty then; if not, those behind the first that was refused go on waiting.  However edges
are enqueued and the queue is flushed, all edges are handed over once and in turn, or still wait,
and a flush that fails loses one of them. -/
theorem flush_delivers (registry : Registry) (queue : Queue) (sink : Sink State) (store : State) :
    (forall edge, (retarget registry edge).source = edge.source ∧
      (retarget registry edge).attributes = edge.attributes ∧
      (retarget registry edge).target = (registry.target? edge.target).getD edge.target) ∧
    (forall last, sink.takeAll (written registry queue.edges) store = (.ok (), last) ->
      queue.flush registry sink store = ⟨.ok queue.size, empty, last⟩) ∧
    (forall before edge after reached refusal last, queue.edges = before ++ edge :: after ->
      sink.takeAll (written registry before) store = (.ok (), reached) ->
      sink.takeEdge (retarget registry edge) reached = (.error refusal, last) ->
      queue.flush registry sink store = ⟨.error refusal, ⟨after⟩, last⟩) ∧
    ((exists last, sink.takeAll (written registry queue.edges) store = (.ok (), last)) ∨
      exists before edge after reached refusal last, queue.edges = before ++ edge :: after ∧
        sink.takeAll (written registry before) store = (.ok (), reached) ∧
        sink.takeEdge (retarget registry edge) reached = (.error refusal, last)) ∧
    forall moves, let watched := run sink.watched moves queue (.start store)
      run sink moves queue store = ⟨watched.results, watched.queue, watched.store.store⟩ ∧
        exists deliveries, watched.Accounted queue moves (.start store) deliveries := by
  refine ⟨fun edge => ⟨rfl, rfl, rfl⟩, fun last => flush_of_taken,
    fun before edge after reached refusal last => flush_of_refused,
    takeAll_written_cases registry sink queue.edges store, fun moves => ⟨?_, ?_⟩⟩
  · rcases run_alike sink moves queue store [] with ⟨later, alike⟩
    have seen : run sink.watched moves queue (.start store) = _ := alike
    rw [seen]
  · exact run_accounted sink moves queue (.start store)

/-- Of three edges the first is taken, the second refused, and the third waits for another flush. -/
theorem limited_delivers :
    let edges : List Diagram.Edge := [.plain "N1:1" "N2", .plain "N1:2" "N3", .plain "N2:1" "N1"]
    let registry := Registry.empty.recordTarget "N2" "N2:H"
    let sink := Sink.limited none (some 1)
    let flush := Queue.flush ⟨edges⟩ registry sink .empty
    flush.result = .error ⟨"edge quota exhausted"⟩ ∧ flush.queue.edges = [.plain "N2:1" "N1"] ∧
      flush.store.edges = #[.plain "N1:1" "N2:H"] ∧
      exists deliveries, (run sink.watched [.flush registry, .flush registry] ⟨edges⟩
        (.start .empty)).Accounted ⟨edges⟩ [.flush registry, .flush registry] (.start .empty)
          deliveries := by
  intro edges registry sink flush
  rcases flush_delivers registry ⟨edges⟩ sink .empty with ⟨_, _, refused, _, runs⟩
  have stopped := refused [.plain "N1:1" "N2"] (.plain "N1:2" "N3") [.plain "N2:1" "N1"] _ _ _
    rfl rfl rfl
  have ended : flush = _ := stopped
  exact ⟨congrArg Flush.result ended, congrArg (fun flush => flush.queue.edges) ended,
    congrArg (fun flush => flush.store.edges) ended, (runs [.flush registry, .flush registry]).2⟩

end Queue
end InjectionPlan
