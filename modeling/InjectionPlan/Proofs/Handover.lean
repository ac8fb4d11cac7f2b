import InjectionPlan.Sink

namespace InjectionPlan

/-!
# Sinks that are watched

To say what a sink has been handed, and what it has taken, any sink is put under watch: beside
the sink's own state a watched sink keeps all descriptors that were handed to it, each with the
answer.  The answers are those of the sink, so watching changes nothing for the one that hands
over.
-/

/-- A descriptor that was handed to a sink, and the answer. -/
inductive Handover
  | node (node : Diagram.Node) (answer : Except Refusal Unit)
  | edge (edge : Diagram.Edge) (answer : Except Refusal Unit)

namespace Handover

/-- The node, if it was taken. -/
def takenNode? : Handover -> Option Diagram.Node
  | .node shown (.ok ()) => some shown
  | _ => none

/-- The edge, if it was taken. -/
def takenEdge? : Handover -> Option Diagram.Edge
  | .edge shown (.ok ()) => some shown
  | _ => none

end Handover

/-- The state of a sink with all that it has been handed, the oldest first. -/
structure Watched (State : Type u) where
  store : State
  handovers : List Handover

namespace Watched

variable {State : Type u}

/-- A sink that has not been handed anything. -/
def start (store : State) : Watched State := ⟨store, []⟩

/-- The nodes taken, the oldest first. -/
def nodes (watched : Watched State) : List Diagram.Node :=
  watched.handovers.filterMap Handover.takenNode?

/-- The edges taken, the oldest first. -/
def edges (watched : Watched State) : List Diagram.Edge :=
  watched.handovers.filterMap Handover.takenEdge?

end Watched

namespace Sink

variable {State : Type u}

/-- Watches a sink. -/
def watched (sink : Sink State) : Sink (Watched State) where
  takeNode node seen :=
    let (answer, store) := sink.takeNode node seen.store
    (answer, ⟨store, seen.handovers ++ [.node node answer]⟩)
  takeEdge edge seen :=
    let (answer, store) := sink.takeEdge edge seen.store
    (answer, ⟨store, seen.handovers ++ [.edge edge answer]⟩)

/-- A sink that refuses nothing. -/
structure Obliging (sink : Sink State) : Prop where
  takesNode : forall node store, (sink.takeNode node store).1 = .ok ()
  takesEdge : forall edge store, (sink.takeEdge edge store).1 = .ok ()

theorem obliging_collecting : collecting.Obliging where
  takesNode _ _ := rfl
  takesEdge _ _ := rfl

theorem Obliging.watched {sink : Sink State} (obliging : sink.Obliging) :
    sink.watched.Obliging where
  takesNode node seen := obliging.takesNode node seen.store
  takesEdge edge seen := obliging.takesEdge edge seen.store

theorem takeNode_watched {sink : Sink State} {node : Diagram.Node} {seen next : Watched State}
    {answer : Except Refusal Unit} (taken : sink.watched.takeNode node seen = (answer, next)) :
    next.handovers = seen.handovers ++ [.node node answer] := by
  cases taken
  rfl

theorem takeEdge_watched {sink : Sink State} {edge : Diagram.Edge} {seen next : Watched State}
    {answer : Except Refusal Unit} (taken : sink.watched.takeEdge edge seen = (answer, next)) :
    next.handovers = seen.handovers ++ [.edge edge answer] := by
  cases taken
  rfl

end Sink
end InjectionPlan
