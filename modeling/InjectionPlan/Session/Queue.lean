import InjectionPlan.Session.Registry

namespace InjectionPlan

/-!
# Edges that wait

An edge may be known before its target is settled, so edges wait in a queue and are handed over
at the end, in the order in which they were found, each with the target that is recorded for its
own.  If the sink refuses an edge, that edge is lost and those behind it go on waiting.
-/

/-- Edges in the order in which they were found. -/
structure Queue where
  edges : List Diagram.Edge
deriving DecidableEq, Inhabited

namespace Queue

def empty : Queue := ⟨[]⟩

def size (queue : Queue) : Nat :=
  queue.edges.length

def enqueue (queue : Queue) (edge : Diagram.Edge) : Queue :=
  ⟨queue.edges ++ [edge]⟩

/-- An edge with the target that is recorded for its own. -/
def retarget (registry : Registry) (edge : Diagram.Edge) : Diagram.Edge :=
  { edge with target := registry.resolve edge.target }

/-- What came of handing over edges: the number taken or the refusal, what still waits, and the
sink. -/
structure Flush (State : Type u) where
  result : Except Refusal Nat
  queue : Queue
  store : State

/-- Hands over edges after a number of others has been taken. -/
def flushFrom (registry : Registry) (sink : Sink State) :
    (taken : Nat) -> List Diagram.Edge -> State -> Flush State
  | taken, [], store => ⟨.ok taken, empty, store⟩
  | taken, edge :: rest, store =>
    match sink.takeEdge (retarget registry edge) store with
    | (.ok (), next) => flushFrom registry sink (taken + 1) rest next
    | (.error refusal, next) => ⟨.error refusal, ⟨rest⟩, next⟩

/-- Hands over the edges that wait, the oldest first. -/
def flush (queue : Queue) (registry : Registry) (sink : Sink State) (store : State) :
    Flush State :=
  flushFrom registry sink 0 queue.edges store

end Queue
end InjectionPlan
