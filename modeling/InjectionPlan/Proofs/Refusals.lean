import InjectionPlan.Proofs.Coverage
import InjectionPlan.Proofs.Script
import InjectionPlan.Proofs.Watching

namespace InjectionPlan

/-!
# Sinks that refuse

A sink may refuse any descriptor, for reasons that depend on all that it has seen.  The first
refusal ends a dump and is its result.  Up to then the sink has been handed what a sink that
refuses nothing is handed, and if there is no refusal both dumps come to the same
(`Graph.dump_until_refused`).
-/

namespace Handover

/-- What was handed over. -/
def descriptor : Handover -> Diagram.Descriptor
  | .node shown _ => .node shown
  | .edge shown _ => .edge shown

def answer : Handover -> Except Refusal Unit
  | .node _ answer => answer
  | .edge _ answer => answer

end Handover

/-- The record of a descriptor with the answer to it. -/
def Diagram.Descriptor.answered (answer : Except Refusal Unit) : Diagram.Descriptor -> Handover
  | .node shown => .node shown answer
  | .edge shown => .edge shown answer

@[simp] theorem Handover.descriptor_answered (answer : Except Refusal Unit)
    (descriptor : Diagram.Descriptor) : (descriptor.answered answer).descriptor = descriptor := by
  cases descriptor <;> rfl

@[simp] theorem Handover.answer_answered (answer : Except Refusal Unit)
    (descriptor : Diagram.Descriptor) : (descriptor.answered answer).answer = answer := by
  cases descriptor <;> rfl

section

variable {State : Type u}

/-- All descriptors that have been handed over, whatever the answers. -/
def Watched.descriptors (watched : Watched State) : List Diagram.Descriptor :=
  watched.handovers.map Handover.descriptor

/-- A list of descriptors has been handed over as far as it was taken: all of it, or all up to the
one that was refused. -/
def Watched.Received (watched : Watched State) (descriptors : List Diagram.Descriptor) :
    Except Refusal Unit -> Prop
  | .ok () => watched.handovers = descriptors.map (·.answered (.ok ()))
  | .error refusal => exists before refused after, descriptors = before ++ refused :: after ∧
      watched.handovers =
        before.map (·.answered (.ok ())) ++ [refused.answered (.error refusal)]

namespace Sink

theorem take_watched (sink : Sink State) (descriptor : Diagram.Descriptor)
    (seen : Watched State) :
    (sink.watched.take descriptor seen).2.handovers =
      seen.handovers ++ [descriptor.answered (sink.watched.take descriptor seen).1] := by
  cases descriptor <;> rfl

theorem takeAll_watched (sink : Sink State) (descriptors : List Diagram.Descriptor)
    {seen : Watched State} {earlier : List Diagram.Descriptor}
    (received : seen.handovers = earlier.map (·.answered (.ok ()))) :
    (sink.watched.takeAll descriptors seen).2.Received (earlier ++ descriptors)
      (sink.watched.takeAll descriptors seen).1 := by
  induction descriptors generalizing seen earlier with
  | nil =>
      rw [List.append_nil]
      exact received
  | cons descriptor rest ih =>
      have recorded := sink.take_watched descriptor seen
      rw [takeAll]
      cases taken : sink.watched.take descriptor seen with
      | mk answer next =>
          rw [taken] at recorded
          cases answer with
          | ok _ =>
              have receivedNow : next.handovers =
                  (earlier ++ [descriptor]).map (·.answered (.ok ())) := by
                rw [recorded, received, List.map_append, List.map_singleton]
              have later := ih receivedNow
              rwa [List.append_assoc] at later
          | error refusal =>
              exact ⟨earlier, descriptor, rest, rfl, by rw [recorded, received]⟩

end Sink

namespace Watched

variable {watched : Watched State} {descriptors : List Diagram.Descriptor}

theorem Received.descriptors_of_ok (received : watched.Received descriptors (.ok ())) :
    watched.descriptors = descriptors ∧
      forall handover, handover ∈ watched.handovers -> handover.answer = .ok () := by
  have handovers : watched.handovers = descriptors.map (·.answered (.ok ())) := received
  rw [Watched.descriptors, handovers]
  refine ⟨by simp [Function.comp_def], fun handover member => ?_⟩
  rcases List.mem_map.mp member with ⟨descriptor, _, rfl⟩
  simp

theorem Received.descriptors_of_error {refusal : Refusal}
    (received : watched.Received descriptors (.error refusal)) :
    watched.descriptors <+: descriptors ∧ exists before refused,
      watched.handovers = before ++ [refused] ∧
      (forall handover, handover ∈ before -> handover.answer = .ok ()) ∧
      refused.answer = .error refusal := by
  rcases received with ⟨before, refused, after, split, handovers⟩
  refine ⟨⟨after, ?_⟩, _, _, handovers, fun handover member => ?_, by simp⟩
  · rw [Watched.descriptors, handovers, split]
    simp [Function.comp_def]
  · rcases List.mem_map.mp member with ⟨descriptor, _, rfl⟩
    simp

/-- Whatever is received of a script, its nodes come before its edges. -/
theorem Received.nodes_first {script : Script} {answer : Except Refusal Unit}
    (received : watched.Received script.descriptors answer) :
    exists (nodes : List Diagram.Node) (edges : List Diagram.Edge),
      watched.descriptors = nodes.map .node ++ edges.map .edge := by
  have begins : watched.descriptors <+: script.descriptors := by
    cases answer with
    | ok _ => exact received.descriptors_of_ok.1 ▸ List.prefix_refl _
    | error refusal => exact received.descriptors_of_error.1
  rw [List.prefix_iff_eq_take.mp begins, Script.descriptors, List.take_append, ← List.map_take,
    ← List.map_take]
  exact ⟨_, _, rfl⟩

/-- A script that has been received to its end has been taken as it stands. -/
theorem Received.taken {script : Script}
    (received : watched.Received script.descriptors (.ok ())) :
    watched.nodes = script.nodes ∧ watched.edges = script.edges := by
  have handovers : watched.handovers =
      script.nodes.map (.node · (.ok ())) ++ script.edges.map (.edge · (.ok ())) := by
    have taken : watched.handovers = script.descriptors.map (·.answered (.ok ())) := received
    rw [taken, Script.descriptors, List.map_append, List.map_map, List.map_map]
    rfl
  exact ⟨nodes_of_handovers handovers, edges_of_handovers handovers⟩

end Watched

end

/-! ## Dumps -/

namespace Graph

variable {State : Type u} {Other : Type v}

/-- A watched sink receives the script of a dump, and the answer decides what the dump comes to. -/
theorem dump_received (graph : Graph) (root : NodeId) (unshared : List NodeId)
    (sink : Sink State) (store : State) :
    let dumped := graph.dump root unshared sink.watched (.start store)
    exists answer, dumped.2.store.Received (graph.script root unshared).descriptors answer ∧
      dumped.1 = (graph.script root unshared).outcome answer ∧
      (sink.Obliging -> answer = .ok ()) := by
  have plays := graph.dump_eq_play root unshared sink.watched (.start store)
  have received := sink.takeAll_watched (graph.script root unshared).descriptors
    (show (Watched.start store).handovers = ([] : List Diagram.Descriptor).map _ from rfl)
  have results := congrArg Prod.fst plays
  have stores := congrArg Prod.snd plays
  dsimp only [Script.play] at results stores
  dsimp only
  rw [results, stores]
  exact ⟨_, received, rfl, fun obliging => obliging.watched.takeAll _ _⟩

/-- A sink that refuses nothing takes the whole script of a dump. -/
theorem dump_obliging (graph : Graph) (root : NodeId) (unshared : List NodeId)
    {sink : Sink State} (obliging : sink.Obliging) (store : State) :
    let dumped := graph.dump root unshared sink.watched (.start store)
    let script := graph.script root unshared
    dumped.1 = script.result ∧ dumped.2.store.nodes = script.nodes ∧
      dumped.2.store.edges = script.edges := by
  dsimp only
  rcases graph.dump_received root unshared sink store with ⟨answer, received, result, taken⟩
  cases taken obliging
  exact ⟨result, received.taken⟩

/-- A dump hands over nodes and then edges, as it does to a sink that refuses nothing, up to the
first that is refused; then the refusal is its result.  If nothing is refused the result is the same
as with that other sink.  Watching the sink makes no difference. -/
theorem dump_until_refused (graph : Graph) (root : NodeId) (unshared : List NodeId)
    (sink : Sink State) (store : State) {free : Sink Other} (obliging : free.Obliging)
    (idle : Other) :
    let dumped := graph.dump root unshared sink.watched (.start store)
    let undisturbed := graph.dump root unshared free.watched (.start idle)
    ((exists before refused refusal, dumped.2.store.handovers = before ++ [refused] ∧
          (forall handover, handover ∈ before -> handover.answer = .ok ()) ∧
          refused.answer = .error refusal ∧
          dumped.2.store.descriptors <+: undisturbed.2.store.descriptors ∧
          dumped.1 = .error (.sink refusal)) ∨
        (forall handover, handover ∈ dumped.2.store.handovers -> handover.answer = .ok ()) ∧
          dumped.2.store.descriptors = undisturbed.2.store.descriptors ∧
          dumped.1 = undisturbed.1) ∧
      (exists (nodes : List Diagram.Node) (edges : List Diagram.Edge),
        dumped.2.store.descriptors = nodes.map .node ++ edges.map .edge) ∧
      (graph.dump root unshared sink store).1 = dumped.1 ∧
      (graph.dump root unshared sink store).2.store = dumped.2.store.store := by
  dsimp only
  rcases graph.dump_alike root unshared sink store with ⟨later, alike⟩
  rcases graph.dump_received root unshared sink store with ⟨answer, received, result, _⟩
  rcases graph.dump_received root unshared free idle with
    ⟨answerFree, receivedFree, resultFree, taken⟩
  cases taken obliging
  have undisturbed := receivedFree.descriptors_of_ok.1
  refine ⟨?_, received.nodes_first, by rw [alike], by rw [alike]; rfl⟩
  cases answer with
  | ok _ =>
      rcases received.descriptors_of_ok with ⟨descriptors, answers⟩
      exact Or.inr ⟨answers, descriptors.trans undisturbed.symm, result.trans resultFree.symm⟩
  | error refusal =>
      rcases received.descriptors_of_error with ⟨begins, before, refused, rest⟩
      rcases rest with ⟨handovers, answers, last⟩
      exact Or.inl ⟨before, refused, refusal, handovers, answers, last,
        undisturbed.symm ▸ begins, result⟩

/-- A sink that refuses the third node refuses the provider in the ring, behind the root and the
component that the provider needs. -/
theorem ring_refused :
    let dumped := ring.dump 0 [] (Sink.limited (some 2) none).watched (.start .empty)
    let undisturbed := ring.dump 0 [] Sink.collecting.watched (.start .empty)
    dumped.1 = .error (.sink ⟨"node quota exhausted"⟩) ∧
      dumped.2.store.descriptors.length = 3 ∧ undisturbed.2.store.descriptors.length = 10 ∧
      dumped.2.store.descriptors <+: undisturbed.2.store.descriptors := by
  rcases dump_until_refused ring 0 [] (Sink.limited (some 2) none) .empty Sink.obliging_collecting
    .empty with ⟨⟨_, _, _, _, _, _, begins, _⟩ | ⟨_, _, impossible⟩, _⟩
  · exact ⟨rfl, rfl, rfl, begins⟩
  · cases impossible

end Graph
end InjectionPlan
