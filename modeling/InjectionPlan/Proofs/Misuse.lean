import InjectionPlan.Proofs.Calls
import InjectionPlan.Proofs.Faults

namespace InjectionPlan

/-!
# Calls out of turn

A root can be set once and has to be set before anything else, and only nodes of the graph can be
asked for.  A session checks this by what it has recorded: there is a root just when a call of
`setRoot` has got past its checks, also if the sink refused the root then, and a failed walk leaves
no record that could be taken for a root (`Session.Orderly.hasRoot_callAll`).  Both ends of each
edge of a graph are in the graph, so nothing inside a walk is answered like a call for a node that
is not there (`Tour.unsatisfied`).  So each fault tells exactly what was wrong with the call, and
nothing has been done then (`Session.strict_callAll`).
-/

/-! ## Why walks fail -/

/-- In a graph that has been built an edge leads to a node of the graph. -/
theorem Graph.Built.contains_of_onward {graph : Graph} (built : graph.Built) {node other : NodeId}
    (onward : other ∈ graph.onward node) : graph.contains other = true := by
  rcases List.mem_map.mp onward with ⟨edge, branch, rfl⟩
  rcases (graph.mem_branches_iff node edge).mp branch with ⟨_, _, _, leaves, _⟩
  have traversed : graph.Traversed node edge.tail := .first leaves
  exact built.contains_of_traversed traversed

/-- A tour through nodes of the graph fails only for want of a satisfaction. -/
theorem Tour.unsatisfied {scene : Scene} {stops : List Stop} {registry : Registry}
    {course : Course Unit} (tour : Tour scene stops registry course) (built : scene.graph.Built)
    (inside : forall node, node ∈ heads stops -> scene.graph.contains node = true)
    {error : DumpError} (failed : course.result = .error error) :
    exists node, error = .missingSatisfaction node := by
  induction tour with
  | done => cases failed
  | row _ ih => exact ih inside failed
  | known _ _ ih => exact ih (List.forall_mem_cons.mp inside).2 failed
  | foreign _ absent =>
      have present := (List.forall_mem_cons.mp inside).1
      rw [Graph.contains_eq_isSome, absent] at present
      cases present
  | @bare node _ _ _ _ _ _ _ _ =>
      cases failed
      exact ⟨node, rfl⟩
  | failed fresh _ ih =>
      apply ih
      · intro other member
        rw [fresh.heads_stops] at member
        exact built.contains_of_onward member
      · exact failed
  | shown _ _ _ _ ihLater => exact ihLater (List.forall_mem_cons.mp inside).2 failed

/-- Whether an error says that a call was out of turn. -/
def DumpError.isUsage : DumpError -> Bool
  | rootAlreadySet => true
  | rootNotSet => true
  | unknownNode _ => true
  | _ => false

namespace Session

variable {State : Type u}

/-! ## Setting the root -/

/-- A call that gets past the checks of `setRoot`, whatever the sink answers then. -/
def GivesRoot (session : Session State) : Call -> Prop
  | .setRoot root => (session.setRoot root).1 ≠ .error (.unknownNode root) ∧
      (session.setRoot root).1 ≠ .error .rootAlreadySet
  | .process _ => False
  | .enqueue _ => False

/-- One of several calls gives a root. -/
def RootGiven : (session : Session State) -> List Call -> Prop
  | _, [] => False
  | session, call :: rest => session.GivesRoot call ∨ (session.call call).RootGiven rest

theorem setRoot_of_outside {session : Session State} {root : NodeId}
    (outside : session.scene.graph.contains root = false) :
    session.setRoot root = (.error (.unknownNode root), session) := by
  rw [setRoot, if_neg (ne_true_of_eq_false outside)]

theorem setRoot_of_hasRoot {session : Session State} {root : NodeId}
    (inside : session.scene.graph.contains root = true)
    (rooted : session.registry.hasRoot = true) :
    session.setRoot root = (.error .rootAlreadySet, session) := by
  rw [setRoot, if_pos inside, reserveRoot_of_hasRoot rooted]

theorem process_of_rootless {session : Session State}
    (rootless : session.registry.hasRoot = false) (node : NodeId) :
    session.process node = (.error .rootNotSet, session) := by
  rw [process, if_neg (ne_true_of_eq_false rootless)]

section

variable {sink : Sink State} {session : Session (Watched State)}

namespace Orderly

/-- The first root is reserved, and then shown or refused. -/
theorem setRoot_of_rootless (orderly : session.Orderly sink) {root : NodeId}
    (inside : session.scene.graph.contains root = true)
    (rootless : session.registry.hasRoot = false) :
    ((session.setRoot root).1 = .ok .root ∨
        exists refusal, (session.setRoot root).1 = .error (.sink refusal)) ∧
      (session.setRoot root).2.registry = .rooted root := by
  have blank : session.registry = .empty := by
    rcases orderly.started with blank | rooted
    · exact blank
    · cases rootless.symm.trans rooted
  rw [Session.setRoot, if_pos inside, blank, Registry.reserveRoot_empty]
  dsimp only
  cases offered : offer { session with registry := .rooted root } rootNode with
  | mk answer next =>
      cases answer with
      | ok _ =>
          rcases offer_ok offered with ⟨store, _, rfl⟩
          exact ⟨Or.inl rfl, rfl⟩
      | error refusal =>
          rcases offer_error offered with ⟨store, _, rfl⟩
          exact ⟨Or.inr ⟨refusal, rfl⟩, rfl⟩

/-- There is a root behind a call if there was one before it or the call gives one. -/
theorem hasRoot_call (orderly : session.Orderly sink) (call : Call) :
    (session.call call).registry.hasRoot = true <->
      session.registry.hasRoot = true ∨ session.GivesRoot call := by
  cases call with
  | setRoot root =>
      unfold Session.call GivesRoot
      dsimp only
      cases inside : session.scene.graph.contains root with
      | false =>
          rw [setRoot_of_outside inside]
          simp
      | true =>
          cases rooted : session.registry.hasRoot with
          | true =>
              rw [setRoot_of_hasRoot inside rooted]
              simp [rooted]
          | false =>
              rcases orderly.setRoot_of_rootless inside rooted with ⟨answer, registry⟩
              rw [registry, Registry.hasRoot_rooted]
              rcases answer with shown | ⟨refusal, refused⟩
              · simp [shown]
              · simp [refused]
  | process node =>
      unfold Session.call GivesRoot
      dsimp only
      cases rooted : session.registry.hasRoot with
      | true =>
          rw [(session.advanced_process node).registry, Registry.hasRoot_applyAll rooted]
          simp
      | false =>
          rw [process_of_rootless rooted]
          simp [rooted]
  | enqueue edge =>
      unfold GivesRoot
      rw [or_false]
      rfl

/-- There is a root just when a call has given one. -/
theorem hasRoot_callAll (orderly : session.Orderly sink) (calls : List Call) :
    (session.callAll calls).registry.hasRoot = true <->
      session.registry.hasRoot = true ∨ session.RootGiven calls := by
  induction calls generalizing session with
  | nil =>
      unfold RootGiven
      rw [or_false]
      rfl
  | cons call rest ih =>
      unfold RootGiven
      rw [← or_assoc, ← orderly.hasRoot_call call]
      exact ih (orderly.call call)

end Orderly

/-! ## Showing a node -/

/-- Only nodes of the graph have identifiers. -/
def Housed (session : Session State) : Prop :=
  forall node, (session.registry.identifier? node).isSome ->
    session.scene.graph.contains node = true

theorem housed_start (graph : Graph) (unshared : List NodeId) (sink : Sink State) (store : State) :
    (start graph unshared sink store).Housed := by
  intro node known
  cases known

theorem Housed.process {session : Session State} (housed : session.Housed) (node : NodeId) :
    (session.process node).2.Housed := by
  have advanced := session.advanced_process node
  intro other known
  rw [advanced.registry, Registry.identifier?_applyAll_isSome] at known
  rw [advanced.scene]
  rcases known with before | identified
  · exact housed other before
  · have all := (session.scene.turn_course node session.registry).tour.identified_once.2
    rcases session.deeds_begin node with ⟨rest, split⟩
    dsimp only at all
    rw [split, identifiedIn_append] at all
    exact (all other (List.mem_append_left _ identified)).inside

theorem Orderly.housed_setRoot (orderly : session.Orderly sink) (housed : session.Housed)
    (root : NodeId) : (session.setRoot root).2.Housed := by
  cases inside : session.scene.graph.contains root with
  | false =>
      rw [setRoot_of_outside inside]
      exact housed
  | true =>
      cases rooted : session.registry.hasRoot with
      | true =>
          rw [setRoot_of_hasRoot inside rooted]
          exact housed
      | false =>
          have called : session.setRoot root = (_, (session.setRoot root).2) := rfl
          intro node known
          rw [(orderly.setRoot_of_rootless inside rooted).2, ← Registry.mem_root_iff] at known
          rcases orderly.setRoot_cases called with ⟨_, same⟩ | ⟨_, _, scene, _⟩
          · rw [same, List.mem_singleton.mp known]
            exact inside
          · rw [scene, List.mem_singleton.mp known]
            exact inside

theorem Orderly.housed_callAll (orderly : session.Orderly sink) (housed : session.Housed)
    (calls : List Call) : (session.callAll calls).Housed := by
  induction calls generalizing session with
  | nil => exact housed
  | cons call rest ih =>
      apply ih (orderly.call call)
      cases call with
      | setRoot root => exact orderly.housed_setRoot housed root
      | process node => exact housed.process node
      | enqueue edge => exact housed

/-- A node that is not in the graph is not shown. -/
theorem Housed.process_of_outside {session : Session State} (housed : session.Housed)
    (rooted : session.registry.hasRoot = true) {node : NodeId}
    (outside : session.scene.graph.contains node = false) :
    session.process node = (.error (.unknownNode node), session) := by
  have unknown : session.registry.identifier? node = none := by
    cases known : session.registry.identifier? node with
    | none => rfl
    | some identifier =>
        have inside := housed node (by rw [known]; rfl)
        cases outside.symm.trans inside
  have absent : session.scene.graph.node? node = none := by
    rw [Graph.contains_eq_isSome] at outside
    exact Option.not_isSome_iff_eq_none.mp (ne_true_of_eq_false outside)
  have turn := session.scene.turn_course node session.registry
  rw [Session.process, if_pos rooted]
  generalize session.scene.course node session.registry = course at turn
  cases turn with
  | known has => cases unknown.symm.trans has
  | foreign _ _ => rfl
  | bare _ present _ => cases absent.symm.trans present
  | failed fresh _ => cases absent.symm.trans fresh.present
  | shown fresh _ => cases absent.symm.trans fresh.present

/-- A call for a node of the graph is not answered as if it was out of turn. -/
theorem process_of_inside {session : Session State} (built : session.scene.graph.Built)
    (rooted : session.registry.hasRoot = true) {node : NodeId}
    (inside : session.scene.graph.contains node = true) {error : DumpError}
    (failed : (session.process node).1 = .error error) : error.isUsage = false := by
  have tour := (session.scene.turn_course node session.registry).tour
  rw [process, if_pos rooted, carryOut] at failed
  split at failed
  · dsimp only at failed
    have fails : (session.scene.course node session.registry).result.map (fun _ => ()) =
        .error error := by
      rw [failed]
      rfl
    have only : forall other, other ∈ heads [.turn node [] []] ->
        session.scene.graph.contains other = true := by
      intro other member
      rw [List.mem_singleton.mp member]
      exact inside
    rcases tour.unsatisfied built only fails with ⟨other, rfl⟩
    rfl
  · cases failed
    rfl

end

/-! ## Which fault is answered when -/

/-- What a session answers to calls out of turn, if it is told whether a root has been given.
Where the fault is that of the call, the session stays as it is, with all that the sink has been
handed. -/
structure Strict (graph : Graph) (given : Prop) (session : Session State) : Prop where
  /-- That the node is not in the graph is noticed first. -/
  rootUnknown : forall root, (session.setRoot root).1 = .error (.unknownNode root) <->
    graph.contains root = false
  rootTwice : forall root, graph.contains root = true ->
    ((session.setRoot root).1 = .error .rootAlreadySet <-> given)
  /-- That there is no root is noticed first. -/
  rootless : forall node, (session.process node).1 = .error .rootNotSet <-> ¬ given
  unknown : given -> forall node,
    ((exists other, (session.process node).1 = .error (.unknownNode other)) <->
      graph.contains node = false)
  itself : forall node other, (session.process node).1 = .error (.unknownNode other) ->
    other = node
  unfinished : session.finish.1 = .error .rootNotSet <-> ¬ given
  setRootKeeps : forall root error, (session.setRoot root).1 = .error error ->
    error.isUsage = true -> (session.setRoot root).2 = session
  processKeeps : forall node error, (session.process node).1 = .error error ->
    error.isUsage = true -> (session.process node).2 = session

section

variable {sink : Sink State} {session : Session (Watched State)}

theorem Orderly.setRoot_faults (orderly : session.Orderly sink) (root : NodeId) :
    ((session.setRoot root).1 = .error (.unknownNode root) <->
        session.scene.graph.contains root = false) ∧
      (session.scene.graph.contains root = true ->
        ((session.setRoot root).1 = .error .rootAlreadySet <->
          session.registry.hasRoot = true)) ∧
      forall error, (session.setRoot root).1 = .error error -> error.isUsage = true ->
        (session.setRoot root).2 = session := by
  cases inside : session.scene.graph.contains root with
  | false =>
      rw [setRoot_of_outside inside]
      simp
  | true =>
      cases rooted : session.registry.hasRoot with
      | true =>
          rw [setRoot_of_hasRoot inside rooted]
          simp
      | false =>
          rcases (orderly.setRoot_of_rootless inside rooted).1 with shown | ⟨refusal, refused⟩
          · rw [shown]
            simp
          · rw [refused]
            refine ⟨by simp, by simp, ?_⟩
            intro error same usage
            cases same
            cases usage

theorem Housed.process_faults (housed : session.Housed) (built : session.scene.graph.Built)
    (node : NodeId) :
    ((session.process node).1 = .error .rootNotSet <-> ¬ session.registry.hasRoot = true) ∧
      (session.registry.hasRoot = true ->
        ((exists other, (session.process node).1 = .error (.unknownNode other)) <->
          session.scene.graph.contains node = false)) ∧
      (forall other, (session.process node).1 = .error (.unknownNode other) -> other = node) ∧
      forall error, (session.process node).1 = .error error -> error.isUsage = true ->
        (session.process node).2 = session := by
  cases rooted : session.registry.hasRoot with
  | false =>
      rw [process_of_rootless rooted]
      simp
  | true =>
      cases inside : session.scene.graph.contains node with
      | false =>
          rw [housed.process_of_outside rooted inside]
          refine ⟨by simp, by simp, ?_, by simp⟩
          intro other same
          cases same
          rfl
      | true =>
          have noUsage {error : DumpError} (failed : (session.process node).1 = .error error)
              (usage : error.isUsage = true) : False := by
            cases (process_of_inside built rooted inside failed).symm.trans usage
          refine ⟨?_, fun _ => ?_, ?_, ?_⟩
          · constructor
            · intro failed
              exact (noUsage failed rfl).elim
            · intro impossible
              exact absurd rfl impossible
          · constructor
            · rintro ⟨other, failed⟩
              exact (noUsage failed rfl).elim
            · intro impossible
              cases impossible
          · intro other failed
            exact (noUsage failed rfl).elim
          · intro error failed usage
            exact (noUsage failed usage).elim

theorem finish_rootNotSet_iff (session : Session State) :
    session.finish.1 = .error .rootNotSet <-> ¬ session.registry.hasRoot = true := by
  unfold finish
  split
  · next rooted =>
    dsimp only
    split
    · simp [rooted]
    · simp [rooted]
  · next rootless => simp [rootless]

theorem Orderly.strict (orderly : session.Orderly sink) (housed : session.Housed)
    (built : session.scene.graph.Built) :
    session.Strict session.scene.graph (session.registry.hasRoot = true) where
  rootUnknown root := (orderly.setRoot_faults root).1
  rootTwice root := (orderly.setRoot_faults root).2.1
  rootless node := (housed.process_faults built node).1
  unknown rooted node := (housed.process_faults built node).2.1 rooted
  itself node := (housed.process_faults built node).2.2.1
  unfinished := session.finish_rootNotSet_iff
  setRootKeeps root := (orderly.setRoot_faults root).2.2
  processKeeps node := (housed.process_faults built node).2.2.2

end

/-- After any calls, whatever came of them, a call out of turn is answered by the fault that it
makes, and by no other call, and it changes nothing. -/
theorem strict_callAll {graph : Graph} (built : graph.Built) (unshared : List NodeId)
    (sink : Sink State) (store : State) (calls : List Call) :
    let first := start graph unshared sink.watched (.start store)
    (first.callAll calls).Strict graph (first.RootGiven calls) := by
  intro first
  have firstOrderly : first.Orderly sink := orderly_start graph unshared sink store
  have orderly := firstOrderly.callAll calls
  have housed := firstOrderly.housed_callAll (housed_start _ _ _ _) calls
  have shows := ((accounted_start graph unshared sink.watched (.start store)).callAll calls).shows
  have rooted := firstOrderly.hasRoot_callAll calls
  have rootless : first.registry.hasRoot = false := rfl
  rw [rootless] at rooted
  have given : (first.callAll calls).registry.hasRoot = true <-> first.RootGiven calls :=
    rooted.trans ⟨fun either => either.resolve_left Bool.false_ne_true, Or.inr⟩
  have strict := orderly.strict housed (shows ▸ built)
  rw [shows, propext given] at strict
  exact strict

/-- The root has been refused by the sink, but it has been set. -/
theorem gap_strict :
    let first := start Graph.gap [] (Sink.limited (some 0) none).watched (.start .empty)
    let session := first.callAll [.process 1, .setRoot 3, .setRoot 0, .process 1]
    (session.setRoot 1).1 = .error .rootAlreadySet ∧ (session.setRoot 1).2 = session ∧
      (session.process 3).1 = .error (.unknownNode 3) ∧ (session.process 3).2 = session := by
  intro first session
  have strict : session.Strict Graph.gap (first.RootGiven _) :=
    strict_callAll Graph.gap_built [] (Sink.limited (some 0) none) .empty
      [.process 1, .setRoot 3, .setRoot 0, .process 1]
  have refused : (((first.call (.process 1)).call (.setRoot 3)).setRoot 0).1 =
      .error (.sink ⟨"node quota exhausted"⟩) := rfl
  have given : first.RootGiven [.process 1, .setRoot 3, .setRoot 0, .process 1] := by
    refine Or.inr (Or.inr (Or.inl ⟨?_, ?_⟩))
    · intro unknown
      cases refused.symm.trans unknown
    · intro again
      cases refused.symm.trans again
  have twice := (strict.rootTwice 1 rfl).mpr given
  rcases (strict.unknown given 3).mpr rfl with ⟨other, unknown⟩
  cases strict.itself 3 other unknown
  exact ⟨twice, strict.setRootKeeps 1 _ twice rfl, unknown, strict.processKeeps 3 _ unknown rfl⟩

end Session
end InjectionPlan
