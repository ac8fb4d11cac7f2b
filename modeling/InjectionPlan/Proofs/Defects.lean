import InjectionPlan.Proofs.Numbering

namespace InjectionPlan
namespace Document

/-!
# Why documents cannot be loaded

A document can have many defects.  Loading it looks for them in three passes, each of which is begun
only when the one before has found nothing: for a key that is declared again, for a root that is not
declared, and for an edge with an end that is not declared, whose head is looked up first.  The
error is the first defect in this order (`Document.load_fails_iff`).  That the graph itself refuses
an edge does not happen, since keys only ever stand for nodes of the graph.
-/

/-- The first thing that is wrong with a document. -/
inductive Defect (document : Document) : PlanError -> Prop
  /-- A key has been declared before; up to that declaration no key has been. -/
  | repeated {passed rest : List DocumentNode} {entry : DocumentNode}
    (nodes : document.nodes = passed ++ entry :: rest)
    (distinct : (passed.map DocumentNode.key).Nodup)
    (again : entry.key ∈ passed.map DocumentNode.key) : Defect document (.duplicateKey entry.key)
  | rootless (distinct : document.declaredKeys.Nodup)
    (missing : document.root ∉ document.declaredKeys) :
    Defect document (.missingRoot document.root)
  /-- An end of an edge is not declared, the head if both are not; the ends of all edges before that
  edge are declared. -/
  | dangling {passed rest : List DocumentEdge} {edge : DocumentEdge}
    (distinct : document.declaredKeys.Nodup) (rooted : document.root ∈ document.declaredKeys)
    (edges : document.edges = passed ++ edge :: rest)
    (joined : forall edge, edge ∈ passed ->
      edge.head ∈ document.declaredKeys ∧ edge.tail ∈ document.declaredKeys)
    (apart : edge.head ∉ document.declaredKeys ∨ edge.tail ∉ document.declaredKeys) :
    Defect document
      (.unknownNode (if edge.head ∈ document.declaredKeys then edge.tail else edge.head))

/-! ## Repeated keys -/

namespace Numbered

variable {graph : Graph} {keys : Table String NodeId} {before : List DocumentNode}

theorem distinct (numbered : Numbered graph keys before) :
    (before.map DocumentNode.key).Nodup :=
  numbered.keys_eq ▸ keys.keys_nodup

/-- Of distinct keys none was declared before. -/
theorem fresh_of_distinct {first : DocumentNode} {rest : List DocumentNode}
    (distinct : ((before ++ first :: rest).map DocumentNode.key).Nodup) :
    first.key ∉ before.map DocumentNode.key := by
  rw [List.map_append, List.map_cons] at distinct
  exact fun known => (List.nodup_append.mp distinct).2.2 _ known _ List.mem_cons_self rfl

theorem addNodes_of_repeated {passed rest : List DocumentNode} {entry : DocumentNode}
    (numbered : Numbered graph keys before)
    (distinct : ((before ++ passed).map DocumentNode.key).Nodup)
    (again : entry.key ∈ (before ++ passed).map DocumentNode.key) :
    Document.addNodes (passed ++ entry :: rest) graph keys = .error (.duplicateKey entry.key) := by
  induction passed generalizing before graph keys with
  | nil =>
      rw [List.append_nil] at again
      rw [List.nil_append, numbered.addNodes_cons, if_pos again]
  | cons first passed ih =>
      have fresh := fresh_of_distinct distinct
      rw [List.append_cons] at distinct again
      rw [List.cons_append, numbered.addNodes_cons, if_neg fresh]
      exact ih (numbered.addNode fresh) distinct again

theorem repeated_of_addNodes {entries : List DocumentNode} {error : PlanError}
    (numbered : Numbered graph keys before)
    (failed : Document.addNodes entries graph keys = .error error) :
    exists passed entry rest, entries = passed ++ entry :: rest ∧
      ((before ++ passed).map DocumentNode.key).Nodup ∧
      entry.key ∈ (before ++ passed).map DocumentNode.key ∧ error = .duplicateKey entry.key := by
  induction entries generalizing before graph keys with
  | nil => cases failed
  | cons entry rest ih =>
      rw [numbered.addNodes_cons] at failed
      split at failed
      · next again =>
        cases failed
        rw [← List.append_nil before] at again
        exact ⟨[], entry, rest, rfl, (List.append_nil before).symm ▸ numbered.distinct, again, rfl⟩
      · next fresh =>
        rcases ih (numbered.addNode fresh) failed with
          ⟨passed, later, behind, rfl, distinct, again, isError⟩
        rw [← List.append_cons] at distinct again
        exact ⟨entry :: passed, later, behind, rfl, distinct, again, isError⟩

end Numbered

/-! ## Edges with undeclared ends -/

section

variable {keys : Table String NodeId} {graph : Graph} {edge : DocumentEdge}

/-- An edge between declared nodes is added, and the keys still stand for nodes of the graph. -/
theorem addEdges_cons_of_isSome (built : graph.Built)
    (inside : forall key node, keys.get? key = some node -> graph.contains node = true)
    (joined : (resolve keys edge).isSome) :
    exists next : Graph, next.Built ∧
      (forall key node, keys.get? key = some node -> next.contains node = true) ∧
      forall rest, addEdges keys (edge :: rest) graph = addEdges keys rest next := by
  rcases Option.isSome_iff_exists.mp joined with ⟨resolved, stands⟩
  rcases contains_of_resolve inside stands with ⟨head, tail⟩
  rcases built.addEdge_ok head tail with ⟨next, added, nodes, _⟩
  refine ⟨next, built.addEdge added, fun key node found => ?_,
    addEdges_cons_of_resolve stands added⟩
  have before := inside key node found
  rwa [Graph.contains, Graph.size, ← nodes] at before

/-- Of the ends of an edge the head is looked up first. -/
theorem addEdges_cons_of_not_isSome (apart : ¬ (resolve keys edge).isSome)
    (rest : List DocumentEdge) :
    addEdges keys (edge :: rest) graph =
      .error (.unknownNode (if (keys.get? edge.head).isSome then edge.tail else edge.head)) := by
  unfold resolve at apart
  rw [addEdges]
  cases isHead : keys.get? edge.head with
  | none => rfl
  | some head =>
      cases isTail : keys.get? edge.tail with
      | none => rfl
      | some tail =>
          rw [isHead, isTail] at apart
          exact absurd rfl apart

theorem addEdges_of_dangling {passed rest : List DocumentEdge} (built : graph.Built)
    (inside : forall key node, keys.get? key = some node -> graph.contains node = true)
    (joined : forall edge, edge ∈ passed -> (resolve keys edge).isSome)
    (apart : ¬ (resolve keys edge).isSome) :
    addEdges keys (passed ++ edge :: rest) graph =
      .error (.unknownNode (if (keys.get? edge.head).isSome then edge.tail else edge.head)) := by
  induction passed generalizing graph with
  | nil => exact addEdges_cons_of_not_isSome apart rest
  | cons first passed ih =>
      rcases List.forall_mem_cons.mp joined with ⟨own, later⟩
      rcases addEdges_cons_of_isSome built inside own with ⟨next, builtNext, insideNext, added⟩
      rw [List.cons_append, added]
      exact ih builtNext insideNext later

theorem dangling_of_addEdges {edges : List DocumentEdge} {error : PlanError} (built : graph.Built)
    (inside : forall key node, keys.get? key = some node -> graph.contains node = true)
    (failed : addEdges keys edges graph = .error error) :
    exists passed edge rest, edges = passed ++ edge :: rest ∧
      (forall edge, edge ∈ passed -> (resolve keys edge).isSome) ∧
      ¬ (resolve keys edge).isSome ∧
      error = .unknownNode (if (keys.get? edge.head).isSome then edge.tail else edge.head) := by
  induction edges generalizing graph with
  | nil => cases failed
  | cons first rest ih =>
      by_cases own : (resolve keys first).isSome
      · rcases addEdges_cons_of_isSome built inside own with ⟨next, builtNext, insideNext, added⟩
        rw [added] at failed
        rcases ih builtNext insideNext failed with
          ⟨passed, edge, behind, rfl, joined, apart, isError⟩
        exact ⟨first :: passed, edge, behind, rfl, List.forall_mem_cons.mpr ⟨own, joined⟩, apart,
          isError⟩
      · rw [addEdges_cons_of_not_isSome own] at failed
        cases failed
        exact ⟨[], first, rest, rfl, (fun _ impossible => nomatch impossible), own, rfl⟩

end

/-! ## Whole documents -/

/-- No key is declared twice, and the root and both ends of every edge are declared. -/
structure Sound (document : Document) : Prop where
  distinct : document.declaredKeys.Nodup
  rooted : document.root ∈ document.declaredKeys
  joined : forall edge, edge ∈ document.edges ->
    edge.head ∈ document.declaredKeys ∧ edge.tail ∈ document.declaredKeys

theorem Defect.not_sound {document : Document} {error : PlanError}
    (defect : document.Defect error) : ¬ document.Sound := by
  intro sound
  cases defect with
  | repeated nodes distinct again =>
      have all := sound.distinct
      rw [declaredKeys, nodes] at all
      exact Numbered.fresh_of_distinct all again
  | rootless distinct missing => exact missing sound.rooted
  | dangling distinct rooted edges joined apart =>
      rcases sound.joined _ (edges ▸ List.mem_append_right _ List.mem_cons_self) with ⟨head, tail⟩
      exact apart.elim (· head) (· tail)

theorem not_sound_iff (document : Document) :
    ¬ document.Sound <->
      ¬ document.declaredKeys.Nodup ∨ document.root ∉ document.declaredKeys ∨
        exists edge, edge ∈ document.edges ∧
          (edge.head ∉ document.declaredKeys ∨ edge.tail ∉ document.declaredKeys) := by
  constructor
  · intro unsound
    by_contra regular
    push Not at regular
    exact unsound ⟨regular.1, regular.2.1, regular.2.2⟩
  · rintro irregular ⟨distinct, rooted, joined⟩
    rcases irregular with repeated | missing | ⟨edge, member, head | tail⟩
    · exact repeated distinct
    · exact missing rooted
    · exact head (joined edge member).1
    · exact tail (joined edge member).2

/-- Defects have nothing to do with sharing. -/
theorem Defect.reshared {document : Document} {error : PlanError} (defect : document.Defect error)
    (keys : List String) : Defect { document with unshared := keys } error := by
  cases defect with
  | repeated nodes distinct again => exact .repeated nodes distinct again
  | rootless distinct missing => exact .rootless distinct missing
  | dangling distinct rooted edges joined apart =>
      exact .dangling distinct rooted edges joined apart

theorem Numbered.resolve_isSome_iff {graph : Graph} {keys : Table String NodeId}
    {entries : List DocumentNode} (numbered : Numbered graph keys entries) (edge : DocumentEdge) :
    (resolve keys edge).isSome <->
      edge.head ∈ entries.map DocumentNode.key ∧ edge.tail ∈ entries.map DocumentNode.key := by
  rw [← numbered.isSome_get?_iff, ← numbered.isSome_get?_iff]
  unfold resolve
  cases keys.get? edge.head <;> cases keys.get? edge.tail <;> simp

theorem sound_of_load {document : Document} {plan : Plan} (loaded : document.load = .ok plan) :
    document.Sound := by
  rcases (document.load_eq_ok_iff plan).mp loaded with ⟨graph, added, isRoot, resolves, _⟩
  have numbered : Numbered graph plan.keys document.nodes := numbered_empty.addNodes added
  exact {
    distinct := numbered.distinct
    rooted := (numbered.isSome_get?_iff _).mp (isRoot ▸ rfl)
    joined := fun edge member => (numbered.resolve_isSome_iff edge).mp (resolves edge member) }

/-- Whatever makes loading fail is a defect. -/
theorem defect_of_load {document : Document} {error : PlanError}
    (failed : document.load = .error error) : document.Defect error := by
  unfold load at failed
  split at failed
  · next fault again =>
    cases failed
    rcases numbered_empty.repeated_of_addNodes again with
      ⟨passed, entry, rest, nodes, distinct, known, rfl⟩
    exact .repeated nodes distinct known
  · next graph keys added =>
    have numbered : Numbered graph keys document.nodes := numbered_empty.addNodes added
    have declared := declared_empty.addNodes added
    have known := numbered.isSome_get?_iff
    split at failed
    · next missing =>
      cases failed
      exact .rootless numbered.distinct fun isDeclared =>
        Option.isSome_iff_ne_none.mp ((known _).mpr isDeclared) missing
    · next root isRoot =>
      split at failed
      · next fault unjoined =>
        cases failed
        rcases dangling_of_addEdges declared.built declared.inside unjoined with
          ⟨passed, edge, rest, edges, joined, apart, rfl⟩
        rw [if_congr (known edge.head) rfl rfl]
        exact .dangling numbered.distinct ((known _).mp (isRoot ▸ rfl)) edges
          (fun edge member => (numbered.resolve_isSome_iff edge).mp (joined edge member))
          (not_and_or.mp fun both => apart ((numbered.resolve_isSome_iff edge).mpr both))
      · cases failed

/-- Distinct keys are all added, and their nodes with them. -/
theorem addNodes_of_distinct {document : Document} (distinct : document.declaredKeys.Nodup) :
    exists graph keys, addNodes document.nodes .empty .empty = .ok (graph, keys) ∧
      Declared graph keys ∧ Numbered graph keys document.nodes := by
  cases added : addNodes document.nodes .empty .empty with
  | error fault =>
      rcases numbered_empty.repeated_of_addNodes added with
        ⟨passed, entry, rest, nodes, _, again, _⟩
      rw [declaredKeys, nodes] at distinct
      exact absurd again (Numbered.fresh_of_distinct distinct)
  | ok result =>
      exact ⟨result.1, result.2, rfl, declared_empty.addNodes added, numbered_empty.addNodes added⟩

/-- A defect makes loading fail. -/
theorem load_of_defect {document : Document} {error : PlanError}
    (defect : document.Defect error) : document.load = .error error := by
  unfold load
  cases defect with
  | repeated nodes distinct again =>
      rw [nodes, numbered_empty.addNodes_of_repeated distinct again]
  | rootless distinct missing =>
      rcases addNodes_of_distinct distinct with ⟨graph, keys, added, _, numbered⟩
      have unknown : keys.get? document.root = none :=
        Option.not_isSome_iff_eq_none.mp fun known =>
          missing ((numbered.isSome_get?_iff _).mp known)
      rw [added]
      dsimp only
      rw [unknown]
  | @dangling passed rest edge distinct rooted edges joined apart =>
      rcases addNodes_of_distinct distinct with ⟨graph, keys, added, declared, numbered⟩
      rcases Option.isSome_iff_exists.mp ((numbered.isSome_get?_iff _).mpr rooted) with
        ⟨root, isRoot⟩
      have unjoined : addEdges keys (passed ++ edge :: rest) graph = .error _ :=
        addEdges_of_dangling declared.built declared.inside
          (fun edge member => (numbered.resolve_isSome_iff edge).mpr (joined edge member))
          (fun both => not_and_or.mpr apart ((numbered.resolve_isSome_iff edge).mp both))
      rw [added]
      dsimp only
      rw [isRoot]
      dsimp only
      rw [edges, unjoined]
      exact congrArg (Except.error ∘ PlanError.unknownNode)
        (if_congr (numbered.isSome_get?_iff edge.head) rfl rfl)

/-- A document can be loaded unless it has a defect, and its first defect is the error.  Which keys
are excluded from sharing makes no difference to that, and no edge is refused by the graph. -/
theorem load_fails_iff (document : Document) :
    (forall error, document.load = .error error <-> document.Defect error) ∧
    ((exists error, document.load = .error error) <->
      ¬ document.declaredKeys.Nodup ∨ document.root ∉ document.declaredKeys ∨
        exists edge, edge ∈ document.edges ∧
          (edge.head ∉ document.declaredKeys ∨ edge.tail ∉ document.declaredKeys)) ∧
    (forall keys error, { document with unshared := keys }.load = .error error <->
      document.load = .error error) ∧
    forall cause, document.load ≠ .error (.graph cause) := by
  refine ⟨fun error => ⟨defect_of_load, load_of_defect⟩, ?_, fun keys error => ?_,
    fun cause failed => ?_⟩
  · rw [← not_sound_iff]
    constructor
    · rintro ⟨error, failed⟩
      exact (defect_of_load failed).not_sound
    · intro unsound
      cases loaded : document.load with
      | error error => exact ⟨error, rfl⟩
      | ok plan => exact absurd (sound_of_load loaded) unsound
  · constructor
    · exact fun failed => load_of_defect ((defect_of_load failed).reshared document.unshared)
    · exact fun failed => load_of_defect ((defect_of_load failed).reshared keys)
  · cases defect_of_load failed

end Document
end InjectionPlan
