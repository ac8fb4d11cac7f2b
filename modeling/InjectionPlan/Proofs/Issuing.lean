import Mathlib.Data.Set.Card
import InjectionPlan.Proofs.Conduct

namespace InjectionPlan
namespace Registry

/-!
# What a registry issues

A registry can be asked for things in any order: to reserve the root, to give a node its
identifier, or to record a target.  Whatever it was asked before, no two nodes have the same
identifier, and the next number has not been given.  That holds although reserving the root may
replace an identifier that its node had before: the number of nodes with an identifier then stays
as it is, and no number given later can be one that is still in use.

A registry without targets is one that has been asked for identifiers of nodes and for nothing
else.  So only the first request of another kind can reserve the root (`reserved`).
-/

/-- Something that a registry is asked for. -/
inductive Request
  | reserve (root : NodeId)
  | assign (node : NodeId)
  | record (id target : String)

/-- The answer to a request, which for a recorded target is empty, and the registry that goes on. -/
def handle (registry : Registry) : Request -> Except DumpError (Option String) × Registry
  | .reserve root =>
    match registry.reserveRoot root with
    | .ok next => (.ok (some Identifier.root.text), next)
    | .error error => (.error error, registry)
  | .assign node => (.ok (some (registry.identifierFor node).text), registry.identify node)
  | .record id target => (.ok none, registry.recordTarget id target)

/-- The registry after several requests. -/
def handleAll : (registry : Registry) -> List Request -> Registry
  | registry, [] => registry
  | registry, request :: rest => (registry.handle request).2.handleAll rest

/-- The text of the identifier of a node, if it has one. -/
def id? (registry : Registry) (node : NodeId) : Option String :=
  (registry.identifier? node).map Identifier.text

/-- Whether a registry is asked for the identifier of a node. -/
def Request.assigns : Request -> Bool
  | .assign _ => true
  | _ => false

/-- The node for which the root is reserved: if anything else than an identifier of a node is
asked for, the first such request decides. -/
def reserved : List Request -> Option NodeId
  | [] => none
  | .assign _ :: rest => reserved rest
  | .reserve root :: _ => some root
  | .record _ _ :: _ => none

theorem id?_eq_some_iff (registry : Registry) (node : NodeId) (identifier : Identifier) :
    registry.id? node = some identifier.text <-> registry.identifier? node = some identifier := by
  rw [id?, Option.map_eq_some_iff]
  constructor
  · rintro ⟨other, known, text⟩
    rw [known, Identifier.text_injective text]
  · intro known
    exact ⟨identifier, known, rfl⟩

@[simp] theorem isSome_id? (registry : Registry) (node : NodeId) :
    (registry.id? node).isSome = (registry.identifier? node).isSome :=
  Option.isSome_map

/-! ## Requests that reserve -/

theorem reserved_append_of_assigns {first : List Request}
    (all : forall request, request ∈ first -> request.assigns = true) (second : List Request) :
    reserved (first ++ second) = reserved second := by
  induction first with
  | nil => rfl
  | cons request rest ih =>
      have restAll := ih fun other member => all other (List.mem_cons_of_mem _ member)
      cases request with
      | assign node => exact restAll
      | reserve root => cases all _ List.mem_cons_self
      | record id target => cases all _ List.mem_cons_self

theorem reserved_append_of_other {first : List Request}
    (other : ¬ forall request, request ∈ first -> request.assigns = true)
    (second : List Request) : reserved (first ++ second) = reserved first := by
  induction first with
  | nil => exact absurd (fun _ member => nomatch member) other
  | cons request rest ih =>
      cases request with
      | assign node =>
          apply ih
          intro all
          apply other
          intro request member
          rcases List.mem_cons.mp member with rfl | member
          · rfl
          · exact all request member
      | reserve root => rfl
      | record id target => rfl

theorem reserved_of_assigns {requests : List Request}
    (all : forall request, request ∈ requests -> request.assigns = true) :
    reserved requests = none := by
  have alone := reserved_append_of_assigns all []
  rwa [List.append_nil] at alone

/-- A last request that would not reserve a node by itself changes nothing. -/
theorem reserved_append_of_none (requests : List Request) {request : Request}
    (alone : reserved [request] = none) : reserved (requests ++ [request]) = reserved requests := by
  by_cases all : forall request, request ∈ requests -> request.assigns = true
  · rw [reserved_append_of_assigns all, reserved_of_assigns all, alone]
  · exact reserved_append_of_other all _

theorem reserved_eq_some_iff (requests : List Request) (root : NodeId) :
    reserved requests = some root <->
      exists before after, requests = before ++ .reserve root :: after ∧
        forall request, request ∈ before -> request.assigns = true := by
  constructor
  · intro found
    induction requests with
    | nil => cases found
    | cons request rest ih =>
        cases request with
        | assign node =>
            rcases ih found with ⟨before, after, rfl, all⟩
            refine ⟨.assign node :: before, after, rfl, ?_⟩
            intro request member
            rcases List.mem_cons.mp member with rfl | member
            · rfl
            · exact all request member
        | reserve other =>
            cases found
            exact ⟨[], rest, rfl, fun _ member => nomatch member⟩
        | record id target => cases found
  · rintro ⟨before, after, rfl, all⟩
    exact reserved_append_of_assigns all _

/-! ## One request -/

/-- The registry in which a node has the identifier of the root. -/
def withRoot (registry : Registry) (root : NodeId) : Registry where
  identifiers := registry.identifiers.set root .root
  targets := registry.targets.set Identifier.root.text Identifier.root.text

theorem handle_reserve (registry : Registry) (root : NodeId) :
    registry.handle (.reserve root) =
      if registry.targets.size = 0 then (.ok (some Identifier.root.text), registry.withRoot root)
      else (.error .rootAlreadySet, registry) := by
  by_cases blank : registry.targets.size = 0
  · rw [handle, reserveRoot, if_pos blank, if_pos blank]
    rfl
  · rw [handle, reserveRoot, if_neg blank, if_neg blank]

theorem identifier?_withRoot (registry : Registry) (root node : NodeId) :
    (registry.withRoot root).identifier? node =
      if root = node then some .root else registry.identifier? node :=
  Table.get?_set registry.identifiers root node _

/-- If no node was the root before, the root takes nothing from another node.  No number is given
back, so the next one is still new. -/
theorem Unambiguous.withRoot {registry : Registry} (unambiguous : registry.Unambiguous)
    (noRoot : forall node, registry.identifier? node ≠ some .root) (root : NodeId) :
    (registry.withRoot root).Unambiguous where
  distinct first second identifier := by
    rw [identifier?_withRoot, identifier?_withRoot]
    intro left right
    by_cases isFirst : root = first <;> by_cases isSecond : root = second
    · exact isFirst.symm.trans isSecond
    · rw [if_pos isFirst] at left
      rw [if_neg isSecond, ← left] at right
      exact absurd right (noRoot second)
    · rw [if_pos isSecond] at right
      rw [if_neg isFirst, ← right] at left
      exact absurd left (noRoot first)
    · rw [if_neg isFirst] at left
      rw [if_neg isSecond] at right
      exact unambiguous.distinct first second identifier left right
  numbered node number := by
    rw [identifier?_withRoot]
    intro known
    by_cases same : root = node
    · rw [if_pos same] at known
      cases known
    · rw [if_neg same] at known
      have noFewer : registry.assigned ≤ (registry.withRoot root).assigned := by
        have size := registry.identifiers.size_set root .root
        unfold assigned
        rw [show (registry.withRoot root).identifiers.size = _ from size]
        split <;> omega
      exact Nat.lt_of_lt_of_le (unambiguous.numbered node number known) noFewer

/-- What a registry that has been asked for something knows. -/
structure Follows (registry : Registry) (requests : List Request) : Prop where
  unambiguous : registry.Unambiguous
  root : forall node,
    registry.identifier? node = some .root <-> reserved requests = some node
  known : forall node, (registry.identifier? node).isSome <->
    .assign node ∈ requests ∨ reserved requests = some node
  /-- Only requests for identifiers of nodes leave the targets empty. -/
  unrecorded : registry.targets.size = 0 <->
    forall request, request ∈ requests -> request.assigns = true

namespace Follows

variable {registry : Registry} {requests : List Request}

theorem nothing : empty.Follows [] where
  unambiguous := {
    distinct := fun _ _ _ known => nomatch known
    numbered := fun _ _ known => nomatch known }
  root node := by simp [reserved, identifier?, empty]
  known node := by simp [reserved, identifier?, empty]
  unrecorded := by simp [empty, Table.size, Table.empty]

theorem assign (follows : registry.Follows requests) (node : NodeId) :
    (registry.identify node).Follows (requests ++ [.assign node]) where
  unambiguous := by
    cases known : registry.identifier? node with
    | none => exact follows.unambiguous.identify known
    | some identifier =>
        rw [identify, known]
        exact follows.unambiguous
  root other := by
    rw [reserved_append_of_none requests rfl, ← follows.root, identifier?_identify]
    by_cases same : node = other
    · subst same
      rw [if_pos rfl]
      cases known : registry.identifier? node with
      | none =>
          rw [identifierFor_of_unknown known]
          simp
      | some identifier => rw [identifierFor_of_known known]
    · rw [if_neg same]
  known other := by
    rw [reserved_append_of_none requests rfl, identifier?_identify, List.mem_append,
      List.mem_singleton]
    by_cases same : node = other
    · simp [same]
    · rw [if_neg same, follows.known]
      simp [Ne.symm same]
  unrecorded := by
    have targets : (registry.identify node).targets = registry.targets := by
      unfold identify
      split <;> rfl
    rw [targets, follows.unrecorded, List.forall_mem_append, List.forall_mem_singleton]
    exact ⟨fun all => ⟨all, rfl⟩, And.left⟩

theorem record (follows : registry.Follows requests) (id target : String) :
    (registry.recordTarget id target).Follows (requests ++ [.record id target]) where
  unambiguous := {
    distinct := follows.unambiguous.distinct
    numbered := follows.unambiguous.numbered }
  root node := by
    rw [reserved_append_of_none requests rfl, identifier?_recordTarget]
    exact follows.root node
  known node := by
    rw [reserved_append_of_none requests rfl, identifier?_recordTarget, follows.known]
    simp
  unrecorded := by
    have recorded := Table.size_ne_zero (registry.targets.mem_keys_set id target)
    simp only [recordTarget, recorded, false_iff]
    intro all
    cases all (.record id target) (List.mem_append_right _ List.mem_cons_self)

theorem reserve (follows : registry.Follows requests) (blank : registry.targets.size = 0)
    (root : NodeId) : (registry.withRoot root).Follows (requests ++ [.reserve root]) := by
  have all := follows.unrecorded.mp blank
  have notBefore : reserved requests = none := reserved_of_assigns all
  have now : reserved (requests ++ [.reserve root]) = some root :=
    reserved_append_of_assigns all _
  have noRoot (node : NodeId) : registry.identifier? node ≠ some .root := by
    intro isRoot
    rw [follows.root, notBefore] at isRoot
    cases isRoot
  refine ⟨follows.unambiguous.withRoot noRoot root, fun node => ?_, fun node => ?_, ?_⟩
  · rw [now, identifier?_withRoot]
    by_cases same : root = node
    · simp [same]
    · simp [same, noRoot]
  · rw [now, identifier?_withRoot]
    by_cases same : root = node
    · simp [same]
    · rw [if_neg same, follows.known, notBefore]
      simp [same]
  · have recorded := Table.size_ne_zero
      (registry.targets.mem_keys_set Identifier.root.text Identifier.root.text)
    simp only [Registry.withRoot, recorded, false_iff]
    intro onlyAssigns
    cases onlyAssigns (.reserve root) (List.mem_append_right _ List.mem_cons_self)

/-- A request to reserve the root that comes too late changes nothing. -/
theorem reserve_late (follows : registry.Follows requests) (recorded : registry.targets.size ≠ 0)
    (root : NodeId) : registry.Follows (requests ++ [.reserve root]) := by
  have other := mt follows.unrecorded.mpr recorded
  have same := reserved_append_of_other other [.reserve root]
  refine ⟨follows.unambiguous, fun node => ?_, fun node => ?_, ?_⟩
  · rw [same]
    exact follows.root node
  · rw [same, follows.known]
    simp
  · simp only [recorded, false_iff]
    intro all
    exact other fun request member => all request (List.mem_append_left _ member)

theorem handle (follows : registry.Follows requests) (request : Request) :
    (registry.handle request).2.Follows (requests ++ [request]) := by
  cases request with
  | assign node => exact follows.assign node
  | record id target => exact follows.record id target
  | reserve root =>
      rw [handle_reserve]
      split
      · next blank => exact follows.reserve blank root
      · next recorded => exact follows.reserve_late recorded root

theorem handleAll (follows : registry.Follows requests) (further : List Request) :
    (registry.handleAll further).Follows (requests ++ further) := by
  induction further generalizing registry requests with
  | nil =>
      rw [List.append_nil]
      exact follows
  | cons request rest ih =>
      rw [List.append_cons]
      exact ih (follows.handle request)

end Follows

/-! ## Several requests -/

/-- As many nodes have an identifier as have been given one. -/
theorem encard_identified (registry : Registry) :
    {node | (registry.id? node).isSome}.encard = registry.assigned := by
  have nodes : {node | (registry.id? node).isSome} =
      (registry.identifiers.keys.toFinset : Set NodeId) := by
    ext node
    rw [Set.mem_ofPred_eq, isSome_id?, List.coe_toFinset, Set.mem_ofPred_eq,
      ← registry.identifiers.contains_iff]
    rfl
  have different : registry.identifiers.keys.Nodup := registry.identifiers.keys_nodup
  have length : registry.identifiers.keys.length = registry.assigned := List.length_map _
  rw [nodes, Set.encard_coe_eq_coe_finsetCard, List.toFinset_card_of_nodup different, length]

/-- A node keeps its identifier, unless the root is reserved for it. -/
theorem id?_handle (registry : Registry) (request : Request) {node : NodeId} {id : String}
    (known : registry.id? node = some id) :
    (registry.handle request).2.id? node = some id ∨
      request = .reserve node ∧ (registry.handle request).1 = .ok (some "root") ∧
        (registry.handle request).2.id? node = some "root" := by
  rcases Option.map_eq_some_iff.mp known with ⟨identifier, found, rfl⟩
  cases request with
  | record id target => exact Or.inl known
  | assign other =>
      refine Or.inl ?_
      have kept := (registry.grows_identify other).identifiers node identifier found
      exact (id?_eq_some_iff _ node identifier).mpr kept
  | reserve root =>
      rw [handle_reserve]
      split
      · by_cases same : root = node
        · subst same
          refine Or.inr ⟨rfl, rfl, ?_⟩
          apply (id?_eq_some_iff _ root .root).mpr
          rw [identifier?_withRoot, if_pos rfl]
        · refine Or.inl ((id?_eq_some_iff _ node identifier).mpr ?_)
          rw [identifier?_withRoot, if_neg same, found]
      · exact Or.inl known

theorem id?_handleAll (registry : Registry) (requests : List Request) {node : NodeId}
    {id : String} (known : registry.id? node = some id) :
    (registry.handleAll requests).id? node = some id ∨
      exists before after, requests = before ++ .reserve node :: after ∧
        ((registry.handleAll before).handle (.reserve node)).1 = .ok (some "root") ∧
        (registry.handleAll requests).id? node = some "root" := by
  induction requests generalizing registry id with
  | nil => exact Or.inl known
  | cons request rest ih =>
      have fromRest {id : String} (now : (registry.handle request).2.id? node = some id) :
          (registry.handleAll (request :: rest)).id? node = some id ∨
            exists before after, request :: rest = before ++ .reserve node :: after ∧
              ((registry.handleAll before).handle (.reserve node)).1 = .ok (some "root") ∧
              (registry.handleAll (request :: rest)).id? node = some "root" := by
        rcases ih _ now with kept | ⟨before, after, rfl, reserved, later⟩
        · exact Or.inl kept
        · exact Or.inr ⟨request :: before, after, rfl, reserved, later⟩
      rcases registry.id?_handle request known with kept | ⟨rfl, reserved, now⟩
      · exact fromRest kept
      · rcases fromRest now with later | replaced
        · exact Or.inr ⟨[], rest, rfl, reserved, later⟩
        · exact Or.inr replaced

/-- The root is reserved for a node by a request that succeeds. -/
def Reserves (requests : List Request) (node : NodeId) : Prop :=
  exists before after, requests = before ++ .reserve node :: after ∧
    ((empty.handleAll before).handle (.reserve node)).1 = .ok (some "root")

theorem handle_reserve_iff (registry : Registry) (root : NodeId) :
    (registry.handle (.reserve root)).1 = .ok (some "root") <-> registry.targets.size = 0 := by
  rw [handle_reserve]
  split
  · next blank => exact ⟨fun _ => blank, fun _ => rfl⟩
  · next recorded => exact ⟨(nomatch ·), fun blank => absurd blank recorded⟩

theorem follows_handleAll (requests : List Request) :
    (empty.handleAll requests).Follows requests :=
  Follows.nothing.handleAll requests

theorem reserves_iff (requests : List Request) (node : NodeId) :
    Reserves requests node <-> reserved requests = some node := by
  rw [reserved_eq_some_iff]
  unfold Reserves
  simp only [handle_reserve_iff, (follows_handleAll _).unrecorded]

/-- What is answered when a node asks for its identifier. -/
theorem Follows.assigned_id {registry : Registry} {requests : List Request}
    (follows : registry.Follows requests) (node : NodeId) :
    (registry.handle (.assign node)).2.id? node = some (registry.identifierFor node).text ∧
      (forall known, registry.id? node = some known ->
        (registry.identifierFor node).text = known) ∧
      ((registry.identifierFor node).text = "root" -> reserved requests = some node) := by
  refine ⟨?_, ?_, ?_⟩
  · exact (id?_eq_some_iff _ _ _).mpr (registry.identifier?_identify_self node)
  · intro id known
    rcases Option.map_eq_some_iff.mp known with ⟨identifier, found, rfl⟩
    rw [identifierFor_of_known found]
  · intro text
    have isRoot : registry.identifierFor node = .root := Identifier.text_injective text
    rw [← follows.root]
    cases known : registry.identifier? node with
    | none =>
        rw [identifierFor_of_unknown known] at isRoot
        cases isRoot
    | some identifier => rw [← isRoot, identifierFor_of_known known]

/-- The identifiers that a registry has issued. -/
structure Issued (registry : Registry) (requests : List Request) : Prop where
  distinct : forall first second id, registry.id? first = some id ->
    registry.id? second = some id -> first = second
  spelled : forall node id, registry.id? node = some id ->
    id = "root" ∨ exists number, number < registry.assigned ∧ id = "N" ++ toString number
  root : forall node, registry.id? node = some "root" <-> Reserves requests node
  known : forall node, (registry.id? node).isSome <->
    .assign node ∈ requests ∨ Reserves requests node
  counted : {node | (registry.id? node).isSome}.encard = registry.assigned

theorem Follows.issued {registry : Registry} {requests : List Request}
    (follows : registry.Follows requests) : registry.Issued requests where
  distinct first second id left right := by
    rcases Option.map_eq_some_iff.mp left with ⟨identifier, found, rfl⟩
    have also := (registry.id?_eq_some_iff second identifier).mp right
    exact follows.unambiguous.distinct first second identifier found also
  spelled node id known := by
    rcases Option.map_eq_some_iff.mp known with ⟨identifier, found, rfl⟩
    cases identifier with
    | root => exact Or.inl rfl
    | numbered number =>
        exact Or.inr ⟨number, follows.unambiguous.numbered node number found, rfl⟩
  root node := by
    rw [reserves_iff, ← follows.root]
    exact registry.id?_eq_some_iff node .root
  known node := by
    rw [isSome_id?, reserves_iff]
    exact follows.known node
  counted := registry.encard_identified

/-- Whatever a registry is asked for, and in whatever order, no two nodes have the same identifier.
A node that asks for its identifier gets the one it has, or else a new one, and keeps it until the
root is reserved for it.  The root can be reserved as long as nothing else was asked for than
identifiers of nodes, and so at most once; from then on such a request changes nothing. -/
theorem handleAll_issued (requests : List Request) :
    let registry := empty.handleAll requests
    registry.Issued requests ∧
      (forall node, exists id, (registry.handle (.assign node)).1 = .ok (some id) ∧
        (registry.handle (.assign node)).2.id? node = some id ∧
        (forall known, registry.id? node = some known -> id = known) ∧
        (id = "root" -> Reserves requests node)) ∧
      (forall further node id, registry.id? node = some id ->
        (registry.handleAll further).id? node = some id ∨
          exists before after, further = before ++ .reserve node :: after ∧
            ((registry.handleAll before).handle (.reserve node)).1 = .ok (some "root") ∧
            (registry.handleAll further).id? node = some "root") ∧
      (forall id target node,
        (registry.handle (.record id target)).2.id? node = registry.id? node) ∧
      (forall root, (registry.handle (.reserve root)).1 = .ok (some "root") <->
        forall request, request ∈ requests -> exists node, request = .assign node) ∧
      forall root, (registry.handle (.reserve root)).1 ≠ .ok (some "root") ->
        registry.handle (.reserve root) = (.error .rootAlreadySet, registry) := by
  intro registry
  have follows : registry.Follows requests := follows_handleAll requests
  refine ⟨follows.issued, fun node => ?_, fun further node id => registry.id?_handleAll further,
    fun id target node => rfl, fun root => ?_, fun root refused => ?_⟩
  · rcases follows.assigned_id node with ⟨given, known, isRoot⟩
    exact ⟨_, rfl, given, known, fun text => (reserves_iff _ _).mpr (isRoot text)⟩
  · rw [handle_reserve_iff, follows.unrecorded]
    refine forall₂_congr fun request _ => ?_
    cases request <;> simp [Request.assigns]
  · rw [handle_reserve, if_neg (mt (registry.handle_reserve_iff root).mpr refused)]

/-- A node that becomes the root loses its number, which is not given again.  Another node cannot
become the root then. -/
theorem reserved_issued :
    let first := empty.handleAll [.assign 4]
    let later := empty.handleAll [.assign 4, .reserve 4, .assign 2]
    first.id? 4 = some "N0" ∧ (first.handle (.reserve 4)).1 = .ok (some "root") ∧
      later.Issued [.assign 4, .reserve 4, .assign 2] ∧ later.id? 4 = some "root" ∧
      later.id? 2 = some "N1" ∧ later.handle (.reserve 2) = (.error .rootAlreadySet, later) := by
  intro first later
  rcases handleAll_issued [.assign 4] with ⟨_, _, _, _, reserves, _⟩
  rcases handleAll_issued [.assign 4, .reserve 4, .assign 2] with ⟨issued, _, _, _, _, refuses⟩
  have onlyAssigns (request : Request) (member : request ∈ [Request.assign 4]) :
      exists node, request = .assign node := ⟨4, List.mem_singleton.mp member⟩
  have late : (later.handle (.reserve 2)).1 ≠ .ok (some "root") := nofun
  exact ⟨rfl, (reserves 4).mpr onlyAssigns, issued, rfl, rfl, refuses 2 late⟩

end Registry
end InjectionPlan
