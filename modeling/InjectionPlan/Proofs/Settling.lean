import InjectionPlan.Proofs.Conduct

namespace InjectionPlan

/-!
# When nodes and targets agree

Between two offers of a tour, and at its end, what has been shown and what has been recorded agree:
a node shown under an identifier has its target recorded, and a target is recorded for a number
only if the node has been shown (`Tour.punctual`).  This does not hold at every moment, for a
target is recorded right after the last descriptor of its node.  But nothing in between can be
refused.
-/

/-- What has been shown agrees with what has been recorded. -/
structure Settled (registry : Registry) (shown : List Diagram.Node) : Prop where
  addressed : forall node, node ∈ shown -> stem node.target = node.id.toList
  recorded : forall node (identifier : Identifier), node ∈ shown -> node.id = identifier.text ->
    registry.target? identifier.text = some node.target
  backed : forall number target,
    registry.target? (Identifier.numbered number).text = some target ->
      exists node, node ∈ shown ∧ node.id = (Identifier.numbered number).text

/-- Whenever one of the actions offers a node, and when all have been done, what has been shown
agrees with what has been recorded. -/
def Punctual : Registry -> List Diagram.Node -> List Action -> Prop
  | registry, shown, [] => Settled registry shown
  | registry, shown, action :: rest =>
    (action.offered?.isSome -> Settled registry shown) ∧
      Punctual (registry.apply action) (shown ++ offeredIn [action]) rest

namespace Settled

variable {registry : Registry} {shown : List Diagram.Node}

theorem identify (settled : Settled registry shown) (node : NodeId) :
    Settled (registry.identify node) shown where
  addressed := settled.addressed
  recorded other identifier member same := by
    rw [Registry.target?_identify]
    exact settled.recorded other identifier member same
  backed number target found := by
    rw [Registry.target?_identify] at found
    exact settled.backed number target found

/-- The provider beside a node has no target of its own to be recorded. -/
theorem withProvider (settled : Settled registry shown) {identifier : Identifier}
    {provider : Diagram.Node} (id : provider.id = providerId identifier.text)
    (addressed : stem provider.target = provider.id.toList) :
    Settled registry (shown ++ [provider]) where
  addressed node member := by
    rcases List.mem_append.mp member with before | last
    · exact settled.addressed node before
    · rw [List.mem_singleton.mp last]
      exact addressed
  recorded node other member same := by
    rcases List.mem_append.mp member with before | last
    · exact settled.recorded node other before same
    · rw [List.mem_singleton.mp last, id] at same
      exact absurd same (identifier.providerId_ne_text other)
  backed number target found := by
    rcases settled.backed number target found with ⟨node, member, same⟩
    exact ⟨node, List.mem_append_left _ member, same⟩

/-- When a node has been shown its target is recorded. -/
theorem recordTarget (settled : Settled registry shown) {identifier : Identifier}
    (unrecorded : registry.target? identifier.text = none) {own : Diagram.Node}
    (id : own.id = identifier.text) (addressed : stem own.target = own.id.toList) :
    Settled (registry.recordTarget identifier.text own.target) (shown ++ [own]) where
  addressed node member := by
    rcases List.mem_append.mp member with before | last
    · exact settled.addressed node before
    · rw [List.mem_singleton.mp last]
      exact addressed
  recorded node other member same := by
    rw [Registry.target?_recordTarget]
    rcases List.mem_append.mp member with before | last
    · have earlier := settled.recorded node other before same
      split
      · next equal =>
        rw [← equal, unrecorded] at earlier
        cases earlier
      · exact earlier
    · rw [List.mem_singleton.mp last] at same ⊢
      rw [if_pos (id.symm.trans same)]
  backed number target found := by
    rw [Registry.target?_recordTarget] at found
    split at found
    · next equal =>
      exact ⟨own, List.mem_append_right _ (List.mem_singleton_self own), id.trans equal⟩
    · rcases settled.backed number target found with ⟨node, member, same⟩
      exact ⟨node, List.mem_append_left _ member, same⟩

end Settled

namespace Punctual

variable {registry : Registry} {shown : List Diagram.Node}

theorem append {first second : List Action} (before : Punctual registry shown first)
    (behind : Punctual (registry.applyAll first) (shown ++ offeredIn first) second) :
    Punctual registry shown (first ++ second) := by
  induction first generalizing registry shown with
  | nil =>
      rw [offeredIn, List.filterMap_nil, List.append_nil] at behind
      exact behind
  | cons action rest ih =>
      refine ⟨before.1, ih before.2 ?_⟩
      rw [List.append_assoc, ← offeredIn_append]
      exact behind

theorem settled {actions : List Action} (punctual : Punctual registry shown actions) :
    Settled (registry.applyAll actions) (shown ++ offeredIn actions) := by
  induction actions generalizing registry shown with
  | nil =>
      rw [offeredIn, List.filterMap_nil, List.append_nil]
      exact punctual
  | cons action rest ih =>
      have later := ih punctual.2
      rw [List.append_assoc, ← offeredIn_append] at later
      exact later

/-- Before an offer what has been shown agrees with what has been recorded. -/
theorem settled_before {before after : List Action} {node : Diagram.Node}
    (punctual : Punctual registry shown (before ++ .offer node :: after)) :
    Settled (registry.applyAll before) (shown ++ offeredIn before) := by
  induction before generalizing registry shown with
  | nil =>
      rw [offeredIn, List.filterMap_nil, List.append_nil]
      exact punctual.1 rfl
  | cons action rest ih =>
      have later := ih punctual.2
      rw [List.append_assoc, ← offeredIn_append] at later
      exact later

/-- Where nothing is offered only the end counts. -/
theorem of_silent {actions : List Action} (silent : offeredIn actions = [])
    (settled : Settled (registry.applyAll actions) shown) : Punctual registry shown actions := by
  induction actions generalizing registry with
  | nil => exact settled
  | cons action rest ih =>
      have both : offeredIn [action] ++ offeredIn rest = [] := by
        rw [← offeredIn_append]
        exact silent
      rcases List.append_eq_nil_iff.mp both with ⟨quiet, still⟩
      have noOffer : action.offered? = none := by
        cases action with
        | offer node => cases quiet
        | identify node => rfl
        | record identifier target => rfl
        | enqueue edge => rfl
        | unbound qualifier => rfl
        | note event => rfl
      refine ⟨fun offers => ?_, ?_⟩
      · rw [noOffer] at offers
        cases offers
      · rw [quiet, List.append_nil]
        exact ih still settled

/-- The descriptors of a node are offered, and then its target is recorded. -/
theorem closing (settled : Settled registry shown) (scene : Scene) (node : NodeId) (data : Node)
    (satisfaction : Satisfaction) {identifier : Identifier}
    (unrecorded : registry.target? identifier.text = none) :
    let portrait := scene.portrait node data satisfaction identifier.text
    Punctual registry shown (portrait.closing ++ [.record identifier portrait.target]) := by
  have addressed {descriptor : Diagram.Node}
      (member : descriptor ∈ (scene.portrait node data satisfaction identifier.text).nodes) :=
    scene.stem_target_portrait node data satisfaction identifier member
  rcases scene.portrait_nodes node data satisfaction identifier.text with ⟨own, id, target, nodes⟩
  dsimp only
  generalize scene.portrait node data satisfaction identifier.text = portrait at *
  have ended {before : List Diagram.Node} (agrees : Settled registry before)
      (inPortrait : own ∈ portrait.nodes) :
      Punctual registry before
        (.offer own :: (portrait.backEdges.map .enqueue ++
          [.record identifier portrait.target])) := by
    refine ⟨fun _ => agrees, of_silent (by simp [offeredIn, Action.offered?]) ?_⟩
    rw [← target, Registry.applyAll_append]
    simpa [Registry.apply, offeredIn, Action.offered?] using
      agrees.recordTarget unrecorded id (addressed inPortrait)
  rw [Portrait.closing, List.append_assoc]
  rcases nodes with alone | ⟨provider, providerName, both⟩
  · rw [alone] at ended ⊢
    exact ended settled (List.mem_singleton_self own)
  · rw [both] at ended addressed ⊢
    have agrees := settled.withProvider providerName (addressed List.mem_cons_self)
    exact ⟨fun _ => settled,
      ended agrees (List.mem_cons_of_mem _ (List.mem_singleton_self own))⟩

end Punctual

namespace Tour

variable {scene : Scene} {stops : List Stop} {registry : Registry} {course : Course Unit}

/-- Whenever a tour offers a node, what has been shown agrees with what has been recorded. -/
theorem punctual (tour : Tour scene stops registry course) (sound : registry.Sound scene.graph)
    {shown : List Diagram.Node} (settled : Settled registry shown) :
    Punctual registry shown course.actions := by
  induction tour generalizing shown with
  | done => exact settled
  | row _ ih =>
      apply (Punctual.of_silent (by simp) (by simpa using settled)).append
      simpa using ih sound settled
  | known _ _ ih =>
      apply (Punctual.of_silent (by simp) (by simpa using settled)).append
      simpa using ih sound settled
  | foreign _ _ => exact .of_silent (by simp) (by simpa using settled)
  | bare _ _ _ =>
      refine .of_silent (by simp [offeredIn, Action.offered?]) ?_
      simpa [Registry.apply] using settled.identify _
  | @failed node _ _ _ _ _ _ _ _ _ fresh _ ih =>
      have opened := settled.identify node
      refine (Punctual.of_silent (by simp) (by simpa using settled)).append
        ((Punctual.of_silent (by simp) (by simpa using opened)).append ?_)
      simpa using ih (sound.identify fresh.unknown) opened
  | @shown node events leads rest registry course data satisfaction actions reached fresh within
      behind ihWithin ihLater =>
      rcases within.shown_sound fresh sound with ⟨known, grows, recorded⟩
      have unrecorded := within.shown_unrecorded fresh sound
      have reaches := within.registry_eq
      dsimp only at reaches
      have opened := settled.identify node
      have inner := ihWithin (sound.identify fresh.unknown) opened
      have innerSettled := inner.settled
      dsimp only at innerSettled
      rw [← reaches] at innerSettled
      have closed := Punctual.closing innerSettled scene node data satisfaction unrecorded
      have showing : Punctual registry shown
          (scene.showing registry node data satisfaction actions) := by
        rw [Scene.showing, List.append_assoc, List.append_assoc]
        apply (Punctual.of_silent (by simp) (by simpa using opened)).append
        rw [Registry.applyAll_opening, offeredIn_opening, List.append_nil]
        exact inner.append (reaches ▸ closed)
      have shownSettled := showing.settled
      rw [Registry.applyAll_showing, ← reaches] at shownSettled
      have later := ihLater recorded shownSettled
      have noted : Punctual registry shown (events.map .note) :=
        .of_silent (by simp) (by simpa using settled)
      refine ((noted.append ?_).append (Punctual.of_silent (by simp) ?_)).append ?_
      · simpa using showing
      · simpa [Registry.applyAll_showing, ← reaches] using shownSettled
      · simpa [Registry.applyAll_showing, ← reaches] using later

end Tour
end InjectionPlan
