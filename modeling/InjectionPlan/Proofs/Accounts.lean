import InjectionPlan.Proofs.Tour

namespace InjectionPlan

/-!
# The accounts that a registry keeps

A registry is sound if no two nodes share an identifier, numbers are given from zero on, and what
is recorded for an identifier is where edges to its node have to end.  An action is admitted if
it keeps a sound registry sound: a node must not get a second identifier, and a target must be
recorded once, for the node that it belongs to.  Soundness then holds after every beginning of a
list of admitted actions, so also when a sink puts an end to it.
-/

/-! ## What a list of actions does -/

namespace Action

/-- The node that gets an identifier. -/
def identified? : Action -> Option NodeId
  | identify node => some node
  | _ => none

/-- The node of the diagram that is offered. -/
def offered? : Action -> Option Diagram.Node
  | offer node => some node
  | _ => none

/-- The edge that is queued. -/
def queued? : Action -> Option Diagram.Edge
  | enqueue edge => some edge
  | _ => none

/-- The qualifier of the parameter that has no value. -/
def unbound? : Action -> Option Qualifier
  | unbound qualifier => some qualifier
  | _ => none

end Action

/-- The nodes that get an identifier, in this order. -/
def identifiedIn (actions : List Action) : List NodeId :=
  actions.filterMap Action.identified?

/-- The nodes of the diagram that are offered, in this order. -/
def offeredIn (actions : List Action) : List Diagram.Node :=
  actions.filterMap Action.offered?

/-- The edges that are queued, in this order. -/
def queuedIn (actions : List Action) : List Diagram.Edge :=
  actions.filterMap Action.queued?

/-- The parameters that turn out to have no value, in this order. -/
def unboundIn (actions : List Action) : List Qualifier :=
  actions.filterMap Action.unbound?

section

variable (first second : List Action)

@[simp] theorem identifiedIn_append :
    identifiedIn (first ++ second) = identifiedIn first ++ identifiedIn second :=
  List.filterMap_append

@[simp] theorem offeredIn_append :
    offeredIn (first ++ second) = offeredIn first ++ offeredIn second :=
  List.filterMap_append

@[simp] theorem queuedIn_append : queuedIn (first ++ second) = queuedIn first ++ queuedIn second :=
  List.filterMap_append

@[simp] theorem unboundIn_append :
    unboundIn (first ++ second) = unboundIn first ++ unboundIn second :=
  List.filterMap_append

end

section

variable (events : List LogEvent) (qualifier : Qualifier) (value : Option Instance)
  (leads : List Diagram.Edge) (target : String)

@[simp] theorem identifiedIn_notes : identifiedIn (events.map .note) = [] := by
  simp [identifiedIn, List.filterMap_map, Function.comp_def, Action.identified?]

@[simp] theorem offeredIn_notes : offeredIn (events.map .note) = [] := by
  simp [offeredIn, List.filterMap_map, Function.comp_def, Action.offered?]

@[simp] theorem queuedIn_notes : queuedIn (events.map .note) = [] := by
  simp [queuedIn, List.filterMap_map, Function.comp_def, Action.queued?]

@[simp] theorem unboundIn_notes : unboundIn (events.map .note) = [] := by
  simp [unboundIn, List.filterMap_map, Function.comp_def, Action.unbound?]

@[simp] theorem identifiedIn_rowActions :
    identifiedIn (Stop.rowActions qualifier value) = [] := by
  cases value <;> rfl

@[simp] theorem offeredIn_rowActions : offeredIn (Stop.rowActions qualifier value) = [] := by
  cases value <;> rfl

@[simp] theorem queuedIn_rowActions : queuedIn (Stop.rowActions qualifier value) = [] := by
  cases value <;> rfl

@[simp] theorem unboundIn_rowActions :
    unboundIn (Stop.rowActions qualifier value) = value.elim [qualifier] fun _ => [] := by
  cases value <;> rfl

@[simp] theorem identifiedIn_linkActions : identifiedIn (Stop.linkActions leads target) = [] := by
  simp [identifiedIn, Stop.linkActions, List.filterMap_map, Function.comp_def, Action.identified?]

@[simp] theorem offeredIn_linkActions : offeredIn (Stop.linkActions leads target) = [] := by
  simp [offeredIn, Stop.linkActions, List.filterMap_map, Function.comp_def, Action.offered?]

@[simp] theorem queuedIn_linkActions :
    queuedIn (Stop.linkActions leads target) = leads.map (·.leadingTo target) := by
  simp [queuedIn, Stop.linkActions, List.filterMap_map, Function.comp_def, Action.queued?]

@[simp] theorem unboundIn_linkActions : unboundIn (Stop.linkActions leads target) = [] := by
  simp [unboundIn, Stop.linkActions, List.filterMap_map, Function.comp_def, Action.unbound?]

end

section

variable (portrait : Portrait)

@[simp] theorem identifiedIn_closing : identifiedIn portrait.closing = [] := by
  simp [identifiedIn, Portrait.closing, List.filterMap_map, Function.comp_def, Action.identified?]

@[simp] theorem offeredIn_closing : offeredIn portrait.closing = portrait.nodes := by
  simp [offeredIn, Portrait.closing, List.filterMap_map, Function.comp_def, Action.offered?]

@[simp] theorem queuedIn_closing : queuedIn portrait.closing = portrait.backEdges := by
  simp [queuedIn, Portrait.closing, List.filterMap_map, Function.comp_def, Action.queued?]

@[simp] theorem unboundIn_closing : unboundIn portrait.closing = [] := by
  simp [unboundIn, Portrait.closing, List.filterMap_map, Function.comp_def, Action.unbound?]

end

section

variable (node : NodeId) (identifier : Identifier) (satisfaction : Satisfaction)

@[simp] theorem identifiedIn_opening :
    identifiedIn (opening node identifier satisfaction) = [node] := rfl

@[simp] theorem offeredIn_opening : offeredIn (opening node identifier satisfaction) = [] := rfl

@[simp] theorem queuedIn_opening : queuedIn (opening node identifier satisfaction) = [] := rfl

@[simp] theorem unboundIn_opening : unboundIn (opening node identifier satisfaction) = [] := rfl

end

section

variable (scene : Scene) (registry : Registry) (node : NodeId) (data : Node)
  (satisfaction : Satisfaction) (actions : List Action)

@[simp] theorem identifiedIn_showing :
    identifiedIn (scene.showing registry node data satisfaction actions) =
      node :: identifiedIn actions := by
  simp [Scene.showing]
  rfl

@[simp] theorem offeredIn_showing :
    offeredIn (scene.showing registry node data satisfaction actions) =
      offeredIn actions ++ (scene.portraitIn registry node data satisfaction).nodes := by
  simp [Scene.showing]
  rfl

@[simp] theorem queuedIn_showing :
    queuedIn (scene.showing registry node data satisfaction actions) =
      queuedIn actions ++ (scene.portraitIn registry node data satisfaction).backEdges := by
  simp [Scene.showing]
  rfl

@[simp] theorem unboundIn_showing :
    unboundIn (scene.showing registry node data satisfaction actions) = unboundIn actions := by
  simp [Scene.showing]
  rfl

end

/-! ## Soundness -/

/-- What the graph says of the satisfaction of a node. -/
def Graph.satisfaction? (graph : Graph) (node : NodeId) : Option Satisfaction :=
  (graph.node? node).bind Node.satisfaction

/-- Where edges to a node with an identifier have to end. -/
def Graph.endpoint (graph : Graph) (node : NodeId) (identifier : Identifier) : String :=
  match identifier, graph.satisfaction? node with
  | .numbered _, some (.ofClass _) => headerOf identifier.text
  | .numbered _, some (.ofProviderClass _ _) => headerOf identifier.text
  | .numbered _, some (.ofProviderInstance _ _ _) => headerOf identifier.text
  | _, _ => identifier.text

/-- No two nodes share an identifier, and the next number has not been given. -/
structure Registry.Unambiguous (registry : Registry) : Prop where
  distinct : forall first second identifier, registry.identifier? first = some identifier ->
    registry.identifier? second = some identifier -> first = second
  numbered : forall node number, registry.identifier? node = some (.numbered number) ->
    number < registry.assigned

/-- No two nodes share an identifier, and what is recorded is right. -/
structure Registry.Sound (graph : Graph) (registry : Registry) : Prop where
  distinct : forall first second identifier, registry.identifier? first = some identifier ->
    registry.identifier? second = some identifier -> first = second
  numbered : forall node number, registry.identifier? node = some (.numbered number) ->
    number < registry.assigned
  recorded : forall text target, registry.target? text = some target ->
    exists node identifier, registry.identifier? node = some identifier ∧
      text = identifier.text ∧ target = graph.endpoint node identifier

/-- What was known about nodes with identifiers has not changed. -/
structure Registry.Grows (before after : Registry) : Prop where
  identifiers : forall node identifier, before.identifier? node = some identifier ->
    after.identifier? node = some identifier
  targets : forall node identifier, before.identifier? node = some identifier ->
    after.target? identifier.text = before.target? identifier.text

namespace Registry

theorem identifierFor_of_known {registry : Registry} {node : NodeId} {identifier : Identifier}
    (known : registry.identifier? node = some identifier) :
    registry.identifierFor node = identifier := by
  rw [identifierFor, known, Option.getD_some]

theorem identifierFor_of_unknown {registry : Registry} {node : NodeId}
    (unknown : registry.identifier? node = none) :
    registry.identifierFor node = .numbered registry.assigned := by
  rw [identifierFor, unknown, Option.getD_none]

@[simp] theorem identifier?_recordTarget (registry : Registry) (id target : String)
    (node : NodeId) :
    (registry.recordTarget id target).identifier? node = registry.identifier? node := rfl

@[simp] theorem target?_recordTarget (registry : Registry) (id target other : String) :
    (registry.recordTarget id target).target? other =
      if id = other then some target else registry.target? other :=
  Table.get?_set registry.targets id other target

@[simp] theorem target?_identify (registry : Registry) (node : NodeId) (text : String) :
    (registry.identify node).target? text = registry.target? text := by
  unfold identify
  split <;> rfl

theorem assigned_identify {registry : Registry} {node : NodeId}
    (unknown : registry.identifier? node = none) :
    (registry.identify node).assigned = registry.assigned + 1 := by
  have absent : node ∉ registry.identifiers.keys := by
    intro member
    have found := (registry.identifiers.contains_iff node).mpr member
    rw [Table.contains, show registry.identifiers.get? node = none from unknown] at found
    cases found
  rw [identify, unknown]
  exact (registry.identifiers.size_set node _).trans (if_neg absent)

theorem Grows.refl (registry : Registry) : registry.Grows registry where
  identifiers _ _ known := known
  targets _ _ _ := rfl

theorem Grows.trans {first second third : Registry} (before : first.Grows second)
    (after : second.Grows third) : first.Grows third where
  identifiers node identifier known :=
    after.identifiers node identifier (before.identifiers node identifier known)
  targets node identifier known :=
    (after.targets node identifier (before.identifiers node identifier known)).trans
      (before.targets node identifier known)

theorem grows_identify (registry : Registry) (node : NodeId) :
    registry.Grows (registry.identify node) where
  identifiers other identifier known := by
    rw [identifier?_identify]
    by_cases same : node = other
    · subst same
      rw [if_pos rfl, identifierFor_of_known known]
    · rw [if_neg same, known]
  targets _ _ _ := registry.target?_identify node _

/-- A node that had no identifier gets one that no node had. -/
theorem Unambiguous.identify {registry : Registry} (unambiguous : registry.Unambiguous)
    {node : NodeId} (unknown : registry.identifier? node = none) :
    (registry.identify node).Unambiguous where
  distinct first second identifier := by
    have new (other : NodeId) : registry.identifier? other ≠ some (.numbered registry.assigned) :=
      fun known => absurd (unambiguous.numbered other _ known) (Nat.lt_irrefl _)
    simp only [identifier?_identify, identifierFor_of_unknown unknown]
    intro left right
    by_cases isFirst : node = first
    · by_cases isSecond : node = second
      · exact isFirst.symm.trans isSecond
      · rw [if_pos isFirst] at left
        rw [if_neg isSecond, ← left] at right
        exact absurd right (new second)
    · rw [if_neg isFirst] at left
      by_cases isSecond : node = second
      · rw [if_pos isSecond, ← left] at right
        exact absurd right.symm (new first)
      · rw [if_neg isSecond] at right
        exact unambiguous.distinct first second identifier left right
  numbered other number := by
    rw [assigned_identify unknown, identifier?_identify, identifierFor_of_unknown unknown]
    intro known
    by_cases same : node = other
    · rw [if_pos same] at known
      cases known
      exact Nat.lt_succ_self _
    · rw [if_neg same] at known
      exact Nat.lt_succ_of_lt (unambiguous.numbered other number known)

namespace Sound

variable {graph : Graph} {registry : Registry}

theorem unambiguous (sound : registry.Sound graph) : registry.Unambiguous :=
  ⟨sound.distinct, sound.numbered⟩

/-- Nothing is recorded for an identifier that is still to be given. -/
theorem target?_next (sound : registry.Sound graph) :
    registry.target? (Identifier.numbered registry.assigned).text = none := by
  cases found : registry.target? (Identifier.numbered registry.assigned).text with
  | none => rfl
  | some target =>
      rcases sound.recorded _ _ found with ⟨node, identifier, known, text, _⟩
      rw [← Identifier.text_injective text] at known
      exact absurd (sound.numbered node _ known) (Nat.lt_irrefl _)

theorem identify (sound : registry.Sound graph) {node : NodeId}
    (unknown : registry.identifier? node = none) : (registry.identify node).Sound graph where
  distinct := (sound.unambiguous.identify unknown).distinct
  numbered := (sound.unambiguous.identify unknown).numbered
  recorded text target found := by
    rw [target?_identify] at found
    rcases sound.recorded text target found with ⟨other, identifier, known, rest⟩
    exact ⟨other, identifier, (registry.grows_identify node).identifiers other identifier known,
      rest⟩

theorem recordTarget (sound : registry.Sound graph) {node : NodeId} {identifier : Identifier}
    (known : registry.identifier? node = some identifier) :
    (registry.recordTarget identifier.text (graph.endpoint node identifier)).Sound graph where
  distinct := sound.distinct
  numbered := sound.numbered
  recorded text target found := by
    rw [target?_recordTarget] at found
    by_cases same : identifier.text = text
    · rw [if_pos same] at found
      cases found
      exact ⟨node, identifier, known, same.symm, rfl⟩
    · rw [if_neg same] at found
      exact sound.recorded text target found

end Sound
end Registry
end InjectionPlan
