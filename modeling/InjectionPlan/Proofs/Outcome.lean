import InjectionPlan.Proofs.Conduct
import InjectionPlan.Session.Queue

namespace InjectionPlan

/-!
# What a tour comes to

When a tour succeeds, every node that it has identified has been shown in full.  So the
descriptors offered are those of the portraits of these nodes (`Tour.offered_perm`).  The edges
queued and the parameters found without a value are those that their portraits ask for, apart from
the stops of the tour itself (`Tour.queued_perm`, `Tour.unbound_perm`).  The targets of the queued
edges may be provisional, but against a registry in which everything has been recorded they all
come to lead to the endpoints of their nodes.

These descriptions name nodes by a registry that is reached later.  They do not speak of the order
in which the nodes were met.
-/

/-- The parameter of a row, if it has no value. -/
def Stop.missing : Stop -> List Qualifier
  | row qualifier value => value.elim [qualifier] fun _ => []
  | turn _ _ _ => []

namespace Graph

/-- The value of a node, if it holds one. -/
def value? (graph : Graph) (node : NodeId) : Option Instance :=
  (graph.node? node).bind Node.instance?

/-- The parameter that an edge asks for, if it has no value. -/
def unbound? (graph : Graph) (edge : Edge) : Option Qualifier :=
  edge.desire.parameter?.filter fun _ => (graph.value? edge.tail).isNone

/-- The rows without a value are those of the parameters without a value. -/
theorem missing_itinerary (graph : Graph) (owner : String) (shown : Nat) (edges : List Edge) :
    (graph.itinerary owner shown edges).flatMap Stop.missing = edges.filterMap graph.unbound? := by
  induction edges generalizing shown with
  | nil => rfl
  | cons edge rest ih =>
      unfold itinerary
      cases asked : edge.desire.parameter? with
      | some qualifier =>
          dsimp only
          rw [List.flatMap_cons, ih, List.filterMap_cons, unbound?, asked, value?]
          cases (graph.node? edge.tail).bind Node.instance? <;> rfl
      | none =>
          dsimp only
          rw [List.flatMap_cons, ih, List.filterMap_cons, unbound?, asked]
          rfl

end Graph

namespace Scene

/-- The portrait of a node of the graph, if it has a satisfaction. -/
def portrait? (scene : Scene) (registry : Registry) (node : NodeId) : Option Portrait :=
  (scene.graph.node? node).bind fun data =>
    data.satisfaction.map (scene.portraitIn registry node data)

/-- The descriptors of a node. -/
def descriptors (scene : Scene) (registry : Registry) (node : NodeId) : List Diagram.Node :=
  (scene.portrait? registry node).elim [] Portrait.nodes

/-- The edges that a stop asks for, leading to the endpoint of the node turned to. -/
def leadsFrom (scene : Scene) (registry : Registry) : Stop -> List Diagram.Edge
  | .row _ _ => []
  | .turn node _ leads =>
    leads.map (·.leadingTo (scene.graph.endpoint node (registry.identifierFor node)))

/-- The edges that the portrait of a node asks for. -/
def edgesOf (scene : Scene) (registry : Registry) (node : NodeId) : List Diagram.Edge :=
  (scene.portrait? registry node).elim [] fun portrait =>
    (scene.stops portrait).flatMap (scene.leadsFrom registry) ++ portrait.backEdges

/-- The parameters in the rows of a node that have no value. -/
def missingOf (scene : Scene) (registry : Registry) (node : NodeId) : List Qualifier :=
  (scene.portrait? registry node).elim [] fun portrait =>
    (scene.stops portrait).flatMap Stop.missing

theorem Fresh.portrait?_eq {scene : Scene} {registry later : Registry} {node : NodeId}
    {data : Node} {satisfaction : Satisfaction}
    (fresh : scene.Fresh registry node data satisfaction)
    (known : later.identifier? node = some (registry.identifierFor node)) :
    scene.portrait? later node = some (scene.portraitIn registry node data satisfaction) := by
  rw [portrait?, fresh.present, Option.bind_some, fresh.bound, Option.map_some, portraitIn,
    portraitIn, Registry.identifierFor_of_known known]

end Scene

namespace Registry

/-- Everything that is known in one registry is known in another. -/
def Within (before after : Registry) : Prop :=
  forall node identifier, before.identifier? node = some identifier ->
    after.identifier? node = some identifier

/-- A target has been recorded for every node with an identifier. -/
def Complete (graph : Graph) (registry : Registry) : Prop :=
  forall node identifier, registry.identifier? node = some identifier ->
    registry.target? identifier.text = some (graph.endpoint node identifier)

variable {graph : Graph} {registry : Registry}

theorem endpoint_eq_text_or_headerOf (graph : Graph) (node : NodeId) (identifier : Identifier) :
    graph.endpoint node identifier = identifier.text ∨
      graph.endpoint node identifier = headerOf identifier.text := by
  unfold Graph.endpoint
  split
  · exact Or.inr rfl
  · exact Or.inr rfl
  · exact Or.inr rfl
  · exact Or.inl rfl

theorem resolve_of_recorded {text target : String} (found : registry.target? text = some target) :
    registry.resolve text = target := by
  rw [resolve, found, Option.getD_some]

theorem resolve_of_not_recorded {text : String} (missing : registry.target? text = none) :
    registry.resolve text = text := by
  rw [resolve, missing, Option.getD_none]

/-- Only identifiers are resolved. -/
theorem Sound.resolve_of_ne (sound : registry.Sound graph) {text : String}
    (different : forall identifier : Identifier, text ≠ identifier.text) :
    registry.resolve text = text := by
  cases found : registry.target? text with
  | none => exact resolve_of_not_recorded found
  | some target =>
      rcases sound.recorded text target found with ⟨_, identifier, _, same, _⟩
      exact absurd same (different identifier)

theorem Complete.resolve_text (complete : registry.Complete graph) {node : NodeId}
    {identifier : Identifier} (known : registry.identifier? node = some identifier) :
    registry.resolve identifier.text = graph.endpoint node identifier :=
  resolve_of_recorded (complete node identifier known)

theorem Complete.resolve_endpoint (complete : registry.Complete graph)
    (sound : registry.Sound graph) {node : NodeId} {identifier : Identifier}
    (known : registry.identifier? node = some identifier) :
    registry.resolve (graph.endpoint node identifier) = graph.endpoint node identifier := by
  rcases endpoint_eq_text_or_headerOf graph node identifier with plain | header
  · rw [plain, complete.resolve_text known, plain]
  · rw [header]
    exact sound.resolve_of_ne (headerOf_ne_text _)

/-- A target taken from a registry, even a provisional one, comes to the endpoint in the end. -/
theorem Complete.resolve_resolve {last : Registry} (complete : last.Complete graph)
    (lastSound : last.Sound graph) (sound : registry.Sound graph) {node : NodeId}
    {identifier : Identifier} (known : registry.identifier? node = some identifier)
    (knownLast : last.identifier? node = some identifier) :
    last.resolve (registry.resolve identifier.text) = graph.endpoint node identifier := by
  cases found : registry.target? identifier.text with
  | none => rw [resolve_of_not_recorded found, complete.resolve_text knownLast]
  | some target =>
      rcases sound.recorded _ target found with ⟨other, same, knownOther, text, rfl⟩
      cases Identifier.text_injective text
      cases sound.distinct node other identifier known knownOther
      rw [resolve_of_recorded found, complete.resolve_endpoint lastSound knownLast]

end Registry

/-- The back edges of a portrait lead to providers, whose identifiers stand for themselves. -/
theorem Scene.retarget_backEdges (scene : Scene) {registry : Registry}
    (sound : registry.Sound scene.graph) (node : NodeId) (data : Node)
    (satisfaction : Satisfaction) (identifier : Identifier) :
    (scene.portrait node data satisfaction identifier.text).backEdges.map
        (Queue.retarget registry) =
      (scene.portrait node data satisfaction identifier.text).backEdges := by
  have back {provided provider : String}
      (different : forall other : Identifier, provider ≠ other.text) :
      Queue.retarget registry (providerEdge provided provider) =
        providerEdge provided provider := by
    have stays := sound.resolve_of_ne different
    unfold Queue.retarget
    rw [show (providerEdge provided provider).target = provider from rfl, stays]
    rfl
  cases satisfaction with
  | null type => rfl
  | ofInstance type value => rfl
  | ofClass type => rfl
  | ofProviderClass provider type =>
      simp only [portrait, List.map_cons, List.map_nil]
      rw [back (headerOf_ne_text _)]
  | ofProviderInstance provider label type =>
      simp only [portrait, List.map_cons, List.map_nil]
      rw [back identifier.providerId_ne_text]

namespace Tour

variable {scene : Scene} {stops : List Stop} {registry : Registry} {course : Course Unit}

/-- Every node that a successful tour has identified has its target in the end. -/
theorem recorded (tour : Tour scene stops registry course) (success : course.result = .ok ())
    (sound : registry.Sound scene.graph) :
    forall node, node ∈ identifiedIn course.actions ->
      exists identifier, course.registry.identifier? node = some identifier ∧
        course.registry.target? identifier.text = some (scene.graph.endpoint node identifier) := by
  induction tour with
  | done =>
      intro node member
      cases member
  | row _ ih => simpa [Course.after] using ih success sound
  | known _ _ ih => simpa [Course.after] using ih success sound
  | foreign _ _ => cases success
  | bare _ _ _ => cases success
  | failed _ _ _ => cases success
  | @shown node events leads rest registry course data satisfaction actions reached fresh within
      later ihWithin ihLater =>
      rcases within.shown_sound fresh sound with ⟨known, grows, recorded⟩
      rcases later.sound recorded with ⟨_, laterGrows⟩
      intro other member
      simp only [Course.after, identifiedIn_append, identifiedIn_notes, identifiedIn_showing,
        identifiedIn_linkActions, List.nil_append, List.append_nil, List.cons_append,
        List.mem_cons, List.mem_append] at member
      rcases member with itself | inside | behind
      · subst itself
        refine ⟨_, laterGrows.identifiers _ _ known, ?_⟩
        rw [Course.after, laterGrows.targets _ _ known, Registry.target?_recordTarget, if_pos rfl,
          fresh.target_eq]
      · rcases ihWithin rfl (sound.identify fresh.unknown) other inside with
          ⟨identifier, knownInside, target⟩
        refine ⟨identifier, laterGrows.identifiers _ _ knownInside, ?_⟩
        rw [Course.after, laterGrows.targets _ _ knownInside, Registry.target?_recordTarget]
        split
        · next same =>
          cases Identifier.text_injective same
          cases recorded.distinct node other _ known knownInside
          rw [fresh.target_eq]
        · exact target
      · exact ihLater success recorded other behind

theorem offered_perm (tour : Tour scene stops registry course) (success : course.result = .ok ())
    (sound : registry.Sound scene.graph) {last : Registry} (later : course.registry.Within last) :
    (offeredIn course.actions).Perm
      ((identifiedIn course.actions).flatMap (scene.descriptors last)) := by
  induction tour with
  | done => exact .refl _
  | row _ ih => simpa [Course.after] using ih success sound later
  | known _ _ ih => simpa [Course.after] using ih success sound later
  | foreign _ _ => cases success
  | bare _ _ _ => cases success
  | failed _ _ _ => cases success
  | @shown node events leads rest registry course data satisfaction actions reached fresh within
      behind ihWithin ihLater =>
      rcases within.shown_sound fresh sound with ⟨known, grows, recorded⟩
      rcases behind.sound recorded with ⟨_, laterGrows⟩
      have reachedWithin : reached.Within last := fun other identifier has =>
        later other identifier (laterGrows.identifiers other identifier has)
      have inner := ihWithin rfl (sound.identify fresh.unknown) reachedWithin
      have outer := ihLater success recorded later
      have own : scene.descriptors last node =
          (scene.portraitIn registry node data satisfaction).nodes := by
        rw [Scene.descriptors, fresh.portrait?_eq (reachedWithin node _ known)]
        rfl
      simp only [Course.after, offeredIn_append, offeredIn_notes, offeredIn_showing,
        offeredIn_linkActions, identifiedIn_append, identifiedIn_notes, identifiedIn_showing,
        identifiedIn_linkActions, List.nil_append, List.append_nil, List.cons_append,
        List.flatMap_cons, List.flatMap_append, own]
      exact (List.perm_append_comm.trans (inner.append_left _)).append outer |>.trans
        (by rw [List.append_assoc])

/-- Whatever is offered shows a node that has been identified, also when the tour fails later. -/
theorem offered_mem (tour : Tour scene stops registry course) (sound : registry.Sound scene.graph)
    {last : Registry} (later : course.registry.Within last) {shown : Diagram.Node}
    (offered : shown ∈ offeredIn course.actions) :
    exists node, node ∈ identifiedIn course.actions ∧ shown ∈ scene.descriptors last node := by
  induction tour with
  | done => cases offered
  | row _ ih =>
      simp only [Course.after, offeredIn_append, offeredIn_rowActions, identifiedIn_append,
        identifiedIn_rowActions, List.nil_append] at offered ⊢
      exact ih sound later offered
  | known _ _ ih =>
      simp only [Course.after, offeredIn_append, offeredIn_notes, offeredIn_linkActions,
        identifiedIn_append, identifiedIn_notes, identifiedIn_linkActions, List.nil_append]
        at offered ⊢
      exact ih sound later offered
  | foreign _ _ =>
      rw [offeredIn_notes] at offered
      cases offered
  | bare _ _ _ =>
      rw [offeredIn_append, offeredIn_notes] at offered
      cases offered
  | failed fresh _ ih =>
      simp only [offeredIn_append, offeredIn_notes, offeredIn_opening, List.nil_append] at offered
      rcases ih (sound.identify fresh.unknown) later offered with ⟨node, identified, member⟩
      refine ⟨node, ?_, member⟩
      rw [identifiedIn_append, identifiedIn_append]
      exact List.mem_append_right _ (List.mem_append_right _ identified)
  | @shown node events leads rest registry course data satisfaction actions reached fresh within
      behind ihWithin ihLater =>
      rcases within.shown_sound fresh sound with ⟨known, grows, recorded⟩
      rcases behind.sound recorded with ⟨_, laterGrows⟩
      have reachedWithin : reached.Within last := fun other identifier has =>
        later other identifier (laterGrows.identifiers other identifier has)
      simp only [Course.after, offeredIn_append, offeredIn_notes, offeredIn_showing,
        offeredIn_linkActions, identifiedIn_append, identifiedIn_notes, identifiedIn_showing,
        identifiedIn_linkActions, List.nil_append, List.append_nil, List.mem_append, List.mem_cons]
        at offered ⊢
      rcases offered with (inside | own) | after
      · rcases ihWithin (sound.identify fresh.unknown) reachedWithin inside with
          ⟨other, identified, member⟩
        exact ⟨other, Or.inl (Or.inr identified), member⟩
      · refine ⟨node, Or.inl (Or.inl rfl), ?_⟩
        rw [Scene.descriptors, fresh.portrait?_eq (reachedWithin node _ known)]
        exact own
      · rcases ihLater recorded later after with ⟨other, identified, member⟩
        exact ⟨other, Or.inr identified, member⟩

private theorem retarget_leads (registry : Registry) (leads : List Diagram.Edge)
    (target : String) :
    (leads.map (·.leadingTo target)).map (Queue.retarget registry) =
      leads.map (·.leadingTo (registry.resolve target)) := by
  rw [List.map_map]
  rfl

theorem queued_perm (tour : Tour scene stops registry course) (success : course.result = .ok ())
    (sound : registry.Sound scene.graph) {last : Registry} (later : course.registry.Within last)
    (complete : last.Complete scene.graph) (lastSound : last.Sound scene.graph) :
    ((queuedIn course.actions).map (Queue.retarget last)).Perm
      (stops.flatMap (scene.leadsFrom last) ++
        (identifiedIn course.actions).flatMap (scene.edgesOf last)) := by
  induction tour with
  | done => exact .refl _
  | row _ ih => simpa [Course.after, Scene.leadsFrom] using ih success sound later
  | @known node events leads rest registry course identifier has behind ih =>
      have knownLast := later node identifier ((behind.sound sound).2.identifiers node _ has)
      have resolved := complete.resolve_resolve lastSound sound has knownLast
      simp only [Course.after, queuedIn_append, queuedIn_notes, queuedIn_linkActions,
        identifiedIn_append, identifiedIn_notes, identifiedIn_linkActions, List.nil_append,
        List.map_append, retarget_leads, resolved, List.flatMap_cons, Scene.leadsFrom,
        Registry.identifierFor_of_known knownLast, List.append_assoc]
      exact (ih success sound later).append_left _
  | foreign _ _ => cases success
  | bare _ _ _ => cases success
  | failed _ _ _ => cases success
  | @shown node events leads rest registry course data satisfaction actions reached fresh within
      behind ihWithin ihLater =>
      rcases within.shown_sound fresh sound with ⟨known, grows, recorded⟩
      rcases behind.sound recorded with ⟨_, laterGrows⟩
      have reachedWithin : reached.Within last := fun other identifier has =>
        later other identifier (laterGrows.identifiers other identifier has)
      have knownLast := reachedWithin node _ known
      have inner := ihWithin rfl (sound.identify fresh.unknown) reachedWithin
      have outer := ihLater success recorded later
      have own : scene.edgesOf last node =
          (scene.stops (scene.portraitIn registry node data satisfaction)).flatMap
              (scene.leadsFrom last) ++
            (scene.portraitIn registry node data satisfaction).backEdges := by
        rw [Scene.edgesOf, fresh.portrait?_eq knownLast]
        rfl
      have backEdges := scene.retarget_backEdges lastSound node data satisfaction
        (registry.identifierFor node)
      simp only [Course.after, queuedIn_append, queuedIn_notes, queuedIn_showing,
        queuedIn_linkActions, identifiedIn_append, identifiedIn_notes, identifiedIn_showing,
        identifiedIn_linkActions, List.nil_append, List.append_nil, List.cons_append,
        List.flatMap_cons, List.flatMap_append, List.map_append, retarget_leads, own,
        Scene.leadsFrom, Registry.identifierFor_of_known knownLast, fresh.target_eq,
        complete.resolve_endpoint lastSound knownLast]
      rw [Scene.portraitIn, backEdges]
      apply List.perm_iff_count.mpr
      intro edge
      have innerCount := inner.count_eq edge
      have outerCount := outer.count_eq edge
      simp only [List.count_append, Scene.portraitIn] at innerCount outerCount ⊢
      omega

/-- The parameters found without a value are those in the rows of the nodes identified. -/
theorem unbound_perm (tour : Tour scene stops registry course) (success : course.result = .ok ())
    (sound : registry.Sound scene.graph) {last : Registry} (later : course.registry.Within last) :
    (unboundIn course.actions).Perm
      (stops.flatMap Stop.missing ++
        (identifiedIn course.actions).flatMap (scene.missingOf last)) := by
  induction tour with
  | done => exact .refl _
  | row _ ih => simpa [Course.after, Stop.missing] using (ih success sound later).append_left _
  | known _ _ ih => simpa [Course.after, Stop.missing] using ih success sound later
  | foreign _ _ => cases success
  | bare _ _ _ => cases success
  | failed _ _ _ => cases success
  | @shown node events leads rest registry course data satisfaction actions reached fresh within
      behind ihWithin ihLater =>
      rcases within.shown_sound fresh sound with ⟨known, grows, recorded⟩
      rcases behind.sound recorded with ⟨_, laterGrows⟩
      have reachedWithin : reached.Within last := fun other identifier has =>
        later other identifier (laterGrows.identifiers other identifier has)
      have inner := ihWithin rfl (sound.identify fresh.unknown) reachedWithin
      have outer := ihLater success recorded later
      have own : scene.missingOf last node =
          (scene.stops (scene.portraitIn registry node data satisfaction)).flatMap
            Stop.missing := by
        rw [Scene.missingOf, fresh.portrait?_eq (reachedWithin node _ known)]
        rfl
      simp only [Course.after, unboundIn_append, unboundIn_notes, unboundIn_showing,
        unboundIn_linkActions, identifiedIn_append, identifiedIn_notes, identifiedIn_showing,
        identifiedIn_linkActions, List.nil_append, List.append_nil, List.cons_append,
        List.flatMap_cons, List.flatMap_append, Stop.missing, own]
      apply List.perm_iff_count.mpr
      intro qualifier
      have innerCount := inner.count_eq qualifier
      have outerCount := outer.count_eq qualifier
      simp only [List.count_append] at innerCount outerCount ⊢
      omega

end Tour
end InjectionPlan
