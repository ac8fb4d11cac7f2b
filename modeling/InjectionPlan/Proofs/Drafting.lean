import InjectionPlan.Proofs.Calls
import InjectionPlan.Proofs.Sequence

namespace InjectionPlan

/-!
# Edges as they are queued

When an edge is queued its end may not be known yet: the node there may still be being shown, and
then the edge ends at the bare identifier.  So what an edge has to do with the nodes of the graph is
said with respect to the registry at that moment (`Scene.Drafts`).  Each edge that a walk queues is
such a draft when its turn comes (`Tour.drafted`).  Registries only grow by being extended, so what
a draft ends at in the end is what its node ends at (`Registry.Extends.resolve_resolve`).
-/

/-! ## What edges come to -/

namespace Registry

variable {graph : Graph} {registry : Registry}

/-- What is recorded belongs to a node with an identifier, so it stays if nothing changes that is
known of such nodes. -/
theorem Sound.extended {after : Registry} (sound : registry.Sound graph)
    (grows : registry.Grows after) : registry.Extends after where
  identifiers := grows.identifiers
  targets text target found := by
    rcases sound.recorded text target found with ⟨node, identifier, known, rfl, _⟩
    rw [grows.targets node identifier known]
    exact found

/-- What is recorded as a target comes to itself. -/
theorem Sound.resolve_recorded (sound : registry.Sound graph) {text target : String}
    (found : registry.target? text = some target) : registry.resolve target = target := by
  rcases sound.recorded text target found with ⟨node, identifier, _, rfl, rfl⟩
  rcases endpoint_eq_text_or_headerOf graph node identifier with plain | header
  · rw [plain] at found ⊢
    exact resolve_of_recorded found
  · rw [header]
    exact sound.resolve_of_ne (headerOf_ne_text _)

/-- What a text comes to in a registry, even if that is provisional, comes to what the text comes to
when more is known. -/
theorem Extends.resolve_resolve {last : Registry} (further : registry.Extends last)
    (lastSound : last.Sound graph) (text : String) :
    last.resolve (registry.resolve text) = last.resolve text := by
  cases found : registry.target? text with
  | none => rw [resolve_of_not_recorded found]
  | some target =>
      have still := further.targets text target found
      rw [resolve_of_recorded found, resolve_of_recorded still, lastSound.resolve_recorded still]

end Registry

/-! ## Drafts -/

/-- Rows stay where they are when more becomes known. -/
theorem Graph.ownerOf_within (graph : Graph) {registry last : Registry}
    (within : registry.Within last) {node : NodeId} (known : (registry.identifier? node).isSome) :
    (last.identifier? node).isSome ∧ graph.ownerOf last node = graph.ownerOf registry node := by
  rcases Option.isSome_iff_exists.mp known with ⟨identifier, has⟩
  have still := within node identifier has
  constructor
  · rw [still]
    rfl
  · rw [ownerOf, ownerOf, Registry.identifierFor_of_known has,
      Registry.identifierFor_of_known still]

namespace Scene

/-- An edge that a walk may queue at a moment: an edge from the row of a component to where the node
that the row asks for ends so far, or an edge back to a provider. -/
inductive Drafts (scene : Scene) (registry : Registry) : Diagram.Edge -> Prop
  | row {head : NodeId} {branch : Edge} {port : Nat} {identifier : Identifier}
    (known : (registry.identifier? head).isSome)
    (leaves : (branch, port) ∈ (scene.graph.branches head).zipIdx 1)
    (found : registry.identifier? branch.tail = some identifier) :
    Drafts scene registry (dependencyEdge (scene.graph.ownerOf registry head) port
      (registry.resolve identifier.text) branch.desire.isTransient)
  | back {node : NodeId} {data : Node} {satisfaction : Satisfaction} {identifier : Identifier}
    {edge : Diagram.Edge} (known : registry.identifier? node = some identifier)
    (bound : scene.graph.satisfaction? node = some satisfaction)
    (among : edge ∈ (scene.portrait node data satisfaction identifier.text).backEdges) :
    Drafts scene registry edge

/-- Each edge that several actions queue is a draft when its turn comes. -/
def DraftsAll (scene : Scene) : Registry -> List Action -> Prop
  | _, [] => True
  | registry, action :: rest =>
    (forall edge, action.queued? = some edge -> scene.Drafts registry edge) ∧
      DraftsAll scene (registry.apply action) rest

/-- The edges of a stop leave from rows that ask for the node turned to. -/
def Branching (scene : Scene) (registry : Registry) : Stop -> Prop
  | .row _ _ => True
  | .turn node _ leads => forall lead, lead ∈ leads -> exists head branch port,
      (registry.identifier? head).isSome ∧
        (branch, port) ∈ (scene.graph.branches head).zipIdx 1 ∧ branch.tail = node ∧
        lead = dependencyEdge (scene.graph.ownerOf registry head) port ""
          branch.desire.isTransient

variable {scene : Scene} {registry : Registry}

@[simp] theorem draftsAll_append (first second : List Action) :
    scene.DraftsAll registry (first ++ second) <->
      scene.DraftsAll registry first ∧ scene.DraftsAll (registry.applyAll first) second := by
  induction first generalizing registry with
  | nil => simp [DraftsAll]
  | cons action rest ih => simp [DraftsAll, ih, and_assoc]

/-- Where nothing is queued there is nothing to be said. -/
theorem draftsAll_of_silent {actions : List Action} (silent : queuedIn actions = []) :
    scene.DraftsAll registry actions := by
  induction actions generalizing registry with
  | nil => trivial
  | cons action rest ih =>
      have both : queuedIn [action] ++ queuedIn rest = [] := by
        rw [← queuedIn_append]
        exact silent
      rcases List.append_eq_nil_iff.mp both with ⟨quiet, still⟩
      refine ⟨?_, ih still⟩
      intro edge queues
      rw [queuedIn, List.filterMap_cons, queues] at quiet
      cases quiet

/-- Where the registry does not change its edges are queued with respect to it. -/
theorem draftsAll_enqueue {edges : List Diagram.Edge}
    (drafts : forall edge, edge ∈ edges -> scene.Drafts registry edge) :
    scene.DraftsAll registry (edges.map .enqueue) := by
  induction edges with
  | nil => trivial
  | cons edge rest ih =>
      rcases List.forall_mem_cons.mp drafts with ⟨first, others⟩
      refine ⟨?_, ih others⟩
      intro other queues
      cases queues
      exact first

/-- What is left when the rows of a node have been shown are its own nodes and the edge back to its
provider. -/
theorem draftsAll_closing {node : NodeId} (data : Node) {satisfaction : Satisfaction}
    {identifier : Identifier} (known : registry.identifier? node = some identifier)
    (bound : scene.graph.satisfaction? node = some satisfaction) :
    scene.DraftsAll registry (scene.portrait node data satisfaction identifier.text).closing := by
  rw [Portrait.closing, draftsAll_append, Registry.applyAll_offers]
  constructor
  · apply draftsAll_of_silent
    simp [queuedIn, List.filterMap_map, Function.comp_def, Action.queued?]
  · apply draftsAll_enqueue
    intro edge among
    exact .back known bound among

/-- The edges of a stop lead to where its node ends so far. -/
theorem Branching.draftsAll {node : NodeId} {events : List LogEvent} {leads : List Diagram.Edge}
    (branching : scene.Branching registry (.turn node events leads)) {identifier : Identifier}
    (found : registry.identifier? node = some identifier) :
    scene.DraftsAll registry
      (Stop.linkActions leads (registry.resolve identifier.text)) := by
  have links : Stop.linkActions leads (registry.resolve identifier.text) =
      (leads.map (·.leadingTo (registry.resolve identifier.text))).map .enqueue := by
    rw [List.map_map]
    rfl
  rw [links]
  apply draftsAll_enqueue
  intro edge member
  rcases List.mem_map.mp member with ⟨lead, among, rfl⟩
  rcases branching lead among with ⟨head, branch, port, known, leaves, rfl, rfl⟩
  rw [leadingTo_dependencyEdge]
  exact .row known leaves found

/-- Rows keep their places when more becomes known. -/
theorem Branching.later {stop : Stop} (branching : scene.Branching registry stop)
    {after : Registry} (within : registry.Within after) : scene.Branching after stop := by
  cases stop with
  | row qualifier value => trivial
  | turn node events leads =>
      intro lead among
      rcases branching lead among with ⟨head, branch, port, known, leaves, tail, rfl⟩
      rcases scene.graph.ownerOf_within within known with ⟨still, owner⟩
      exact ⟨head, branch, port, still, leaves, tail, by rw [owner]⟩

/-- The stops along the edges of a node leave from its rows. -/
theorem branching_itinerary {head : NodeId} (known : (registry.identifier? head).isSome)
    (shown : Nat) (edges : List Edge)
    (rows : forall entry, entry ∈ (leadingOn edges).zipIdx (shown + 1) ->
      entry ∈ (scene.graph.branches head).zipIdx 1) :
    forall stop, stop ∈ scene.graph.itinerary (scene.graph.ownerOf registry head) shown edges ->
      scene.Branching registry stop := by
  induction edges generalizing shown with
  | nil => exact List.forall_mem_nil _
  | cons edge rest ih =>
      unfold Graph.itinerary
      cases asked : edge.desire.parameter? with
      | some qualifier =>
          rw [leadingOn_cons_of_parameter asked] at rows
          exact List.forall_mem_cons.mpr ⟨trivial, ih shown rows⟩
      | none =>
          rw [leadingOn_cons_of_dependency asked, List.zipIdx_cons] at rows
          rcases List.forall_mem_cons.mp rows with ⟨first, others⟩
          refine List.forall_mem_cons.mpr ⟨?_, ih (shown + 1) others⟩
          intro lead member
          exact ⟨head, edge, shown + 1, known, first, rfl, List.mem_singleton.mp member⟩

theorem Fresh.branching {node : NodeId} {data : Node} {satisfaction : Satisfaction}
    (fresh : scene.Fresh registry node data satisfaction) :
    forall stop, stop ∈ scene.stops (scene.portraitIn registry node data satisfaction) ->
      scene.Branching (registry.identify node) stop := by
  have bound := fresh.satisfaction?_eq
  have known := registry.identifier?_identify_self node
  have owner : scene.graph.ownerOf registry node =
      scene.graph.ownerOf (registry.identify node) node := by
    rw [Graph.ownerOf, Graph.ownerOf, Registry.identifierFor_of_known known]
  rw [stops, scene.portrait_owner registry node data bound, owner]
  apply branching_itinerary
  · rw [known]
    rfl
  · rw [portraitIn, scene.leadingOn_portrait data bound]
    exact fun _ member => member

end Scene

namespace Tour

variable {scene : Scene} {stops : List Stop} {registry : Registry} {course : Course Unit}

/-- What is known when a node has been shown and its target recorded was known before, and more. -/
theorem shown_within {node : NodeId} {data : Node} {satisfaction : Satisfaction}
    {actions : List Action} {reached : Registry}
    (within : Tour scene (scene.stops (scene.portraitIn registry node data satisfaction))
      (registry.identify node) ⟨actions, reached, .ok ()⟩)
    (fresh : scene.Fresh registry node data satisfaction) (sound : registry.Sound scene.graph) :
    registry.Within (reached.recordTarget (registry.identifierFor node).text
      (scene.portraitIn registry node data satisfaction).target) := by
  rcases within.shown_sound fresh sound with ⟨_, grows, _⟩
  intro other identifier known
  have opened := (registry.grows_identify node).identifiers other identifier known
  exact grows.identifiers other identifier opened

/-- Each edge that a tour queues is a draft when its turn comes. -/
theorem drafted (tour : Tour scene stops registry course) (sound : registry.Sound scene.graph)
    (branching : forall stop, stop ∈ stops -> scene.Branching registry stop) :
    scene.DraftsAll registry course.actions := by
  have silent {registry : Registry} {actions : List Action} (quiet : queuedIn actions = []) :
      scene.DraftsAll registry actions :=
    Scene.draftsAll_of_silent quiet
  induction tour with
  | done => trivial
  | row _ ih =>
      rcases List.forall_mem_cons.mp branching with ⟨_, others⟩
      rw [Course.after, Scene.draftsAll_append, Registry.applyAll_rowActions]
      constructor
      · exact silent (queuedIn_rowActions _ _)
      · apply ih sound
        intro stop member
        exact others stop member
  | known has _ ih =>
      rcases List.forall_mem_cons.mp branching with ⟨first, others⟩
      simp only [Course.after, Scene.draftsAll_append, Registry.applyAll_append,
        Registry.applyAll_notes, Registry.applyAll_linkActions]
      refine ⟨⟨silent (queuedIn_notes _), first.draftsAll has⟩, ?_⟩
      exact ih sound others
  | foreign _ _ => exact silent (queuedIn_notes _)
  | bare _ _ _ =>
      apply silent
      rw [queuedIn_append, queuedIn_notes]
      rfl
  | failed fresh _ ih =>
      simp only [Scene.draftsAll_append, Registry.applyAll_notes, Registry.applyAll_opening]
      refine ⟨silent (queuedIn_notes _), silent rfl, ?_⟩
      exact ih (sound.identify fresh.unknown) fresh.branching
  | @shown node _ _ _ registry _ data satisfaction actions reached fresh within _ ihWithin
      ihLater =>
      rcases List.forall_mem_cons.mp branching with ⟨first, others⟩
      rcases within.shown_sound fresh sound with ⟨known, grows, recorded⟩
      have more := within.shown_within fresh sound
      have inner := ihWithin (sound.identify fresh.unknown) fresh.branching
      have reaches := within.registry_eq
      dsimp only at inner reaches
      have ends : (reached.recordTarget (registry.identifierFor node).text
          (scene.portraitIn registry node data satisfaction).target).resolve
            (registry.identifierFor node).text =
              (scene.portraitIn registry node data satisfaction).target := by
        apply Registry.resolve_of_recorded
        rw [Registry.target?_recordTarget, if_pos rfl]
      have links := (first.later more).draftsAll known
      rw [ends] at links
      have later := ihLater recorded fun stop member => (others stop member).later more
      have closed := scene.draftsAll_closing data known fresh.satisfaction?_eq
      simp only [Course.after, Scene.showing, Scene.draftsAll_append, Registry.applyAll_append,
        Registry.applyAll_notes, Registry.applyAll_opening, Registry.applyAll_closing,
        Registry.applyAll_linkActions, ← reaches]
      refine ⟨⟨⟨silent (queuedIn_notes _), ⟨⟨silent rfl, inner⟩, closed⟩, silent rfl⟩, links⟩, ?_⟩
      exact later

end Tour

end InjectionPlan
