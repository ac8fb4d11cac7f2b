import InjectionPlan.Proofs.Search
import InjectionPlan.Proofs.Wires

namespace InjectionPlan

/-!
# In which order a dump hands over what it shows

The stops of a tour are made along ways (`Along`), so the actions of a tour that succeeds are known
step by step from a depth-first search (`Tour.follows`): a node is identified when it is entered,
and its descriptors are offered when it is left.  For a dump this gives the three orders
(`Graph.dump_in_sequence`).  The numbers of the nodes tell in which order they are entered, their
descriptors come in the order in which they are left, and an edge comes as it is drawn on the
search.  Whether the target of an edge was known as it was drawn does not matter for the order.
-/

/-! ## Stops along ways -/

/-- The identifier from which the edges to the dependencies of a node leave. -/
def Graph.ownerOf (graph : Graph) (registry : Registry) (node : NodeId) : String :=
  let id := (registry.identifierFor node).text
  ((graph.satisfaction? node).bind Satisfaction.provider?).elim id fun _ => providerId id

namespace Scene

/-- The edge of a way, before it is known where it ends. -/
def lead (scene : Scene) (root : NodeId) (registry : Registry) (way : Way) : Diagram.Edge :=
  if way.head = root then Session.rootEdge ""
  else dependencyEdge (scene.graph.ownerOf registry way.head) way.rank ""
    way.edge.desire.isTransient

/-- The edge of a way, as it ends when everything has been recorded. -/
def led (scene : Scene) (root : NodeId) (registry : Registry) (way : Way) : Diagram.Edge :=
  (scene.lead root registry way).leadingTo
    (scene.graph.endpoint way.tail (registry.identifierFor way.tail))

/-- The edges that come with a step. -/
def drawn (scene : Scene) (root : NodeId) (registry : Registry) : Step -> List Diagram.Edge
  | .enter _ => []
  | .leave way => (scene.portrait? registry way.tail).elim [] Portrait.backEdges ++
    [scene.led root registry way]
  | .meet way => [scene.led root registry way]

theorem portrait_owner (scene : Scene) (registry : Registry) (node : NodeId) (data : Node)
    {satisfaction : Satisfaction} (bound : scene.graph.satisfaction? node = some satisfaction) :
    (scene.portraitIn registry node data satisfaction).owner =
      scene.graph.ownerOf registry node := by
  rw [Graph.ownerOf, bound]
  cases satisfaction <;> rfl

end Scene

/-- Stops that are made along ways, with rows between them. -/
inductive Along (lead : Way -> Diagram.Edge) : List Way -> List Stop -> Prop
  | done : Along lead [] []
  | row {qualifier : Qualifier} {value : Option Instance} {ways : List Way} {stops : List Stop}
    (later : Along lead ways stops) : Along lead ways (.row qualifier value :: stops)
  | turn {way : Way} {events : List LogEvent} {ways : List Way} {stops : List Stop}
    (later : Along lead ways stops) :
    Along lead (way :: ways) (.turn way.tail events [lead way] :: stops)

theorem along_rootStops {lead : Way -> Diagram.Edge} {root : NodeId}
    (leads : forall rank edge, lead ⟨root, rank, edge⟩ = Session.rootEdge "") (edges : List Edge)
    (first : Nat) :
    Along lead ((edges.zipIdx first).map fun (edge, rank) => ⟨root, rank, edge⟩)
      (rootStops edges) := by
  induction edges generalizing first with
  | nil => exact .done
  | cons edge rest ih =>
      have turn : Along lead (⟨root, first, edge⟩ :: _)
          (.turn edge.tail [] [lead ⟨root, first, edge⟩] :: _) := .turn (ih (first + 1))
      rwa [leads] at turn

theorem along_itinerary {lead : Way -> Diagram.Edge} {node : NodeId} {owner : String}
    (leads : forall rank edge, lead ⟨node, rank, edge⟩ =
      dependencyEdge owner rank "" edge.desire.isTransient)
    (graph : Graph) (edges : List Edge) (shown : Nat) :
    Along lead (((leadingOn edges).zipIdx (shown + 1)).map fun (edge, rank) => ⟨node, rank, edge⟩)
      (graph.itinerary owner shown edges) := by
  induction edges generalizing shown with
  | nil => exact .done
  | cons edge rest ih =>
      unfold Graph.itinerary
      cases asked : edge.desire.parameter? with
      | some qualifier =>
          rw [leadingOn_cons_of_parameter asked]
          exact .row (ih shown)
      | none =>
          rw [leadingOn_cons_of_dependency asked]
          have turn : Along lead (⟨node, shown + 1, edge⟩ :: _)
              (.turn edge.tail [.dependency edge.desire] [lead ⟨node, shown + 1, edge⟩] :: _) :=
            .turn (ih (shown + 1))
          rwa [leads] at turn

/-- The stops of a node that is not the root are made along its ways. -/
theorem Scene.Fresh.along {scene : Scene} {registry last : Registry} {root node : NodeId}
    {data : Node} {satisfaction : Satisfaction}
    (fresh : scene.Fresh registry node data satisfaction) (notRoot : node ≠ root)
    (known : last.identifier? node = some (registry.identifierFor node)) :
    Along (scene.lead root last) (scene.graph.ways root node)
      (scene.stops (scene.portraitIn registry node data satisfaction)) := by
  have bound := fresh.satisfaction?_eq
  have sameOwner : scene.graph.ownerOf last node = scene.graph.ownerOf registry node := by
    rw [Graph.ownerOf, Graph.ownerOf, Registry.identifierFor_of_known known]
  have leads (rank : Nat) (edge : Edge) : scene.lead root last ⟨node, rank, edge⟩ =
      dependencyEdge (scene.graph.ownerOf registry node) rank "" edge.desire.isTransient := by
    rw [lead, if_neg notRoot, sameOwner]
  have branches := scene.leadingOn_portrait data bound (registry.identifierFor node).text
  rw [stops, scene.portrait_owner registry node data bound, Graph.ways, Graph.followed,
    if_neg notRoot, ← branches]
  exact along_itinerary leads scene.graph _ 0

/-! ## Tours along searches -/

/-- How actions follow the steps of a search, with the identifiers that a registry gives. -/
structure Scene.Follows (scene : Scene) (root : NodeId) (registry : Registry) (steps : List Step)
    (actions : List Action) : Prop where
  identified : identifiedIn actions = entered steps
  offered : offeredIn actions = (left steps).flatMap (scene.descriptors registry)
  queued : (queuedIn actions).map (Queue.retarget registry) =
    steps.flatMap (scene.drawn root registry)

theorem Queue.retarget_leadingTo (registry : Registry) (edge : Diagram.Edge) (target : String) :
    retarget registry (edge.leadingTo target) = edge.leadingTo (registry.resolve target) := rfl

/-- A tour that succeeds follows a depth-first search. -/
theorem Tour.follows {scene : Scene} {root : NodeId} {stops : List Stop} {registry last : Registry}
    {course : Course Unit} (tour : Tour scene stops registry course)
    (success : course.result = .ok ()) (sound : registry.Sound scene.graph)
    (later : course.registry.Within last) (complete : last.Complete scene.graph)
    (lastSound : last.Sound scene.graph) {seen : List NodeId} {ways : List Way}
    (rootSeen : root ∈ seen)
    (same : forall node, node ∈ seen <-> (registry.identifier? node).isSome)
    (along : Along (scene.lead root last) ways stops) :
    exists steps, scene.graph.Searches root seen ways steps ∧
      scene.Follows root last steps course.actions := by
  -- The tour and the search stay together because the nodes that have been seen are always those
  -- that have an identifier.
  induction tour generalizing seen ways with
  | done =>
      cases along
      exact ⟨[], .done, rfl, rfl, rfl⟩
  | row _ ih =>
      cases along with
      | row behind =>
          rcases ih success sound later rootSeen same behind with ⟨steps, search, follows⟩
          refine ⟨steps, search, ?_, ?_, ?_⟩
          · simpa [Course.after] using follows.identified
          · simpa [Course.after] using follows.offered
          · simpa [Course.after] using follows.queued
  | @known node events leads rest registry course identifier has tour ih =>
      cases along with
      | @turn way _ others _ behind =>
          rcases ih success sound later rootSeen same behind with ⟨steps, search, follows⟩
          have old : way.tail ∈ seen := (same _).mpr (by rw [has]; rfl)
          have knownLast := later _ identifier ((tour.sound sound).2.identifiers _ _ has)
          have resolved := complete.resolve_resolve lastSound sound has knownLast
          refine ⟨_, .old old search, ?_, ?_, ?_⟩
          · simpa [Course.after] using follows.identified
          · simpa [Course.after] using follows.offered
          · simp [Course.after, follows.queued, Queue.retarget_leadingTo, resolved, Scene.drawn,
              Scene.led, Registry.identifierFor_of_known knownLast]
  | foreign _ _ => cases success
  | bare _ _ _ => cases success
  | failed _ _ _ => cases success
  | @shown node events leads rest registry course data satisfaction actions reached fresh within
      tour ihWithin ihLater =>
      cases along with
      | @turn way _ others _ behind =>
          rcases within.shown_sound fresh sound with ⟨known, grows, recorded⟩
          rcases tour.sound recorded with ⟨_, laterGrows⟩
          have reachedWithin : reached.Within last := fun other identifier has =>
            later other identifier (laterGrows.identifiers other identifier has)
          have knownLast := reachedWithin _ _ known
          have new : way.tail ∉ seen := fun old => by simpa [fresh.unknown] using (same _).mp old
          have notRoot : way.tail ≠ root := fun isRoot => new (isRoot ▸ rootSeen)
          have sameInside := mem_cons_iff_identify same way.tail
          rcases ihWithin rfl (sound.identify fresh.unknown) reachedWithin
            (List.mem_cons_of_mem _ rootSeen) sameInside (fresh.along notRoot knownLast) with
            ⟨inner, searchInner, followsInner⟩
          have identified : identifiedIn actions = entered inner := followsInner.identified
          have reaches : reached = (registry.identify way.tail).applyAll actions :=
            within.registry_eq
          have sameAfter := mem_seen_iff_applyAll sameInside actions
          rw [identified, ← reaches] at sameAfter
          rcases ihLater success recorded later
            (List.mem_append_right _ (List.mem_cons_of_mem _ rootSeen)) sameAfter behind with
            ⟨steps, searchLater, followsLater⟩
          have portrayed := fresh.portrait?_eq knownLast
          have backEdges := scene.retarget_backEdges lastSound way.tail data satisfaction
            (registry.identifierFor way.tail)
          have target : last.resolve (scene.portraitIn registry way.tail data satisfaction).target =
              scene.graph.endpoint way.tail (last.identifierFor way.tail) := by
            rw [fresh.target_eq, complete.resolve_endpoint lastSound knownLast,
              Registry.identifierFor_of_known knownLast]
          refine ⟨_, .new new searchInner searchLater, ?_, ?_, ?_⟩
          · simp [Course.after, identified, followsLater.identified]
          · simp [Course.after, followsInner.offered, followsLater.offered, Scene.descriptors,
              portrayed]
          · rw [← Scene.portraitIn] at backEdges
            simp [Course.after, followsInner.queued, followsLater.queued, Queue.retarget_leadingTo,
              target, backEdges, Scene.drawn, Scene.led, portrayed]

/-! ## What is handed over -/

namespace Graph

variable {State : Type u}

/-- The wire of an edge that is drawn. -/
def linkWire (graph : Graph) (root : NodeId) (session : Session (Watched State)) : Link -> Wire
  | .along way =>
    if way.head = root then ⟨"root", session.endOf way.tail, [("arrowhead", .text "vee")]⟩
    else
      ⟨graph.ownerOf session.registry way.head ++ ":" ++ toString way.rank, session.endOf way.tail,
        ("arrowhead", .text "vee") ::
          if way.edge.desire.isTransient then [("style", .text "dashed")] else []⟩
  | .back node => backWire (session.registry.identifierFor node).text session

/-- The identifier of the node of the diagram from which an edge leaves. -/
def linkOwner (graph : Graph) (root : NodeId) (registry : Registry) : Link -> String
  | .along way => if way.head = root then "root" else graph.ownerOf registry way.head
  | .back node => (registry.identifierFor node).text

/-- How what has been handed over follows the steps of a search. -/
structure Sequenced (graph : Graph) (root : NodeId) (unshared : List NodeId) (steps : List Step)
    (session : Session (Watched State)) : Prop where
  /-- The nodes entered are those that are met from the root on. -/
  covers : entered steps = graph.discovery root
  /-- The same nodes are left, in another order. -/
  leaves : (left steps).Perm (entered steps)
  /-- They get the numbers from one on as they are entered. -/
  numbered : (entered steps).map session.registry.identifier? =
    (List.range' 1 (entered steps).length).map fun number => some (.numbered number)
  /-- Behind the root they are shown as they are left. -/
  nodes : session.store.nodes = Session.rootNode ::
    (left steps).flatMap ((graph.scene unshared).descriptors session.registry)
  /-- A provider comes just before what it gives. -/
  ids : session.store.nodes.map (·.id) =
    "root" :: (left steps).flatMap (graph.shownIds session.registry)
  wires : session.store.edges.map Diagram.Edge.wire =
    (graph.links steps).map (graph.linkWire root session)
  /-- The edges of the root come in their order. -/
  fromRoot : (session.store.edges.map Diagram.Edge.wire).filter (fun wire => wire.source = "root") =
    (graph.dependencies root).map fun edge =>
      ⟨"root", session.endOf edge.tail, [("arrowhead", .text "vee")]⟩
  /-- The edges from the rows of a node come in the order of the ports. -/
  fromRows : forall node, node ∈ entered steps ->
    (session.store.edges.map Diagram.Edge.wire).filter (fun wire =>
        stem wire.source = (graph.ownerOf session.registry node).toList) =
      graph.branchWires node (graph.ownerOf session.registry node) session
  /-- When the edge comes along which a node was entered, all edges from the rows of the node have
  come, and then the edge back to its provider. -/
  settled : forall way, .enter way ∈ steps -> exists before after,
    session.store.edges.map Diagram.Edge.wire =
      before ++ ((graph.backLinks way.tail).map (graph.linkWire root session) ++
        graph.linkWire root session (.along way) :: after) ∧
      (forall wire, wire ∈ (graph.backLinks way.tail).map (graph.linkWire root session) ->
        stem wire.source ≠ (graph.ownerOf session.registry way.tail).toList) ∧
      forall wire, wire ∈ graph.linkWire root session (.along way) :: after ->
        forall id, id ∈ graph.shownIds session.registry way.tail -> stem wire.source ≠ id.toList

/-- The owner of the rows is the node itself or its provider. -/
theorem ownerOf_cases (graph : Graph) (registry : Registry) (node : NodeId) :
    graph.ownerOf registry node = (registry.identifierFor node).text ∨
      graph.ownerOf registry node = providerId (registry.identifierFor node).text := by
  unfold ownerOf
  cases (graph.satisfaction? node).bind Satisfaction.provider? with
  | none => exact Or.inl rfl
  | some type => exact Or.inr rfl

theorem colon_not_mem_ownerOf (graph : Graph) (registry : Registry) (node : NodeId) :
    ':' ∉ (graph.ownerOf registry node).toList := by
  rcases graph.ownerOf_cases registry node with plain | provider
  · rw [plain]
    exact (registry.identifierFor node).colon_not_mem_text
  · rw [provider]
    exact (registry.identifierFor node).colon_not_mem_providerId

theorem stem_linkWire (graph : Graph) (root : NodeId) (session : Session (Watched State))
    (link : Link) : stem (graph.linkWire root session link).source =
      (graph.linkOwner root session.registry link).toList := by
  cases link with
  | along way =>
      by_cases fromRoot : way.head = root
      · simp only [linkWire, linkOwner, if_pos fromRoot]
        exact stem_of_colon_not_mem Identifier.root.colon_not_mem_text
      · simp only [linkWire, linkOwner, if_neg fromRoot]
        exact stem_append_port (graph.colon_not_mem_ownerOf _ _)
  | back node => exact stem_headerOf (session.registry.identifierFor node).colon_not_mem_text

namespace Searches

variable {graph : Graph} {root : NodeId} {steps : List Step}

/-- From the root a search enters what is met from there on. -/
theorem entered_discovery (search : graph.Searches root [root] (graph.ways root root) steps) :
    entered steps = graph.discovery root := by
  rw [search.entered_eq (List.mem_singleton_self root), map_tail_ways_root, discovery]

/-- Each edge leaves from the root or from a node that is met. -/
theorem start_cases (search : graph.Searches root [root] (graph.ways root root) steps)
    {link : Link} (member : link ∈ graph.links steps) :
    (exists way, way.head = root ∧ link = .along way) ∨ link.start ∈ graph.discovery root := by
  rcases search.mem_links member with ⟨way, among, same⟩ | inside
  · exact Or.inl ⟨way, head_of_mem_ways among, same⟩
  · exact Or.inr (search.entered_discovery ▸ inside)

end Searches

namespace Shown

variable {graph : Graph} {root : NodeId} {unshared : List NodeId} {summary : Summary}
  {session : Session (Watched State)} {steps : List Step}

theorem ownerOf_mem (shown : graph.Shown root unshared summary session) {node : NodeId}
    (found : node ∈ graph.discovery root) :
    graph.ownerOf session.registry node ∈ graph.shownIds session.registry node := by
  rcases Option.isSome_iff_exists.mp (shown.bound node found) with ⟨satisfaction, bound⟩
  rw [ownerOf, shownIds, bound, Option.bind_some, Option.elim_some, Satisfaction.mem_shownIds]
  cases satisfaction.provider? with
  | none => exact Or.inr rfl
  | some type => exact Or.inl ⟨rfl, rfl⟩

theorem own_mem (shown : graph.Shown root unshared summary session) {node : NodeId}
    (found : node ∈ graph.discovery root) :
    (session.registry.identifierFor node).text ∈ graph.shownIds session.registry node := by
  rcases Option.isSome_iff_exists.mp (shown.bound node found) with ⟨satisfaction, bound⟩
  rw [shownIds, bound, Option.elim_some, Satisfaction.mem_shownIds]
  exact Or.inr rfl

theorem linkOwner_mem (shown : graph.Shown root unshared summary session) {link : Link}
    (inside : link.start ∈ graph.discovery root) :
    graph.linkOwner root session.registry link ∈ graph.shownIds session.registry link.start := by
  cases link with
  | along way =>
      have notRoot : way.head ≠ root := ((graph.mem_discovery_iff root _).mp inside).2
      rw [linkOwner, if_neg notRoot]
      exact shown.ownerOf_mem inside
  | back node => exact shown.own_mem inside

/-- An edge that leaves from an identifier of a node is an edge of that node. -/
theorem start_eq (shown : graph.Shown root unshared summary session)
    (search : graph.Searches root [root] (graph.ways root root) steps) {node : NodeId}
    (found : node ∈ graph.discovery root) {link : Link} (member : link ∈ graph.links steps)
    (owned : graph.linkOwner root session.registry link ∈
      graph.shownIds session.registry node) : link.start = node := by
  rcases search.start_cases member with ⟨way, fromRoot, rfl⟩ | inside
  · rw [linkOwner, if_pos fromRoot] at owned
    exact absurd (List.mem_flatMap.mpr ⟨node, found, owned⟩) shown.root_not_mem
  · exact shown.eq_of_shown inside found (shown.linkOwner_mem inside) owned

/-- Exactly the edges of its ways leave from the rows of a node. -/
theorem isWayFrom_iff (shown : graph.Shown root unshared summary session)
    (search : graph.Searches root [root] (graph.ways root root) steps) {node : NodeId}
    (found : node ∈ graph.discovery root) {link : Link} (member : link ∈ graph.links steps) :
    link.isWayFrom node <-> stem (graph.linkWire root session link).source =
      (graph.ownerOf session.registry node).toList := by
  rw [stem_linkWire, String.toList_inj]
  constructor
  · intro leaves
    cases link with
    | along way =>
        have head : way.head = node := start_of_isWayFrom leaves
        have notRoot : way.head ≠ root := by
          rw [head]
          exact ((graph.mem_discovery_iff root node).mp found).2
        rw [linkOwner, if_neg notRoot, head]
    | back other => cases leaves
  · intro same
    have start := shown.start_eq search found member (same ▸ shown.ownerOf_mem found)
    cases link with
    | along way => exact decide_eq_true start
    | back other =>
        have isNode : other = node := start
        subst isNode
        rcases Option.isSome_iff_exists.mp (provider_of_back member) with ⟨type, provided⟩
        rw [linkOwner, ownerOf, provided] at same
        exact absurd same.symm (Identifier.providerId_ne_text _ _)

/-- Exactly the edges of its ways leave from the root. -/
theorem isWayFrom_root_iff (shown : graph.Shown root unshared summary session)
    (search : graph.Searches root [root] (graph.ways root root) steps) {link : Link}
    (member : link ∈ graph.links steps) :
    link.isWayFrom root <-> (graph.linkWire root session link).source = "root" := by
  rcases search.start_cases member with ⟨way, fromRoot, rfl⟩ | inside
  · simp [Link.isWayFrom, linkWire, fromRoot]
  · have notRoot : link.start ≠ root := ((graph.mem_discovery_iff root _).mp inside).2
    constructor
    · intro leaves
      exact absurd (start_of_isWayFrom leaves) notRoot
    · intro same
      have owner := graph.stem_linkWire root session link
      have plain : stem "root" = "root".toList :=
        stem_of_colon_not_mem Identifier.root.colon_not_mem_text
      rw [same, plain, String.toList_inj] at owner
      have shownAs := shown.linkOwner_mem inside
      rw [← owner] at shownAs
      exact absurd (List.mem_flatMap.mpr ⟨link.start, inside, shownAs⟩) shown.root_not_mem

/-- The edges that come with the steps of a search are those that are drawn. -/
theorem map_wire_drawn (shown : graph.Shown root unshared summary session)
    (search : graph.Searches root [root] (graph.ways root root) steps) :
    (steps.flatMap ((graph.scene unshared).drawn root session.registry)).map Diagram.Edge.wire =
      (graph.links steps).map (graph.linkWire root session) := by
  have found := search.entered_discovery
  have led {way : Way} (met : way.tail = root ∨ way.tail ∈ graph.discovery root) :
      ((graph.scene unshared).led root session.registry way).wire =
        graph.linkWire root session (.along way) := by
    rw [Scene.led, Scene.lead, linkWire, shown.endOf_eq met]
    by_cases fromRoot : way.head = root
    · rw [if_pos fromRoot, if_pos fromRoot]
      rfl
    · rw [if_neg fromRoot, if_neg fromRoot, Scene.leadingTo_dependencyEdge]
      cases way.edge.desire.isTransient <;> rfl
  rw [links, List.map_flatMap, List.map_flatMap]
  apply List.flatMap_congr
  intro step member
  cases step with
  | enter way => rfl
  | leave way =>
      have inside : way.tail ∈ graph.discovery root := found ▸ search.mem_entered_of_leave member
      rcases shown.portrayed inside with ⟨data, satisfaction, bound, portrayed⟩
      rw [Scene.drawn, portrayed, Option.elim_some, List.map_append,
        shown.map_wire_backEdges inside portrayed, stepLinks, List.map_append, List.map_singleton,
        List.map_singleton, led (Or.inr inside), backLinks, bound, Option.bind_some]
      cases satisfaction.provider? <;> rfl
  | meet way =>
      rcases search.met member with old | again
      · exact congrArg (fun wire => [wire]) (led (Or.inl (List.mem_singleton.mp old)))
      · exact congrArg (fun wire => [wire]) (led (Or.inr (found ▸ again)))

end Shown

/-- The wires of the ways from the root. -/
theorem map_linkWire_root (graph : Graph) (root : NodeId) (session : Session (Watched State)) :
    ((graph.ways root root).map Link.along).map (graph.linkWire root session) =
      (graph.dependencies root).map fun edge =>
        ⟨"root", session.endOf edge.tail, [("arrowhead", .text "vee")]⟩ := by
  have edges := List.zipIdx_map_fst 1 (graph.dependencies root)
  conv_rhs => rw [← edges]
  rw [ways, followed, if_pos rfl, List.map_map, List.map_map, List.map_map]
  apply List.map_congr_left
  rintro ⟨edge, rank⟩ _
  exact if_pos rfl

/-- The wires of the ways from the rows of a node. -/
theorem map_linkWire_ways (graph : Graph) {root node : NodeId} (notRoot : node ≠ root)
    (session : Session (Watched State)) :
    ((graph.ways root node).map Link.along).map (graph.linkWire root session) =
      graph.branchWires node (graph.ownerOf session.registry node) session := by
  rw [ways, followed, if_neg notRoot, List.map_map, List.map_map, branchWires]
  apply List.map_congr_left
  rintro ⟨edge, rank⟩ _
  exact if_neg notRoot

namespace Shown

variable {graph : Graph} {root : NodeId} {unshared : List NodeId} {summary : Summary}
  {session : Session (Watched State)} {steps : List Step}

/-- The wires from the root. -/
theorem filter_fromRoot (shown : graph.Shown root unshared summary session)
    (search : graph.Searches root [root] (graph.ways root root) steps) :
    ((graph.links steps).map (graph.linkWire root session)).filter
        (fun wire => wire.source = "root") =
      (graph.dependencies root).map fun edge =>
        ⟨"root", session.endOf edge.tail, [("arrowhead", .text "vee")]⟩ := by
  have all : ((graph.ways root root).filter fun way => way.head = root) = graph.ways root root := by
    apply List.filter_eq_self.mpr
    intro way among
    simp [head_of_mem_ways among]
  have own := search.filter_links_of_seen (List.mem_singleton_self root)
  rw [all] at own
  rw [List.filter_map, ← map_linkWire_root, ← own]
  congr 1
  apply List.filter_congr
  intro link member
  rw [Bool.eq_iff_iff, shown.isWayFrom_root_iff search member, Function.comp_apply,
    decide_eq_true_iff]

/-- The wires from the rows of a node. -/
theorem filter_fromRows (shown : graph.Shown root unshared summary session)
    (search : graph.Searches root [root] (graph.ways root root) steps) {node : NodeId}
    (member : node ∈ entered steps) :
    ((graph.links steps).map (graph.linkWire root session)).filter (fun wire =>
        stem wire.source = (graph.ownerOf session.registry node).toList) =
      graph.branchWires node (graph.ownerOf session.registry node) session := by
  have found : node ∈ graph.discovery root := search.entered_discovery ▸ member
  have notRoot : node ≠ root := ((graph.mem_discovery_iff root node).mp found).2
  have own := search.filter_links_of_entered (head_mem_of_mem_ways []) member
  rw [List.filter_map, ← map_linkWire_ways graph notRoot, ← own]
  congr 1
  apply List.filter_congr
  intro link drawn
  rw [Bool.eq_iff_iff, shown.isWayFrom_iff search found drawn, Function.comp_apply,
    decide_eq_true_iff]

/-- Where the edge comes along which a node was entered, and what comes behind it. -/
theorem settles (shown : graph.Shown root unshared summary session)
    (search : graph.Searches root [root] (graph.ways root root) steps) {way : Way}
    (enters : .enter way ∈ steps) :
    exists before after, (graph.links steps).map (graph.linkWire root session) =
      before ++ ((graph.backLinks way.tail).map (graph.linkWire root session) ++
        graph.linkWire root session (.along way) :: after) ∧
      (forall wire, wire ∈ (graph.backLinks way.tail).map (graph.linkWire root session) ->
        stem wire.source ≠ (graph.ownerOf session.registry way.tail).toList) ∧
      forall wire, wire ∈ graph.linkWire root session (.along way) :: after ->
        forall id, id ∈ graph.shownIds session.registry way.tail ->
          stem wire.source ≠ id.toList := by
  have found : way.tail ∈ graph.discovery root :=
    search.entered_discovery ▸ mem_entered_of_enter enters
  rcases search.settled (head_mem_of_mem_ways []) enters with
    ⟨different, before, after, split, settled⟩
  have all : graph.links steps = graph.links before ++
      (graph.backLinks way.tail ++ .along way :: graph.links after) := by
    rw [split, links_append, links_leave]
  refine ⟨(graph.links before).map (graph.linkWire root session),
    (graph.links after).map (graph.linkWire root session), ?_, ?_, ?_⟩
  · rw [all, List.map_append, List.map_append, List.map_cons]
  · intro wire member same
    rcases List.mem_map.mp member with ⟨link, back, rfl⟩
    have inLinks : link ∈ graph.links steps := by
      rw [all]
      exact List.mem_append_right _ (List.mem_append_left _ back)
    have leaves := (shown.isWayFrom_iff search found inLinks).mpr same
    rw [((graph.mem_backLinks_iff _ _).mp back).2] at leaves
    cases leaves
  · intro wire member id shownAs same
    rw [← List.map_cons] at member
    rcases List.mem_map.mp member with ⟨link, behind, rfl⟩
    have inLinks : link ∈ graph.links steps := by
      rw [all]
      exact List.mem_append_right _ (List.mem_append_right _ behind)
    rw [stem_linkWire, String.toList_inj] at same
    have start := shown.start_eq search found inLinks (same ▸ shownAs)
    rcases List.mem_cons.mp behind with along | later
    · rw [along] at start
      exact different start
    · exact settled link later start

end Shown

theorem along_root (scene : Scene) (root : NodeId) (registry : Registry) :
    Along (scene.lead root registry) (scene.graph.ways root root)
      (rootStops (scene.graph.dependencies root)) := by
  rw [ways, followed, if_pos rfl]
  exact along_rootStops (fun _ _ => if_pos rfl) (scene.graph.dependencies root) 1

/-- The actions of a dump that succeeds follow a depth-first search from the root. -/
theorem dump_follows {graph : Graph} {root : NodeId} {unshared : List NodeId}
    {sink : Sink State} (obliging : sink.Obliging) {store : State} {summary : Summary}
    {session : Session (Watched State)}
    (dumped : graph.dump root unshared sink.watched (.start store) = (.ok summary, session)) :
    exists steps actions, graph.Searches root [root] (graph.ways root root) steps ∧
      (graph.scene unshared).Follows root session.registry steps actions ∧
      (identifiedIn actions).map session.registry.identifier? =
        (List.range' 1 (identifiedIn actions).length).map (fun number => some (.numbered number)) ∧
      session.store.nodes = Session.rootNode :: offeredIn actions ∧
      session.store.edges = (queuedIn actions).map (Queue.retarget session.registry) := by
  have shown := dump_shown obliging dumped
  cases inside : graph.contains root with
  | false =>
      rw [dump_of_not_contains inside] at dumped
      cases dumped
  | true =>
      rcases dump_toured inside unshared obliging store with ⟨course, tour, toured⟩
      rw [dumped] at toured
      rcases toured with ⟨registry, nodes, edges, answers⟩
      dsimp only at registry nodes edges answers
      cases result : course.result with
      | error error =>
          rw [result] at answers
          cases answers
      | ok _ =>
          rw [result] at edges
          have rootedSound := Registry.sound_rooted graph root
          have numbered := (tour.admitted rootedSound).numbered
          rw [← tour.registry_eq, ← registry] at numbered
          rcases tour.follows result rootedSound (registry ▸ fun _ _ known => known)
            shown.complete shown.sound (List.mem_singleton_self root) (Registry.mem_root_iff root)
            (along_root (graph.scene unshared) root session.registry) with ⟨steps, search, follows⟩
          exact ⟨steps, course.actions, search, follows, numbered, nodes, registry ▸ edges⟩

/-- A dump that succeeds goes along a depth-first search from the root, in which nothing is left to
choose.  It numbers the nodes as they are entered, shows them as they are left, and hands over the
edges as they are drawn. -/
theorem dump_in_sequence {graph : Graph} {root : NodeId} {unshared : List NodeId}
    {sink : Sink State} (obliging : sink.Obliging) {store : State} {summary : Summary}
    {session : Session (Watched State)}
    (dumped : graph.dump root unshared sink.watched (.start store) = (.ok summary, session)) :
    exists steps,
      (forall other, graph.Searches root [root] (graph.ways root root) other <-> other = steps) ∧
        graph.Sequenced root unshared steps session := by
  have shown := dump_shown obliging dumped
  rcases dump_follows obliging dumped with
    ⟨steps, actions, search, follows, numbered, nodes, edges⟩
  have found := search.entered_discovery
  have wires : session.store.edges.map Diagram.Edge.wire =
      (graph.links steps).map (graph.linkWire root session) := by
    rw [edges, follows.queued]
    exact shown.map_wire_drawn search
  rw [follows.offered] at nodes
  refine ⟨steps, fun other => ⟨search.unique, fun same => same ▸ search⟩, {
    covers := found
    leaves := search.left_perm
    numbered := follows.identified ▸ numbered
    nodes := nodes
    ids := ?_
    wires := wires
    fromRoot := ?_
    fromRows := ?_
    settled := ?_ }⟩
  · rw [nodes, List.map_cons, List.map_flatMap]
    simp only [Scene.map_id_descriptors]
    rfl
  · rw [wires]
    exact shown.filter_fromRoot search
  · intro node entered
    rw [wires]
    exact shown.filter_fromRows search entered
  · intro way enters
    rw [wires]
    exact shown.settles search enters

/-- In the ring two nodes are entered one inside the other, and three edges lead to nodes that have
been seen. -/
theorem ring_in_sequence :
    let dumped := ring.dump 0 [] Sink.collecting.watched (.start .empty)
    dumped.1 = .ok ⟨4, 6, 0⟩ ∧ exists steps,
      (forall other, ring.Searches 0 [0] (ring.ways 0 0) other <-> other = steps) ∧
        ring.Sequenced 0 [] steps dumped.2 := by
  have success : (ring.dump 0 [] Sink.collecting.watched (.start .empty)).1 = .ok ⟨4, 6, 0⟩ := rfl
  exact ⟨success, dump_in_sequence Sink.obliging_collecting (Prod.ext success rfl)⟩

end Graph
end InjectionPlan
