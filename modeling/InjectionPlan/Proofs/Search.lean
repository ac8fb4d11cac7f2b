import InjectionPlan.Proofs.Discovery

namespace InjectionPlan

/-!
# Depth-first searches

A search goes along ways, which are edges of the graph with their rank among the edges that are
followed from their heads.  If a way leads to a node that has not been seen, the search enters the
node, goes along all ways from there, and leaves the node; otherwise it has met a node again.  The
rules say what happens step by step (`Graph.Searches`), without registries, stops or sinks, and they
leave no choice (`Searches.unique`).

From the steps it is known which edges are drawn and in which order: that of a way when its node has
been left or met, and just before it the edge back to a provider (`Graph.links`).  After a node has
been left no edge is drawn that leaves from it (`Searches.settled`), and the ways from a node are
drawn in the order of their ranks (`Searches.filter_links_of_entered`).
-/

/-- An edge that is followed, with its rank among the edges followed from its head. -/
structure Way where
  head : NodeId
  rank : Nat
  edge : Edge
deriving DecidableEq

/-- The node that a way leads to. -/
def Way.tail (way : Way) : NodeId :=
  way.edge.tail

/-- What happens on a search. -/
inductive Step
  /-- A node is met for the first time. -/
  | enter (way : Way)
  /-- All ways from a node that was entered along this way have been gone along. -/
  | leave (way : Way)
  /-- A node is met that was seen before. -/
  | meet (way : Way)

/-- The node that is entered. -/
def Step.entered? : Step -> Option NodeId
  | enter way => some way.tail
  | _ => none

/-- The node that is left. -/
def Step.left? : Step -> Option NodeId
  | leave way => some way.tail
  | _ => none

/-- The nodes entered, in this order. -/
def entered (steps : List Step) : List NodeId :=
  steps.filterMap Step.entered?

/-- The nodes left, in this order. -/
def left (steps : List Step) : List NodeId :=
  steps.filterMap Step.left?

section

variable (first second : List Step) (way : Way) (steps : List Step)

@[simp] theorem entered_append : entered (first ++ second) = entered first ++ entered second :=
  List.filterMap_append

@[simp] theorem left_append : left (first ++ second) = left first ++ left second :=
  List.filterMap_append

@[simp] theorem entered_enter : entered (.enter way :: steps) = way.tail :: entered steps := rfl

@[simp] theorem entered_leave : entered (.leave way :: steps) = entered steps := rfl

@[simp] theorem entered_meet : entered (.meet way :: steps) = entered steps := rfl

@[simp] theorem left_enter : left (.enter way :: steps) = left steps := rfl

@[simp] theorem left_leave : left (.leave way :: steps) = way.tail :: left steps := rfl

@[simp] theorem left_meet : left (.meet way :: steps) = left steps := rfl

end

theorem mem_entered_of_enter {steps : List Step} {way : Way} (enters : .enter way ∈ steps) :
    way.tail ∈ entered steps :=
  List.mem_filterMap.mpr ⟨_, enters, rfl⟩

namespace Graph

/-- The edges that are followed from a node: all of the root, and those of another node that lead
on. -/
def followed (graph : Graph) (root node : NodeId) : List Edge :=
  if node = root then graph.dependencies root else graph.branches node

/-- The ways from a node, in the order in which its edges are shown. -/
def ways (graph : Graph) (root node : NodeId) : List Way :=
  ((graph.followed root node).zipIdx 1).map fun (edge, rank) => ⟨node, rank, edge⟩

/-- What happens on a search along several ways, when some nodes have been seen before. -/
inductive Searches (graph : Graph) (root : NodeId) :
    (seen : List NodeId) -> List Way -> List Step -> Prop
  | done {seen : List NodeId} : Searches graph root seen [] []
  | old {seen : List NodeId} {way : Way} {rest : List Way} {steps : List Step}
    (known : way.tail ∈ seen) (later : Searches graph root seen rest steps) :
    Searches graph root seen (way :: rest) (.meet way :: steps)
  | new {seen : List NodeId} {way : Way} {rest : List Way} {inner steps : List Step}
    (fresh : way.tail ∉ seen)
    (within : Searches graph root (way.tail :: seen) (graph.ways root way.tail) inner)
    (later : Searches graph root ((entered inner).reverse ++ way.tail :: seen) rest steps) :
    Searches graph root seen (way :: rest) (.enter way :: (inner ++ .leave way :: steps))

theorem head_of_mem_ways {graph : Graph} {root node : NodeId} {way : Way}
    (member : way ∈ graph.ways root node) : way.head = node := by
  rcases List.mem_map.mp member with ⟨_, _, rfl⟩
  rfl

theorem head_mem_of_mem_ways {graph : Graph} {root node : NodeId} (seen : List NodeId) :
    forall way, way ∈ graph.ways root node -> way.head ∈ node :: seen := by
  intro way member
  rw [head_of_mem_ways member]
  exact List.mem_cons_self

private theorem map_tail_followed (graph : Graph) (root node : NodeId) :
    (graph.ways root node).map Way.tail = (graph.followed root node).map Edge.tail := by
  have edges := congrArg (List.map Edge.tail) (List.zipIdx_map_fst 1 (graph.followed root node))
  rw [List.map_map] at edges
  rw [ways, List.map_map]
  exact edges

theorem map_tail_ways {graph : Graph} {root node : NodeId} (other : node ≠ root) :
    (graph.ways root node).map Way.tail = graph.onward node := by
  rw [map_tail_followed, followed, if_neg other, onward]

theorem map_tail_ways_root (graph : Graph) (root : NodeId) :
    (graph.ways root root).map Way.tail = (graph.dependencies root).map Edge.tail := by
  rw [map_tail_followed, followed, if_pos rfl]

namespace Searches

variable {graph : Graph} {root : NodeId} {seen : List NodeId} {ways : List Way} {steps : List Step}

/-- The rules leave no choice. -/
theorem unique {other : List Step} (search : graph.Searches root seen ways steps)
    (again : graph.Searches root seen ways other) : other = steps := by
  induction search generalizing other with
  | done =>
      cases again
      rfl
  | old known _ ih =>
      cases again with
      | old _ later => rw [ih later]
      | new fresh _ _ => exact absurd known fresh
  | new fresh _ _ ihWithin ihLater =>
      cases again with
      | old known _ => exact absurd known fresh
      | new _ within later =>
          cases ihWithin within
          rw [ihLater later]

/-- The nodes are entered in the order of discovery. -/
theorem entered_eq (search : graph.Searches root seen ways steps) (rootSeen : root ∈ seen) :
    entered steps = graph.preorder (ways.map Way.tail) seen := by
  induction search with
  | done =>
      rw [List.map_nil, preorder]
      rfl
  | old known _ ih => rw [entered_meet, List.map_cons, preorder_of_seen graph known, ih rootSeen]
  | @new seen way rest inner steps fresh _ _ ihWithin ihLater =>
      have notRoot : way.tail ≠ root := fun same => fresh (same ▸ rootSeen)
      have within := ihWithin (List.mem_cons_of_mem _ rootSeen)
      have later := ihLater (List.mem_append_right _ (List.mem_cons_of_mem _ rootSeen))
      rw [map_tail_ways notRoot] at within
      rw [entered_enter, entered_append, entered_leave, List.map_cons,
        preorder_of_new graph fresh, preorder_append, ← within, ← later]

/-- The nodes left are those that were entered. -/
theorem left_perm (search : graph.Searches root seen ways steps) :
    (left steps).Perm (entered steps) := by
  induction search with
  | done => exact .refl _
  | old _ _ ih => exact ih
  | new _ _ _ ihWithin ihLater =>
      rw [left_enter, left_append, left_leave, entered_enter, entered_append, entered_leave]
      exact List.perm_middle.trans ((ihWithin.append ihLater).cons _)

/-- Only nodes are entered that had not been seen. -/
theorem entered_new (search : graph.Searches root seen ways steps) {node : NodeId}
    (member : node ∈ entered steps) : node ∉ seen := by
  induction search with
  | done => cases member
  | old _ _ ih => exact ih member
  | new fresh _ _ ihWithin ihLater =>
      rw [entered_enter, entered_append, entered_leave] at member
      rcases List.mem_cons.mp member with same | inside
      · exact same ▸ fresh
      · rcases List.mem_append.mp inside with within | later
        · exact List.not_mem_of_not_mem_cons (ihWithin within)
        · exact fun old => ihLater later (List.mem_append_right _ (List.mem_cons_of_mem _ old))

theorem mem_entered_of_leave (search : graph.Searches root seen ways steps) {way : Way}
    (leaves : .leave way ∈ steps) : way.tail ∈ entered steps :=
  search.left_perm.mem_iff.mp (List.mem_filterMap.mpr ⟨_, leaves, rfl⟩)

/-- A node that is met again has been seen from the start, or has been entered. -/
theorem met (search : graph.Searches root seen ways steps) {way : Way} (meets : .meet way ∈ steps) :
    way.tail ∈ seen ∨ way.tail ∈ entered steps := by
  induction search with
  | done => cases meets
  | old known _ ih =>
      rcases List.mem_cons.mp meets with first | later
      · cases first
        exact Or.inl known
      · exact ih later
  | @new seen other rest inner steps _ _ _ ihWithin ihLater =>
      rw [entered_enter, entered_append, entered_leave, List.mem_cons, List.mem_append]
      have inside : .meet way ∈ inner ∨ .meet way ∈ steps := by simpa using meets
      rcases inside with within | later
      · rcases ihWithin within with old | again
        · rcases List.mem_cons.mp old with itself | before
          · exact Or.inr (Or.inl itself)
          · exact Or.inl before
        · exact Or.inr (Or.inr (Or.inl again))
      · rcases ihLater later with old | again
        · rcases List.mem_append.mp old with reversed | before
          · exact Or.inr (Or.inr (Or.inl (List.mem_reverse.mp reversed)))
          · rcases List.mem_cons.mp before with itself | first
            · exact Or.inr (Or.inl itself)
            · exact Or.inl first
        · exact Or.inr (Or.inr (Or.inr again))

end Searches

end Graph

/-! ## The edges that are drawn -/

/-- An edge that is drawn. -/
inductive Link
  /-- The edge of a way. -/
  | along (way : Way)
  /-- The edge from what a provider gives for a node back to the provider. -/
  | back (node : NodeId)

/-- The node from which an edge leaves, or from whose provider. -/
def Link.start : Link -> NodeId
  | along way => way.head
  | back node => node

/-- Whether an edge is that of a way from a node. -/
def Link.isWayFrom (node : NodeId) : Link -> Bool
  | along way => way.head = node
  | back _ => false

namespace Graph

/-- The edge back to the provider of a node, if it has one. -/
def backLinks (graph : Graph) (node : NodeId) : List Link :=
  ((graph.satisfaction? node).bind Satisfaction.provider?).elim [] fun _ => [.back node]

/-- The edges that are drawn at a step. -/
def stepLinks (graph : Graph) : Step -> List Link
  | .enter _ => []
  | .leave way => graph.backLinks way.tail ++ [.along way]
  | .meet way => [.along way]

/-- The edges that are drawn on a search, in this order. -/
def links (graph : Graph) (steps : List Step) : List Link :=
  steps.flatMap graph.stepLinks

section

variable (graph : Graph) (first second : List Step) (way : Way) (steps : List Step)

@[simp] theorem links_append :
    graph.links (first ++ second) = graph.links first ++ graph.links second :=
  List.flatMap_append

@[simp] theorem links_enter : graph.links (.enter way :: steps) = graph.links steps := rfl

@[simp] theorem links_leave :
    graph.links (.leave way :: steps) =
      graph.backLinks way.tail ++ .along way :: graph.links steps := by
  simp [links, stepLinks]

@[simp] theorem links_meet :
    graph.links (.meet way :: steps) = .along way :: graph.links steps := rfl

end

theorem mem_backLinks_iff (graph : Graph) (node : NodeId) (link : Link) :
    link ∈ graph.backLinks node <->
      ((graph.satisfaction? node).bind Satisfaction.provider?).isSome ∧ link = .back node := by
  unfold backLinks
  cases (graph.satisfaction? node).bind Satisfaction.provider? <;> simp

@[simp] theorem filter_backLinks (graph : Graph) (node other : NodeId) :
    (graph.backLinks node).filter (Link.isWayFrom other) = [] := by
  apply List.filter_eq_nil_iff.mpr
  intro link member
  rw [((graph.mem_backLinks_iff node link).mp member).2]
  exact Bool.false_ne_true

/-- An edge goes back only to a provider. -/
theorem provider_of_back {graph : Graph} {steps : List Step} {node : NodeId}
    (member : .back node ∈ graph.links steps) :
    ((graph.satisfaction? node).bind Satisfaction.provider?).isSome := by
  rcases List.mem_flatMap.mp member with ⟨step, _, comes⟩
  cases step with
  | enter way => cases comes
  | leave way =>
      rcases List.mem_append.mp comes with back | along
      · rcases (graph.mem_backLinks_iff way.tail _).mp back with ⟨provided, same⟩
        cases same
        exact provided
      · cases List.mem_singleton.mp along
  | meet way => cases List.mem_singleton.mp comes

theorem filter_along_cons (way : Way) {links : List Link} {ways : List Way} {node : NodeId}
    (rest : links.filter (Link.isWayFrom node) =
      (ways.filter fun way => way.head = node).map .along) :
    (Link.along way :: links).filter (Link.isWayFrom node) =
      ((way :: ways).filter fun way => way.head = node).map .along := by
  by_cases same : way.head = node <;> simp [Link.isWayFrom, same, rest]

theorem start_of_isWayFrom {node : NodeId} {link : Link} (leaves : link.isWayFrom node) :
    link.start = node := by
  cases link with
  | along way => exact of_decide_eq_true leaves
  | back other => cases leaves

/-- What has been seen is still seen later. -/
private theorem mem_later {node other : NodeId} {seen : List NodeId} {inner : List Step}
    (old : other ∈ seen) : other ∈ (entered inner).reverse ++ node :: seen :=
  List.mem_append_right _ (List.mem_cons_of_mem _ old)

namespace Searches

variable {graph : Graph} {root : NodeId} {seen : List NodeId} {ways : List Way} {steps : List Step}

/-- An edge that is drawn is that of one of the ways, or leaves from a node that is entered. -/
theorem mem_links (search : graph.Searches root seen ways steps) {link : Link}
    (member : link ∈ graph.links steps) :
    (exists way, way ∈ ways ∧ link = .along way) ∨ link.start ∈ entered steps := by
  induction search with
  | done => cases member
  | @old seen way rest steps _ _ ih =>
      rw [links_meet, List.mem_cons] at member
      rcases member with own | later
      · exact Or.inl ⟨way, List.mem_cons_self, own⟩
      · rcases ih later with ⟨other, among, same⟩ | inside
        · exact Or.inl ⟨other, List.mem_cons_of_mem _ among, same⟩
        · exact Or.inr inside
  | @new seen way rest inner steps _ _ _ ihWithin ihLater =>
      rw [links_enter, links_append, links_leave, List.mem_append, List.mem_append,
        List.mem_cons] at member
      rw [entered_enter, entered_append, entered_leave]
      rcases member with within | back | own | later
      · rcases ihWithin within with ⟨other, among, same⟩ | inside
        · rw [same, Link.start, head_of_mem_ways among]
          exact Or.inr List.mem_cons_self
        · exact Or.inr (List.mem_cons_of_mem _ (List.mem_append_left _ inside))
      · rw [((graph.mem_backLinks_iff _ _).mp back).2]
        exact Or.inr List.mem_cons_self
      · exact Or.inl ⟨way, List.mem_cons_self, own⟩
      · rcases ihLater later with ⟨other, among, same⟩ | inside
        · exact Or.inl ⟨other, List.mem_cons_of_mem _ among, same⟩
        · exact Or.inr (List.mem_cons_of_mem _ (List.mem_append_right _ inside))

/-- If the ways leave from nodes that have been seen, no edge is drawn that leaves from a node
which has not been seen and is not entered. -/
theorem start_ne (search : graph.Searches root seen ways steps)
    (heads : forall way, way ∈ ways -> way.head ∈ seen) {node : NodeId} (unseen : node ∉ seen)
    (notEntered : node ∉ entered steps) {link : Link} (member : link ∈ graph.links steps) :
    link.start ≠ node := by
  rintro rfl
  rcases search.mem_links member with ⟨way, among, rfl⟩ | inside
  · exact unseen (heads way among)
  · exact notEntered inside

/-- From a node that has been seen only those of the ways are drawn that leave from it. -/
theorem filter_links_of_seen (search : graph.Searches root seen ways steps) {node : NodeId}
    (old : node ∈ seen) :
    (graph.links steps).filter (Link.isWayFrom node) =
      (ways.filter fun way => way.head = node).map .along := by
  induction search with
  | done => rfl
  | old _ _ ih => exact filter_along_cons _ (ih old)
  | @new seen way rest inner steps fresh _ _ ihWithin ihLater =>
      have different : way.tail ≠ node := fun same => fresh (same ▸ old)
      have nothing : ((graph.ways root way.tail).filter fun inside => inside.head = node) = [] := by
        apply List.filter_eq_nil_iff.mpr
        intro inside member
        simpa [head_of_mem_ways member] using different
      rw [links_enter, links_append, links_leave, List.filter_append, List.filter_append,
        filter_backLinks, ihWithin (List.mem_cons_of_mem _ old), nothing, List.map_nil,
        List.nil_append, List.nil_append]
      exact filter_along_cons way (ihLater (mem_later old))

/-- From a node that is entered all its ways are drawn, in the order of their ranks. -/
theorem filter_links_of_entered (search : graph.Searches root seen ways steps)
    (heads : forall way, way ∈ ways -> way.head ∈ seen) {node : NodeId}
    (member : node ∈ entered steps) :
    (graph.links steps).filter (Link.isWayFrom node) = (graph.ways root node).map .along := by
  induction search with
  | done => cases member
  | @old seen way rest steps known later ih =>
      rcases List.forall_mem_cons.mp heads with ⟨own, others⟩
      have different : way.head ≠ node := fun same => later.entered_new member (same ▸ own)
      rw [links_meet, List.filter_cons_of_neg (by simpa [Link.isWayFrom] using different)]
      exact ih others member
  | @new seen way rest inner steps fresh within later ihWithin ihLater =>
      have search : graph.Searches root seen (way :: rest) _ := .new fresh within later
      have unseen := search.entered_new member
      rcases List.forall_mem_cons.mp heads with ⟨own, others⟩
      have different : way.head ≠ node := fun same => unseen (same ▸ own)
      have headsInside : forall inside, inside ∈ graph.ways root way.tail ->
          inside.head ∈ way.tail :: seen := head_mem_of_mem_ways seen
      have outside : (rest.filter fun other => other.head = node) = [] := by
        apply List.filter_eq_nil_iff.mpr
        intro other among
        simpa using fun same : other.head = node => unseen (same ▸ others other among)
      rw [links_enter, links_append, links_leave, List.filter_append, List.filter_append,
        filter_backLinks, List.nil_append,
        List.filter_cons_of_neg (by simpa [Link.isWayFrom] using different)]
      rw [entered_enter, entered_append, entered_leave] at member
      rcases List.mem_cons.mp member with itself | inside
      · subst itself
        have all : ((graph.ways root way.tail).filter fun inside => inside.head = way.tail) =
            graph.ways root way.tail := by
          apply List.filter_eq_self.mpr
          intro inside among
          simp [head_of_mem_ways among]
        rw [within.filter_links_of_seen List.mem_cons_self, all,
          later.filter_links_of_seen (List.mem_append_right _ List.mem_cons_self), outside,
          List.map_nil, List.append_nil]
      · rcases List.mem_append.mp inside with within' | later'
        · have old : node ∈ (entered inner).reverse ++ way.tail :: seen :=
            List.mem_append_left _ (List.mem_reverse.mpr within')
          rw [ihWithin headsInside within', later.filter_links_of_seen old, outside, List.map_nil,
            List.append_nil]
        · have new := later.entered_new later'
          rw [List.mem_append, List.mem_reverse, not_or] at new
          have nothing : (graph.links inner).filter (Link.isWayFrom node) = [] := by
            apply List.filter_eq_nil_iff.mpr
            intro link among leaves
            exact within.start_ne headsInside new.2 new.1 among (start_of_isWayFrom leaves)
          rw [nothing, List.nil_append]
          exact ihLater (fun other among => mem_later (others other among)) later'

/-- A node is left when all edges have been drawn that leave from it, and then the edge of the way
along which it was entered is drawn.  No edge that is drawn later leaves from the node. -/
theorem settled (search : graph.Searches root seen ways steps)
    (heads : forall way, way ∈ ways -> way.head ∈ seen) {way : Way}
    (enters : .enter way ∈ steps) :
    way.head ≠ way.tail ∧ exists before after, steps = before ++ .leave way :: after ∧
      forall link, link ∈ graph.links after -> link.start ≠ way.tail := by
  induction search with
  | done => cases enters
  | @old seen other rest steps _ _ ih =>
      rcases ih (List.forall_mem_cons.mp heads).2 (by simpa using enters) with
        ⟨different, before, after, split, settled⟩
      exact ⟨different, .meet other :: before, after, by rw [split]; rfl, settled⟩
  | @new seen other rest inner steps fresh within later ihWithin ihLater =>
      rcases List.forall_mem_cons.mp heads with ⟨own, others⟩
      have headsLater : forall further, further ∈ rest ->
          further.head ∈ (entered inner).reverse ++ other.tail :: seen :=
        fun further among => mem_later (others further among)
      -- A node that has been entered by now is not entered again on the ways that remain.
      have behind {node : NodeId} (unseen : node ∉ seen)
          (known : node ∈ (entered inner).reverse ++ other.tail :: seen) (link : Link)
          (member : link ∈ graph.links steps) : link.start ≠ node := by
        rintro rfl
        rcases later.mem_links member with ⟨further, among, rfl⟩ | inside
        · exact unseen (others further among)
        · exact later.entered_new inside known
      rcases List.mem_cons.mp enters with first | further
      · cases first
        refine ⟨fun same => fresh (same ▸ own), .enter way :: inner, steps, rfl, ?_⟩
        exact behind fresh (List.mem_append_right _ List.mem_cons_self)
      · rcases List.mem_append.mp further with inside | after
        · have isEntered : way.tail ∈ entered inner := mem_entered_of_enter inside
          have new := within.entered_new isEntered
          rw [List.mem_cons, not_or] at new
          rcases ihWithin (head_mem_of_mem_ways seen) inside with
            ⟨different, before, behindInside, split, settled⟩
          refine ⟨different, .enter other :: before, behindInside ++ .leave other :: steps,
            by simp [split], fun link member => ?_⟩
          rw [links_append, links_leave, List.mem_append, List.mem_append, List.mem_cons] at member
          rcases member with among | back | along | last
          · exact settled link among
          · rw [((graph.mem_backLinks_iff _ _).mp back).2]
            exact Ne.symm new.1
          · rw [along]
            exact fun same => new.2 (same ▸ own)
          · exact behind new.2 (List.mem_append_left _ (List.mem_reverse.mpr isEntered)) link last
        · rcases ihLater headsLater (by simpa using after) with
            ⟨different, before, behindLater, split, settled⟩
          exact ⟨different, .enter other :: (inner ++ .leave other :: before), behindLater,
            by simp [split], settled⟩

end Searches
end Graph
end InjectionPlan
