import Mathlib.Data.List.Perm.Subperm
import InjectionPlan.Proofs.Coverage
import InjectionPlan.Proofs.Nesting

namespace InjectionPlan

/-!
# Traversals end

A node that is entered is logged, so the log of a session tells which nodes have been entered in all
its calls together, whatever came of these.  No node is entered twice, since each has an identifier
from then on, and only nodes of the graph are entered (`Session.Accounted`).  So in one session at
most as many nodes are entered as the graph has, and a call that may nest activations as deeply as
nodes are pending never exceeds its bound.  Dumps end for the same reason (`Graph.traversals_end`).
-/

/-! ## Which nodes have been entered -/

/-- The node that is being entered, if an event says so. -/
def LogEvent.entered? : LogEvent -> Option NodeId
  | renderingNode node _ => some node
  | _ => none

/-- The node that is entered by an action. -/
def Action.entered? : Action -> Option NodeId
  | identify node => some node
  | note event => event.entered?
  | _ => none

namespace Session

variable {State : Type u} {session next : Session State}

/-- The nodes that have been entered in a session, in this order. -/
def entered (session : Session State) : List NodeId :=
  session.log.toList.filterMap LogEvent.entered?

theorem entered_logged (session : Session State) (event : LogEvent) :
    (session.logged event).entered = session.entered ++ event.entered?.toList := by
  unfold entered logged
  rw [Array.toList_push, List.filterMap_append]
  cases event <;> rfl

theorem entered_offer (session : Session State) (node : Diagram.Node) :
    (session.offer node).2.entered = session.entered := by
  unfold offer
  split <;> rfl

theorem entered_perform (session : Session State) (action : Action) :
    (session.perform action).2.entered = session.entered ++ action.entered?.toList := by
  cases action with
  | offer node => exact (session.entered_offer node).trans (List.append_nil _).symm
  | enqueue edge => exact (List.append_nil _).symm
  | record identifier target => exact (List.append_nil _).symm
  | identify node => exact entered_logged _ _
  | unbound qualifier => exact entered_logged _ _
  | note event => exact entered_logged _ _

theorem entered_performAll {actions : List Action}
    (performed : session.performAll actions = (.ok (), next)) :
    next.entered = session.entered ++ actions.filterMap Action.entered? := by
  induction actions generalizing session with
  | nil =>
      cases performed
      exact (List.append_nil _).symm
  | cons action rest ih =>
      unfold performAll at performed
      split at performed
      · next middle first =>
        have entered := session.entered_perform action
        rw [first] at entered
        rw [ih performed, entered, List.append_assoc, List.filterMap_cons]
        cases action.entered? <;> rfl
      · cases performed

/-- Carrying out a walk does its first actions, possibly all of them. -/
theorem carryOut_begun {course : Course α} {result : Except DumpError α}
    (carried : session.carryOut course = (result, next)) :
    exists done rest, course.actions = done ++ rest ∧ next.scene = session.scene ∧
      next.registry = session.registry.applyAll done ∧
      next.entered = session.entered ++ done.filterMap Action.entered? := by
  unfold carryOut at carried
  split at carried
  · next performed =>
    cases carried
    have advanced := performAll_ok performed
    exact ⟨course.actions, [], (List.append_nil _).symm, advanced.scene, advanced.registry,
      entered_performAll performed⟩
  · next refusal reached refused =>
    cases carried
    rcases performAll_error refused with ⟨before, node, after, middle, split, performed, offered⟩
    have advanced := performAll_ok performed
    have entered := middle.entered_offer node
    rw [offered, entered_performAll performed] at entered
    rcases offer_error offered with ⟨store, _, rfl⟩
    exact ⟨before, .offer node :: after, split, advanced.scene, advanced.registry, entered⟩

end Session

/-! ## Which nodes are entered on a tour -/

/-- What is logged before the stop does not say that a node is entered. -/
def Stop.Plain : Stop -> Prop
  | row _ _ => True
  | turn _ events _ => forall event, event ∈ events -> event.entered? = none

theorem Graph.plain_itinerary (graph : Graph) (owner : String) (shown : Nat) (edges : List Edge) :
    forall stop, stop ∈ graph.itinerary owner shown edges -> stop.Plain := by
  induction edges generalizing shown with
  | nil => exact fun stop member => absurd member List.not_mem_nil
  | cons edge rest ih =>
      unfold itinerary
      split
      · exact List.forall_mem_cons.mpr ⟨trivial, ih shown⟩
      · refine List.forall_mem_cons.mpr ⟨fun event member => ?_, ih (shown + 1)⟩
        rw [List.mem_singleton.mp member]
        rfl

/-- Nodes are entered by some actions exactly where these give them an identifier. -/
def Faithful (actions : List Action) : Prop :=
  forall action, action ∈ actions -> action.entered? = action.identified?

namespace Faithful

@[simp] theorem append (first second : List Action) :
    Faithful (first ++ second) <-> Faithful first ∧ Faithful second :=
  List.forall_mem_append

theorem filterMap_entered {actions : List Action} (faithful : Faithful actions) :
    actions.filterMap Action.entered? = identifiedIn actions :=
  List.filterMap_congr faithful

theorem notes {events : List LogEvent}
    (plain : forall event, event ∈ events -> event.entered? = none) :
    Faithful (events.map .note) :=
  List.forall_mem_map.mpr plain

@[simp] theorem rowActions (qualifier : Qualifier) (value : Option Instance) :
    Faithful (Stop.rowActions qualifier value) := by
  cases value <;> simp [Stop.rowActions, Faithful, Action.entered?, Action.identified?,
    LogEvent.entered?]

@[simp] theorem linkActions (leads : List Diagram.Edge) (target : String) :
    Faithful (Stop.linkActions leads target) :=
  List.forall_mem_map.mpr fun _ _ => rfl

@[simp] theorem closing (portrait : Portrait) : Faithful portrait.closing :=
  List.forall_mem_append.mpr
    ⟨List.forall_mem_map.mpr fun _ _ => rfl, List.forall_mem_map.mpr fun _ _ => rfl⟩

@[simp] theorem opening (node : NodeId) (identifier : Identifier) (satisfaction : Satisfaction) :
    Faithful (opening node identifier satisfaction) :=
  List.forall_mem_cons.mpr ⟨rfl, List.forall_mem_singleton.mpr rfl⟩

@[simp] theorem showing (scene : Scene) (registry : Registry) (node : NodeId) (data : Node)
    (satisfaction : Satisfaction) (actions : List Action) :
    Faithful (scene.showing registry node data satisfaction actions) <-> Faithful actions := by
  have recorded (identifier : Identifier) (target : String) :
      Faithful [.record identifier target] := List.forall_mem_singleton.mpr rfl
  simp [Scene.showing, recorded]

end Faithful

/-- What is entered after some actions could have been entered before, and not on the way. -/
theorem Scene.Enters.before {scene : Scene} {registry : Registry} {node : NodeId}
    {actions : List Action} (enters : scene.Enters ⟨node, registry.applyAll actions⟩) :
    scene.Enters ⟨node, registry⟩ ∧ node ∉ identifiedIn actions := by
  have unknown : ¬ ((registry.applyAll actions).identifier? node).isSome := by
    simp [enters.unknown]
  rw [Registry.identifier?_applyAll_isSome, not_or] at unknown
  exact ⟨⟨Option.not_isSome_iff_eq_none.mp unknown.1, enters.inside⟩, unknown.2⟩

namespace Tour

variable {scene : Scene} {stops : List Stop} {registry : Registry} {course : Course Unit}

/-- On a tour the nodes entered are those that get an identifier. -/
theorem faithful (tour : Tour scene stops registry course)
    (plain : forall stop, stop ∈ stops -> stop.Plain) : Faithful course.actions := by
  have inner (portrait : Portrait) : forall stop, stop ∈ scene.stops portrait -> stop.Plain :=
    scene.graph.plain_itinerary _ _ _
  induction tour with
  | done => exact List.forall_mem_nil _
  | row _ ih =>
      exact (Faithful.append _ _).mpr ⟨.rowActions _ _, ih (List.forall_mem_cons.mp plain).2⟩
  | known _ _ ih =>
      rcases List.forall_mem_cons.mp plain with ⟨first, others⟩
      simp [Course.after, Faithful.notes first, ih others]
  | foreign _ _ => exact .notes (List.forall_mem_cons.mp plain).1
  | bare _ _ _ =>
      exact (Faithful.append _ _).mpr
        ⟨.notes (List.forall_mem_cons.mp plain).1, List.forall_mem_singleton.mpr rfl⟩
  | failed _ _ ih =>
      have within := ih (inner _)
      simpa [Faithful.notes (List.forall_mem_cons.mp plain).1] using within
  | shown _ _ _ ihWithin ihLater =>
      rcases List.forall_mem_cons.mp plain with ⟨first, others⟩
      have within := ihWithin (inner _)
      simpa [Course.after, Faithful.notes first, ihLater others] using within

/-- On a tour each node gets an identifier at most once, and only if it is entered. -/
theorem identified_once (tour : Tour scene stops registry course) :
    (identifiedIn course.actions).Nodup ∧
      forall node, node ∈ identifiedIn course.actions -> scene.Enters ⟨node, registry⟩ := by
  have apart {node : NodeId} {registry : Registry} {nodes : List NodeId}
      (enters : scene.Enters ⟨node, registry⟩) (once : nodes.Nodup)
      (all : forall other, other ∈ nodes -> scene.Enters ⟨other, registry.identify node⟩) :
      (node :: nodes).Nodup ∧
        forall other, other ∈ node :: nodes -> scene.Enters ⟨other, registry⟩ := by
    have sooner (other : NodeId) (member : other ∈ nodes) :
        scene.Enters ⟨other, registry⟩ ∧ other ∉ identifiedIn [.identify node] := by
      have enters : scene.Enters ⟨other, registry.applyAll [.identify node]⟩ := all other member
      exact enters.before
    refine ⟨List.nodup_cons.mpr ⟨fun again => ?_, once⟩,
      List.forall_mem_cons.mpr ⟨enters, fun other member => (sooner other member).1⟩⟩
    exact (sooner node again).2 (List.mem_singleton_self node)
  induction tour with
  | done => simp [identifiedIn]
  | row _ ih => simpa [Course.after] using ih
  | known _ _ ih => simpa [Course.after] using ih
  | foreign _ _ => simp
  | @bare node _ _ _ registry data unknown present _ =>
      have enters := Scene.enters_of_present unknown present
      have single : identifiedIn [.identify node] = [node] := rfl
      rw [identifiedIn_append, identifiedIn_notes, single]
      exact apart enters List.nodup_nil fun other member => absurd member List.not_mem_nil
  | failed fresh _ ih =>
      simpa using apart fresh.enters ih.1 ih.2
  | @shown node _ _ _ registry course data satisfaction actions reached fresh within _ ihWithin
      ihLater =>
      rcases apart fresh.enters ihWithin.1 ihWithin.2 with ⟨once, all⟩
      have reaches : reached = (registry.identify node).applyAll actions := within.registry_eq
      rw [reaches, ← Registry.applyAll_showing] at ihLater
      have sooner (other : NodeId) (member : other ∈ identifiedIn course.actions) :=
        (ihLater.2 other member).before
      simp only [identifiedIn_showing] at sooner
      simp only [Course.after, identifiedIn_append, identifiedIn_notes, List.nil_append,
        identifiedIn_showing, identifiedIn_linkActions, List.append_nil]
      refine ⟨List.nodup_append.mpr ⟨once, ihLater.1, fun first inFirst second inSecond same => ?_⟩,
        List.forall_mem_append.mpr ⟨all, fun other member => (sooner other member).1⟩⟩
      exact (sooner second inSecond).2 (same ▸ inFirst)

end Tour

/-! ## What is entered in a session -/

/-- Different nodes of a graph that have a property are at most as many as those that have it. -/
theorem length_le_countP {nodes : List NodeId} {size : Nat} {property : NodeId -> Bool}
    (once : nodes.Nodup) (all : forall node, node ∈ nodes -> node < size ∧ property node = true) :
    nodes.length ≤ (List.range size).countP property := by
  rw [List.countP_eq_length_filter]
  refine (List.subperm_of_subset once fun node member => ?_).length_le
  exact List.mem_filter.mpr ⟨List.mem_range.mpr (all node member).1, (all node member).2⟩

/-- Reserving the root takes no identifier away. -/
theorem Registry.identifier?_reserveRoot {registry next : Registry} {root node : NodeId}
    (reserved : registry.reserveRoot root = .ok next)
    (known : (registry.identifier? node).isSome) : (next.identifier? node).isSome := by
  unfold reserveRoot at reserved
  split at reserved
  · cases reserved
    have found : (registry.identifiers.set root .root).get? node =
        if root = node then some .root else registry.identifier? node :=
      Table.get?_set _ root node _
    rw [identifier?, found]
    split
    · rfl
    · exact known
  · cases reserved

/-- A call that goes on with a session. -/
inductive Call
  | setRoot (root : NodeId)
  | process (node : NodeId)
  | enqueue (edge : Diagram.Edge)

namespace Session

variable {State : Type u}

/-- The session after a call, whatever came of it. -/
def call (session : Session State) : Call -> Session State
  | .setRoot root => (session.setRoot root).2
  | .process node => (session.process node).2
  | .enqueue edge => session.enqueue edge

/-- The session after several calls. -/
def callAll (session : Session State) (calls : List Call) : Session State :=
  calls.foldl call session

/-- Each node entered so far has been entered once, is in the graph and has an identifier. -/
structure Accounted (graph : Graph) (session : Session State) : Prop where
  shows : session.scene.graph = graph
  once : session.entered.Nodup
  inside : forall node, node ∈ session.entered -> graph.contains node = true
  known : forall node, node ∈ session.entered -> (session.registry.identifier? node).isSome

variable {graph : Graph} {session next : Session State}

theorem accounted_start (graph : Graph) (unshared : List NodeId) (sink : Sink State)
    (store : State) : (start graph unshared sink store).Accounted graph where
  shows := rfl
  once := List.nodup_nil
  inside _ member := absurd member List.not_mem_nil
  known _ member := absurd member List.not_mem_nil

/-- Where nothing is entered only the identifiers have to be kept. -/
theorem Accounted.keep (accounted : session.Accounted graph) (scene : next.scene = session.scene)
    (entered : next.entered = session.entered)
    (keeps : forall node, (session.registry.identifier? node).isSome ->
      (next.registry.identifier? node).isSome) : next.Accounted graph where
  shows := by rw [scene, accounted.shows]
  once := entered ▸ accounted.once
  inside := entered ▸ accounted.inside
  known node member := keeps node (accounted.known node (entered ▸ member))

theorem Accounted.offer (accounted : session.Accounted graph) (node : Diagram.Node) :
    (session.offer node).2.Accounted graph := by
  refine accounted.keep ?_ (session.entered_offer node) fun other known => ?_
  · unfold Session.offer
    split <;> rfl
  · unfold Session.offer
    split <;> exact known

theorem Accounted.setRoot (accounted : session.Accounted graph) (root : NodeId) :
    (session.setRoot root).2.Accounted graph := by
  unfold Session.setRoot
  split
  · split
    · exact accounted
    · next registry reserved =>
      have reserves : { session with registry := registry }.Accounted graph :=
        accounted.keep rfl rfl fun node => Registry.identifier?_reserveRoot reserved
      have shown := reserves.offer rootNode
      cases offered : Session.offer { session with registry := registry } rootNode with
      | mk answer next =>
          rw [offered] at shown
          cases answer <;> exact shown
  · exact accounted

/-- What showing a node adds to the nodes entered: nodes that had no identifier before. -/
theorem Accounted.process (accounted : session.Accounted graph) (node : NodeId) :
    (session.process node).2.Accounted graph ∧
      exists entries, (session.process node).2.entered = session.entered ++ entries ∧
        entries.Nodup ∧
        forall other, other ∈ entries -> session.scene.Enters ⟨other, session.registry⟩ := by
  unfold Session.process
  split
  · have tour := (session.scene.turn_course node session.registry).tour
    have plain : forall stop, stop ∈ [Stop.turn node [] []] -> stop.Plain :=
      List.forall_mem_singleton.mpr fun event member => absurd member List.not_mem_nil
    have faithful := tour.faithful plain
    have once := tour.identified_once
    cases carried : session.carryOut (session.scene.course node session.registry) with
    | mk result next =>
        rcases carryOut_begun carried with ⟨done, rest, split, scene, registry, entered⟩
        dsimp only at faithful once ⊢
        rw [split, identifiedIn_append] at once
        rw [split, Faithful.append] at faithful
        rw [faithful.1.filterMap_entered] at entered
        have nodup := (List.nodup_append.mp once.1).1
        have all := (List.forall_mem_append.mp once.2).1
        refine ⟨?_, identifiedIn done, entered, nodup, all⟩
        refine ⟨scene ▸ accounted.shows, ?_, ?_, ?_⟩
        · rw [entered]
          refine List.nodup_append.mpr
            ⟨accounted.once, nodup, fun first before second later same => ?_⟩
          have known := accounted.known first before
          rw [same, (all second later).unknown] at known
          cases known
        · rw [entered]
          refine List.forall_mem_append.mpr ⟨accounted.inside, fun other member => ?_⟩
          exact accounted.shows ▸ (all other member).inside
        · rw [entered, registry]
          refine List.forall_mem_append.mpr ⟨fun other member => ?_, fun other member => ?_⟩
          · exact (Registry.identifier?_applyAll_isSome _ _).mpr
              (Or.inl (accounted.known other member))
          · exact (Registry.identifier?_applyAll_isSome _ _).mpr (Or.inr member)
  · exact ⟨accounted, [], (List.append_nil _).symm, List.nodup_nil,
      fun other member => absurd member List.not_mem_nil⟩

theorem Accounted.callAll (accounted : session.Accounted graph) (calls : List Call) :
    (session.callAll calls).Accounted graph := by
  induction calls generalizing session with
  | nil => exact accounted
  | cons call rest ih =>
      apply ih
      cases call with
      | setRoot root => exact accounted.setRoot root
      | process node => exact (accounted.process node).1
      | enqueue edge => exact accounted.keep rfl rfl fun _ known => known

theorem Accounted.showAll (accounted : session.Accounted graph) (edges : List Edge) :
    (session.showAll edges).2.Accounted graph := by
  induction edges generalizing session with
  | nil => exact accounted
  | cons edge rest ih =>
      have shown := (accounted.process edge.tail).1
      rw [Session.showAll]
      cases processed : session.process edge.tail with
      | mk answer next =>
          rw [processed] at shown
          cases answer with
          | error error => exact shown
          | ok target => exact ih (shown.keep rfl rfl fun _ known => known)

theorem Accounted.finish (accounted : session.Accounted graph) :
    session.finish.2.Accounted graph := by
  unfold Session.finish
  split
  · dsimp only
    split
    · exact accounted.keep rfl rfl fun _ known => known
    · exact accounted.keep rfl ((entered_logged _ _).trans (List.append_nil _)) fun _ known => known
  · exact accounted

theorem Accounted.length_le (accounted : session.Accounted graph) :
    session.entered.length ≤ graph.size := by
  have all : forall node, node ∈ session.entered -> node < graph.size ∧ true = true :=
    fun node member => ⟨of_decide_eq_true (accounted.inside node member), rfl⟩
  exact (length_le_countP accounted.once all).trans
    (List.countP_le_length.trans_eq List.length_range)

/-! ## Operations with a bound on the nesting -/

/-- Shows a node.  Nothing comes of it when more activations than the bound are nested. -/
def processWithin (bound : Nat) (session : Session State) (node : NodeId) :
    Option (Except DumpError String × Session State) :=
  if session.registry.hasRoot then
    ((session.scene.visit bound node).run session.registry).map session.carryOut
  else some (.error .rootNotSet, session)

/-- Shows what the edges of the root lead to, with a bound on the nesting. -/
def showAllWithin (bound : Nat) :
    (session : Session State) -> List Edge -> Option (Except DumpError Unit × Session State)
  | session, [] => some (.ok (), session)
  | session, edge :: rest =>
    (session.processWithin bound edge.tail).bind fun
      | (.error error, next) => some (.error error, next)
      | (.ok target, next) => showAllWithin bound (next.enqueue (rootEdge target)) rest

theorem processWithin_of_le {bound : Nat}
    (enough : session.registry.pending session.scene.graph.size ≤ bound) (node : NodeId) :
    session.processWithin bound node = some (session.process node) := by
  unfold processWithin Session.process
  split
  · rw [session.scene.run_visit_of_pending_le node enough]
    rfl
  · rfl

theorem processWithin_eq_none_iff (bound : Nat) (node : NodeId) :
    session.processWithin bound node = none <->
      session.registry.hasRoot = true ∧ exists inside, inside.length = bound ∧
        session.scene.Stack ⟨node, session.registry⟩ inside := by
  unfold processWithin
  split
  · next rooted => simp [rooted, Scene.run_visit_eq_none_iff]
  · next blank => simp [blank]

theorem Accounted.showAllWithin {bound : Nat} (accounted : session.Accounted graph)
    (enough : graph.size ≤ bound) (edges : List Edge) :
    session.showAllWithin bound edges = some (session.showAll edges) := by
  induction edges generalizing session with
  | nil => rfl
  | cons edge rest ih =>
      have pending : session.registry.pending session.scene.graph.size ≤ bound := by
        rw [accounted.shows]
        exact (session.registry.pending_le_size _).trans enough
      have shown := (accounted.process edge.tail).1
      rw [Session.showAllWithin, processWithin_of_le pending, Option.bind_some, Session.showAll]
      cases processed : session.process edge.tail with
      | mk answer next =>
          rw [processed] at shown
          cases answer with
          | error error => rfl
          | ok target => exact ih (shown.keep rfl rfl fun _ known => known)

/-! ## The end -/

/-- That showing a node ends, and what it takes.  `bounded` and `exceeds` say that it takes exactly
the nesting that the rules call for, `shrinks` and `nested` why there is an end to the nesting, and
the others how many nodes are entered, in this call and in the whole session. -/
structure Ends (graph : Graph) (session : Session State) (node : NodeId) : Prop where
  bounded : forall bound, session.registry.pending graph.size ≤ bound ->
    session.processWithin bound node = some (session.process node)
  exceeds : forall bound, session.processWithin bound node = none <->
    session.registry.hasRoot = true ∧ exists inside, inside.length = bound ∧
      session.scene.Stack ⟨node, session.registry⟩ inside
  shrinks : forall outer inner, session.scene.Nests outer inner ->
    inner.registry.pending graph.size < outer.registry.pending graph.size
  nested : forall inside, session.scene.Stack ⟨node, session.registry⟩ inside ->
    inside.length + 1 ≤ session.registry.pending graph.size
  entries : exists entries, (session.process node).2.entered = session.entered ++ entries ∧
    entries.length ≤ session.registry.pending graph.size
  once : (session.process node).2.entered.Nodup
  inside : forall other, other ∈ (session.process node).2.entered -> graph.contains other = true
  few : (session.process node).2.entered.length ≤ graph.size

theorem Accounted.ends (accounted : session.Accounted graph) (node : NodeId) :
    session.Ends graph node := by
  rcases accounted.process node with ⟨after, entries, entered, once, all⟩
  have shows := accounted.shows
  subst shows
  refine ⟨fun bound enough => processWithin_of_le enough node,
    fun bound => processWithin_eq_none_iff bound node, fun outer inner nests => nests.pending_lt,
    fun inside stack => stack.length_lt, ⟨entries, entered, ?_⟩, after.once, after.inside,
    after.length_le⟩
  refine length_le_countP once fun other member => ⟨of_decide_eq_true (all other member).inside, ?_⟩
  rw [(all other member).unknown]
  rfl

end Session

/-- Shows a graph from a root on, with a bound on the nesting. -/
def Graph.dumpWithin {State : Type u} (bound : Nat) (graph : Graph) (root : NodeId)
    (unshared : List NodeId) (sink : Sink State) (store : State) :
    Option (Except DumpError Summary × Session State) :=
  match (Session.start graph unshared sink store).setRoot root with
  | (.error error, session) => some (.error error, session)
  | (.ok _, session) =>
    (session.showAllWithin bound (graph.dependencies root)).map fun
      | (.error error, session) => (.error error, session)
      | (.ok (), session) => session.finish

namespace Graph

variable {State : Type u}

theorem accounted_dump (graph : Graph) (root : NodeId) (unshared : List NodeId)
    (sink : Sink State) (store : State) {bound : Nat} (enough : graph.size ≤ bound) :
    graph.dumpWithin bound root unshared sink store =
        some (graph.dump root unshared sink store) ∧
      (graph.dump root unshared sink store).2.Accounted graph := by
  have begun := (Session.accounted_start graph unshared sink store).setRoot root
  rw [dumpWithin, dump]
  cases called : (Session.start graph unshared sink store).setRoot root with
  | mk answer session =>
      rw [called] at begun
      cases answer with
      | error error => exact ⟨rfl, begun⟩
      | ok _ =>
          have shown := begun.showAll (graph.dependencies root)
          dsimp only at begun shown ⊢
          rw [begun.showAllWithin enough, Option.map_some]
          cases showed : session.showAll (graph.dependencies root) with
          | mk outcome next =>
              rw [showed] at shown
              cases outcome with
              | error error => exact ⟨rfl, shown⟩
              | ok _ => exact ⟨rfl, shown.finish⟩

/-- Every call in a session ends, and so does every dump: no more activations are nested in each
other, and no more nodes are entered in the whole session, than the graph has nodes. -/
theorem traversals_end (graph : Graph) (unshared : List NodeId) (sink : Sink State)
    (store : State) :
    (forall calls node,
      ((Session.start graph unshared sink store).callAll calls).Ends graph node) ∧
    forall root,
      (forall bound, graph.size ≤ bound -> graph.dumpWithin bound root unshared sink store =
        some (graph.dump root unshared sink store)) ∧
      (graph.dump root unshared sink store).2.entered.Nodup ∧
      (graph.dump root unshared sink store).2.entered.length ≤ graph.size := by
  refine ⟨fun calls node =>
    ((Session.accounted_start graph unshared sink store).callAll calls).ends node, fun root => ?_⟩
  have dumped := (graph.accounted_dump root unshared sink store (Nat.le_refl _)).2
  exact ⟨fun bound enough => (graph.accounted_dump root unshared sink store enough).1,
    dumped.once, dumped.length_le⟩

/-- In the ring both nodes that are pending are entered, the second inside the first. -/
theorem ring_traversals_end :
    let session := (Session.start ring [] Sink.collecting .empty).callAll [.setRoot 0]
    session.registry.pending ring.size = 2 ∧
      session.processWithin 2 1 = some (session.process 1) ∧
      (exists inside, inside.length = 1 ∧ session.scene.Stack ⟨1, session.registry⟩ inside) ∧
      (session.process 1).2.entered = [1, 2] := by
  have ends := (traversals_end ring [] Sink.collecting .empty).1 [.setRoot 0] 1
  have pending : ((Session.start ring [] Sink.collecting .empty).callAll
      [.setRoot 0]).registry.pending ring.size = 2 := rfl
  exact ⟨pending, ends.bounded 2 pending.le, ((ends.exceeds 1).mp rfl).2, rfl⟩

end Graph
end InjectionPlan
