import InjectionPlan.Proofs.Drafting
import InjectionPlan.Proofs.Misuse
import InjectionPlan.Proofs.Ports
import InjectionPlan.Proofs.Tallies

namespace InjectionPlan

/-!
# Answers that last

The answer to a call that shows a node is what the registry has for the identifier of the node, and
between calls this does not change any more, neither for a node that has been shown nor for one
whose showing has failed.  So a call that is made again has the same answer and does nothing
(`Session.Answered.again`), and the edges that lead to the node end there when they are handed over,
also those that were queued while the node was still being shown (`Session.Answered.settles`).
If no call has failed, every node that has an identifier has its target recorded
(`Session.Orderly.complete_callAll`).
-/

/-! ## Where an edge leaves from -/

namespace Graph

/-- An edge leaves from the row in which a component asks for a node. -/
def LeadsTo (graph : Graph) (registry : Registry) (edge : Diagram.Edge) (node : NodeId) : Prop :=
  exists head branch port, (registry.identifier? head).isSome ∧
    (branch, port) ∈ (graph.branches head).zipIdx 1 ∧ branch.tail = node ∧
    edge.source = graph.ownerOf registry head ++ ":" ++ toString port

/-- An edge leaves from the header of what comes from a provider. -/
def LeadsBack (graph : Graph) (registry : Registry) (edge : Diagram.Edge) : Prop :=
  exists node satisfaction identifier, graph.satisfaction? node = some satisfaction ∧
    satisfaction.provider?.isSome ∧ registry.identifier? node = some identifier ∧
    edge.source = headerOf identifier.text

variable {graph : Graph} {registry : Registry}

/-- The owner of a row tells the node. -/
theorem eq_of_ownerOf (sound : registry.Sound graph) {first second : NodeId}
    (firstKnown : (registry.identifier? first).isSome)
    (secondKnown : (registry.identifier? second).isSome)
    (same : graph.ownerOf registry first = graph.ownerOf registry second) : first = second := by
  rcases Option.isSome_iff_exists.mp firstKnown with ⟨one, firstHas⟩
  rcases Option.isSome_iff_exists.mp secondKnown with ⟨other, secondHas⟩
  have identifiers : one = other := by
    have ofFirst := graph.ownerOf_cases registry first
    have ofSecond := graph.ownerOf_cases registry second
    rw [Registry.identifierFor_of_known firstHas] at ofFirst
    rw [Registry.identifierFor_of_known secondHas] at ofSecond
    rcases ofFirst with plain | provider
    · rcases ofSecond with plainToo | providerToo
      · exact Identifier.text_injective (plain.symm.trans (same.trans plainToo))
      · exact absurd (plain.symm.trans (same.trans providerToo)).symm
          (other.providerId_ne_text one)
    · rcases ofSecond with plainToo | providerToo
      · exact absurd (provider.symm.trans (same.trans plainToo)) (one.providerId_ne_text other)
      · exact Identifier.text_injective (Identifier.providerId_injective
          (provider.symm.trans (same.trans providerToo)))
  rw [← identifiers] at secondHas
  exact sound.distinct first second one firstHas secondHas

/-- The port of a row tells the row. -/
theorem eq_of_row (sound : registry.Sound graph) {first second : NodeId}
    (firstKnown : (registry.identifier? first).isSome)
    (secondKnown : (registry.identifier? second).isSome) {port other : Nat}
    (same : graph.ownerOf registry first ++ ":" ++ toString port =
      graph.ownerOf registry second ++ ":" ++ toString other) :
    first = second ∧ port = other := by
  have stems := congrArg stem same
  rw [stem_append_port (graph.colon_not_mem_ownerOf registry first),
    stem_append_port (graph.colon_not_mem_ownerOf registry second)] at stems
  have owners := String.toList_injective stems
  rw [owners] at same
  exact ⟨eq_of_ownerOf sound firstKnown secondKnown owners, eq_of_rowPort same⟩

/-- A header is not a row. -/
theorem headerOf_ne_row (id owner : String) {port : Nat} (positive : 1 ≤ port) :
    headerOf id ≠ owner ++ ":" ++ toString port := by
  intro same
  apply headerOf_not_mem_rowPorts id owner port
  rw [same]
  refine List.mem_map.mpr ⟨port, ?_, rfl⟩
  rw [List.mem_range'_1]
  omega

end Graph

namespace Scene

theorem provider_of_mem_backEdges {scene : Scene} {node : NodeId} {data : Node}
    {satisfaction : Satisfaction} {id : String} {edge : Diagram.Edge}
    (among : edge ∈ (scene.portrait node data satisfaction id).backEdges) :
    satisfaction.provider?.isSome ∧ edge.source = headerOf id := by
  cases satisfaction with
  | null type => cases among
  | ofInstance type value => cases among
  | ofClass type => cases among
  | ofProviderClass provider type =>
      rw [List.mem_singleton.mp among]
      exact ⟨rfl, rfl⟩
  | ofProviderInstance provider label type =>
      rw [List.mem_singleton.mp among]
      exact ⟨rfl, rfl⟩

theorem source_dependencyEdge (owner : String) (port : Nat) (target : String)
    (transient : Bool) :
    (dependencyEdge owner port target transient).source = owner ++ ":" ++ toString port := by
  cases transient <;> rfl

theorem target_dependencyEdge (owner : String) (port : Nat) (target : String)
    (transient : Bool) : (dependencyEdge owner port target transient).target = target := by
  cases transient <;> rfl

variable {scene : Scene} {registry last : Registry} {edge : Diagram.Edge}

/-- Every draft leaves from a row or leads back to a provider, also when more is known. -/
theorem Drafts.leads (drafts : scene.Drafts registry edge) (within : registry.Within last) :
    (exists node, scene.graph.LeadsTo last edge node) ∨ scene.graph.LeadsBack last edge := by
  cases drafts with
  | @row head branch port identifier known leaves found =>
      rcases scene.graph.ownerOf_within within known with ⟨still, owner⟩
      refine Or.inl ⟨branch.tail, head, branch, port, still, leaves, rfl, ?_⟩
      rw [source_dependencyEdge, owner]
  | @back node data satisfaction identifier _ known bound among =>
      rcases provider_of_mem_backEdges among with ⟨provider, source⟩
      exact Or.inr ⟨node, satisfaction, identifier, bound, provider, within _ _ known, source⟩

/-- A draft that leaves from a row ends, when all is known, where the node ends that the row asks
for. -/
theorem Drafts.resolve_target (drafts : scene.Drafts registry edge)
    (further : registry.Extends last) (lastSound : last.Sound scene.graph) {node : NodeId}
    (leads : scene.graph.LeadsTo last edge node) {identifier : Identifier}
    (has : last.identifier? node = some identifier) :
    last.resolve edge.target = last.resolve identifier.text := by
  rcases leads with ⟨owner, asked, row, ownerKnown, among, rfl, source⟩
  have positive : 1 ≤ row := (List.mem_zipIdx among).1
  cases drafts with
  | @row head branch port tail known leaves found =>
      rcases scene.graph.ownerOf_within further.identifiers known with ⟨still, same⟩
      rw [source_dependencyEdge, ← same] at source
      rcases Graph.eq_of_row lastSound still ownerKnown source with ⟨rfl, rfl⟩
      have branches : branch = asked := by
        have one := List.mem_zipIdx leaves
        have other := List.mem_zipIdx among
        rw [one.2.2, other.2.2]
      subst branches
      cases has.symm.trans (further.identifiers _ _ found)
      rw [target_dependencyEdge, further.resolve_resolve lastSound]
  | back known bound among =>
      rw [(provider_of_mem_backEdges among).2] at source
      exact absurd source (Graph.headerOf_ne_row _ _ positive)

end Scene

namespace Session

section

variable {State : Type u}

/-- The edges that a call finds by showing a node. -/
def drawnBy (session : Session State) : Call -> List Diagram.Edge
  | .setRoot _ => []
  | .process node => queuedIn (session.deeds node)
  | .enqueue _ => []

/-- The edges that several calls find, the oldest first. -/
def drawn : (session : Session State) -> List Call -> List Diagram.Edge
  | _, [] => []
  | session, call :: rest => session.drawnBy call ++ (session.call call).drawn rest

/-- A call does not fail. -/
def Succeeds (session : Session State) : Call -> Prop
  | .setRoot root => exists identifier, (session.setRoot root).1 = .ok identifier
  | .process node => exists target, (session.process node).1 = .ok target
  | .enqueue _ => True

/-- None of several calls fails. -/
def Smooth : (session : Session State) -> List Call -> Prop
  | _, [] => True
  | session, call :: rest => session.Succeeds call ∧ (session.call call).Smooth rest

theorem drawn_subset_enqueued (session : Session State) (calls : List Call) :
    forall edge, edge ∈ session.drawn calls -> edge ∈ session.enqueued calls := by
  induction calls generalizing session with
  | nil => exact fun _ impossible => impossible
  | cons call rest ih =>
      intro edge member
      rcases List.mem_append.mp member with first | later
      · apply List.mem_append_left
        cases call with
        | setRoot root => cases first
        | process node => exact first
        | enqueue own => cases first
      · exact List.mem_append_right _ (ih (session.call call) edge later)

end

variable {State : Type u} {sink : Sink State} {session : Session (Watched State)}

/-! ## Edges that are found -/

namespace Orderly

theorem scene_call (orderly : session.Orderly sink) (call : Call) :
    (session.call call).scene = session.scene := by
  cases call with
  | setRoot root =>
      have called : session.setRoot root = (_, (session.setRoot root).2) := rfl
      rcases orderly.setRoot_cases called with ⟨_, same⟩ | ⟨_, _, scene, _⟩
      · rw [Session.call, same]
      · exact scene
  | process node => exact (session.advanced_process node).scene
  | enqueue edge => rfl

theorem scene_callAll (orderly : session.Orderly sink) (calls : List Call) :
    (session.callAll calls).scene = session.scene := by
  induction calls generalizing session with
  | nil => rfl
  | cons call rest ih => exact (ih (orderly.call call)).trans (orderly.scene_call call)

/-- An edge that is found by showing a node is a draft at the moment when it is queued. -/
theorem drafts_of_deeds (orderly : session.Orderly sink) {node : NodeId} {edge : Diagram.Edge}
    (member : edge ∈ queuedIn (session.deeds node)) :
    exists moment : Registry, session.scene.Drafts moment edge ∧
      moment.Extends (session.process node).2.registry := by
  rcases List.mem_filterMap.mp member with ⟨action, done, queues⟩
  rcases List.append_of_mem done with ⟨before, behind, split⟩
  have admitted := orderly.admitted node
  have noLeads : forall stop, stop ∈ [Stop.turn node [] []] ->
      session.scene.Branching session.registry stop := by
    intro stop among
    rw [List.mem_singleton.mp among]
    exact List.forall_mem_nil _
  have drafted := (session.scene.turn_course node session.registry).tour.drafted orderly.sound
    noLeads
  rcases session.deeds_begin node with ⟨rest, all⟩
  dsimp only at drafted
  rw [all, Scene.draftsAll_append, split, Scene.draftsAll_append] at drafted
  rw [split, Registry.admitsAll_append] at admitted
  refine ⟨session.registry.applyAll before, drafted.1.2.1 edge queues, ?_⟩
  rw [(session.advanced_process node).registry, split, Registry.applyAll_append]
  exact admitted.2.extended

theorem drafts_of_drawn (orderly : session.Orderly sink) {calls : List Call}
    {edge : Diagram.Edge} (member : edge ∈ session.drawn calls) :
    exists moment : Registry, session.scene.Drafts moment edge ∧
      moment.Extends (session.callAll calls).registry := by
  induction calls generalizing session with
  | nil => cases member
  | cons call rest ih =>
      rcases List.mem_append.mp member with first | later
      · cases call with
        | setRoot root => cases first
        | enqueue own => cases first
        | process node =>
            rcases orderly.drafts_of_deeds first with ⟨moment, drafts, further⟩
            have next : (session.call (.process node)).Orderly sink := orderly.call (.process node)
            have onward := next.sound.extended (next.grows_callAll rest)
            exact ⟨moment, drafts, further.trans onward⟩
      · have drafted := ih (orderly.call call) later
        rw [orderly.scene_call call] at drafted
        exact drafted

end Orderly

/-! ## Answers -/

/-- A node has its identifier, and the registry has an answer for it. -/
structure Answered (session : Session (Watched State)) (node : NodeId) (target : String) :
    Prop where
  rooted : session.registry.hasRoot = true
  known : exists identifier, session.registry.identifier? node = some identifier ∧
    session.registry.resolve identifier.text = target

namespace Answered

variable {node : NodeId} {target : String}

/-- The answer is given again, and nothing is done. -/
theorem again (answered : session.Answered node target) :
    session.process node = (.ok target, session) := by
  rcases answered.known with ⟨identifier, known, rfl⟩
  exact process_of_known answered.rooted known

/-- Registries that grow keep the answer. -/
theorem grows (answered : session.Answered node target) (orderly : session.Orderly sink)
    {next : Session (Watched State)} (grows : session.registry.Grows next.registry) :
    next.Answered node target := by
  rcases answered.known with ⟨identifier, known, resolves⟩
  have further := orderly.sound.extended grows
  rcases Option.isSome_iff_exists.mp answered.rooted with ⟨root, recorded⟩
  constructor
  · have still := further.targets _ _ recorded
    exact Option.isSome_iff_exists.mpr ⟨root, still⟩
  · refine ⟨identifier, grows.identifiers node identifier known, ?_⟩
    rw [← resolves, Registry.resolve, Registry.resolve, grows.targets node identifier known]

/-- If every node with an identifier has its target recorded, that is the answer. -/
theorem target?_eq (answered : session.Answered node target) {graph : Graph}
    (complete : session.registry.Complete graph) : session.target? node = some target := by
  rcases answered.known with ⟨identifier, known, rfl⟩
  have found := complete node identifier known
  rw [Session.target?, known, Option.bind_some, found, Registry.resolve_of_recorded found]

theorem callAll (answered : session.Answered node target) (orderly : session.Orderly sink)
    (calls : List Call) : (session.callAll calls).Answered node target :=
  answered.grows orderly (orderly.grows_callAll calls)

end Answered

theorem target?_of_grows {next : Session (Watched State)} {node : NodeId} {target : String}
    (grows : session.registry.Grows next.registry) (found : session.target? node = some target) :
    next.target? node = some target := by
  unfold target? at found ⊢
  rcases Option.bind_eq_some_iff.mp found with ⟨identifier, known, recorded⟩
  rw [grows.identifiers node identifier known, Option.bind_some,
    grows.targets node identifier known]
  exact recorded

namespace Orderly

/-- What a call answers is what the registry has for the node from then on. -/
theorem answered_process (orderly : session.Orderly sink) {node : NodeId} {target : String}
    (processed : (session.process node).1 = .ok target) :
    (session.process node).2.Answered node target := by
  rcases process_ok processed with ⟨rooted, all, answer⟩
  have reaches := (session.advanced_process node).registry
  have stillRooted := Registry.hasRoot_applyAll rooted (session.deeds node)
  rw [← reaches] at stillRooted
  rw [all] at reaches
  refine ⟨stillRooted, ?_⟩
  have turn := session.scene.turn_course node session.registry
  have ends := turn.tour.registry_eq
  dsimp only at ends
  rw [reaches, ← ends]
  clear reaches ends all
  generalize session.scene.course node session.registry = course at turn answer
  cases turn with
  | known has =>
      cases answer
      exact ⟨_, has, rfl⟩
  | foreign _ _ => cases answer
  | bare _ _ _ => cases answer
  | failed _ _ => cases answer
  | shown fresh within =>
      cases answer
      refine ⟨_, (within.shown_sound fresh orderly.sound).1, ?_⟩
      apply Registry.resolve_of_recorded
      rw [Registry.target?_recordTarget, if_pos rfl]

/-- The root is answered by its identifier, even if the sink has refused it. -/
theorem answered_setRoot (orderly : session.Orderly sink) {root : NodeId}
    (gives : session.GivesRoot (.setRoot root)) :
    (session.setRoot root).2.Answered root Identifier.root.text := by
  rcases gives with ⟨notUnknown, notAgain⟩
  cases inside : session.scene.graph.contains root with
  | false =>
      rw [setRoot_of_outside inside] at notUnknown
      exact absurd rfl notUnknown
  | true =>
      cases rooted : session.registry.hasRoot with
      | true =>
          rw [setRoot_of_hasRoot inside rooted] at notAgain
          exact absurd rfl notAgain
      | false =>
          have registry := (orderly.setRoot_of_rootless inside rooted).2
          constructor
          · rw [registry]
            exact Registry.hasRoot_rooted root
          · rw [registry]
            refine ⟨.root, ?_, ?_⟩
            · rw [Registry.identifier?_rooted, if_pos rfl]
            · apply Registry.resolve_of_recorded
              rw [Registry.target?_rooted, if_pos rfl]

/-! ## Runs without failures -/

theorem complete_process (orderly : session.Orderly sink)
    (complete : session.registry.Complete session.scene.graph) {node : NodeId} {target : String}
    (processed : (session.process node).1 = .ok target) :
    (session.process node).2.registry.Complete session.scene.graph := by
  rcases process_ok processed with ⟨_, all, answer⟩
  have grows := orderly.grows_process node
  have tour := (session.scene.turn_course node session.registry).tour
  have reaches := tour.registry_eq
  have success : (session.scene.course node session.registry).result.map (fun _ => ()) =
      .ok () := by
    rw [answer]
    rfl
  have recorded := tour.recorded success orderly.sound
  dsimp only at reaches recorded
  rw [reaches, ← all, ← (session.advanced_process node).registry] at recorded
  intro other identifier known
  cases before : session.registry.identifier? other with
  | some earlier =>
      cases known.symm.trans (grows.identifiers other earlier before)
      rw [grows.targets other identifier before]
      exact complete other identifier before
  | none =>
      have identified : other ∈ identifiedIn (session.deeds node) := by
        have isKnown : ((session.process node).2.registry.identifier? other).isSome := by
          rw [known]
          rfl
        rw [(session.advanced_process node).registry, Registry.identifier?_applyAll_isSome,
          before] at isKnown
        exact isKnown.resolve_left Bool.false_ne_true
      rcases recorded other identified with ⟨given, has, target⟩
      cases known.symm.trans has
      exact target

theorem complete_call (orderly : session.Orderly sink)
    (complete : session.registry.Complete session.scene.graph) {call : Call}
    (succeeds : session.Succeeds call) :
    (session.call call).registry.Complete session.scene.graph := by
  cases call with
  | setRoot root =>
      rcases succeeds with ⟨identifier, success⟩
      have called : session.setRoot root = (.ok identifier, (session.setRoot root).2) :=
        Prod.ext success rfl
      rcases orderly.setRoot_cases called with ⟨⟨error, failure⟩, _⟩ | ⟨_, registry, _⟩
      · cases failure
      · intro node given known
        rw [Session.call, registry] at known ⊢
        rw [Registry.identifier?_rooted] at known
        split at known
        · cases known
          rw [Registry.target?_rooted, if_pos rfl, Registry.endpoint_root]
        · cases known
  | process node =>
      rcases succeeds with ⟨target, success⟩
      exact orderly.complete_process complete success
  | enqueue edge => exact complete

/-- If no call fails, every node that has an identifier has its target recorded. -/
theorem complete_callAll (orderly : session.Orderly sink)
    (complete : session.registry.Complete session.scene.graph) {calls : List Call}
    (smooth : session.Smooth calls) :
    (session.callAll calls).registry.Complete session.scene.graph := by
  induction calls generalizing session with
  | nil => exact complete
  | cons call rest ih =>
      have first := orderly.complete_call complete smooth.1
      rw [← orderly.scene_call call] at first ⊢
      exact ih (orderly.call call) first smooth.2

end Orderly

/-! ## What is answered for good -/

/-- A node has been answered for good in a session after some calls: it is answered so again, and
nothing is done then, and all edges that have been found to lead to it will end there.  What becomes
of an edge is told by where it leaves from, and every edge that is found by showing a node leaves
from a row or from a header. -/
structure Settles (graph : Graph) (first : Session (Watched State)) (calls : List Call)
    (node : NodeId) (target : String) : Prop where
  again : (first.callAll calls).process node = (.ok target, first.callAll calls)
  ends : forall edge, edge ∈ first.drawn calls ->
    graph.LeadsTo (first.callAll calls).registry edge node ->
      Queue.retarget (first.callAll calls).registry edge = edge.leadingTo target
  leaves : forall edge, edge ∈ first.drawn calls -> edge ∈ first.enqueued calls ∧
    ((exists other, graph.LeadsTo (first.callAll calls).registry edge other) ∨
      graph.LeadsBack (first.callAll calls).registry edge)
  /-- If the session finishes, all edges have been taken as they end. -/
  written : forall summary, (first.callAll calls).finish.1 = .ok summary ->
    (first.callAll calls).finish.2.store.edges =
      (first.enqueued calls).map (Queue.retarget (first.callAll calls).registry)

theorem Answered.settles {graph : Graph} {first : Session (Watched State)} {calls : List Call}
    {node : NodeId} {target : String} (answered : (first.callAll calls).Answered node target)
    (orderly : first.Orderly sink) (tallied : first.Tallied) (blank : first.queue.edges = [])
    (shows : first.scene.graph = graph) : first.Settles graph calls node target where
  again := answered.again
  ends edge member leads := by
    subst shows
    rcases answered.known with ⟨identifier, known, rfl⟩
    rcases orderly.drafts_of_drawn member with ⟨moment, drafts, further⟩
    have lastSound := (orderly.callAll calls).sound
    rw [orderly.scene_callAll calls] at lastSound
    unfold Queue.retarget
    rw [drafts.resolve_target further lastSound leads known]
    rfl
  leaves edge member := by
    subst shows
    rcases orderly.drafts_of_drawn member with ⟨moment, drafts, further⟩
    exact ⟨first.drawn_subset_enqueued calls edge member, drafts.leads further.identifiers⟩
  written summary success := by
    have finished := (tallied.callAll orderly calls).finish_ok
      (orderly.callAll calls).isWatched success
    rw [queue_callAll, blank] at finished
    exact finished.2.2.1

/-- Once a call has answered where a node ends, it is answered so after any further calls, and
nothing is done then.  All edges to the node end there, whenever they have been queued, and if no
call before has failed, that is what is recorded for the node.  The root is answered so from the
moment when it has been set. -/
theorem process_settles (graph : Graph) (unshared : List NodeId) (sink : Sink State)
    (store : State) (calls : List Call) :
    let first := start graph unshared sink.watched (.start store)
    let session := first.callAll calls
    (forall node target later, (session.process node).1 = .ok target ->
      first.Settles graph (calls ++ .process node :: later) node target ∧
        (first.Smooth calls ->
          (first.callAll (calls ++ .process node :: later)).target? node = some target)) ∧
    forall root later, session.GivesRoot (.setRoot root) ->
      first.Settles graph (calls ++ .setRoot root :: later) root "root" := by
  intro first session
  have firstOrderly : first.Orderly sink := orderly_start graph unshared sink store
  have tallied : first.Tallied := Tallied.start graph unshared sink store
  have orderly : session.Orderly sink := firstOrderly.callAll calls
  have goesOn (call : Call) (later : List Call) :
      first.callAll (calls ++ call :: later) = (session.call call).callAll later :=
    List.foldl_append
  constructor
  · intro node target later processed
    have next : (session.call (.process node)).Orderly sink := orderly.call (.process node)
    have answered := (orderly.answered_process processed).callAll next later
    rw [← Session.call, ← goesOn] at answered
    refine ⟨answered.settles firstOrderly tallied rfl rfl, ?_⟩
    intro smooth
    have blank : first.registry.Complete first.scene.graph := by
      intro other given known
      cases known
    have complete := firstOrderly.complete_callAll blank smooth
    rw [← firstOrderly.scene_callAll calls] at complete
    have completeNow := orderly.complete_process complete processed
    have found := (orderly.answered_process processed).target?_eq completeNow
    rw [goesOn]
    exact target?_of_grows (next.grows_callAll later) found
  · intro root later gives
    have next : (session.call (.setRoot root)).Orderly sink := orderly.call (.setRoot root)
    have answered := (orderly.answered_setRoot gives).callAll next later
    rw [← Session.call, ← goesOn] at answered
    exact answered.settles firstOrderly tallied rfl rfl

/-- A session that shows the ring. -/
def ringStart : Session (Watched Collected) :=
  start Graph.ring [] Sink.collecting.watched (.start .empty)

/-- The ring is shown from its second node, and then a node is asked for that it lacks. -/
def ringCalls : List Call := [.setRoot 0, .process 1, .process 3]

/-- The edge that closes the ring is queued while the node it leads to is still being shown. -/
theorem ring_drawn :
    dependencyEdge "N2" 1 "N1" false ∈ ringStart.drawn ringCalls := by
  have first : (ringStart.drawn ringCalls)[0]? = some (dependencyEdge "N2" 1 "N1" false) := rfl
  exact List.mem_of_getElem? first

theorem ring_leadsTo :
    Graph.ring.LeadsTo (ringStart.callAll ringCalls).registry
      (dependencyEdge "N2" 1 "N1" false) 1 := by
  have row : ((Graph.ring.branches 2).zipIdx 1)[0]? = some (Graph.ring.edges[3], 1) := rfl
  exact ⟨2, Graph.ring.edges[3], 1, rfl, List.mem_of_getElem? row, rfl, rfl⟩

/-- The edge that closes the ring ends where node 1 is answered to end, also when a call has failed
later. -/
theorem ring_settles :
    (ringStart.callAll ringCalls).process 1 = (.ok "N1:H", ringStart.callAll ringCalls) ∧
      (ringStart.callAll ringCalls).target? 1 = some "N1:H" ∧
      Queue.retarget (ringStart.callAll ringCalls).registry
        (dependencyEdge "N2" 1 "N1" false) =
          (dependencyEdge "N2" 1 "N1" false).leadingTo "N1:H" ∧
      (ringStart.callAll ringCalls).process 0 = (.ok "root", ringStart.callAll ringCalls) := by
  have settles := process_settles Graph.ring [] Sink.collecting .empty
  have smooth : ringStart.Smooth [.setRoot 0] := ⟨⟨.root, rfl⟩, trivial⟩
  rcases (settles [.setRoot 0]).1 1 "N1:H" [.process 3] rfl with ⟨node, target⟩
  have shown : (ringStart.setRoot 0).1 = .ok .root := rfl
  have gives : ringStart.GivesRoot (.setRoot 0) := by
    constructor
    · intro unknown
      cases shown.symm.trans unknown
    · intro again
      cases shown.symm.trans again
  have root := (settles []).2 0 [.process 1, .process 3] gives
  exact ⟨node.again, target smooth, node.ends _ ring_drawn ring_leadsTo, root.again⟩

end Session

end InjectionPlan
