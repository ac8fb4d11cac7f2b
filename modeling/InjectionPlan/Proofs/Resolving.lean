import InjectionPlan.Proofs.Lasting

namespace InjectionPlan

/-!
# One step is enough

When an edge is handed over, its target is looked up once among the recorded targets.  What is found
there might have another target recorded for it, and then the edge would have to be led on.  This
never happens: targets are recorded for identifiers of nodes only, and each is the identifier itself
or its header, which is not an identifier (`Registry.Sound.direct`).  It holds at every moment of a
session, also while nodes are being shown and after calls that fail.  From one moment to the next
what is recorded is only extended (`Session.Orderly.rising_throughout`), so a target comes to the
same whether it is looked up at once or later (`Registry.Extends.lasts`).  Hence all edges are
handed over with the ends of their targets (`Session.throughout_direct`).
-/

namespace Registry

/-- No other target is recorded for a text. -/
def Rests (registry : Registry) (text : String) : Prop :=
  forall target, registry.target? text = some target -> target = text

/-- What one comes to from a text by following the recorded targets for as long as they lead on. -/
inductive Ends (registry : Registry) : String -> String -> Prop
  | here {text : String} (rests : registry.Rests text) : Ends registry text text
  | onward {text next last : String} (found : registry.target? text = some next)
    (elsewhere : next ≠ text) (further : Ends registry next last) : Ends registry text last

/-- An edge is one that waited, with the end of its target. -/
def Completes (registry : Registry) (waiting edge : Diagram.Edge) : Prop :=
  exists last, registry.Ends waiting.target last ∧ edge = waiting.leadingTo last

/-- The recorded targets lead to their ends by one step. -/
structure Direct (registry : Registry) : Prop where
  spelled : forall id target, registry.target? id = some target ->
    (exists node identifier, registry.identifier? node = some identifier ∧
      identifier.text = id) ∧ (target = id ∨ target = headerOf id)
  recorded : forall id target, registry.target? id = some target -> registry.Rests target
  /-- The provider beside a node stands for itself, alone and with its header. -/
  beside : forall identifier : Identifier, registry.Rests (providerId identifier.text) ∧
    registry.Rests (headerOf (providerId identifier.text))
  twice : forall text, registry.resolve (registry.resolve text) = registry.resolve text
  ends : forall text last, registry.Ends text last <-> last = registry.resolve text

/-- What is recorded at one moment is final at a later one. -/
structure Lasts (earlier later : Registry) : Prop where
  known : forall id target, earlier.target? id = some target -> later.resolve id = target
  recorded : forall id target, earlier.target? id = some target ->
    earlier.resolve target = target ∧ later.resolve target = target
  /-- An edge may be given its target before it has to be. -/
  sooner : forall text, later.resolve (earlier.resolve text) = later.resolve text

variable {graph : Graph} {registry : Registry}

theorem rests_iff (registry : Registry) (text : String) :
    registry.Rests text <-> registry.resolve text = text := by
  unfold Rests
  cases found : registry.target? text with
  | none => simp [resolve_of_not_recorded found]
  | some target => simp [resolve_of_recorded found]

namespace Sound

theorem eq_resolve_of_ends (sound : registry.Sound graph) {text last : String}
    (ends : registry.Ends text last) : last = registry.resolve text := by
  induction ends with
  | here rests => exact ((registry.rests_iff _).mp rests).symm
  | onward found _ _ ih =>
      -- What has been found is recorded, so it comes to itself: there is no second step.
      rw [ih, sound.resolve_recorded found, resolve_of_recorded found]

/-- Every text has an end, for what is recorded does not lead on. -/
theorem ends_resolve (sound : registry.Sound graph) (text : String) :
    registry.Ends text (registry.resolve text) := by
  by_cases same : registry.resolve text = text
  · rw [same]
    exact .here ((registry.rests_iff text).mpr same)
  · cases found : registry.target? text with
    | none => exact absurd (resolve_of_not_recorded found) same
    | some next =>
        rw [resolve_of_recorded found] at same ⊢
        exact .onward found same
          (.here ((registry.rests_iff next).mpr (sound.resolve_recorded found)))

theorem completes_retarget (sound : registry.Sound graph) (edge : Diagram.Edge) :
    registry.Completes edge (Queue.retarget registry edge) :=
  ⟨_, sound.ends_resolve edge.target, rfl⟩

theorem completes_map_retarget (sound : registry.Sound graph) (edges : List Diagram.Edge) :
    List.Forall₂ registry.Completes edges (edges.map (Queue.retarget registry)) :=
  List.forall₂_map_right_iff.mpr (List.forall₂_same.mpr fun edge _ => sound.completes_retarget edge)

theorem direct (sound : registry.Sound graph) : registry.Direct where
  spelled id target found := by
    rcases sound.recorded id target found with ⟨node, identifier, known, rfl, rfl⟩
    exact ⟨⟨node, identifier, known, rfl⟩, endpoint_eq_text_or_headerOf graph node identifier⟩
  recorded id target found := (registry.rests_iff target).mpr (sound.resolve_recorded found)
  beside identifier := by
    have alone := sound.resolve_of_ne identifier.providerId_ne_text
    have atHeader := sound.resolve_of_ne (headerOf_ne_text (providerId identifier.text))
    exact ⟨(registry.rests_iff _).mpr alone, (registry.rests_iff _).mpr atHeader⟩
  twice := (Extends.refl registry).resolve_resolve sound
  ends text last := by
    constructor
    · exact sound.eq_resolve_of_ends
    · rintro rfl
      exact sound.ends_resolve text

end Sound

/-- What is extended keeps the targets, and these stand for themselves in either registry. -/
theorem Extends.lasts {later : Registry} (further : registry.Extends later)
    (sound : registry.Sound graph) (laterSound : later.Sound graph) : registry.Lasts later where
  known id target found := resolve_of_recorded (further.targets id target found)
  recorded id target found :=
    ⟨sound.resolve_recorded found, laterSound.resolve_recorded (further.targets id target found)⟩
  sooner := further.resolve_resolve laterSound

end Registry

namespace Session

/-! ## The moments of a session -/

section

variable {State : Type u}

/-- The states of a session from before several actions until they have been carried out, or until
the sink has refused a node. -/
def through : (session : Session State) -> List Action -> List (Session State)
  | session, [] => [session]
  | session, action :: rest =>
    match session.perform action with
    | (.ok (), next) => session :: next.through rest
    | (.error _, next) => [session, next]

/-- The states of a session from before a call until it has been answered.  When the sink is asked
to take the root, the registry is already the one that the call leaves behind. -/
def during (session : Session State) : Call -> List (Session State)
  | .setRoot root => [session, (session.setRoot root).2]
  | .process node =>
    if session.registry.hasRoot then
      session.through (session.scene.course node session.registry).actions
    else [session]
  | .enqueue edge => [session, session.enqueue edge]

/-- The states of a session from before several calls until the last has been answered. -/
def throughout : (session : Session State) -> List Call -> List (Session State)
  | session, [] => [session]
  | session, call :: rest => session.during call ++ (session.call call).throughout rest

theorem getLast?_throughout (session : Session State) (calls : List Call) :
    (session.throughout calls).getLast? = some (session.callAll calls) := by
  induction calls generalizing session with
  | nil => rfl
  | cons call rest ih =>
      rw [throughout, List.getLast?_append, ih, Option.some_or]
      rfl

/-- Between two registries what is recorded is only extended, from each moment to the next. -/
structure Rising (graph : Graph) (first last : Registry) (moments : List (Session State)) :
    Prop where
  reaches : first.Extends last
  sound : forall moment, moment ∈ moments -> moment.registry.Sound graph
  above : forall moment, moment ∈ moments -> first.Extends moment.registry
  below : forall moment, moment ∈ moments -> moment.registry.Extends last
  ordered : moments.Pairwise fun earlier later => earlier.registry.Extends later.registry

variable {graph : Graph} {session : Session State}

namespace Rising

theorem one {last : Registry} (sound : session.registry.Sound graph)
    (further : session.registry.Extends last) : Rising graph session.registry last [session] where
  reaches := further
  sound := List.forall_mem_singleton.mpr sound
  above := List.forall_mem_singleton.mpr (.refl _)
  below := List.forall_mem_singleton.mpr further
  ordered := List.pairwise_singleton _ _

theorem append {first middle last : Registry} {before after : List (Session State)}
    (left : Rising graph first middle before) (right : Rising graph middle last after) :
    Rising graph first last (before ++ after) where
  reaches := left.reaches.trans right.reaches
  sound := List.forall_mem_append.mpr ⟨left.sound, right.sound⟩
  above := List.forall_mem_append.mpr
    ⟨left.above, fun moment member => left.reaches.trans (right.above moment member)⟩
  below := List.forall_mem_append.mpr
    ⟨fun moment member => (left.below moment member).trans right.reaches, right.below⟩
  ordered := List.pairwise_append.mpr ⟨left.ordered, right.ordered,
    fun earlier sooner later among => (left.below earlier sooner).trans (right.above later among)⟩

theorem two {next : Session State} (sound : session.registry.Sound graph)
    (further : session.registry.Extends next.registry) (nextSound : next.registry.Sound graph) :
    Rising graph session.registry next.registry [session, next] :=
  (one sound further).append (one nextSound (.refl _))

/-- Each of several actions extends the registry, provided that it is admitted. -/
theorem through (sound : session.registry.Sound graph) {actions : List Action}
    (admitted : session.registry.AdmitsAll graph actions) :
    Rising graph session.registry (session.performAll actions).2.registry
      (session.through actions) := by
  induction actions generalizing session with
  | nil => exact one sound (.refl _)
  | cons action rest ih =>
      unfold Session.through performAll
      cases performed : session.perform action with
      | mk answer next =>
          cases answer with
          | ok _ =>
              have registry : next.registry = session.registry.apply action :=
                (perform_ok performed).registry
              have extended := admitted.1.extended
              have nextSound := sound.apply admitted.1
              have later := admitted.2
              rw [← registry] at extended nextSound later
              exact (one sound extended).append (ih nextSound later)
          | error refusal =>
              -- A refusal changes nothing but the sink, and nothing is done after it.
              have registry : next.registry = session.registry :=
                (advanced_perform_error performed).registry
              have further : session.registry.Extends next.registry := registry ▸ .refl _
              exact two sound further (registry ▸ sound)

end Rising

end

variable {State : Type u} {sink : Sink State} {session : Session (Watched State)}

namespace Orderly

theorem rising_during (orderly : session.Orderly sink) (call : Call) :
    Rising session.scene.graph session.registry (session.call call).registry
      (session.during call) := by
  -- Setting the root makes a new registry, but only where nothing has been recorded before.
  have further := orderly.sound.extended (orderly.grows_call call)
  have after := (orderly.call call).sound
  rw [orderly.scene_call call] at after
  cases call with
  | setRoot root => exact .two orderly.sound further after
  | enqueue edge => exact .two orderly.sound further after
  | process node =>
      cases rooted : session.registry.hasRoot with
      | false =>
          rw [during, if_neg (ne_true_of_eq_false rooted)]
          exact .one orderly.sound further
      | true =>
          have tour := (session.scene.turn_course node session.registry).tour
          have rising := Rising.through orderly.sound (tour.admitted orderly.sound)
          rw [during, if_pos rooted, Session.call, Session.process, if_pos rooted, carryOut_snd]
          exact rising

theorem rising_throughout (orderly : session.Orderly sink) (calls : List Call) :
    Rising session.scene.graph session.registry (session.callAll calls).registry
      (session.throughout calls) := by
  induction calls generalizing session with
  | nil => exact .one orderly.sound (.refl _)
  | cons call rest ih =>
      have later := ih (orderly.call call)
      rw [orderly.scene_call call] at later
      exact (orderly.rising_during call).append later

end Orderly

/-! ## The end of a session -/

/-- The ways in which a session can end with edges that wait: there is no root, or each edge is
taken with the end of its target, or one of them is refused so. -/
inductive Concludes (session : Session (Watched State)) (waiting : List Diagram.Edge) : Prop
  | rootless (missing : session.registry.hasRoot = false)
    (unfinished : session.finish = (.error .rootNotSet, session)) : Concludes session waiting
  | complete {summary : Summary} (success : session.finish.1 = .ok summary)
    (taken : List.Forall₂ session.registry.Completes waiting session.finish.2.store.edges)
    (handed : session.finish.2.store.handovers =
      session.store.handovers ++ session.finish.2.store.edges.map (.edge · (.ok ()))) :
    Concludes session waiting
  | refused {before after : List Diagram.Edge} {edge offered : Diagram.Edge} {refusal : Refusal}
    (split : waiting = before ++ edge :: after)
    (failure : session.finish.1 = .error (.sink refusal))
    (taken : List.Forall₂ session.registry.Completes before session.finish.2.store.edges)
    (last : session.registry.Completes edge offered)
    (handed : session.finish.2.store.handovers =
      session.store.handovers ++ session.finish.2.store.edges.map (.edge · (.ok ())) ++
        [.edge offered (.error refusal)]) : Concludes session waiting

theorem Tallied.concludes (tallied : session.Tallied) (orderly : session.Orderly sink) :
    session.Concludes session.queue.edges := by
  have sound := orderly.sound
  rcases tallied.finish_cases orderly.isWatched with
    ⟨missing, unfinished⟩ | ⟨success, edges, handed⟩ |
      ⟨taken, offered, rest, refusal, split, failure, edges, handed⟩
  · exact .rootless missing unfinished
  · rw [← edges] at handed
    refine .complete success ?_ handed
    rw [edges]
    exact sound.completes_map_retarget _
  · rcases List.map_eq_append_iff.mp split with ⟨before, behind, queued, rfl, others⟩
    rcases List.map_eq_cons_iff.mp others with ⟨edge, after, rfl, rfl, _⟩
    rw [← edges] at handed
    refine .refused queued failure ?_ (sound.completes_retarget edge) handed
    rw [edges]
    exact sound.completes_map_retarget before

/-- At every moment of a session, whatever is called and whatever the sink refuses, a recorded
target is an identifier or its header and stands for itself, so that a target which is looked up
once has been followed to its end.  What is recorded later does not change that.  The last of the
moments is the session as the calls leave it, and when it is finished all edges that wait are handed
over with the ends of their targets, as far as the sink takes them. -/
theorem throughout_direct (graph : Graph) (unshared : List NodeId) (sink : Sink State)
    (store : State) (calls : List Call) :
    let first := start graph unshared sink.watched (.start store)
    let session := first.callAll calls
    (forall moment, moment ∈ first.throughout calls -> moment.registry.Direct) ∧
      (first.throughout calls).Pairwise (fun earlier later =>
        earlier.registry.Lasts later.registry) ∧
      (first.throughout calls).getLast? = some session ∧
      session.Concludes (first.enqueued calls) := by
  intro first session
  have firstOrderly : first.Orderly sink := orderly_start graph unshared sink store
  have rising := firstOrderly.rising_throughout calls
  refine ⟨fun moment member => (rising.sound moment member).direct, ?_,
    first.getLast?_throughout calls, ?_⟩
  · apply rising.ordered.imp_of_mem
    intro earlier later sooner among further
    exact further.lasts (rising.sound earlier sooner) (rising.sound later among)
  · have tallied : session.Tallied :=
      (Tallied.start graph unshared sink store).callAll firstOrderly calls
    have concludes := tallied.concludes (firstOrderly.callAll calls)
    have waiting : session.queue.edges = first.enqueued calls := first.queue_callAll calls
    rw [waiting] at concludes
    exact concludes

/-- While node 1 of the ring is still being shown, an edge to it ends at the bare identifier, and
node 2 has got its target already.  At the end every edge that waits is led on by one step. -/
theorem ring_direct :
    let moments := ringStart.throughout ringCalls
    let session := ringStart.callAll ringCalls
    exists earlier later, moments[13]? = some earlier ∧ moments[22]? = some later ∧
      earlier.registry.Ends "N1" "N1" ∧ later.registry.Ends "N1" "N1:H" ∧
      later.registry.resolve (earlier.registry.resolve "N1") = "N1:H" ∧
      earlier.registry.target? "N2" = some "N2:H" ∧ later.registry.resolve "N2:H" = "N2:H" ∧
      session.finish.1 = .ok ⟨4, 5, 0⟩ ∧
      List.Forall₂ session.registry.Completes (ringStart.enqueued ringCalls)
        session.finish.2.store.edges := by
  intro moments session
  have all := throughout_direct Graph.ring [] Sink.collecting .empty ringCalls
  rcases all with ⟨direct, ordered, _, concludes⟩
  have long : moments.length = 23 := rfl
  have inside : 13 < moments.length := by omega
  have alsoInside : 22 < moments.length := by omega
  have lasts : moments[13].registry.Lasts moments[22].registry :=
    List.pairwise_iff_getElem.mp ordered 13 22 inside alsoInside (by decide)
  have ends := (direct moments[13] (List.getElem_mem inside)).ends "N1" "N1"
  have endsLater := (direct moments[22] (List.getElem_mem alsoInside)).ends "N1" "N1:H"
  refine ⟨moments[13], moments[22], rfl, rfl, ends.mpr rfl, endsLater.mpr rfl,
    lasts.sooner "N1", rfl, (lasts.recorded "N2" "N2:H" rfl).2, rfl, ?_⟩
  cases concludes with
  | rootless missing _ => cases missing
  | complete _ taken _ => exact taken
  | refused _ failure _ _ _ => cases failure

end Session

end InjectionPlan
