import InjectionPlan.Proofs.Coverage
import InjectionPlan.Proofs.Settling

namespace InjectionPlan

/-!
# Going on after errors

A session may be used further after a call has failed, whether the graph or the sink was at fault.
A node whose showing has failed keeps its identifier, and turning to it again gives an answer
without showing anything.  Such a node is abandoned, and it stays so.  The answer to a call of
`process` is the target of a node that the sink has taken exactly if the node asked for is not
abandoned (`Session.process_shown_iff`).
-/

/-! ## Carrying out a part of a walk -/

namespace Session

variable {State : Type u} {sink : Sink State} {session next : Session (Watched State)}

theorem Handed.nodes {nodes : List Diagram.Node} (handed : session.Handed next nodes) :
    next.store.nodes = session.store.nodes ++ nodes := by
  unfold Watched.nodes
  rw [handed, List.filterMap_append, List.filterMap_map]
  simp [Function.comp_def, Handover.takenNode?]

/-- A node that is refused is not among those taken. -/
theorem nodes_of_refused {node : Diagram.Node} {refusal : Refusal}
    (isWatched : session.sink = sink.watched)
    (refused : session.offer node = (.error refusal, next)) :
    next.store.nodes = session.store.nodes := by
  unfold Watched.nodes
  rw [offer_handovers isWatched refused, List.filterMap_append]
  exact List.append_nil _

/-- Carrying out a walk does all its actions, or those before an offer that is refused. -/
theorem carryOut_watched {course : Course α} {result : Except DumpError α}
    (isWatched : session.sink = sink.watched)
    (carried : session.carryOut course = (result, next)) :
    exists done, next.scene = session.scene ∧ next.sink = session.sink ∧
      next.registry = session.registry.applyAll done ∧
      next.store.nodes = session.store.nodes ++ offeredIn done ∧
      (done = course.actions ∧ result = course.result ∨
        exists node rest refusal, course.actions = done ++ .offer node :: rest ∧
          result = .error (.sink refusal)) := by
  unfold carryOut at carried
  split at carried
  · next performed =>
    cases carried
    have advanced := performAll_ok performed
    exact ⟨course.actions, advanced.scene, advanced.sink, advanced.registry,
      (performAll_handed isWatched performed).nodes, Or.inl ⟨rfl, rfl⟩⟩
  · next refusal reached refused =>
    cases carried
    rcases performAll_error refused with ⟨before, node, after, middle, split, performed, offered⟩
    have advanced := performAll_ok performed
    rcases offer_error offered with ⟨store, _, rfl⟩
    refine ⟨before, advanced.scene, advanced.sink, advanced.registry, ?_,
      Or.inr ⟨node, after, refusal, split, rfl⟩⟩
    rw [nodes_of_refused (advanced.sink.trans isWatched) offered,
      (performAll_handed isWatched performed).nodes]

/-! ## What holds after every call -/

/-- What holds of a session after every call. -/
structure Orderly (sink : Sink State) (session : Session (Watched State)) : Prop where
  isWatched : session.sink = sink.watched
  sound : session.registry.Sound session.scene.graph
  settled : Settled session.registry session.store.nodes
  started : session.registry = .empty ∨ session.registry.hasRoot = true

theorem orderly_start (graph : Graph) (unshared : List NodeId) (sink : Sink State) (store : State) :
    (start graph unshared sink.watched (.start store)).Orderly sink where
  isWatched := rfl
  sound := by
    refine ⟨?_, ?_, ?_⟩
    · intro first second identifier known
      cases known
    · intro node number known
      cases known
    · intro text target found
      cases found
  settled := by
    refine ⟨?_, ?_, ?_⟩
    · intro node member
      cases member
    · intro node identifier member
      cases member
    · intro number target found
      cases found
  started := Or.inl rfl

/-- Showing a node does all actions of its walk, or those before an offer that is refused. -/
theorem process_cases {node : NodeId}
    {result : Except DumpError String} (processed : session.process node = (result, next)) :
    result = .error .rootNotSet ∧ next = session ∨
      session.registry.hasRoot = true ∧
        session.carryOut (session.scene.course node session.registry) = (result, next) := by
  unfold process at processed
  split at processed
  · next rooted => exact Or.inr ⟨rooted, processed⟩
  · cases processed
    exact Or.inl ⟨rfl, rfl⟩

theorem Orderly.process (orderly : session.Orderly sink) {node : NodeId}
    {result : Except DumpError String} (processed : session.process node = (result, next)) :
    next.Orderly sink := by
  rcases process_cases processed with ⟨_, rfl⟩ | ⟨rooted, carried⟩
  · exact orderly
  · rcases carryOut_watched orderly.isWatched carried with
      ⟨done, scene, isWatched, registry, nodes, outcome⟩
    have tour := (session.scene.turn_course node session.registry).tour
    have admitted := tour.admitted orderly.sound
    have punctual := tour.punctual orderly.sound orderly.settled
    refine ⟨isWatched.trans orderly.isWatched, ?_, ?_, Or.inr ?_⟩
    · rw [scene, registry]
      rcases outcome with ⟨rfl, _⟩ | ⟨offered, rest, refusal, split, _⟩
      · exact orderly.sound.applyAll admitted
      · dsimp only at admitted
        rw [split, Registry.admitsAll_append] at admitted
        exact orderly.sound.applyAll admitted.1
    · rw [registry, nodes]
      rcases outcome with ⟨rfl, _⟩ | ⟨offered, rest, refusal, split, _⟩
      · exact punctual.settled
      · dsimp only at punctual
        rw [split] at punctual
        exact punctual.settled_before
    · rw [registry]
      exact Registry.hasRoot_applyAll rooted done

/-- A root can be reserved once. -/
theorem reserveRoot_of_hasRoot {registry : Registry} (rooted : registry.hasRoot = true)
    (root : NodeId) : registry.reserveRoot root = .error .rootAlreadySet := by
  have member := (registry.targets.contains_iff Identifier.root.text).mp rooted
  rw [Registry.reserveRoot, if_neg (Table.size_ne_zero member)]

/-- Setting the root changes nothing, or leaves a registry in which only the root is known. -/
theorem Orderly.setRoot_cases (orderly : session.Orderly sink) {root : NodeId}
    {result : Except DumpError Identifier} (called : session.setRoot root = (result, next)) :
    (exists error, result = .error error) ∧ next = session ∨
      session.registry = .empty ∧ next.registry = .rooted root ∧ next.scene = session.scene ∧
        next.sink = session.sink ∧
        (result = .ok .root ∧ next.store.nodes = session.store.nodes ++ [rootNode] ∨
          (exists error, result = .error error) ∧ next.store.nodes = session.store.nodes) := by
  unfold setRoot at called
  split at called
  · rcases orderly.started with blank | rooted
    · rw [blank, Registry.reserveRoot_empty] at called
      dsimp only at called
      have stillWatched :
          { session with registry := .rooted root }.sink = sink.watched := orderly.isWatched
      refine Or.inr ⟨blank, ?_⟩
      split at called
      · next reached offered =>
        cases called
        have handed := offer_handovers stillWatched offered
        rcases offer_ok offered with ⟨store, _, rfl⟩
        refine ⟨rfl, rfl, rfl, Or.inl ⟨rfl, ?_⟩⟩
        have taken : Handed session _ [rootNode] := handed
        exact taken.nodes
      · next refusal reached offered =>
        cases called
        have nodes := nodes_of_refused stillWatched offered
        rcases offer_error offered with ⟨store, _, rfl⟩
        exact ⟨rfl, rfl, rfl, Or.inr ⟨⟨_, rfl⟩, nodes⟩⟩
    · rw [reserveRoot_of_hasRoot rooted] at called
      cases called
      exact Or.inl ⟨⟨_, rfl⟩, rfl⟩
  · cases called
    exact Or.inl ⟨⟨_, rfl⟩, rfl⟩

/-- The root has its target recorded before it has been shown. -/
theorem settled_rooted {shown : List Diagram.Node} (settled : Settled .empty shown)
    (root : NodeId) : Settled (.rooted root) shown where
  addressed := settled.addressed
  recorded node identifier member same := by
    cases settled.recorded node identifier member same
  backed number target found := by
    rw [Registry.target?_rooted] at found
    split at found
    · next same => cases Identifier.text_injective same
    · cases found

theorem settled_rootNode {shown : List Diagram.Node} (settled : Settled .empty shown)
    (root : NodeId) : Settled (.rooted root) (shown ++ [rootNode]) where
  addressed node member := by
    rcases List.mem_append.mp member with before | last
    · exact settled.addressed node before
    · rw [List.mem_singleton.mp last]
      exact stem_of_colon_not_mem Identifier.root.colon_not_mem_text
  recorded node identifier member same := by
    rcases List.mem_append.mp member with before | last
    · cases settled.recorded node identifier before same
    · rw [List.mem_singleton.mp last] at same ⊢
      have isRoot : Identifier.root.text = identifier.text := same
      rw [Registry.target?_rooted, if_pos isRoot]
      rfl
  backed number target found := by
    rcases (settled_rooted settled root).backed number target found with ⟨node, member, same⟩
    exact ⟨node, List.mem_append_left _ member, same⟩

theorem Orderly.setRoot (orderly : session.Orderly sink) {root : NodeId}
    {result : Except DumpError Identifier} (called : session.setRoot root = (result, next)) :
    next.Orderly sink := by
  rcases orderly.setRoot_cases called with ⟨_, rfl⟩ | ⟨blank, registry, scene, isWatched, outcome⟩
  · exact orderly
  · have settled := orderly.settled
    rw [blank] at settled
    refine ⟨isWatched.trans orderly.isWatched, ?_, ?_, Or.inr ?_⟩
    · rw [registry]
      exact Registry.sound_rooted _ root
    · rcases outcome with ⟨_, nodes⟩ | ⟨_, nodes⟩
      · rw [registry, nodes]
        exact settled_rootNode settled root
      · rw [registry, nodes]
        exact settled_rooted settled root
    · rw [registry]
      exact Registry.hasRoot_rooted root

/-! ## Runs -/

/-- The sessions that calls lead to, whatever comes of the calls. -/
inductive Later (first : Session (Watched State)) : Session (Watched State) -> Prop
  | now : Later first first
  | setRoot {session next : Session (Watched State)} {root : NodeId}
    {result : Except DumpError Identifier} (before : Later first session)
    (called : session.setRoot root = (result, next)) : Later first next
  | process {session next : Session (Watched State)} {node : NodeId}
    {result : Except DumpError String} (before : Later first session)
    (called : session.process node = (result, next)) : Later first next
  | enqueue {session : Session (Watched State)} {edge : Diagram.Edge}
    (before : Later first session) : Later first (session.enqueue edge)

theorem Later.orderly {first : Session (Watched State)} (later : first.Later session)
    (orderly : first.Orderly sink) : session.Orderly sink := by
  induction later with
  | now => exact orderly
  | setRoot _ called ih => exact ih.setRoot called
  | process _ called ih => exact ih.process called
  | enqueue _ ih => exact ⟨ih.isWatched, ih.sound, ih.settled, ih.started⟩

/-! ## What a call of `process` answers -/

/-- A node is abandoned if it has an identifier but has not been shown under it. -/
def Abandoned (session : Session (Watched State)) (node : NodeId) : Prop :=
  exists identifier, session.registry.identifier? node = some identifier ∧
    forall shown, shown ∈ session.store.nodes -> shown.id ≠ identifier.text

/-- For a node with an identifier nothing is done. -/
theorem Orderly.process_known (orderly : session.Orderly sink) {node : NodeId}
    {identifier : Identifier} (known : session.registry.identifier? node = some identifier)
    {target : String} (processed : session.process node = (.ok target, next)) :
    target = session.registry.resolve identifier.text ∧
      next.store.nodes = session.store.nodes := by
  rcases process_cases processed with ⟨impossible, _⟩ | ⟨_, carried⟩
  · cases impossible
  · rcases carryOut_watched orderly.isWatched carried with ⟨done, _, _, _, nodes, outcome⟩
    have turn := session.scene.turn_course node session.registry
    generalize session.scene.course node session.registry = course at turn outcome
    rcases outcome with ⟨rfl, result⟩ | ⟨_, _, _, _, impossible⟩
    · cases turn with
      | known has =>
          cases known.symm.trans has
          exact ⟨Except.ok.inj result, by rw [nodes]; exact List.append_nil _⟩
      | foreign unknown _ => cases known.symm.trans unknown
      | bare unknown _ _ => cases known.symm.trans unknown
      | failed fresh _ => cases known.symm.trans fresh.unknown
      | shown fresh _ => cases known.symm.trans fresh.unknown
    · cases impossible

/-- A node without identifier is shown. -/
theorem Orderly.process_unknown (orderly : session.Orderly sink) {node : NodeId}
    (unknown : session.registry.identifier? node = none) {target : String}
    (processed : session.process node = (.ok target, next)) :
    exists shown, shown ∈ next.store.nodes ∧ shown.target = target := by
  rcases process_cases processed with ⟨impossible, _⟩ | ⟨_, carried⟩
  · cases impossible
  · rcases carryOut_watched orderly.isWatched carried with ⟨done, _, _, _, nodes, outcome⟩
    have turn := session.scene.turn_course node session.registry
    generalize session.scene.course node session.registry = course at turn outcome
    rcases outcome with ⟨rfl, result⟩ | ⟨_, _, _, _, impossible⟩
    · cases turn with
      | known has => cases unknown.symm.trans has
      | foreign _ _ => cases result
      | bare _ _ _ => cases result
      | failed _ _ => cases result
      | @shown data satisfaction actions reached fresh within =>
          cases result
          rcases session.scene.own_mem_portrait node data satisfaction
              (session.registry.identifierFor node).text with ⟨own, member, _, sameTarget⟩
          refine ⟨own, ?_, sameTarget⟩
          rw [nodes, offeredIn_showing]
          exact List.mem_append_right _ (List.mem_append_right _ member)
    · cases impossible

/-- The identifier of an abandoned node stands for itself. -/
theorem Orderly.resolve_of_unshown (orderly : session.Orderly sink) {identifier : Identifier}
    (unshown : forall shown, shown ∈ session.store.nodes -> shown.id ≠ identifier.text) :
    session.registry.resolve identifier.text = identifier.text := by
  cases found : session.registry.target? identifier.text with
  | none => exact Registry.resolve_of_not_recorded found
  | some target =>
      cases identifier with
      | root =>
          rcases orderly.sound.recorded _ target found with ⟨_, other, _, text, rfl⟩
          cases Identifier.text_injective text
          rw [Registry.resolve_of_recorded found, Registry.endpoint_root]
      | numbered number =>
          rcases orderly.settled.backed number target found with ⟨node, taken, same⟩
          exact absurd same (unshown node taken)

/-- No node that has been taken has an identifier as its target unless it was shown under it. -/
theorem Orderly.target_ne (orderly : session.Orderly sink) {identifier : Identifier}
    (unshown : forall shown, shown ∈ session.store.nodes -> shown.id ≠ identifier.text)
    {shown : Diagram.Node} (member : shown ∈ session.store.nodes) :
    shown.target ≠ identifier.text := by
  intro same
  have stems := orderly.settled.addressed shown member
  rw [same, stem_of_colon_not_mem identifier.colon_not_mem_text] at stems
  exact unshown shown member (String.toList_injective stems.symm)

/-- The answer is the target of a node that has been taken, unless the node is abandoned. -/
theorem Orderly.shown_iff (orderly : session.Orderly sink) {node : NodeId} {target : String}
    (processed : session.process node = (.ok target, next)) :
    (exists shown, shown ∈ next.store.nodes ∧ shown.target = target) <->
      ¬ session.Abandoned node := by
  cases known : session.registry.identifier? node with
  | none =>
      refine ⟨fun _ => ?_, fun _ => orderly.process_unknown known processed⟩
      rintro ⟨identifier, has, _⟩
      cases known.symm.trans has
  | some identifier =>
      rcases orderly.process_known known processed with ⟨rfl, nodes⟩
      rw [nodes]
      constructor
      · rintro ⟨shown, member, same⟩ ⟨other, has, unshown⟩
        cases known.symm.trans has
        rw [orderly.resolve_of_unshown unshown] at same
        exact orderly.target_ne unshown member same
      · intro kept
        by_cases taken : exists shown, shown ∈ session.store.nodes ∧ shown.id = identifier.text
        · rcases taken with ⟨shown, member, same⟩
          have recorded := orderly.settled.recorded shown identifier member same
          exact ⟨shown, member, (Registry.resolve_of_recorded recorded).symm⟩
        · exact absurd
            ⟨identifier, known, fun shown member same => taken ⟨shown, member, same⟩⟩ kept

/-- An identifier without a target is that of an abandoned node. -/
theorem Orderly.target?_eq_none_iff (orderly : session.Orderly sink) {node : NodeId}
    {identifier : Identifier} (known : session.registry.identifier? node = some identifier) :
    session.registry.target? identifier.text = none <->
      session.Abandoned node ∧ identifier ≠ .root := by
  constructor
  · intro missing
    refine ⟨⟨identifier, known, fun shown member same => ?_⟩, fun isRoot => ?_⟩
    · cases missing.symm.trans (orderly.settled.recorded shown identifier member same)
    · rcases orderly.started with blank | rooted
      · rw [blank] at known
        cases known
      · rw [isRoot] at missing
        have recorded : (session.registry.target? Identifier.root.text).isSome := rooted
        rw [missing] at recorded
        cases recorded
  · rintro ⟨⟨other, has, unshown⟩, notRoot⟩
    cases known.symm.trans has
    cases identifier with
    | root => exact absurd rfl notRoot
    | numbered number =>
        cases found : session.registry.target? (Identifier.numbered number).text with
        | none => rfl
        | some target =>
            rcases orderly.settled.backed number target found with ⟨shown, member, same⟩
            exact absurd same (unshown shown member)

/-! ## How nodes come to be abandoned -/

/-- A node that is offered has got its identifier by the same tour. -/
theorem unknown_of_offered {scene : Scene} {stops : List Stop} {registry : Registry}
    {course : Course Unit} (tour : Tour scene stops registry course)
    (sound : registry.Sound scene.graph) {node : NodeId} {identifier : Identifier}
    (known : course.registry.identifier? node = some identifier) {shown : Diagram.Node}
    (offered : shown ∈ offeredIn course.actions) (same : shown.id = identifier.text) :
    registry.identifier? node = none := by
  rcases tour.offered_mem sound (fun _ _ has => has) offered with ⟨other, identified, member⟩
  have otherKnown : (course.registry.identifier? other).isSome := by
    rw [tour.registry_eq]
    exact (Registry.identifier?_applyAll_isSome _ _).mpr (Or.inr identified)
  rcases Scene.eq_of_mem_descriptors (tour.sound sound).1 known otherKnown member same with
    ⟨rfl, _⟩
  exact (tour.admitted sound).identifiedIn_new.2 node identified

/-- What has been abandoned stays so: no later call shows it. -/
theorem Orderly.abandoned_process (orderly : session.Orderly sink) {node other : NodeId}
    {result : Except DumpError String} (processed : session.process other = (result, next))
    (abandoned : session.Abandoned node) : next.Abandoned node := by
  rcases process_cases processed with ⟨_, same⟩ | ⟨_, carried⟩
  · exact same ▸ abandoned
  · rcases carryOut_watched orderly.isWatched carried with ⟨done, _, _, registry, nodes, outcome⟩
    rcases abandoned with ⟨identifier, known, unshown⟩
    have tour := (session.scene.turn_course other session.registry).tour
    have within : forall shown, shown ∈ offeredIn done ->
        shown ∈ offeredIn (session.scene.course other session.registry).actions := by
      intro shown offered
      rcases outcome with ⟨rfl, _⟩ | ⟨_, _, _, split, _⟩
      · exact offered
      · rw [split, offeredIn_append]
        exact List.mem_append_left _ offered
    refine ⟨identifier, ?_, fun shown member same => ?_⟩
    · rw [registry]
      exact Registry.identifier?_applyAll_of_known known done
    · rw [nodes] at member
      rcases List.mem_append.mp member with before | offered
      · exact unshown shown before same
      · have stillKnown := Registry.identifier?_applyAll_of_known known
          (session.scene.course other session.registry).actions
        have reaches := tour.registry_eq
        dsimp only at reaches
        rw [← reaches] at stillKnown
        have unknown := unknown_of_offered tour orderly.sound stillKnown (within shown offered) same
        cases known.symm.trans unknown

theorem Orderly.abandoned_setRoot (orderly : session.Orderly sink) {node root : NodeId}
    {result : Except DumpError Identifier} (called : session.setRoot root = (result, next))
    (abandoned : session.Abandoned node) : next.Abandoned node := by
  rcases orderly.setRoot_cases called with ⟨_, same⟩ | ⟨blank, _⟩
  · exact same ▸ abandoned
  · rcases abandoned with ⟨identifier, known, _⟩
    rw [blank] at known
    cases known

theorem Later.abandoned {first : Session (Watched State)} (later : first.Later session)
    (orderly : first.Orderly sink) {node : NodeId} (abandoned : first.Abandoned node) :
    session.Abandoned node := by
  induction later with
  | now => exact abandoned
  | setRoot before called ih => exact (before.orderly orderly).abandoned_setRoot called ih
  | process before called ih => exact (before.orderly orderly).abandoned_process called ih
  | enqueue _ ih => exact ih

/-- Some time before a session, a call gives a node its identifier and fails without having shown
the node. -/
def GivenUp (first session : Session (Watched State)) (node : NodeId) : Prop :=
  exists before after, first.Later before ∧ after.Later session ∧
    before.registry.identifier? node = none ∧ after.Abandoned node ∧
    ((exists error, before.setRoot node = (.error error, after)) ∨
      exists other error, before.process other = (.error error, after))

/-- A call that succeeds abandons no node. -/
theorem Orderly.error_of_abandoned (orderly : session.Orderly sink) {node other : NodeId}
    {result : Except DumpError String} (processed : session.process other = (result, next))
    (unknown : session.registry.identifier? node = none) (abandoned : next.Abandoned node) :
    exists error, result = .error error := by
  cases result with
  | error error => exact ⟨error, rfl⟩
  | ok target =>
      have nextOrderly := orderly.process processed
      rcases abandoned with ⟨identifier, known, unshown⟩
      rcases process_cases processed with ⟨impossible, _⟩ | ⟨rooted, carried⟩
      · cases impossible
      · rcases carryOut_watched orderly.isWatched carried with ⟨done, _, _, registry, _, outcome⟩
        have tour := (session.scene.turn_course other session.registry).tour
        rcases outcome with ⟨rfl, success⟩ | ⟨_, _, _, _, impossible⟩
        · rw [← success] at tour
          have reaches := tour.registry_eq
          dsimp only at reaches
          have identified : node ∈ identifiedIn
              (session.scene.course other session.registry).actions := by
            have isKnown : (next.registry.identifier? node).isSome := by
              rw [known]
              rfl
            rw [registry, Registry.identifier?_applyAll_isSome, unknown] at isKnown
            exact isKnown.resolve_left (fun impossible => by cases impossible)
          rcases tour.recorded rfl orderly.sound node identified with ⟨same, knownToo, target⟩
          dsimp only at knownToo target
          rw [reaches, ← registry] at knownToo target
          cases known.symm.trans knownToo
          have notRoot : identifier ≠ .root := by
            intro isRoot
            rcases Option.isSome_iff_exists.mp rooted with ⟨target, recorded⟩
            rcases orderly.sound.recorded _ target recorded with ⟨root, given, rootKnown, text, _⟩
            cases Identifier.text_injective text
            have stillKnown := Registry.identifier?_applyAll_of_known rootKnown
              (session.scene.course other session.registry).actions
            rw [← registry] at stillKnown
            rw [isRoot] at known
            cases nextOrderly.sound.distinct node root .root known stillKnown
            cases unknown.symm.trans rootKnown
          have missing := (nextOrderly.target?_eq_none_iff known).mpr
            ⟨⟨identifier, known, unshown⟩, notRoot⟩
          cases missing.symm.trans target
        · cases impossible

/-- A node that had its identifier before a call has been abandoned before it. -/
theorem Orderly.abandoned_before (orderly : session.Orderly sink) {node other : NodeId}
    {result : Except DumpError String} (processed : session.process other = (result, next))
    {identifier : Identifier} (known : session.registry.identifier? node = some identifier)
    (abandoned : next.Abandoned node) : session.Abandoned node := by
  rcases process_cases processed with ⟨_, same⟩ | ⟨_, carried⟩
  · exact same ▸ abandoned
  · rcases carryOut_watched orderly.isWatched carried with ⟨done, _, _, registry, nodes, _⟩
    rcases abandoned with ⟨given, knownNow, unshown⟩
    have stillKnown := Registry.identifier?_applyAll_of_known known done
    rw [registry, stillKnown] at knownNow
    cases knownNow
    refine ⟨identifier, known, fun shown member => unshown shown ?_⟩
    rw [nodes]
    exact List.mem_append_left _ member

theorem GivenUp.extend {first session next : Session (Watched State)} {node : NodeId}
    (givenUp : GivenUp first session node)
    (further : forall after : Session (Watched State), after.Later session -> after.Later next) :
    GivenUp first next node := by
  rcases givenUp with ⟨before, after, sooner, later, rest⟩
  exact ⟨before, after, sooner, further after later, rest⟩

theorem GivenUp.abandoned {first : Session (Watched State)} {node : NodeId}
    (givenUp : GivenUp first session node) (orderly : first.Orderly sink) :
    session.Abandoned node := by
  rcases givenUp with ⟨before, after, sooner, later, _, abandoned, call⟩
  have beforeOrderly := sooner.orderly orderly
  rcases call with ⟨error, called⟩ | ⟨other, error, called⟩
  · exact later.abandoned (beforeOrderly.setRoot called) abandoned
  · exact later.abandoned (beforeOrderly.process called) abandoned

/-- Only a call that fails abandons a node. -/
theorem Later.givenUp {first : Session (Watched State)} (later : first.Later session)
    (orderly : first.Orderly sink) (blank : forall node, first.registry.identifier? node = none)
    {node : NodeId} (abandoned : session.Abandoned node) : GivenUp first session node := by
  induction later with
  | now =>
      rcases abandoned with ⟨identifier, known, _⟩
      cases (blank node).symm.trans known
  | @setRoot session next root result before called ih =>
      have sessionOrderly := before.orderly orderly
      rcases sessionOrderly.setRoot_cases called with
        ⟨_, same⟩ | ⟨empty, registry, _, _, outcome⟩
      · rw [same] at abandoned
        exact (ih abandoned).extend fun after sooner => .setRoot sooner called
      · have both := abandoned
        rcases both with ⟨identifier, known, unshown⟩
        rw [registry, Registry.identifier?_rooted] at known
        split at known
        · next isRoot =>
          cases known
          subst isRoot
          rcases outcome with ⟨_, nodes⟩ | ⟨⟨error, failed⟩, _⟩
          · rw [nodes] at unshown
            exact absurd rfl
              (unshown rootNode (List.mem_append_right _ (List.mem_singleton_self _)))
          · refine ⟨session, next, before, .now, ?_, abandoned,
              Or.inl ⟨error, failed ▸ called⟩⟩
            rw [empty]
            rfl
        · cases known
  | @process session next other result before called ih =>
      have sessionOrderly := before.orderly orderly
      cases known : session.registry.identifier? node with
      | none =>
          rcases sessionOrderly.error_of_abandoned called known abandoned with ⟨error, failed⟩
          exact ⟨session, next, before, .now, known, abandoned,
            Or.inr ⟨other, error, failed ▸ called⟩⟩
      | some identifier =>
          have earlier := sessionOrderly.abandoned_before called known abandoned
          exact (ih earlier).extend fun after sooner => .process sooner called
  | @enqueue session edge before ih =>
      exact (ih abandoned).extend fun after sooner => .enqueue sooner

/-- In any run of calls, an answer of `process` is the target of a node that the sink has taken
exactly if the node asked for is not abandoned; otherwise it is the bare identifier, and nothing is
shown.  A node is abandoned exactly if it was given up by a call that failed.  A node that is not
the root has an identifier without a target exactly if it is abandoned. -/
theorem process_shown_iff {graph : Graph} {unshared : List NodeId} {store : State}
    (later : (start graph unshared sink.watched (.start store)).Later session) {node : NodeId}
    {target : String} (processed : session.process node = (.ok target, next)) :
    ((exists shown, shown ∈ next.store.nodes ∧ shown.target = target) <->
        ¬ session.Abandoned node) ∧
      (session.Abandoned node -> next.store.nodes = session.store.nodes ∧
        exists identifier, session.registry.identifier? node = some identifier ∧
          target = identifier.text) ∧
      (forall other, session.Abandoned other <->
        GivenUp (start graph unshared sink.watched (.start store)) session other) ∧
      (forall other identifier, session.registry.identifier? other = some identifier ->
        (session.registry.target? identifier.text = none <->
          session.Abandoned other ∧ identifier ≠ .root)) := by
  have first := orderly_start graph unshared sink store
  have orderly := later.orderly first
  refine ⟨orderly.shown_iff processed, fun abandoned => ?_, fun other => ?_,
    fun other identifier known => orderly.target?_eq_none_iff known⟩
  · rcases abandoned with ⟨identifier, known, unshown⟩
    rcases orderly.process_known known processed with ⟨answer, nodes⟩
    exact ⟨nodes, identifier, known, by rw [answer, orderly.resolve_of_unshown unshown]⟩
  · exact ⟨fun abandoned => later.givenUp first (fun _ => rfl) abandoned,
      fun givenUp => givenUp.abandoned first⟩

/-- A session over a graph, begun by setting its node 0 as the root. -/
def begun (graph : Graph) : Session (Watched Collected) :=
  ((start graph [] Sink.collecting.watched (.start .empty)).setRoot 0).2

theorem later_begun (graph : Graph) :
    (start graph [] Sink.collecting.watched (.start .empty)).Later (begun graph) := by
  have called : (start graph [] Sink.collecting.watched (.start .empty)).setRoot 0 =
      (((start graph [] Sink.collecting.watched (.start .empty)).setRoot 0).1, begun graph) := rfl
  exact .setRoot .now called

theorem ring_processed :
    ((begun Graph.ring).process 1).1 = .ok "N1:H" ∧
      ((exists shown, shown ∈ ((begun Graph.ring).process 1).2.store.nodes ∧
          shown.target = "N1:H") <-> ¬ (begun Graph.ring).Abandoned 1) := by
  have answer : ((begun Graph.ring).process 1).1 = .ok "N1:H" := rfl
  have processed : (begun Graph.ring).process 1 =
      (.ok "N1:H", ((begun Graph.ring).process 1).2) := Prod.ext answer rfl
  exact ⟨answer, (process_shown_iff (later_begun Graph.ring) processed).1⟩

/-- Two nodes of which neither has a satisfaction. -/
def bareGraph : Graph where
  nodes := #[⟨none, .noPreference⟩, ⟨none, .noPreference⟩]
  edges := #[]
  outgoing := #[#[], #[]]

/-- A session over the bare graph that has failed to show node 1. -/
def strayed : Session (Watched Collected) :=
  ((begun bareGraph).process 1).2

/-- A node without satisfaction cannot be shown, but when asked again it has an answer. -/
theorem retried_unshown :
    (start bareGraph [] Sink.collecting.watched (.start .empty)).Later strayed ∧
      ((begun bareGraph).process 1).1 = .error (.missingSatisfaction 1) ∧
      (strayed.process 1).1 = .ok "N1" ∧
      ¬ exists shown, shown ∈ (strayed.process 1).2.store.nodes ∧ shown.target = "N1" := by
  have failed : (begun bareGraph).process 1 = (((begun bareGraph).process 1).1, strayed) := rfl
  refine ⟨.process (later_begun bareGraph) failed, rfl, rfl, ?_⟩
  rintro ⟨shown, member, same⟩
  have isRoot : (strayed.process 1).2.store.nodes = [rootNode] := rfl
  rw [isRoot] at member
  rw [List.mem_singleton.mp member] at same
  exact absurd same (by decide)

end Session
end InjectionPlan
