import InjectionPlan.Proofs.Retries
import InjectionPlan.Proofs.Termination

namespace InjectionPlan

/-!
# What calls leave behind

A session is a list of calls, each of which is made whatever came of those before it.  What a call
does to the session is told by the actions that were carried out until the sink refused a node
(`Session.deeds`), also if the call fails.  These actions belong to a tour, so no call forgets an
identifier or changes the target of a node that was known before (`Session.Orderly.grows_call`).
-/

namespace Session

variable {State : Type u}

/-! ## Actions carried out until a refusal -/

/-- The actions that are carried out before the sink refuses a node. -/
def carried : (session : Session State) -> List Action -> List Action
  | _, [] => []
  | session, action :: rest =>
    match session.perform action with
    | (.ok (), next) => action :: next.carried rest
    | (.error _, _) => []

/-- A refused action changes nothing but the sink. -/
theorem advanced_perform_error {session next : Session State} {action : Action}
    {refusal : Refusal} (refused : session.perform action = (.error refusal, next)) :
    session.Advanced next [] := by
  rcases perform_error refused with ⟨node, rfl, offered⟩
  rcases offer_error offered with ⟨store, _, rfl⟩
  constructor
  · rfl
  · rfl
  · rfl
  · exact (List.append_nil _).symm
  · rfl

/-- What a session has become is told by the actions carried out, whether one was refused or not. -/
theorem advanced_performAll (session : Session State) (actions : List Action) :
    session.Advanced (session.performAll actions).2 (session.carried actions) := by
  induction actions generalizing session with
  | nil =>
      constructor
      · rfl
      · rfl
      · rfl
      · exact (List.append_nil _).symm
      · rfl
  | cons action rest ih =>
      unfold performAll carried
      cases performed : session.perform action with
      | mk answer next =>
          cases answer with
          | ok _ => exact (perform_ok performed).trans (ih next)
          | error refusal => exact advanced_perform_error performed

/-- All actions are carried out, or those before an offer that is refused. -/
theorem carried_cases (session : Session State) (actions : List Action) :
    (session.performAll actions).1 = .ok () ∧ session.carried actions = actions ∨
      exists node rest refusal, actions = session.carried actions ++ .offer node :: rest ∧
        (session.performAll actions).1 = .error refusal := by
  induction actions generalizing session with
  | nil => exact Or.inl ⟨rfl, rfl⟩
  | cons action rest ih =>
      unfold performAll carried
      cases performed : session.perform action with
      | mk answer next =>
          cases answer with
          | ok _ =>
              rcases ih next with ⟨success, all⟩ | ⟨node, later, refusal, split, refused⟩
              · exact Or.inl ⟨success, congrArg (List.cons action) all⟩
              · exact Or.inr ⟨node, later, refusal, congrArg (List.cons action) split, refused⟩
          | error refusal =>
              rcases perform_error performed with ⟨node, rfl, _⟩
              exact Or.inr ⟨node, rest, refusal, rfl, rfl⟩

theorem carryOut_snd (session : Session State) (course : Course α) :
    (session.carryOut course).2 = (session.performAll course.actions).2 := by
  unfold carryOut
  split
  · next performed => rw [performed]
  · next performed => rw [performed]

/-- The actions that showing a node has carried out. -/
def deeds (session : Session State) (node : NodeId) : List Action :=
  if session.registry.hasRoot then
    session.carried (session.scene.course node session.registry).actions
  else []

theorem advanced_process (session : Session State) (node : NodeId) :
    session.Advanced (session.process node).2 (session.deeds node) := by
  unfold process deeds
  split
  · rw [carryOut_snd]
    exact session.advanced_performAll _
  · exact ⟨rfl, rfl, rfl, (List.append_nil _).symm, rfl⟩

/-- The actions carried out are the first ones of the walk. -/
theorem deeds_begin (session : Session State) (node : NodeId) :
    exists rest, (session.scene.course node session.registry).actions =
      session.deeds node ++ rest := by
  unfold deeds
  split
  · rcases session.carried_cases (session.scene.course node session.registry).actions with
      ⟨_, all⟩ | ⟨offered, rest, _, split, _⟩
    · exact ⟨[], by rw [all, List.append_nil]⟩
    · exact ⟨_, split⟩
  · exact ⟨_, rfl⟩

/-- If showing a node succeeds, its whole walk has been carried out. -/
theorem process_ok {session : Session State} {node : NodeId} {target : String}
    (processed : (session.process node).1 = .ok target) :
    session.registry.hasRoot = true ∧
      session.deeds node = (session.scene.course node session.registry).actions ∧
      (session.scene.course node session.registry).result = .ok target := by
  unfold process at processed
  split at processed
  · next rooted =>
    rw [deeds, if_pos rooted]
    unfold carryOut at processed
    rcases session.carried_cases (session.scene.course node session.registry).actions with
      ⟨success, all⟩ | ⟨_, _, refusal, _, refused⟩
    · split at processed
      · exact ⟨rooted, all, processed⟩
      · cases processed
    · split at processed
      · next performed =>
        rw [performed] at refused
        cases refused
      · cases processed
  · cases processed

/-- Whatever a session knows already is not shown again. -/
theorem process_of_known {session : Session State} (rooted : session.registry.hasRoot = true)
    {node : NodeId} {identifier : Identifier}
    (known : session.registry.identifier? node = some identifier) :
    session.process node = (.ok (session.registry.resolve identifier.text), session) := by
  have turn := session.scene.turn_course node session.registry
  rw [process, if_pos rooted]
  generalize session.scene.course node session.registry = course at turn
  cases turn with
  | known has =>
      cases known.symm.trans has
      rfl
  | foreign unknown _ => cases known.symm.trans unknown
  | bare unknown _ _ => cases known.symm.trans unknown
  | failed fresh _ => cases known.symm.trans fresh.unknown
  | shown fresh _ => cases known.symm.trans fresh.unknown

end Session

/-! ## Registries that are extended -/

namespace Registry

/-- What is known and recorded in one registry is known and recorded in another. -/
structure Extends (before after : Registry) : Prop where
  identifiers : before.Within after
  targets : forall text target, before.target? text = some target ->
    after.target? text = some target

namespace Extends

theorem refl (registry : Registry) : registry.Extends registry where
  identifiers _ _ known := known
  targets _ _ found := found

theorem trans {first second third : Registry} (before : first.Extends second)
    (after : second.Extends third) : first.Extends third where
  identifiers node identifier known :=
    after.identifiers node identifier (before.identifiers node identifier known)
  targets text target found := after.targets text target (before.targets text target found)

end Extends

variable {graph : Graph} {registry : Registry}

/-- An action that is admitted extends the registry. -/
theorem Admits.extended {action : Action} (admitted : registry.Admits graph action) :
    registry.Extends (registry.apply action) := by
  constructor
  · intro node identifier known
    exact identifier?_applyAll_of_known known [action]
  · intro text target found
    cases action with
    | identify node =>
        rw [apply, target?_identify]
        exact found
    | record identifier other =>
        have unrecorded : registry.target? identifier.text = none := admitted.1
        rw [apply, target?_recordTarget]
        split
        · next same =>
          rw [same, found] at unrecorded
          cases unrecorded
        · exact found
    | offer node => exact found
    | enqueue edge => exact found
    | unbound qualifier => exact found
    | note event => exact found

theorem AdmitsAll.extended {actions : List Action} (admitted : registry.AdmitsAll graph actions) :
    registry.Extends (registry.applyAll actions) := by
  induction actions generalizing registry with
  | nil => exact .refl _
  | cons action rest ih => exact admitted.1.extended.trans (ih admitted.2)

/-- If all of several actions leave what was known as it was, so do the first of them. -/
theorem AdmitsAll.grows_begin {first rest : List Action}
    (admitted : registry.AdmitsAll graph (first ++ rest))
    (grows : registry.Grows (registry.applyAll (first ++ rest))) :
    registry.Grows (registry.applyAll first) := by
  rw [admitsAll_append] at admitted
  rw [applyAll_append] at grows
  constructor
  · intro node identifier known
    exact identifier?_applyAll_of_known known first
  · intro node identifier known
    have all := grows.targets node identifier known
    cases before : registry.target? identifier.text with
    | some target => exact admitted.1.extended.targets _ _ before
    | none =>
        rw [before] at all
        cases between : (registry.applyAll first).target? identifier.text with
        | none => rfl
        | some target =>
            cases (admitted.2.extended.targets _ _ between).symm.trans all

theorem grows_empty (registry : Registry) : empty.Grows registry := by
  constructor
  · intro node identifier known
    cases known
  · intro node identifier known
    cases known

end Registry

/-! ## What every call keeps -/

namespace Session

variable {State : Type u} {sink : Sink State} {session : Session (Watched State)}

namespace Orderly

theorem call (orderly : session.Orderly sink) (call : Call) :
    (session.call call).Orderly sink := by
  cases call with
  | setRoot root =>
      have called : session.setRoot root = (_, (session.setRoot root).2) := rfl
      exact orderly.setRoot called
  | process node =>
      have called : session.process node = (_, (session.process node).2) := rfl
      exact orderly.process called
  | enqueue edge => exact ⟨orderly.isWatched, orderly.sound, orderly.settled, orderly.started⟩

theorem callAll (orderly : session.Orderly sink) (calls : List Call) :
    (session.callAll calls).Orderly sink := by
  induction calls generalizing session with
  | nil => exact orderly
  | cons call rest ih => exact ih (orderly.call call)

/-- Each action is admitted when it is carried out. -/
theorem admitted (orderly : session.Orderly sink) (node : NodeId) :
    session.registry.AdmitsAll session.scene.graph (session.deeds node) := by
  rcases session.deeds_begin node with ⟨rest, split⟩
  have all := (session.scene.turn_course node session.registry).tour.admitted orderly.sound
  dsimp only at all
  rw [split, Registry.admitsAll_append] at all
  exact all.1

theorem grows_process (orderly : session.Orderly sink) (node : NodeId) :
    session.registry.Grows (session.process node).2.registry := by
  have tour := (session.scene.turn_course node session.registry).tour
  have admitted := tour.admitted orderly.sound
  have grows := (tour.sound orderly.sound).2
  have reaches := tour.registry_eq
  rcases session.deeds_begin node with ⟨rest, split⟩
  dsimp only at admitted grows reaches
  rw [reaches, split] at grows
  rw [split] at admitted
  rw [(session.advanced_process node).registry]
  exact admitted.grows_begin grows

/-- No call changes what is known of a node that has its identifier. -/
theorem grows_call (orderly : session.Orderly sink) (call : Call) :
    session.registry.Grows (session.call call).registry := by
  cases call with
  | setRoot root =>
      have called : session.setRoot root = (_, (session.setRoot root).2) := rfl
      rcases orderly.setRoot_cases called with ⟨_, same⟩ | ⟨blank, _⟩
      · rw [Session.call, same]
        exact .refl _
      · rw [blank]
        exact Registry.grows_empty _
  | process node => exact orderly.grows_process node
  | enqueue edge => exact .refl _

theorem grows_callAll (orderly : session.Orderly sink) (calls : List Call) :
    session.registry.Grows (session.callAll calls).registry := by
  induction calls generalizing session with
  | nil => exact .refl _
  | cons call rest ih => exact (orderly.grows_call call).trans (ih (orderly.call call))

end Orderly

end Session
end InjectionPlan
