import InjectionPlan.Proofs.Portrait
import InjectionPlan.Session.Bound

namespace InjectionPlan

/-!
# Tours

A tour makes stops one after the other.  It says by rules, without a bound on the nesting, what
comes of making the stops: a node that is turned to may have an identifier already, be missing
from the graph, lack a satisfaction, fail inside, or be shown in full.  The rules are exclusive
and some rule always applies, so a tour has exactly one course (`Tour.unique`, `Tour.total`).

Every walk of a session is a tour (`Scene.turn_course`).  What holds of all walks is therefore
proved by induction on the rules, one case for each of them.
-/

/-- What is done before the stops of a node are made. -/
def opening (node : NodeId) (identifier : Identifier) (satisfaction : Satisfaction) : List Action :=
  [.identify node, .note (.dispatching identifier satisfaction)]

/-- A course with actions before it. -/
def Course.after (actions : List Action) (course : Course α) : Course α :=
  { course with actions := actions ++ course.actions }

/-- A node of the graph that has no identifier yet and can be shown. -/
structure Scene.Fresh (scene : Scene) (registry : Registry) (node : NodeId) (data : Node)
    (satisfaction : Satisfaction) : Prop where
  unknown : registry.identifier? node = none
  present : scene.graph.node? node = some data
  bound : data.satisfaction = some satisfaction

/-- The portrait of a node under the identifier that it has or would be given. -/
def Scene.portraitIn (scene : Scene) (registry : Registry) (node : NodeId) (data : Node)
    (satisfaction : Satisfaction) : Portrait :=
  scene.portrait node data satisfaction (registry.identifierFor node).text

/-- All that is done to show a node, given what is done at its stops. -/
def Scene.showing (scene : Scene) (registry : Registry) (node : NodeId) (data : Node)
    (satisfaction : Satisfaction) (actions : List Action) : List Action :=
  let portrait := scene.portraitIn registry node data satisfaction
  opening node (registry.identifierFor node) satisfaction ++ actions ++ portrait.closing ++
    [.record (registry.identifierFor node) portrait.target]

/-- What comes of turning to a node, given what comes of its stops. -/
inductive Scene.Turn (scene : Scene) (inside : List Stop -> Registry -> Course Unit -> Prop)
    (node : NodeId) (registry : Registry) : Course String -> Prop
  | known {identifier : Identifier} (has : registry.identifier? node = some identifier) :
    Turn scene inside node registry ⟨[], registry, .ok (registry.resolve identifier.text)⟩
  | foreign (unknown : registry.identifier? node = none) (absent : scene.graph.node? node = none) :
    Turn scene inside node registry ⟨[], registry, .error (.unknownNode node)⟩
  | bare {data : Node} (unknown : registry.identifier? node = none)
    (present : scene.graph.node? node = some data) (unbound : data.satisfaction = none) :
    Turn scene inside node registry
      ⟨[.identify node], registry.identify node, .error (.missingSatisfaction node)⟩
  | failed {data : Node} {satisfaction : Satisfaction} {actions : List Action} {reached : Registry}
    {error : DumpError} (fresh : scene.Fresh registry node data satisfaction)
    (within : inside (scene.stops (scene.portraitIn registry node data satisfaction))
      (registry.identify node) ⟨actions, reached, .error error⟩) :
    Turn scene inside node registry
      ⟨opening node (registry.identifierFor node) satisfaction ++ actions, reached, .error error⟩
  | shown {data : Node} {satisfaction : Satisfaction} {actions : List Action} {reached : Registry}
    (fresh : scene.Fresh registry node data satisfaction)
    (within : inside (scene.stops (scene.portraitIn registry node data satisfaction))
      (registry.identify node) ⟨actions, reached, .ok ()⟩) :
    Turn scene inside node registry
      ⟨scene.showing registry node data satisfaction actions,
        reached.recordTarget (registry.identifierFor node).text
          (scene.portraitIn registry node data satisfaction).target,
        .ok (scene.portraitIn registry node data satisfaction).target⟩

/-- What comes of making stops. -/
inductive Tour (scene : Scene) : List Stop -> Registry -> Course Unit -> Prop
  | done {registry : Registry} : Tour scene [] registry ⟨[], registry, .ok ()⟩
  | row {qualifier : Qualifier} {value : Option Instance} {rest : List Stop} {registry : Registry}
    {course : Course Unit} (later : Tour scene rest registry course) :
    Tour scene (.row qualifier value :: rest) registry
      (course.after (Stop.rowActions qualifier value))
  | known {node : NodeId} {events : List LogEvent} {leads : List Diagram.Edge} {rest : List Stop}
    {registry : Registry} {course : Course Unit} {identifier : Identifier}
    (has : registry.identifier? node = some identifier) (later : Tour scene rest registry course) :
    Tour scene (.turn node events leads :: rest) registry
      (course.after (events.map .note ++ Stop.linkActions leads (registry.resolve identifier.text)))
  | foreign {node : NodeId} {events : List LogEvent} {leads : List Diagram.Edge}
    {rest : List Stop} {registry : Registry} (unknown : registry.identifier? node = none)
    (absent : scene.graph.node? node = none) :
    Tour scene (.turn node events leads :: rest) registry
      ⟨events.map .note, registry, .error (.unknownNode node)⟩
  | bare {node : NodeId} {events : List LogEvent} {leads : List Diagram.Edge} {rest : List Stop}
    {registry : Registry} {data : Node} (unknown : registry.identifier? node = none)
    (present : scene.graph.node? node = some data) (unbound : data.satisfaction = none) :
    Tour scene (.turn node events leads :: rest) registry
      ⟨events.map .note ++ [.identify node], registry.identify node,
        .error (.missingSatisfaction node)⟩
  | failed {node : NodeId} {events : List LogEvent} {leads : List Diagram.Edge} {rest : List Stop}
    {registry : Registry} {data : Node} {satisfaction : Satisfaction} {actions : List Action}
    {reached : Registry} {error : DumpError} (fresh : scene.Fresh registry node data satisfaction)
    (within : Tour scene (scene.stops (scene.portraitIn registry node data satisfaction))
      (registry.identify node) ⟨actions, reached, .error error⟩) :
    Tour scene (.turn node events leads :: rest) registry
      ⟨events.map .note ++
          (opening node (registry.identifierFor node) satisfaction ++ actions),
        reached, .error error⟩
  | shown {node : NodeId} {events : List LogEvent} {leads : List Diagram.Edge} {rest : List Stop}
    {registry : Registry} {course : Course Unit} {data : Node} {satisfaction : Satisfaction}
    {actions : List Action} {reached : Registry}
    (fresh : scene.Fresh registry node data satisfaction)
    (within : Tour scene (scene.stops (scene.portraitIn registry node data satisfaction))
      (registry.identify node) ⟨actions, reached, .ok ()⟩)
    (later : Tour scene rest
      (reached.recordTarget (registry.identifierFor node).text
        (scene.portraitIn registry node data satisfaction).target) course) :
    Tour scene (.turn node events leads :: rest) registry
      (course.after (events.map .note ++
        scene.showing registry node data satisfaction actions ++
        Stop.linkActions leads (scene.portraitIn registry node data satisfaction).target))

namespace Scene

theorem portrait_target_ne_empty (scene : Scene) (node : NodeId) (data : Node)
    (satisfaction : Satisfaction) (identifier : Identifier) :
    (scene.portrait node data satisfaction identifier.text).target ≠ "" := by
  cases satisfaction with
  | null type => exact identifier.text_ne_empty
  | ofInstance type value => exact identifier.text_ne_empty
  | ofClass type => exact headerOf_ne_empty _
  | ofProviderClass provider type => exact headerOf_ne_empty _
  | ofProviderInstance provider label type => exact headerOf_ne_empty _

end Scene

/-! ## Actions that leave the registry as it is -/

/-- The registry after several actions. -/
def Registry.applyAll (registry : Registry) (actions : List Action) : Registry :=
  actions.foldl Registry.apply registry

namespace Registry

@[simp] theorem applyAll_nil (registry : Registry) : registry.applyAll [] = registry := rfl

@[simp] theorem applyAll_cons (registry : Registry) (action : Action) (rest : List Action) :
    registry.applyAll (action :: rest) = (registry.apply action).applyAll rest := rfl

@[simp] theorem applyAll_append (registry : Registry) (first second : List Action) :
    registry.applyAll (first ++ second) = (registry.applyAll first).applyAll second :=
  List.foldl_append

@[simp] theorem applyAll_notes (registry : Registry) (events : List LogEvent) :
    registry.applyAll (events.map .note) = registry := by
  induction events with
  | nil => rfl
  | cons event rest ih => exact ih

@[simp] theorem applyAll_offers (registry : Registry) (nodes : List Diagram.Node) :
    registry.applyAll (nodes.map .offer) = registry := by
  induction nodes with
  | nil => rfl
  | cons node rest ih => exact ih

@[simp] theorem applyAll_queueing (registry : Registry) (edges : List Diagram.Edge) :
    registry.applyAll (edges.map .enqueue) = registry := by
  induction edges with
  | nil => rfl
  | cons edge rest ih => exact ih

@[simp] theorem applyAll_linkActions (registry : Registry) (leads : List Diagram.Edge)
    (target : String) : registry.applyAll (Stop.linkActions leads target) = registry := by
  induction leads with
  | nil => rfl
  | cons edge rest ih => exact ih

@[simp] theorem applyAll_rowActions (registry : Registry) (qualifier : Qualifier)
    (value : Option Instance) :
    registry.applyAll (Stop.rowActions qualifier value) = registry := by
  cases value <;> rfl

@[simp] theorem applyAll_closing (registry : Registry) (portrait : Portrait) :
    registry.applyAll portrait.closing = registry := by
  simp [Portrait.closing]

@[simp] theorem applyAll_opening (registry : Registry) (node : NodeId) (identifier : Identifier)
    (satisfaction : Satisfaction) :
    registry.applyAll (opening node identifier satisfaction) = registry.identify node := rfl

theorem applyAll_showing (scene : Scene) (registry : Registry) (node : NodeId) (data : Node)
    (satisfaction : Satisfaction) (actions : List Action) :
    registry.applyAll (scene.showing registry node data satisfaction actions) =
      ((registry.identify node).applyAll actions).recordTarget (registry.identifierFor node).text
        (scene.portraitIn registry node data satisfaction).target := by
  simp [Scene.showing, apply]

end Registry

/-! ## Every walk is a tour -/

theorem Walk.run_actAll_bind (actions : List Action) (next : Walk α) (registry : Registry) :
    (actAll actions >>= fun _ => next).run registry =
      (next.run (registry.applyAll actions)).map (Course.after actions) := by
  rw [run_bind, run_actAll]
  rfl

namespace Scene

/-- What comes of making stops with a walk for each node. -/
def Travelled (visit : NodeId -> Walk String) (stops : List Stop) (registry : Registry)
    (course : Course Unit) : Prop :=
  (Walk.travel visit stops).run registry = some course

theorem run_registry_bind (next : Registry -> Walk α) (registry : Registry) :
    (Walk.registry >>= next).run registry = (next registry).run registry := by
  rw [Walk.run_bind, Walk.run_registry, Option.bind_some]
  exact Option.map_id'

theorem settle_eq (scene : Scene) (visit : NodeId -> Walk String) (node : NodeId)
    {data : Node} {satisfaction : Satisfaction} (bound : data.satisfaction = some satisfaction)
    (registry : Registry) :
    let portrait := scene.portraitIn registry node data satisfaction
    let identifier := registry.identifierFor node
    (scene.settle visit node data).run registry = (do
      Walk.actAll (opening node identifier satisfaction)
      Walk.travel visit (scene.stops portrait)
      Walk.actAll (portrait.closing ++ [.record identifier portrait.target])
      return portrait.target : Walk String).run registry := by
  have target := scene.portrait_target_ne_empty node data satisfaction
    (registry.identifierFor node)
  have split (actions : List Action) (last : Action) :
      Walk.actAll (actions ++ [last]) = (do Walk.actAll actions; Walk.act last) := by
    apply Walk.ext_run
    intro reached
    simp [Walk.run_actAll, List.foldl_append]
  dsimp only
  rw [settle, run_registry_bind]
  simp only [render_eq scene visit node bound, opening, Walk.actAll, split, bind_assoc, pure_bind,
    portraitIn, String.isEmpty_iff, if_neg target]

theorem turn_of_settle (scene : Scene) {visit : NodeId -> Walk String} {node : NodeId}
    {data : Node} {registry : Registry} {course : Course String}
    (unknown : registry.identifier? node = none) (present : scene.graph.node? node = some data)
    (comes : (scene.settle visit node data).run registry = some course) :
    scene.Turn (Travelled visit) node registry course := by
  cases bound : data.satisfaction with
  | none =>
      simp [settle, render, bound, Registry.apply] at comes
      subst comes
      exact .bare unknown present bound
  | some satisfaction =>
      have fresh : scene.Fresh registry node data satisfaction := ⟨unknown, present, bound⟩
      rw [scene.settle_eq visit node bound, Walk.run_actAll_bind, Walk.run_bind] at comes
      cases inner : (Walk.travel visit
          (scene.stops (scene.portraitIn registry node data satisfaction))).run
            (registry.identify node) with
      | none => simp [inner] at comes
      | some within =>
          rcases within with ⟨actions, reached, result⟩
          cases result with
          | error error =>
              simp [inner] at comes
              subst comes
              exact .failed fresh inner
          | ok _ =>
              simp only [Registry.applyAll_opening, inner, Option.bind_some, Walk.run_actAll_bind,
                Walk.run_pure, Option.map_some, Option.some.injEq] at comes
              subst comes
              have within : Travelled visit _ _ _ := inner
              simpa [Course.after, Registry.apply, showing] using Turn.shown fresh within

theorem turn_of_reach (scene : Scene) {turn : Node -> Walk String} {node : NodeId}
    {registry : Registry} {course : Course String}
    {inside : List Stop -> Registry -> Course Unit -> Prop}
    (fresh : forall data, registry.identifier? node = none ->
      scene.graph.node? node = some data -> (turn data).run registry = some course ->
      scene.Turn inside node registry course)
    (comes : (scene.reach node turn).run registry = some course) :
    scene.Turn inside node registry course := by
  rw [reach, run_registry_bind] at comes
  cases known : registry.identifier? node with
  | some identifier =>
      rw [known] at comes
      cases comes
      exact .known known
  | none =>
      rw [known] at comes
      cases present : scene.graph.node? node with
      | none =>
          rw [present] at comes
          cases comes
          exact .foreign known present
      | some data =>
          rw [present] at comes
          exact fresh data known present comes

theorem Turn.mono {scene : Scene} {inside other : List Stop -> Registry -> Course Unit -> Prop}
    (weaker : forall stops registry course, inside stops registry course ->
      other stops registry course)
    {node : NodeId} {registry : Registry} {course : Course String}
    (turn : scene.Turn inside node registry course) : scene.Turn other node registry course := by
  cases turn with
  | known has => exact .known has
  | foreign unknown absent => exact .foreign unknown absent
  | bare unknown present unbound => exact .bare unknown present unbound
  | failed fresh within => exact .failed fresh (weaker _ _ _ within)
  | shown fresh within => exact .shown fresh (weaker _ _ _ within)

end Scene

namespace Tour

variable {scene : Scene}

theorem of_turn_error {node : NodeId} {events : List LogEvent} {leads : List Diagram.Edge}
    {rest : List Stop} {registry reached : Registry} {actions : List Action} {error : DumpError}
    (turn : scene.Turn (Tour scene) node registry ⟨actions, reached, .error error⟩) :
    Tour scene (.turn node events leads :: rest) registry
      ⟨events.map .note ++ actions, reached, .error error⟩ := by
  cases turn with
  | foreign unknown absent =>
      rw [List.append_nil]
      exact .foreign unknown absent
  | bare unknown present unbound => exact .bare unknown present unbound
  | failed fresh within => exact .failed fresh within

theorem of_turn_ok {node : NodeId} {events : List LogEvent} {leads : List Diagram.Edge}
    {rest : List Stop} {registry reached : Registry} {actions : List Action} {target : String}
    {course : Course Unit}
    (turn : scene.Turn (Tour scene) node registry ⟨actions, reached, .ok target⟩)
    (later : Tour scene rest reached course) :
    Tour scene (.turn node events leads :: rest) registry
      (course.after (events.map .note ++ actions ++ Stop.linkActions leads target)) := by
  cases turn with
  | known has =>
      rw [List.append_nil]
      exact .known has later
  | shown fresh within => exact .shown fresh within later

/-- Stops that are made with walks that follow the rules follow the rules. -/
theorem of_travelled {visit : NodeId -> Walk String}
    (turns : forall node registry course, (visit node).run registry = some course ->
      scene.Turn (Tour scene) node registry course)
    (stops : List Stop) (registry : Registry) (course : Course Unit)
    (comes : Scene.Travelled visit stops registry course) : Tour scene stops registry course := by
  unfold Scene.Travelled at comes
  induction stops generalizing registry course with
  | nil =>
      cases comes
      exact .done
  | cons stop rest ih =>
      cases stop with
      | row qualifier value =>
          rw [Walk.travel, Walk.run_actAll_bind, Registry.applyAll_rowActions,
            Option.map_eq_some_iff] at comes
          rcases comes with ⟨later, goesOn, rfl⟩
          exact .row (ih registry later goesOn)
      | turn node events leads =>
          rw [Walk.travel, Walk.run_actAll_bind, Registry.applyAll_notes,
            Option.map_eq_some_iff] at comes
          rcases comes with ⟨visited, goesOn, rfl⟩
          rw [Walk.run_bind, Option.bind_eq_some_iff] at goesOn
          rcases goesOn with ⟨⟨actions, reached, result⟩, visits, goesOn⟩
          have turn := turns node registry _ visits
          cases result with
          | error error =>
              cases goesOn
              exact of_turn_error turn
          | ok target =>
              simp only [Walk.run_actAll_bind, Registry.applyAll_linkActions, Option.map_map,
                Option.map_eq_some_iff] at goesOn
              rcases goesOn with ⟨later, last, rfl⟩
              have tour : Tour scene (.turn node events leads :: rest) registry _ :=
                of_turn_ok turn (ih reached later last)
              simpa [Course.after] using tour

end Tour

namespace Scene

theorem turn_of_visit (scene : Scene) (depth : Nat) (node : NodeId) (registry : Registry)
    (course : Course String) (comes : (scene.visit depth node).run registry = some course) :
    scene.Turn (Tour scene) node registry course := by
  induction depth generalizing node registry course with
  | zero =>
      refine scene.turn_of_reach (fun data _ _ exceeds => ?_) comes
      cases exceeds
  | succ depth ih =>
      refine scene.turn_of_reach (fun data unknown present settles => ?_) comes
      exact (scene.turn_of_settle unknown present settles).mono (Tour.of_travelled ih)

/-- What a session carries out for a node follows the rules. -/
theorem turn_course (scene : Scene) (node : NodeId) (registry : Registry) :
    scene.Turn (Tour scene) node registry (scene.course node registry) :=
  scene.turn_of_visit scene.graph.size node registry _ (Option.some_get _).symm

end Scene

namespace Tour

variable {scene : Scene}

/-- Stops can always be made. -/
theorem total (scene : Scene) (stops : List Stop) (registry : Registry) :
    exists course, Tour scene stops registry course := by
  induction stops generalizing registry with
  | nil => exact ⟨_, .done⟩
  | cons stop rest ih =>
      cases stop with
      | row qualifier value =>
          rcases ih registry with ⟨course, later⟩
          exact ⟨_, .row later⟩
      | turn node events leads =>
          have turn := scene.turn_course node registry
          generalize scene.course node registry = visited at turn
          rcases visited with ⟨actions, reached, result⟩
          cases result with
          | error error => exact ⟨_, of_turn_error turn⟩
          | ok target =>
              rcases ih reached with ⟨course, later⟩
              exact ⟨_, of_turn_ok turn later⟩

/-- The rules leave no choice. -/
theorem unique {stops : List Stop} {registry : Registry} {left right : Course Unit}
    (first : Tour scene stops registry left) (second : Tour scene stops registry right) :
    left = right := by
  induction first generalizing right with
  | done =>
      cases second
      rfl
  | row _ ih =>
      cases second with
      | row later => rw [ih later]
  | known has _ ih =>
      cases second with
      | known hasToo later =>
          cases has.symm.trans hasToo
          rw [ih later]
      | foreign unknown _ => cases has.symm.trans unknown
      | bare unknown _ _ => cases has.symm.trans unknown
      | failed fresh _ => cases has.symm.trans fresh.unknown
      | shown fresh _ _ => cases has.symm.trans fresh.unknown
  | foreign unknown absent =>
      cases second with
      | known has _ => cases has.symm.trans unknown
      | foreign _ _ => rfl
      | bare _ present _ => cases absent.symm.trans present
      | failed fresh _ => cases absent.symm.trans fresh.present
      | shown fresh _ _ => cases absent.symm.trans fresh.present
  | bare unknown present unbound =>
      cases second with
      | known has _ => cases has.symm.trans unknown
      | foreign _ absent => cases absent.symm.trans present
      | bare _ _ _ => rfl
      | failed fresh _ =>
          cases present.symm.trans fresh.present
          cases unbound.symm.trans fresh.bound
      | shown fresh _ _ =>
          cases present.symm.trans fresh.present
          cases unbound.symm.trans fresh.bound
  | failed fresh _ ih =>
      cases second with
      | known has _ => cases has.symm.trans fresh.unknown
      | foreign _ absent => cases absent.symm.trans fresh.present
      | bare _ present unbound =>
          cases present.symm.trans fresh.present
          cases unbound.symm.trans fresh.bound
      | failed freshToo within =>
          cases fresh.present.symm.trans freshToo.present
          cases fresh.bound.symm.trans freshToo.bound
          cases ih within
          rfl
      | shown freshToo within _ =>
          cases fresh.present.symm.trans freshToo.present
          cases fresh.bound.symm.trans freshToo.bound
          cases ih within
  | shown fresh _ _ ihWithin ihLater =>
      cases second with
      | known has _ => cases has.symm.trans fresh.unknown
      | foreign _ absent => cases absent.symm.trans fresh.present
      | bare _ present unbound =>
          cases present.symm.trans fresh.present
          cases unbound.symm.trans fresh.bound
      | failed freshToo within =>
          cases fresh.present.symm.trans freshToo.present
          cases fresh.bound.symm.trans freshToo.bound
          cases ihWithin within
      | shown freshToo within later =>
          cases fresh.present.symm.trans freshToo.present
          cases fresh.bound.symm.trans freshToo.bound
          cases ihWithin within
          rw [ihLater later]

end Tour

/-- Turning to a node is a tour with one stop. -/
theorem Scene.Turn.tour {scene : Scene} {node : NodeId} {registry : Registry}
    {course : Course String} (turn : scene.Turn (Tour scene) node registry course) :
    Tour scene [.turn node [] []] registry
      ⟨course.actions, course.registry, course.result.map fun _ => ()⟩ := by
  rcases course with ⟨actions, reached, result⟩
  cases result with
  | error error => exact Tour.of_turn_error turn
  | ok target =>
      have tour : Tour scene [.turn node [] []] registry _ := Tour.of_turn_ok turn .done
      simpa [Course.after, Stop.linkActions, Except.map] using tour

end InjectionPlan
