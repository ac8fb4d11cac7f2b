import Mathlib.Data.List.Chain
import InjectionPlan.Proofs.Dumping

namespace InjectionPlan

/-!
# How deeply nodes are shown inside each other

A node that is turned to is entered if it lies in the graph and has no identifier.  On the way
along its edges other nodes may be entered before it has been shown, and others inside those.  A
walk comes to nothing exactly if more nodes are entered inside each other than its bound allows
(`Scene.run_visit_eq_none_iff`).  But each of them leaves fewer nodes pending than the one around
it, so there is an end to that (`Scene.Stack.length_lt`), and the bound does not matter as soon as
it is the number of pending nodes (`Scene.run_visit_of_pending_le`).
-/

/-- A node that is turned to, and the registry at that moment. -/
structure Activation where
  node : NodeId
  registry : Registry

namespace Scene

/-- The node is entered: it is a node of the graph and has no identifier. -/
structure Enters (scene : Scene) (activation : Activation) : Prop where
  unknown : activation.registry.identifier? activation.node = none
  inside : scene.graph.contains activation.node = true

/-- While one node is being shown another one is entered, at one of the stops of the first. -/
def Nests (scene : Scene) (outer inner : Activation) : Prop :=
  scene.Enters inner ∧ exists data satisfaction before events leads rest actions,
    scene.Fresh outer.registry outer.node data satisfaction ∧
      scene.stops (scene.portraitIn outer.registry outer.node data satisfaction) =
        before ++ .turn inner.node events leads :: rest ∧
      Tour scene before (outer.registry.identify outer.node) ⟨actions, inner.registry, .ok ()⟩

/-- From a first activation on, each one is nested in the one before it. -/
def Stack (scene : Scene) (first : Activation) (inside : List Activation) : Prop :=
  scene.Enters first ∧ (first :: inside).IsChain scene.Nests

variable {scene : Scene}

/-- A node that is turned to for the first time is entered if it is there. -/
theorem enters_of_present {registry : Registry} {node : NodeId} {data : Node}
    (unknown : registry.identifier? node = none)
    (present : scene.graph.node? node = some data) : scene.Enters ⟨node, registry⟩ where
  unknown := unknown
  inside := by
    rw [Graph.contains_eq_isSome, present]
    rfl

theorem Fresh.enters {registry : Registry} {node : NodeId} {data : Node}
    {satisfaction : Satisfaction} (fresh : scene.Fresh registry node data satisfaction) :
    scene.Enters ⟨node, registry⟩ :=
  enters_of_present fresh.unknown fresh.present

theorem Enters.pending_lt {activation : Activation} (enters : scene.Enters activation) :
    (activation.registry.identify activation.node).pending scene.graph.size <
      activation.registry.pending scene.graph.size :=
  Registry.pending_identify_lt _ (of_decide_eq_true enters.inside) enters.unknown

/-- A nested activation leaves fewer nodes pending than the one around it. -/
theorem Nests.pending_lt {outer inner : Activation} (nests : scene.Nests outer inner) :
    inner.registry.pending scene.graph.size < outer.registry.pending scene.graph.size := by
  rcases nests with ⟨_, data, satisfaction, before, events, leads, rest, actions, fresh, _, tour⟩
  have reaches : inner.registry = (outer.registry.identify outer.node).applyAll actions :=
    tour.registry_eq
  have less := fresh.enters.pending_lt
  refine Nat.lt_of_le_of_lt (Registry.pending_mono (fun node known => ?_) _) less
  rw [reaches]
  exact (Registry.identifier?_applyAll_isSome actions node).mpr (Or.inl known)

/-- At most as many activations are inside each other as nodes are pending at first. -/
theorem Stack.length_lt {first : Activation} {inside : List Activation}
    (stack : scene.Stack first inside) :
    inside.length < first.registry.pending scene.graph.size := by
  induction inside generalizing first with
  | nil => exact Nat.lt_of_le_of_lt (Nat.zero_le _) stack.1.pending_lt
  | cons second rest ih =>
      rcases List.isChain_cons_cons.mp stack.2 with ⟨nests, chain⟩
      have later := ih ⟨nests.1, chain⟩
      have less := nests.pending_lt
      rw [List.length_cons]
      omega

/-! ## What a bound amounts to -/

theorem travel_append (visit : NodeId -> Walk String) (before behind : List Stop) :
    Walk.travel visit (before ++ behind) = (do
      Walk.travel visit before
      Walk.travel visit behind) := by
  induction before with
  | nil => simp [Walk.travel]
  | cons stop rest ih => cases stop <;> simp [Walk.travel, ih]

/-- Making stops comes to nothing if turning to one of the nodes does, when those before it have
been reached. -/
theorem run_travel_eq_none_iff (visit : NodeId -> Walk String) (stops : List Stop)
    (registry : Registry) :
    (Walk.travel visit stops).run registry = none <->
      exists before node events leads rest actions reached,
        stops = before ++ .turn node events leads :: rest ∧
          Travelled visit before registry ⟨actions, reached, .ok ()⟩ ∧
          (visit node).run reached = none := by
  constructor
  · intro nothing
    induction stops generalizing registry with
    | nil => cases nothing
    | cons stop rest ih =>
        cases stop with
        | row qualifier value =>
            rw [Walk.travel, Walk.run_actAll_bind, Option.map_eq_none_iff] at nothing
            rcases ih _ nothing with
              ⟨before, node, events, leads, behind, actions, reached, rfl, sooner, exceeds⟩
            refine ⟨.row qualifier value :: before, node, events, leads, behind,
              Stop.rowActions qualifier value ++ actions, reached, rfl, ?_, exceeds⟩
            have sooner : (Walk.travel visit before).run _ = _ := sooner
            rw [Travelled, Walk.travel, Walk.run_actAll_bind, sooner]
            rfl
        | turn node events leads =>
            rw [Walk.travel, Walk.run_actAll_bind, Registry.applyAll_notes,
              Option.map_eq_none_iff, Walk.run_bind] at nothing
            cases visits : (visit node).run registry with
            | none => exact ⟨[], node, events, leads, rest, [], registry, rfl, rfl, visits⟩
            | some visited =>
                rcases visited with ⟨actions, reached, result⟩
                rw [visits] at nothing
                cases result with
                | error error => cases nothing
                | ok target =>
                    simp only [Option.bind_some, Walk.run_actAll_bind,
                      Registry.applyAll_linkActions, Option.map_eq_none_iff] at nothing
                    rcases ih _ nothing with
                      ⟨before, other, others, edges, behind, more, last, rfl, sooner, exceeds⟩
                    have sooner : (Walk.travel visit before).run reached = _ := sooner
                    refine ⟨.turn node events leads :: before, other, others, edges, behind,
                      events.map .note ++ (actions ++ (Stop.linkActions leads target ++ more)),
                      last, rfl, ?_, exceeds⟩
                    rw [Travelled, Walk.travel, Walk.run_actAll_bind, Registry.applyAll_notes,
                      Walk.run_bind, visits, Option.bind_some]
                    dsimp only
                    rw [Walk.run_actAll_bind, Registry.applyAll_linkActions, sooner]
                    rfl
  · rintro ⟨before, node, events, leads, rest, actions, reached, rfl, sooner, exceeds⟩
    have sooner : (Walk.travel visit before).run registry = _ := sooner
    rw [travel_append, Walk.run_bind, sooner, Option.bind_some]
    dsimp only
    rw [Walk.travel, Walk.run_actAll_bind, Registry.applyAll_notes, Walk.run_bind, exceeds]
    rfl

theorem run_reach_eq_none_iff (scene : Scene) (node : NodeId) (turn : Node -> Walk String)
    (registry : Registry) :
    (scene.reach node turn).run registry = none <->
      registry.identifier? node = none ∧
        exists data, scene.graph.node? node = some data ∧ (turn data).run registry = none := by
  rw [reach, run_registry_bind]
  cases registry.identifier? node with
  | some identifier => simp
  | none => cases scene.graph.node? node <;> simp

theorem run_settle_eq_none_iff (scene : Scene) (visit : NodeId -> Walk String) (node : NodeId)
    (data : Node) (registry : Registry) :
    (scene.settle visit node data).run registry = none <->
      exists satisfaction, data.satisfaction = some satisfaction ∧
        (Walk.travel visit (scene.stops (scene.portraitIn registry node data satisfaction))).run
          (registry.identify node) = none := by
  cases bound : data.satisfaction with
  | none => simp [settle, render, bound]
  | some satisfaction =>
      rw [scene.settle_eq visit node bound, Walk.run_actAll_bind, Registry.applyAll_opening,
        Option.map_eq_none_iff, Walk.run_bind]
      constructor
      · intro nothing
        refine ⟨satisfaction, rfl, ?_⟩
        cases comes : (Walk.travel visit
            (scene.stops (scene.portraitIn registry node data satisfaction))).run
              (registry.identify node) with
        | none => rfl
        | some within =>
            rcases within with ⟨actions, reached, result⟩
            rw [comes] at nothing
            cases result with
            | error error => cases nothing
            | ok _ =>
                rw [Option.bind_some] at nothing
                dsimp only at nothing
                rw [Walk.run_actAll_bind] at nothing
                cases nothing
      · rintro ⟨other, same, nothing⟩
        cases same
        rw [nothing]
        rfl

/-- A walk exceeds its bound exactly if as many activations as that are nested inside its own. -/
theorem run_visit_eq_none_iff (scene : Scene) (depth : Nat) (node : NodeId)
    (registry : Registry) :
    (scene.visit depth node).run registry = none <->
      exists inside, inside.length = depth ∧ scene.Stack ⟨node, registry⟩ inside := by
  induction depth generalizing node registry with
  | zero =>
      rw [visit, run_reach_eq_none_iff]
      constructor
      · rintro ⟨unknown, data, present, _⟩
        exact ⟨[], rfl, enters_of_present unknown present, .singleton _⟩
      · rintro ⟨inside, _, ⟨unknown, present⟩, _⟩
        rw [Graph.contains_eq_isSome] at present
        rcases Option.isSome_iff_exists.mp present with ⟨data, present⟩
        exact ⟨unknown, data, present, rfl⟩
  | succ depth ih =>
      rw [visit, run_reach_eq_none_iff]
      constructor
      · rintro ⟨unknown, data, present, nothing⟩
        rcases (scene.run_settle_eq_none_iff _ _ _ _).mp nothing with ⟨satisfaction, bound, exceeds⟩
        rcases (run_travel_eq_none_iff _ _ _).mp exceeds with
          ⟨before, other, events, leads, rest, actions, reached, stops, sooner, within⟩
        rcases (ih other reached).mp within with ⟨inside, length, stack⟩
        have fresh : scene.Fresh registry node data satisfaction := ⟨unknown, present, bound⟩
        have tour := Tour.of_travelled (scene.turn_of_visit depth) before _ _ sooner
        refine ⟨⟨other, reached⟩ :: inside, congrArg (· + 1) length, fresh.enters,
          .cons_cons ⟨stack.1, data, satisfaction, before, events, leads, rest, actions, fresh,
            stops, tour⟩ stack.2⟩
      · rintro ⟨_ | ⟨inner, inside⟩, length, _, chain⟩
        · cases length
        · rcases List.isChain_cons_cons.mp chain with ⟨nests, deeper⟩
          have exceeds := (ih inner.node inner.registry).mpr
            ⟨inside, Nat.succ.inj length, nests.1, deeper⟩
          rcases nests with
            ⟨_, data, satisfaction, before, events, leads, rest, actions, fresh, stops, tour⟩
          refine ⟨fresh.unknown, data, fresh.present,
            (scene.run_settle_eq_none_iff _ _ _ _).mpr ⟨satisfaction, fresh.bound, ?_⟩⟩
          -- the stops before the inner node may already exceed the bound
          cases sooner : (Walk.travel (scene.visit depth) before).run (registry.identify node) with
          | none => rw [stops, travel_append, Walk.run_bind, sooner, Option.bind_none]
          | some course =>
              cases (Tour.of_travelled (scene.turn_of_visit depth) before _ _ sooner).unique tour
              exact (run_travel_eq_none_iff _ _ _).mpr
                ⟨before, inner.node, events, leads, rest, actions, inner.registry, stops, sooner,
                  exceeds⟩

/-! ## Bounds that suffice -/

/-- The rules leave no choice. -/
theorem Turn.unique {node : NodeId} {registry : Registry} {left right : Course String}
    (first : scene.Turn (Tour scene) node registry left)
    (second : scene.Turn (Tour scene) node registry right) : left = right := by
  rcases left with ⟨actions, reached, result⟩
  rcases right with ⟨others, reachedToo, resultToo⟩
  -- an edge that is queued for the node tells its target
  let lead := Diagram.Edge.plain "" ""
  cases result with
  | error error =>
      have tour : Tour scene [.turn node [] [lead]] registry _ := Tour.of_turn_error first
      cases resultToo with
      | error errorToo =>
          cases tour.unique (Tour.of_turn_error second)
          rfl
      | ok target => cases tour.unique (Tour.of_turn_ok second .done)
  | ok target =>
      have tour : Tour scene [.turn node [] [lead]] registry _ := Tour.of_turn_ok first .done
      cases resultToo with
      | error error => cases tour.unique (Tour.of_turn_error second)
      | ok targetToo =>
          have same := tour.unique (Tour.of_turn_ok second .done)
          simp only [Course.after, Stop.linkActions, List.map_nil, List.nil_append, List.map_cons,
            List.append_nil, Course.mk.injEq] at same
          rcases same with ⟨listed, rfl, _⟩
          rcases List.append_inj' listed rfl with ⟨rfl, last⟩
          cases last
          rfl

/-- All walks with bounds that suffice come to the same. -/
theorem run_visit_of_pending_le (scene : Scene) {bound : Nat} (node : NodeId) {registry : Registry}
    (enough : registry.pending scene.graph.size ≤ bound) :
    (scene.visit bound node).run registry = some (scene.course node registry) := by
  rcases scene.visit_settles bound node registry enough with ⟨course, comes, _⟩
  rw [comes, (scene.turn_of_visit bound node registry course comes).unique
    (scene.turn_course node registry)]

end Scene
end InjectionPlan
