import InjectionPlan.Session.Walk

namespace InjectionPlan

/-!
# The nesting of walks is bounded

The nodes of the graph that have no identifier bound how deeply the showing of nodes can nest: a
node is turned to only while it has no identifier, and it gets one before anything inside it is
shown.  No action takes an identifier away.  So a walk whose bound is at least the number of
those nodes comes to something (`visit_settles`), and in particular one may always be found by
taking the number of nodes of the graph as the bound.
-/

/-- The number of nodes of a graph that have no identifier. -/
def Registry.pending (registry : Registry) (size : Nat) : Nat :=
  (List.range size).countP fun node => (registry.identifier? node).isNone

namespace Registry

theorem identifier?_identify (registry : Registry) (node other : NodeId) :
    (registry.identify node).identifier? other =
      if node = other then some (registry.identifierFor node) else registry.identifier? other := by
  unfold identify
  split
  · next identifier known =>
    by_cases same : node = other
    · subst same
      simp [identifierFor, known]
    · simp [same]
  · next unknown =>
    simp only [identifierFor, unknown, Option.getD_none]
    exact Table.get?_set registry.identifiers node other _

/-- No action takes an identifier away. -/
theorem identifier?_apply (registry : Registry) (action : Action) (node : NodeId)
    (known : (registry.identifier? node).isSome) :
    ((registry.apply action).identifier? node).isSome := by
  cases action with
  | identify other =>
    simp only [apply, identifier?_identify]
    split
    · rfl
    · exact known
  | record id target => exact known
  | offer node => exact known
  | enqueue edge => exact known
  | unbound qualifier => exact known
  | note event => exact known

theorem pending_le_size (registry : Registry) (size : Nat) : registry.pending size ≤ size := by
  have bound := List.countP_le_length
    (p := fun node => (registry.identifier? node).isNone) (l := List.range size)
  rwa [List.length_range] at bound

/-- With more identifiers fewer nodes are pending. -/
theorem pending_mono {before after : Registry}
    (keeps : forall node, (before.identifier? node).isSome -> (after.identifier? node).isSome)
    (size : Nat) : after.pending size ≤ before.pending size := by
  apply List.countP_mono_left
  intro node _ unknown
  cases known : before.identifier? node with
  | none => rfl
  | some identifier =>
    have kept := keeps node (by rw [known]; rfl)
    rw [Option.isNone_iff_eq_none] at unknown
    rw [unknown] at kept
    cases kept

theorem pending_apply (registry : Registry) (action : Action) (size : Nat) :
    (registry.apply action).pending size ≤ registry.pending size :=
  pending_mono (fun node known => registry.identifier?_apply action node known) size

/-- Giving an identifier to a node of the graph that had none leaves fewer nodes pending. -/
theorem pending_identify_lt (registry : Registry) {node : NodeId} {size : Nat}
    (inside : node < size) (unknown : registry.identifier? node = none) :
    (registry.identify node).pending size < registry.pending size := by
  have split := List.append_of_mem (List.mem_range.mpr inside)
  obtain ⟨before, after, range⟩ := split
  have mono (nodes : List NodeId) :
      nodes.countP (fun other => ((registry.identify node).identifier? other).isNone) ≤
        nodes.countP (fun other => (registry.identifier? other).isNone) := by
    apply List.countP_mono_left
    intro other _ pending
    rw [identifier?_identify] at pending
    by_cases same : node = other
    · simp [same] at pending
    · simpa [same] using pending
  have first := mono before
  have last := mono after
  unfold pending
  rw [range, List.countP_append, List.countP_append, List.countP_cons, List.countP_cons]
  have now : ((registry.identify node).identifier? node).isNone = false := by
    rw [identifier?_identify, if_pos rfl]
    rfl
  have earlier : (registry.identifier? node).isNone = true := by
    rw [unknown]
    rfl
  rw [now, earlier]
  simp only [if_true, Bool.false_eq_true, if_false]
  omega

end Registry

namespace Walk

/-- A walk comes to something whenever at most `bound` nodes are pending, and leaves no more
pending than there were. -/
def Settles (size bound : Nat) (walk : Walk α) : Prop :=
  forall registry : Registry, registry.pending size ≤ bound ->
    exists course, walk.run registry = some course ∧
      course.registry.pending size ≤ registry.pending size

theorem settles_pure (size bound : Nat) (result : α) :
    Settles size bound (Pure.pure result : Walk α) :=
  fun _ _ => ⟨_, rfl, Nat.le_refl _⟩

theorem settles_fail (size bound : Nat) (error : DumpError) :
    Settles size bound (fail error : Walk α) :=
  fun _ _ => ⟨_, rfl, Nat.le_refl _⟩

theorem settles_act (size bound : Nat) (action : Action) : Settles size bound (act action) :=
  fun registry _ => ⟨_, rfl, registry.pending_apply action size⟩

theorem settles_bind {size bound : Nat} {walk : Walk α} {next : α -> Walk β}
    (first : Settles size bound walk) (later : forall result, Settles size bound (next result)) :
    Settles size bound (walk >>= next) := by
  intro registry enough
  obtain ⟨⟨actions, reached, result⟩, comes, less⟩ := first registry enough
  cases result with
  | error error => exact ⟨_, by rw [run_bind, comes]; rfl, less⟩
  | ok value =>
    obtain ⟨course, goesOn, lessStill⟩ := later value reached (Nat.le_trans less enough)
    exact ⟨{ course with actions := actions ++ course.actions },
      by rw [run_bind, comes]; simp [goesOn], Nat.le_trans lessStill less⟩

theorem settles_offer (size bound : Nat) (node : Diagram.Node) :
    Settles size bound (offer node) :=
  settles_bind (settles_act size bound _) fun _ => settles_pure size bound _

theorem settles_checkBound (size bound : Nat) (qualifier : Qualifier) (value : Option Instance) :
    Settles size bound (checkBound qualifier value) := by
  cases value with
  | some _ => exact settles_pure size bound ()
  | none => exact settles_act size bound _

end Walk

namespace Scene

open Walk

theorem settles_rows (scene : Scene) {size bound : Nat} {visit : NodeId -> Walk String}
    (inside : forall node, Settles size bound (visit node)) (id : String) (edges : List Edge) :
    forall component, Settles size bound (scene.rows visit id edges component) := by
  induction edges with
  | nil => exact fun component => settles_pure size bound component
  | cons edge rest ih =>
    intro component
    unfold rows
    split
    · exact settles_bind (settles_act size bound _) fun _ =>
        settles_bind (settles_checkBound size bound _ _) fun _ => ih _
    · exact settles_bind (settles_act size bound _) fun _ =>
        settles_bind (inside edge.tail) fun _ =>
          settles_bind (settles_act size bound _) fun _ => ih _

theorem settles_component (scene : Scene) {size bound : Nat} {visit : NodeId -> Walk String}
    (inside : forall node, Settles size bound (visit node)) (node : NodeId) (data : Node)
    (type : ComponentType) (id : String) (provider : Bool) :
    Settles size bound (scene.component visit node data type id provider) :=
  settles_bind (scene.settles_rows inside _ _ _) fun _ => settles_offer size bound _

theorem settles_provided (scene : Scene) (size bound : Nat) (node : NodeId) (data : Node)
    (type : ComponentType) (id provider : String) :
    Settles size bound (scene.provided node data type id provider) :=
  settles_bind (settles_offer size bound _) fun _ =>
    settles_bind (settles_act size bound _) fun _ => settles_pure size bound _

theorem settles_render (scene : Scene) {size bound : Nat} {visit : NodeId -> Walk String}
    (inside : forall node, Settles size bound (visit node)) (node : NodeId) (data : Node)
    (identifier : Identifier) :
    Settles size bound (scene.render visit node data identifier) := by
  unfold render
  split
  · exact settles_fail size bound _
  · refine settles_bind (settles_act size bound _) fun _ => ?_
    split
    · exact settles_offer size bound _
    · exact settles_offer size bound _
    · exact scene.settles_component inside _ _ _ _ _
    · exact settles_bind (scene.settles_component inside _ _ _ _ _) fun _ =>
        scene.settles_provided size bound _ _ _ _ _
    · exact settles_bind (settles_offer size bound _) fun _ =>
        scene.settles_provided size bound _ _ _ _ _

/-- Showing a node that has no identifier leaves one node less pending before anything inside it
is shown. -/
theorem settle_comes (scene : Scene) {depth : Nat} {visit : NodeId -> Walk String}
    (inside : forall node, Settles scene.graph.size depth (visit node)) {node : NodeId}
    {data : Node} (present : scene.graph.node? node = some data) {registry : Registry}
    (unknown : registry.identifier? node = none)
    (enough : registry.pending scene.graph.size ≤ depth + 1) :
    exists course, (scene.settle visit node data).run registry = some course ∧
      course.registry.pending scene.graph.size ≤ registry.pending scene.graph.size := by
  have small : node < scene.graph.size := (Array.getElem?_eq_some_iff.mp present).1
  have less := registry.pending_identify_lt small unknown
  have rest : Settles scene.graph.size depth
      (scene.render visit node data (registry.identifierFor node) >>= fun target =>
        if target.isEmpty then fail (.emptyTarget node)
        else do
          act (.record (registry.identifierFor node) target)
          return target) := by
    refine settles_bind (scene.settles_render inside node data _) fun target => ?_
    split
    · exact settles_fail _ _ _
    · exact settles_bind (settles_act _ _ _) fun _ => settles_pure _ _ _
  obtain ⟨course, comes, lessStill⟩ := rest (registry.identify node) (by omega)
  refine ⟨{ course with actions := [] ++ ([.identify node] ++ course.actions) }, ?_,
    Nat.le_trans lessStill (Nat.le_of_lt less)⟩
  unfold settle
  rw [run_bind, run_registry, Option.bind_some]
  dsimp only
  rw [run_bind, run_act, Option.bind_some]
  dsimp only [Registry.apply]
  rw [comes]
  rfl

/-- A node without identifier is turned to; for any other node there is nothing to do. -/
theorem reach_comes (scene : Scene) {turn : Node -> Walk String} {node : NodeId}
    {registry : Registry}
    (fresh : forall data, scene.graph.node? node = some data ->
      registry.identifier? node = none ->
      exists course, (turn data).run registry = some course ∧
        course.registry.pending scene.graph.size ≤ registry.pending scene.graph.size) :
    exists course, (scene.reach node turn).run registry = some course ∧
      course.registry.pending scene.graph.size ≤ registry.pending scene.graph.size := by
  unfold reach
  rw [run_bind, run_registry, Option.bind_some]
  dsimp only
  cases known : registry.identifier? node with
  | some identifier => exact ⟨_, rfl, Nat.le_refl _⟩
  | none =>
    cases present : scene.graph.node? node with
    | none => exact ⟨_, rfl, Nat.le_refl _⟩
    | some data =>
      obtain ⟨course, comes, less⟩ := fresh data present known
      exact ⟨{ course with actions := [] ++ course.actions }, by simp [comes], less⟩

/-- A walk with at most as many nodes pending as its bound comes to something. -/
theorem visit_settles (scene : Scene) (depth : Nat) :
    forall node, Settles scene.graph.size depth (scene.visit depth node) := by
  induction depth with
  | zero =>
    intro node registry none
    refine scene.reach_comes fun data present unknown => ?_
    have small : node < scene.graph.size := (Array.getElem?_eq_some_iff.mp present).1
    have less := registry.pending_identify_lt small unknown
    omega
  | succ depth ih =>
    intro node registry enough
    exact scene.reach_comes fun data present unknown =>
      scene.settle_comes ih present unknown enough

/-- The walk that shows a node, with all the nesting that it needs. -/
def course (scene : Scene) (node : NodeId) (registry : Registry) : Course String :=
  ((scene.visit scene.graph.size node).run registry).get <| by
    obtain ⟨course, comes, _⟩ := scene.visit_settles scene.graph.size node registry
      (registry.pending_le_size _)
    rw [comes]
    rfl

end Scene
end InjectionPlan
