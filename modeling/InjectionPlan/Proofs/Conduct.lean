import InjectionPlan.Proofs.Accounts

namespace InjectionPlan

/-!
# How tours treat the registry

A tour keeps a sound registry sound and changes nothing that was known before (`Tour.sound`), and
each of its actions is admitted when its turn comes (`Tour.admitted`).  From the second fact alone
it follows what may have become of the registry after any beginning of the actions: the nodes
identified are new and different from each other.
-/

/-! ## Admitted actions -/

namespace Registry

/-- A registry admits an action that keeps it sound. -/
def Admits (graph : Graph) (registry : Registry) : Action -> Prop
  | .identify node => registry.identifier? node = none
  | .record identifier target =>
    registry.target? identifier.text = none ∧
      exists node, registry.identifier? node = some identifier ∧
        target = graph.endpoint node identifier
  | _ => True

/-- Each of several actions is admitted after those before it. -/
def AdmitsAll (graph : Graph) : Registry -> List Action -> Prop
  | _, [] => True
  | registry, action :: rest =>
    registry.Admits graph action ∧ AdmitsAll graph (registry.apply action) rest

theorem identifier?_identify_self (registry : Registry) (node : NodeId) :
    (registry.identify node).identifier? node = some (registry.identifierFor node) := by
  rw [identifier?_identify, if_pos rfl]

variable {graph : Graph} {registry : Registry}

@[simp] theorem admitsAll_append (first second : List Action) :
    registry.AdmitsAll graph (first ++ second) <->
      registry.AdmitsAll graph first ∧ (registry.applyAll first).AdmitsAll graph second := by
  induction first generalizing registry with
  | nil => simp [AdmitsAll]
  | cons action rest ih => simp [AdmitsAll, ih, and_assoc]

theorem Sound.apply (sound : registry.Sound graph) {action : Action}
    (admitted : registry.Admits graph action) : (registry.apply action).Sound graph := by
  cases action with
  | identify node => exact sound.identify admitted
  | record identifier target =>
      rcases admitted with ⟨_, node, known, rfl⟩
      exact sound.recordTarget known
  | offer node => exact sound
  | enqueue edge => exact sound
  | unbound qualifier => exact sound
  | note event => exact sound

theorem Sound.applyAll (sound : registry.Sound graph) {actions : List Action}
    (admitted : registry.AdmitsAll graph actions) : (registry.applyAll actions).Sound graph := by
  induction actions generalizing registry with
  | nil => exact sound
  | cons action rest ih => exact ih (sound.apply admitted.1) admitted.2

/-- No action changes an identifier. -/
theorem identifier?_applyAll_of_known {node : NodeId} {identifier : Identifier}
    (known : registry.identifier? node = some identifier) (actions : List Action) :
    (registry.applyAll actions).identifier? node = some identifier := by
  induction actions generalizing registry with
  | nil => exact known
  | cons action rest ih =>
      apply ih
      cases action with
      | identify other => exact (registry.grows_identify other).identifiers node identifier known
      | record _ _ => exact known
      | offer _ => exact known
      | enqueue _ => exact known
      | unbound _ => exact known
      | note _ => exact known

/-- The nodes with identifiers are those that had one and those that got one. -/
theorem identifier?_applyAll_isSome (actions : List Action) (node : NodeId) :
    ((registry.applyAll actions).identifier? node).isSome <->
      (registry.identifier? node).isSome ∨ node ∈ identifiedIn actions := by
  induction actions generalizing registry with
  | nil => simp [identifiedIn]
  | cons action rest ih =>
      rw [applyAll_cons, ih]
      cases action with
      | identify other =>
          rw [apply, identifier?_identify]
          by_cases same : other = node
          · simp [identifiedIn, Action.identified?, same]
          · simp [identifiedIn, Action.identified?, same, Ne.symm same]
      | record _ _ => rfl
      | offer _ => rfl
      | enqueue _ => rfl
      | unbound _ => rfl
      | note _ => rfl

/-- Nodes are identified once, and not if they have an identifier. -/
theorem AdmitsAll.identifiedIn_new {actions : List Action}
    (admitted : registry.AdmitsAll graph actions) :
    (identifiedIn actions).Nodup ∧
      forall node, node ∈ identifiedIn actions -> registry.identifier? node = none := by
  induction actions generalizing registry with
  | nil => simp [identifiedIn]
  | cons action rest ih =>
      rcases ih admitted.2 with ⟨nodup, new⟩
      cases action with
      | identify other =>
          have unknown : registry.identifier? other = none := admitted.1
          refine ⟨List.nodup_cons.mpr ⟨fun again => ?_, nodup⟩, fun node member => ?_⟩
          · have known := registry.identifier?_identify_self other
            cases known.symm.trans (new other again)
          · rcases List.mem_cons.mp member with first | later
            · exact first ▸ unknown
            · have stillUnknown := new node later
              rw [apply, identifier?_identify] at stillUnknown
              split at stillUnknown
              · cases stillUnknown
              · exact stillUnknown
      | record _ _ => exact ⟨nodup, new⟩
      | offer _ => exact ⟨nodup, new⟩
      | enqueue _ => exact ⟨nodup, new⟩
      | unbound _ => exact ⟨nodup, new⟩
      | note _ => exact ⟨nodup, new⟩

/-- The nodes identified get the numbers that follow those given before, in their order. -/
theorem AdmitsAll.numbered {actions : List Action} (admitted : registry.AdmitsAll graph actions) :
    (identifiedIn actions).map (registry.applyAll actions).identifier? =
      (List.range' registry.assigned (identifiedIn actions).length).map
        fun number => some (.numbered number) := by
  induction actions generalizing registry with
  | nil => rfl
  | cons action rest ih =>
      have later := ih admitted.2
      cases action with
      | identify node =>
          have unknown : registry.identifier? node = none := admitted.1
          have known := identifier?_applyAll_of_known (registry.identifier?_identify_self node) rest
          rw [identifierFor_of_unknown unknown] at known
          rw [apply, assigned_identify unknown] at later
          change (node :: identifiedIn rest).map _ = _
          rw [List.map_cons, applyAll_cons, apply, known, later]
          rfl
      | record _ _ => exact later
      | offer _ => exact later
      | enqueue _ => exact later
      | unbound _ => exact later
      | note _ => exact later

end Registry

/-! ## Tours -/

/-- A node that is not the root has its endpoint as its target. -/
theorem Scene.portrait_target (scene : Scene) {node : NodeId} (data : Node)
    {satisfaction : Satisfaction} (bound : scene.graph.satisfaction? node = some satisfaction)
    (number : Nat) :
    (scene.portrait node data satisfaction (Identifier.numbered number).text).target =
      scene.graph.endpoint node (.numbered number) := by
  unfold Graph.endpoint
  rw [bound]
  cases satisfaction <;> rfl

theorem Scene.Fresh.satisfaction?_eq {scene : Scene} {registry : Registry} {node : NodeId}
    {data : Node} {satisfaction : Satisfaction}
    (fresh : scene.Fresh registry node data satisfaction) :
    scene.graph.satisfaction? node = some satisfaction := by
  rw [Graph.satisfaction?, fresh.present, Option.bind_some, fresh.bound]

theorem Scene.Fresh.target_eq {scene : Scene} {registry : Registry} {node : NodeId} {data : Node}
    {satisfaction : Satisfaction} (fresh : scene.Fresh registry node data satisfaction) :
    (scene.portraitIn registry node data satisfaction).target =
      scene.graph.endpoint node (registry.identifierFor node) := by
  rw [portraitIn, Registry.identifierFor_of_unknown fresh.unknown,
    scene.portrait_target data fresh.satisfaction?_eq]

namespace Registry

/-- Recording the target of a node that was new leaves what was known before it as it was. -/
theorem grows_settled {graph : Graph} {registry reached : Registry}
    (sound : registry.Sound graph) {node : NodeId} (unknown : registry.identifier? node = none)
    (grows : (registry.identify node).Grows reached) (target : String) :
    registry.Grows (reached.recordTarget (registry.identifierFor node).text target) where
  identifiers other identifier known :=
    grows.identifiers other identifier
      ((registry.grows_identify node).identifiers other identifier known)
  targets other identifier known := by
    have different : (registry.identifierFor node).text ≠ identifier.text := by
      intro same
      rw [identifierFor_of_unknown unknown] at same
      rw [← Identifier.text_injective same] at known
      exact absurd (sound.numbered other _ known) (Nat.lt_irrefl _)
    rw [target?_recordTarget, if_neg different]
    exact ((registry.grows_identify node).trans grows).targets other identifier known

end Registry

namespace Tour

variable {scene : Scene} {stops : List Stop} {registry : Registry} {course : Course Unit}

/-- The registry reached is what the actions make of the first one. -/
theorem registry_eq (tour : Tour scene stops registry course) :
    course.registry = registry.applyAll course.actions := by
  induction tour with
  | done => rfl
  | row _ ih => simpa [Course.after] using ih
  | known _ _ ih => simpa [Course.after] using ih
  | foreign _ _ => simp
  | bare _ _ _ => simp [Registry.apply]
  | failed _ _ ih => simpa using ih
  | shown _ _ _ ihWithin ihLater =>
      dsimp only at ihWithin
      simpa [Course.after, Registry.applyAll_showing, ← ihWithin] using ihLater

theorem sound (tour : Tour scene stops registry course) (sound : registry.Sound scene.graph) :
    course.registry.Sound scene.graph ∧ registry.Grows course.registry := by
  induction tour with
  | done => exact ⟨sound, .refl _⟩
  | row _ ih => exact ih sound
  | known _ _ ih => exact ih sound
  | foreign _ _ => exact ⟨sound, .refl _⟩
  | bare unknown _ _ => exact ⟨sound.identify unknown, Registry.grows_identify _ _⟩
  | failed fresh _ ih =>
      rcases ih (sound.identify fresh.unknown) with ⟨innerSound, grows⟩
      exact ⟨innerSound, (Registry.grows_identify _ _).trans grows⟩
  | shown fresh _ _ ihWithin ihLater =>
      rcases ihWithin (sound.identify fresh.unknown) with ⟨innerSound, grows⟩
      have known := grows.identifiers _ _ (Registry.identifier?_identify_self _ _)
      rw [fresh.target_eq] at ihLater
      rcases ihLater (innerSound.recordTarget known) with ⟨laterSound, laterGrows⟩
      exact ⟨laterSound, (Registry.grows_settled sound fresh.unknown grows _).trans laterGrows⟩

/-- What is known of the registry when a node has been shown and its target recorded. -/
theorem shown_sound {node : NodeId} {data : Node} {satisfaction : Satisfaction}
    {actions : List Action} {reached : Registry}
    (within : Tour scene (scene.stops (scene.portraitIn registry node data satisfaction))
      (registry.identify node) ⟨actions, reached, .ok ()⟩)
    (fresh : scene.Fresh registry node data satisfaction) (sound : registry.Sound scene.graph) :
    reached.identifier? node = some (registry.identifierFor node) ∧
      (registry.identify node).Grows reached ∧
      (reached.recordTarget (registry.identifierFor node).text
        (scene.portraitIn registry node data satisfaction).target).Sound scene.graph := by
  rcases within.sound (sound.identify fresh.unknown) with ⟨innerSound, grows⟩
  have known := grows.identifiers _ _ (registry.identifier?_identify_self node)
  exact ⟨known, grows, fresh.target_eq ▸ innerSound.recordTarget known⟩

/-- Until then no target has been recorded for the node. -/
theorem shown_unrecorded {node : NodeId} {data : Node} {satisfaction : Satisfaction}
    {actions : List Action} {reached : Registry}
    (within : Tour scene (scene.stops (scene.portraitIn registry node data satisfaction))
      (registry.identify node) ⟨actions, reached, .ok ()⟩)
    (fresh : scene.Fresh registry node data satisfaction) (sound : registry.Sound scene.graph) :
    reached.target? (registry.identifierFor node).text = none := by
  rcases within.sound (sound.identify fresh.unknown) with ⟨_, grows⟩
  rw [grows.targets _ _ (registry.identifier?_identify_self node), Registry.target?_identify,
    Registry.identifierFor_of_unknown fresh.unknown]
  exact sound.target?_next

private theorem admitsAll_of_quiet {graph : Graph} {registry : Registry} {actions : List Action}
    (quiet : forall action, action ∈ actions -> forall reached : Registry,
      reached.Admits graph action) : registry.AdmitsAll graph actions := by
  induction actions generalizing registry with
  | nil => trivial
  | cons action rest ih =>
      exact ⟨quiet action List.mem_cons_self registry,
        ih fun other member => quiet other (List.mem_cons_of_mem _ member)⟩

@[simp] private theorem admitsAll_notes (graph : Graph) (registry : Registry)
    (events : List LogEvent) : registry.AdmitsAll graph (events.map .note) := by
  apply admitsAll_of_quiet
  intro action member reached
  rcases List.mem_map.mp member with ⟨event, _, rfl⟩
  trivial

@[simp] private theorem admitsAll_rowActions (graph : Graph) (registry : Registry)
    (qualifier : Qualifier) (value : Option Instance) :
    registry.AdmitsAll graph (Stop.rowActions qualifier value) := by
  cases value <;> simp [Stop.rowActions, Registry.AdmitsAll, Registry.Admits]

@[simp] private theorem admitsAll_linkActions (graph : Graph) (registry : Registry)
    (leads : List Diagram.Edge) (target : String) :
    registry.AdmitsAll graph (Stop.linkActions leads target) := by
  apply admitsAll_of_quiet
  intro action member reached
  rcases List.mem_map.mp member with ⟨edge, _, rfl⟩
  trivial

@[simp] private theorem admitsAll_closing (graph : Graph) (registry : Registry)
    (portrait : Portrait) : registry.AdmitsAll graph portrait.closing := by
  apply admitsAll_of_quiet
  intro action member reached
  rcases List.mem_append.mp member with offered | queued
  · rcases List.mem_map.mp offered with ⟨node, _, rfl⟩
    trivial
  · rcases List.mem_map.mp queued with ⟨edge, _, rfl⟩
    trivial

/-- Every action of a tour is admitted when its turn comes. -/
theorem admitted (tour : Tour scene stops registry course) (sound : registry.Sound scene.graph) :
    registry.AdmitsAll scene.graph course.actions := by
  induction tour with
  | done => trivial
  | row _ ih => simpa [Course.after] using ih sound
  | known _ _ ih => simpa [Course.after] using ih sound
  | foreign _ _ => simp
  | bare unknown _ _ => simp [Registry.AdmitsAll, Registry.Admits, unknown]
  | failed fresh _ ih =>
      simpa [opening, Registry.AdmitsAll, Registry.Admits, fresh.unknown, Registry.apply] using
        ih (sound.identify fresh.unknown)
  | @shown node _ _ _ registry _ data satisfaction _ reached fresh within later ihWithin ihLater =>
      rcases within.shown_sound fresh sound with ⟨known, grows, recorded⟩
      have first := within.shown_unrecorded fresh sound
      have inner := ihWithin (sound.identify fresh.unknown)
      have outer := ihLater recorded
      have reaches := within.registry_eq
      dsimp only at reaches inner
      rw [fresh.target_eq] at outer
      simp only [Course.after, Scene.showing, Registry.admitsAll_append, Registry.applyAll_append,
        Registry.applyAll_notes, Registry.applyAll_opening, Registry.applyAll_closing,
        Registry.applyAll_linkActions, ← reaches, fresh.target_eq]
      refine ⟨⟨⟨by simp, ⟨⟨⟨?_, inner⟩, by simp⟩, ?_⟩⟩, by simp⟩, outer⟩
      · exact ⟨fresh.unknown, trivial, trivial⟩
      · exact ⟨⟨first, node, known, rfl⟩, trivial⟩

end Tour
end InjectionPlan
