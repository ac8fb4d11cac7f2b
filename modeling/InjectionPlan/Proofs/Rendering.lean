import InjectionPlan.Dot.Rendering
import InjectionPlan.Proofs.Writing

namespace InjectionPlan

/-!
# What a rendering tells

To render a plan is to write a draft: the nodes and edges of the script that the plan's dump plays
(`Plan.render_write`).  Markup comes into a dump only with the tables of components
(`Tour.drawn`), so the text of a finished rendering can be decoded and tells the whole script
(`Plan.decode_render`).
-/

open Dot (Drawn MarksComponents marksComponents_empty marksComponents_toNode)

/-! ## The markup of what is shown -/

theorem marksComponents_dependencyEdge (id : String) (port : Nat) (target : String)
    (transient : Bool) : MarksComponents (dependencyEdge id port target transient).attributes := by
  have solid := marksComponents_empty.set_text "arrowhead" "vee"
  cases transient with
  | true => exact solid.set_text "style" "dashed"
  | false => exact solid

theorem marksComponents_ellipse (id label : String) :
    MarksComponents (ellipse id label).attributes :=
  (marksComponents_empty.set_text "label" label).set_text "shape" "ellipse"

theorem marksComponents_providerEdge (provided provider : String) :
    MarksComponents (providerEdge provided provider).attributes :=
  ((marksComponents_empty.set_text "style" "dotted").set_text "dir" "back").set_text
    "arrowhead" "vee"

/-- Where edges lead to is not markup. -/
theorem Dot.Drawn.leadingTo {nodes : List Diagram.Node} {edges : List Diagram.Edge}
    (drawn : Drawn nodes edges) (target : String) :
    Drawn nodes (edges.map (·.leadingTo target)) where
  nodes := drawn.nodes
  edges edge member := by
    rcases List.mem_map.mp member with ⟨lead, isLead, rfl⟩
    exact drawn.edges lead isLead

theorem Scene.drawn_portrait (scene : Scene) (node : NodeId) (data : Node)
    (satisfaction : Satisfaction) (id : String) :
    Drawn (scene.portrait node data satisfaction id).nodes
      (scene.portrait node data satisfaction id).backEdges := by
  cases satisfaction with
  | null type => exact .node (marksComponents_ellipse id _) .nil
  | ofInstance type value => exact .node (marksComponents_ellipse id _) .nil
  | ofClass type => exact .node (marksComponents_toNode _ id) .nil
  | ofProviderClass provider type =>
      exact .node (marksComponents_toNode _ (providerId id))
        (.node (marksComponents_toNode _ id) (.edge (marksComponents_providerEdge _ _) .nil))
  | ofProviderInstance provider label type =>
      have ellipse := marksComponents_ellipse (providerId id) (label.getD provider.name)
      exact .node (ellipse.set_text "style" "dashed")
        (.node (marksComponents_toNode _ id) (.edge (marksComponents_providerEdge _ _) .nil))

/-- The edges that are queued at a stop. -/
def Stop.leads : Stop -> List Diagram.Edge
  | .row _ _ => []
  | .turn _ _ leads => leads

/-- Stops at which no markup is queued but that of components. -/
def DrawnStops (stops : List Stop) : Prop :=
  forall stop, stop ∈ stops -> Drawn [] stop.leads

theorem Graph.drawn_itinerary (graph : Graph) (owner : String) (shown : Nat)
    (edges : List Edge) : DrawnStops (graph.itinerary owner shown edges) := by
  induction edges generalizing shown with
  | nil => exact fun _ impossible => nomatch impossible
  | cons edge rest ih =>
      rw [itinerary]
      split
      · exact List.forall_mem_cons.mpr ⟨.nil, ih shown⟩
      · have lead := marksComponents_dependencyEdge owner (shown + 1) "" edge.desire.isTransient
        exact List.forall_mem_cons.mpr ⟨.edge lead .nil, ih (shown + 1)⟩

theorem drawn_rootStops (edges : List Edge) : DrawnStops (rootStops edges) := by
  intro stop member
  rcases List.mem_map.mp member with ⟨edge, _, rfl⟩
  exact .edge (marksComponents_empty.set_text "arrowhead" "vee") .nil

/-- What a tour hands over is drawn if the edges at its stops are. -/
theorem Tour.drawn {scene : Scene} {stops : List Stop} {registry : Registry}
    {course : Course Unit} (tour : Tour scene stops registry course) (drawn : DrawnStops stops) :
    Drawn (offeredIn course.actions) (queuedIn course.actions) := by
  induction tour with
  | done => exact .nil
  | row _ ih =>
      have rest := ih (List.forall_mem_cons.mp drawn).2
      simpa [Course.after] using rest
  | @known node events leads rest registry course identifier has _ ih =>
      rcases List.forall_mem_cons.mp drawn with ⟨(lead : Drawn [] leads), later⟩
      simpa [Course.after] using (lead.leadingTo _).append (ih later)
  | foreign _ _ => simpa using Drawn.nil
  | bare _ _ _ =>
      rw [offeredIn_append, queuedIn_append, offeredIn_notes, queuedIn_notes]
      exact .nil
  | failed _ _ ih => simpa using ih (scene.graph.drawn_itinerary _ _ _)
  | @shown node events leads rest registry course data satisfaction actions reached _ _ _ ihWithin
      ihLater =>
      rcases List.forall_mem_cons.mp drawn with ⟨(lead : Drawn [] leads), later⟩
      have inside := ihWithin (scene.graph.drawn_itinerary _ _ _)
      have own := scene.drawn_portrait node data satisfaction (registry.identifierFor node).text
      have all := ((inside.append own).append (lead.leadingTo
        (scene.portraitIn registry node data satisfaction).target)).append (ihLater later)
      simpa [Course.after, Scene.portraitIn] using all

/-! ## Renderings -/

theorem Course.drawn_script {scene : Scene} {edges : List Edge} {registry : Registry}
    {course : Course Unit} (tour : Tour scene (rootStops edges) registry course) :
    Drawn course.script.nodes course.script.edges := by
  have toured := tour.drawn (drawn_rootStops edges)
  have root : MarksComponents Session.rootNode.attributes :=
    ((marksComponents_empty.set_text "label" "root").set_text "shape" "box").set_text
      "style" "rounded"
  refine ⟨List.forall_mem_cons.mpr ⟨root, toured.nodes⟩, ?_⟩
  dsimp only [script]
  split
  · intro edge member
    rcases List.mem_map.mp member with ⟨queued, isQueued, rfl⟩
    exact toured.edges queued isQueued
  · exact Drawn.nil.edges

/-- The only markup in a script is that of components. -/
theorem Graph.drawn_script (graph : Graph) (root : NodeId) (unshared : List NodeId) :
    Drawn (graph.script root unshared).nodes (graph.script root unshared).edges := by
  cases inside : graph.contains root with
  | false =>
      rw [script_of_not_contains inside]
      exact .nil
  | true =>
      rcases Tour.total (graph.scene unshared) (rootStops (graph.dependencies root))
        (.rooted root) with ⟨course, tour⟩
      rw [script_of_tour inside tour]
      exact Course.drawn_script tour

/-- The draft of a plan: the nodes and edges are those of the plan's script. -/
def Plan.draft (plan : Plan) (settings : Dot.Settings) : Dot.Draft :=
  let script := plan.graph.script plan.root plan.unshared
  ⟨settings, script.nodes, script.edges⟩

/-- A plan whose dump hands over its whole script. -/
theorem Plan.takeAll_draft (plan : Plan) (settings : Dot.Settings) {opened : Dot.Output}
    {summary : Summary} {session : Session Dot.Output}
    (dumped : plan.graph.dump plan.root plan.unshared Dot.sink opened = (.ok summary, session)) :
    Dot.sink.takeAll (plan.draft settings).descriptors opened = (.ok (), session.store) := by
  let script := plan.graph.script plan.root plan.unshared
  let handed := Dot.sink.takeAll (plan.draft settings).descriptors opened
  have plays : (_, _) = (script.outcome handed.1, handed.2) :=
    plan.graph.dump_eq_play plan.root plan.unshared Dot.sink opened
  rw [dumped, Prod.mk.injEq] at plays
  rcases plays with ⟨results, stores⟩
  refine Prod.ext ?_ stores.symm
  change handed.1 = .ok ()
  cases answer : handed.1 with
  | ok _ => rfl
  | error refusal =>
      rw [answer] at results
      cases results

/-- A finished rendering has written the draft of its plan. -/
theorem Plan.render_write (plan : Plan) (settings : Dot.Settings) (quota : Option Nat)
    {summary : Summary} (rendered : (plan.render settings quota).outcome = .ok summary) :
    (plan.draft settings).write quota = (.ok (), (plan.render settings quota).output) := by
  unfold Plan.render at rendered ⊢
  split at rendered
  · cases rendered
  · next opened started =>
    split at rendered
    · cases rendered
    · next result session dumped =>
      have written := (plan.draft settings).write_eq_finish started
        (plan.takeAll_draft settings dumped)
      rw [written]
      rcases finished : session.store.finish with ⟨_ | _, output⟩
      · rw [finished] at rendered
        cases rendered
      · rfl

/-- The text of a finished rendering tells the whole script of the plan. -/
theorem Plan.decode_render (plan : Plan) (settings : Dot.Settings) (quota : Option Nat)
    {summary : Summary} (rendered : (plan.render settings quota).outcome = .ok summary) :
    Dot.decode (plan.render settings quota).output.text = some (plan.draft settings).contents := by
  have written := plan.render_write settings quota rendered
  rw [Dot.Draft.text_write written]
  exact Dot.Draft.decode_text_of_drawn (plan.graph.drawn_script plan.root plan.unshared)

end InjectionPlan
