import InjectionPlan.Dot.Rendering
import InjectionPlan.Proofs.Guises
import InjectionPlan.Proofs.Loading
import InjectionPlan.Proofs.Refusals

namespace InjectionPlan

/-!
# Edges in another order

The order in which edges have been added shows only between edges of one node that have the same
key.  Graphs that agree on that order have the same script, so every sink is handed the same
descriptors (`Graph.Rearranged.dump_eq`).  If the edges that leave any one node have different keys,
there is nothing to agree on: in whatever order edges are added to a graph, or listed in a document,
the same text is written (`Plan.render_reordered`).
-/

namespace Graph

/-- The same nodes with the same edges.  Edges of one node may be kept in another order, but not
those with the same key. -/
structure Rearranged (first second : Graph) : Prop where
  nodes : second.nodes = first.nodes
  edges : forall node,
    InjectionPlan.Rearranged (first.outgoingEdges node) (second.outgoingEdges node)

/-- No two edges that leave a node have the same key. -/
def Distinguished (graph : Graph) : Prop :=
  forall node, ((graph.outgoingEdges node).map Edge.key).Nodup

variable {first second : Graph}

/-- The edges of a graph that has been built may be added in any order if keys tell them apart. -/
theorem Rearranged.of_built (built : first.Built) (builtToo : second.Built)
    (nodes : second.nodes = first.nodes) (perm : first.edges.toList.Perm second.edges.toList)
    (distinguished : first.Distinguished) : first.Rearranged second where
  nodes := nodes
  edges node := by
    apply Rearranged.of_perm _ (distinguished node)
    rw [built.consistent.leaving, builtToo.consistent.leaving]
    exact perm.filter _

end Graph

/-! ## The guise that changes nothing -/

namespace Guise

theorem node_plain (node : Node) : Guise.plain.node node = node :=
  congrArg (Node.mk · node.cachePolicy) (Option.map_id_apply)

theorem map_node_plain (data : Option Node) : data.map Guise.plain.node = data := by
  cases data with
  | none => rfl
  | some data => exact congrArg some (node_plain data)

theorem map_edge_plain (edges : List Edge) : edges.map Guise.plain.edge = edges :=
  List.map_id edges

theorem portrait_plain (portrait : Portrait) : Guise.plain.portrait portrait = portrait := by
  rw [Guise.portrait, map_edge_plain]
  exact congrArg (Portrait.mk _ _ · _ _) (List.map_id portrait.nodes)

theorem script_plain (script : Script) : Guise.plain.script script = script :=
  congrArg (Script.mk · _ _) (List.map_id script.nodes)

end Guise

namespace Graph.Rearranged

variable {first second : Graph} (rearranged : first.Rearranged second)

include rearranged

theorem node? (node : NodeId) : second.node? node = first.node? node := by
  rw [Graph.node?, rearranged.nodes, Graph.node?]

theorem dependencies (node : NodeId) : second.dependencies node = first.dependencies node :=
  (rearranged.edges node).sortEdges_eq.symm

theorem scene_unshared (unshared : List NodeId) :
    (second.scene unshared).unshared = (first.scene unshared).unshared := by
  have size : second.size = first.size := congrArg Array.size rearranged.nodes
  have contains : second.contains = first.contains := by
    funext node
    rw [Graph.contains, size, Graph.contains]
  exact congrArg (fun inside => (unshared.filter inside).eraseDups) contains

theorem filled (edges : List Edge) (component : Diagram.Component) :
    second.filled edges component = first.filled edges component := by
  have same : second.filled (edges.map Guise.plain.edge) component =
      first.filled edges component :=
    Guise.filled_of_node (fun node => (rearranged.node? node).trans (Guise.map_node_plain _).symm)
      edges component
  rwa [Guise.map_edge_plain] at same

theorem fits (unshared : List NodeId) :
    Guise.plain.Fits (first.scene unshared) (second.scene unshared) where
  node node := (rearranged.node? node).trans (Guise.map_node_plain _).symm
  dependencies node := (rearranged.dependencies node).trans (Guise.map_edge_plain _).symm
  portrait node data satisfaction id _ := by
    have flag : (second.scene unshared).isUnshared node = (first.scene unshared).isUnshared node :=
      congrArg (fun nodes => decide (node ∈ nodes)) (rearranged.scene_unshared unshared)
    have dependencies : (second.scene unshared).graph.dependencies node =
        (first.scene unshared).graph.dependencies node := rearranged.dependencies node
    have table (type : ComponentType) (provider : Bool) :
        (second.scene unshared).table node data type provider =
          (first.scene unshared).table node data type provider := by
      rw [Scene.table, Scene.table, dependencies, flag]
      exact rearranged.filled _ _
    have provided (type : ComponentType) :
        (second.scene unshared).providedTable node data type =
          (first.scene unshared).providedTable node data type := by
      rw [Scene.providedTable, Scene.providedTable, flag]
    rw [Guise.portrait_plain, Guise.node_plain]
    change Scene.portrait _ node data satisfaction id = _
    cases satisfaction with
    | null type => rfl
    | ofInstance type value => rfl
    | ofClass type => simp only [Scene.portrait, dependencies, table]
    | ofProviderClass provider type => simp only [Scene.portrait, dependencies, table, provided]
    | ofProviderInstance provider label type => simp only [Scene.portrait, provided]

theorem script_eq (root : NodeId) (unshared : List NodeId) :
    second.script root unshared = first.script root unshared :=
  ((rearranged.fits unshared).script root).trans (Guise.script_plain _)

/-- Any sink is handed the same, and ends in the same state. -/
theorem dump_eq {State : Type u} (root : NodeId) (unshared : List NodeId) (sink : Sink State)
    (store : State) :
    (second.dump root unshared sink store).1 = (first.dump root unshared sink store).1 ∧
      (second.dump root unshared sink store).2.store =
        (first.dump root unshared sink store).2.store := by
  have plays := first.dump_eq_play root unshared sink store
  have playsToo := second.dump_eq_play root unshared sink store
  rw [rearranged.script_eq] at playsToo
  exact Prod.mk.inj (playsToo.trans plays.symm)

end Graph.Rearranged

/-! ## Renderings -/

namespace Plan

/-- A rendering depends on no more of a plan than the script. -/
theorem render_of_script {plan other : Plan}
    (same : other.graph.script other.root other.unshared =
      plan.graph.script plan.root plan.unshared)
    (settings : Dot.Settings) (quota : Option Nat) :
    (other.render settings quota).outcome = (plan.render settings quota).outcome ∧
      (other.render settings quota).output = (plan.render settings quota).output := by
  unfold render
  rcases Dot.Output.start settings quota with ⟨answer, output⟩
  cases answer with
  | error refusal => exact ⟨rfl, rfl⟩
  | ok _ =>
      have plays := plan.graph.dump_eq_play plan.root plan.unshared Dot.sink output
      have playsToo := other.graph.dump_eq_play other.root other.unshared Dot.sink output
      rw [same] at playsToo
      rcases Prod.mk.inj (playsToo.trans plays.symm) with ⟨results, stores⟩
      dsimp only
      generalize plan.graph.dump plan.root plan.unshared Dot.sink output = dumped
        at results stores ⊢
      generalize other.graph.dump other.root other.unshared Dot.sink output = dumpedToo
        at results stores ⊢
      rcases dumped with ⟨_, session⟩
      rcases dumpedToo with ⟨result, sessionToo⟩
      dsimp only at results stores
      subst results
      cases result with
      | error error => exact ⟨rfl, stores⟩
      | ok summary =>
          dsimp only
          rw [stores]
          cases session.store.finish with
          | mk last ended => cases last <;> exact ⟨rfl, rfl⟩

end Plan

/-- If keys tell the edges of each node of a document apart, the edges can be listed in any
order. -/
theorem Document.render_reordered {document : Document} {plan : Plan}
    (loaded : document.load = .ok plan) (distinguished : plan.graph.Distinguished)
    {others : List DocumentEdge} (perm : document.edges.Perm others) :
    exists other, { document with edges := others }.load = .ok other ∧
      forall settings quota,
        (other.render settings quota).outcome = (plan.render settings quota).outcome ∧
          (other.render settings quota).output = (plan.render settings quota).output := by
  rcases load_reordered loaded perm with ⟨other, loadedToo, nodes, root, unshared, keys⟩
  rcases load_graph loaded with ⟨built, edges⟩
  rcases load_graph loadedToo with ⟨builtToo, edgesToo⟩
  have reordered : plan.graph.edges.toList.Perm other.graph.edges.toList := by
    rw [edges, edgesToo, keys]
    exact perm.filterMap _
  have rearranged := Graph.Rearranged.of_built built builtToo nodes reordered distinguished
  refine ⟨other, loadedToo, Plan.render_of_script ?_⟩
  rw [root, unshared]
  exact rearranged.script_eq plan.root plan.unshared

namespace Graph

/-- Rearranging the edges of nodes makes no difference to any sink, watched or not.  If keys tell
the edges of each node apart, then neither the order in which edges are added to a graph nor the
order in which a document lists them makes a difference to what is written. -/
theorem dump_rearranged :
    (forall first second : Graph, first.Rearranged second ->
      forall (root : NodeId) (unshared : List NodeId) {State : Type u} (sink : Sink State)
        (store : State),
      let dumped := first.dump root unshared sink.watched (.start store)
      let again := second.dump root unshared sink.watched (.start store)
      again.2.store.handovers = dumped.2.store.handovers ∧ again.1 = dumped.1 ∧
        (second.dump root unshared sink store).2.store =
          (first.dump root unshared sink store).2.store ∧
        (second.dump root unshared sink store).1 = (first.dump root unshared sink store).1) ∧
    (forall first second : Graph, first.Built -> second.Built -> second.nodes = first.nodes ->
      first.edges.toList.Perm second.edges.toList -> first.Distinguished ->
      forall root unshared keys settings quota,
      let rendering := Plan.render ⟨first, root, unshared, keys⟩ settings quota
      let again := Plan.render ⟨second, root, unshared, keys⟩ settings quota
      again.outcome = rendering.outcome ∧ again.output = rendering.output) ∧
    (forall (document : Document) (plan : Plan), document.load = .ok plan ->
      plan.graph.Distinguished -> forall others, document.edges.Perm others ->
      exists other, { document with edges := others }.load = .ok other ∧
        forall settings quota,
          (other.render settings quota).outcome = (plan.render settings quota).outcome ∧
            (other.render settings quota).output = (plan.render settings quota).output) := by
  refine ⟨fun first second rearranged root unshared State sink store => ?_,
    fun first second built builtToo nodes perm distinguished root unshared keys => ?_,
    fun document plan loaded distinguished others perm => ?_⟩
  · rcases rearranged.dump_eq root unshared sink.watched (.start store) with ⟨results, stores⟩
    rcases rearranged.dump_eq root unshared sink store with ⟨bareResults, bareStores⟩
    exact ⟨congrArg Watched.handovers stores, results, bareStores, bareResults⟩
  · have rearranged := Rearranged.of_built built builtToo nodes perm distinguished
    exact Plan.render_of_script (rearranged.script_eq root unshared)
  · exact Document.render_reordered loaded distinguished perm

/-- A root that needs a component twice, and one of the same type as well, before or after that. -/
def fork (last : Bool) : Graph :=
  let type : ComponentType := ⟨"plan.Part", false, false⟩
  let edge (tail : NodeId) (site : Site) : Edge := ⟨0, tail, type, site, none, false⟩
  { nodes := #[⟨none, .noPreference⟩, .ofSatisfaction (.ofClass type),
      .ofSatisfaction (.ofClass type)]
    edges :=
      if last then #[edge 1 .simple, edge 2 .simple, edge 1 (.field "part")]
      else #[edge 1 (.field "part"), edge 1 .simple, edge 2 .simple]
    outgoing := #[#[0, 1, 2], #[], #[]] }

theorem outgoingEdges_of_size_le (graph : Graph) {node : NodeId}
    (outside : graph.outgoing.size ≤ node) : graph.outgoingEdges node = [] := by
  rw [outgoingEdges, Array.getElem?_eq_none outside]

theorem rearranged_fork : (fork true).Rearranged (fork false) where
  nodes := rfl
  edges node := by
    cases node with
    | zero => exact ⟨by decide, (sortEdges_eq_iff _ _).mp (by decide)⟩
    | succ before =>
        have bare (last : Bool) : (fork last).outgoingEdges (before + 1) = [] := by
          rcases before with _ | _ | behind
          · rfl
          · rfl
          · exact outgoingEdges_of_size_le _ (Nat.le_add_left 3 behind)
        rw [bare, bare]
        exact ⟨.nil, fun _ => rfl⟩

end Graph

/-- A document in which the root has a component injected into two fields. -/
def Document.pair (first second : String) : Document :=
  let type : ComponentType := ⟨"plan.Part", false, false⟩
  let edge (member : String) : DocumentEdge := ⟨"app", "part", type, .field member, none, false⟩
  { root := "app"
    nodes := [⟨"app", none, .noPreference⟩, ⟨"part", some (.ofClass type), .noPreference⟩]
    edges := [edge first, edge second]
    unshared := [] }

/-- The plan of that document. -/
def Plan.pair (first second : String) : Plan :=
  let type : ComponentType := ⟨"plan.Part", false, false⟩
  let edge (member : String) : Edge := ⟨0, 1, type, .field member, none, false⟩
  { graph :=
      { nodes := #[⟨none, .noPreference⟩, .ofSatisfaction (.ofClass type)]
        edges := #[edge first, edge second]
        outgoing := #[#[0, 1], #[]] }
    root := 0
    unshared := []
    keys := .ofList [("app", 0), ("part", 1)] }

theorem Document.load_pair (first second : String) :
    (pair first second).load = .ok (.pair first second) := rfl

theorem Plan.distinguished_pair : (pair "left" "right").graph.Distinguished := by
  intro node
  rcases node with _ | _ | behind
  · decide
  · exact List.nodup_nil
  · rw [Graph.outgoingEdges_of_size_le _ (Nat.le_add_left 2 behind)]
    exact List.nodup_nil

/-- In the fork, the edge that is injected into a field may be added last or first, but the other
two, whose keys are the same, have to keep their order.  A document may list two fields in any
order, and so may the two edges be added. -/
theorem Graph.fork_and_pair_rearranged :
    (let dumped := (fork true).dump 0 [2] Sink.collecting.watched (.start .empty)
      let again := (fork false).dump 0 [2] Sink.collecting.watched (.start .empty)
      again.2.store.handovers = dumped.2.store.handovers ∧ dumped.1 = .ok ⟨3, 3, 0⟩) ∧
    (let rendering := (Plan.pair "left" "right").render .default none
      let again := (Plan.pair "right" "left").render .default none
      again.output = rendering.output ∧ rendering.outcome = .ok ⟨2, 2, 0⟩) ∧
    (Document.pair "left" "right").load = .ok (.pair "left" "right") ∧
    exists other, { Document.pair "left" "right" with
        edges := (Document.pair "right" "left").edges }.load = .ok other ∧
      (other.render .default none).output =
        ((Plan.pair "left" "right").render .default none).output := by
  have loaded := Document.load_pair "left" "right"
  have loadedToo := Document.load_pair "right" "left"
  rcases dump_rearranged.{0} with ⟨rearranged, added, listed⟩
  refine ⟨⟨(rearranged _ _ rearranged_fork 0 [2] Sink.collecting .empty).1, rfl⟩,
    ⟨?_, rfl⟩, loaded, ?_⟩
  · exact (added (Plan.pair "left" "right").graph (Plan.pair "right" "left").graph
      (Document.load_graph loaded).1 (Document.load_graph loadedToo).1 rfl (by decide)
      Plan.distinguished_pair 0 [] (Plan.pair "left" "right").keys .default none).2
  · rcases listed _ _ loaded Plan.distinguished_pair (Document.pair "right" "left").edges
      (by decide) with ⟨other, loadedOther, rendered⟩
    exact ⟨other, loadedOther, (rendered .default none).2⟩

end InjectionPlan
