import InjectionPlan.Dot.Output
import InjectionPlan.Proofs.Decoding
import InjectionPlan.Proofs.Script

namespace InjectionPlan

/-!
# What a written text tells

A draft is written in three steps: the opening of the graph, a statement for each node and then for
each edge, and the closing.  If none of them was refused, the output holds the text of the draft
(`Draft.text_write`).  The only markup in a draft is the label of a component, and a label closes
the brackets that it opens, so the text can be decoded, and two drafts with the same text say the
same (`Draft.write_decodable`).
-/

namespace Dot

open Diagram (AttributeValue Component Descriptor)

/-! ## Bytes -/

namespace Output

variable {output written : Output}

/-- The quota decides whether a text is refused, but not what is written of one that is not. -/
theorem bytes_write {text : String} (accepted : output.write text = (.ok (), written)) :
    written.bytes = output.bytes ++ text.toUTF8 := by
  unfold write at accepted
  dsimp only at accepted
  split at accepted
  · cases accepted
    rfl
  · split at accepted
    · cases accepted
      rfl
    · cases accepted

theorem write_unlimited (unlimited : output.quota = none) (text : String) :
    exists written, output.write text = (.ok (), written) ∧ written.quota = none := by
  rw [write, unlimited]
  exact ⟨_, rfl, rfl⟩

theorem textOf_toUTF8 (text : String) : textOf text.toUTF8 = text := by
  have decoded : String.fromUTF8? text.toUTF8 = some text := dif_pos text.isValidUTF8
  rw [textOf, decoded]

end Output

/-- The statement written for a descriptor. -/
def statement : Descriptor -> String
  | .node node => nodeStatement node
  | .edge edge => edgeStatement edge

/-- The sink writes the statement of a descriptor.  Counting it leaves the bytes alone. -/
theorem take_sink (descriptor : Descriptor) (output : Output) :
    exists counted,
      sink.take descriptor output = ((output.write (statement descriptor)).1, counted) ∧
      counted.bytes = (output.write (statement descriptor)).2.bytes ∧
      counted.quota = (output.write (statement descriptor)).2.quota := by
  cases descriptor with
  | node node =>
      change exists counted, sink.takeNode node output = _ ∧ _
      rw [sink, statement]
      dsimp only
      rcases output.write (nodeStatement node) with ⟨answer, written⟩
      cases answer <;> exact ⟨_, rfl, rfl, rfl⟩
  | edge edge =>
      change exists counted, sink.takeEdge edge output = _ ∧ _
      rw [sink, statement]
      dsimp only
      rcases output.write (edgeStatement edge) with ⟨answer, written⟩
      cases answer <;> exact ⟨_, rfl, rfl, rfl⟩

theorem bytes_takeAll {descriptors : List Descriptor} {output written : Output}
    (accepted : sink.takeAll descriptors output = (.ok (), written)) :
    written.bytes = output.bytes ++ (String.join (descriptors.map statement)).toUTF8 := by
  induction descriptors generalizing output with
  | nil =>
      cases accepted
      simp
  | cons descriptor rest ih =>
      rcases take_sink descriptor output with ⟨counted, taken, bytes, _⟩
      rw [Sink.takeAll, taken] at accepted
      cases wrote : output.write (statement descriptor) with
      | mk answer next =>
          rw [wrote] at accepted bytes
          cases answer with
          | error refusal => cases accepted
          | ok _ =>
              rw [ih accepted, bytes, Output.bytes_write wrote]
              simp [String.join_cons, ByteArray.append_assoc]

theorem takeAll_unlimited (descriptors : List Descriptor) {output : Output}
    (unlimited : output.quota = none) :
    exists written, sink.takeAll descriptors output = (.ok (), written) ∧
      written.quota = none := by
  induction descriptors generalizing output with
  | nil => exact ⟨output, rfl, unlimited⟩
  | cons descriptor rest ih =>
      rcases output.write_unlimited unlimited (statement descriptor) with ⟨next, wrote, still⟩
      rcases take_sink descriptor output with ⟨counted, taken, _, quota⟩
      rw [wrote] at taken quota
      rw [Sink.takeAll, taken]
      exact ih (quota.trans still)

/-- What has been written when a graph was opened, described and closed. -/
theorem bytes_of_stages {settings : Settings} {quota : Option Nat} {descriptors : List Descriptor}
    {opened filled output : Output} (started : Output.start settings quota = (.ok (), opened))
    (taken : sink.takeAll descriptors opened = (.ok (), filled))
    (finished : filled.finish = (.ok (), output)) :
    output.bytes =
      (preamble settings ++ String.join (descriptors.map statement) ++ closing).toUTF8 := by
  rw [Output.bytes_write finished, bytes_takeAll taken, Output.bytes_write started]
  simp [Output.empty]

/-- Without a quota nothing is refused. -/
theorem stages_unlimited (settings : Settings) (descriptors : List Descriptor) :
    exists opened filled output, Output.start settings none = (.ok (), opened) ∧
      sink.takeAll descriptors opened = (.ok (), filled) ∧
      filled.finish = (.ok (), output) := by
  rcases (Output.empty none).write_unlimited rfl (preamble settings) with ⟨opened, started, still⟩
  rcases takeAll_unlimited descriptors still with ⟨filled, taken, stillThen⟩
  rcases filled.write_unlimited stillThen closing with ⟨output, finished, _⟩
  exact ⟨opened, filled, output, started, taken, finished⟩

/-! ## Drafts -/

/-- The only markup in the attributes is that of components. -/
def MarksComponents (attributes : Diagram.Attributes) : Prop :=
  forall name content, (name, .html content) ∈ attributes.entries ->
    exists component : Component, content = component.label

theorem MarksComponents.legible {attributes : Diagram.Attributes}
    (marks : MarksComponents attributes) : LegibleAttributes attributes := by
  intro entry member
  rcases entry with ⟨name, value⟩
  cases value with
  | text content => trivial
  | html content =>
      rcases marks name content member with ⟨component, rfl⟩
      exact component.leads_label 0

theorem marksComponents_empty : MarksComponents .empty :=
  fun _ _ impossible => nomatch impossible

theorem MarksComponents.set_text {attributes : Diagram.Attributes}
    (marks : MarksComponents attributes) (name text : String) :
    MarksComponents (attributes.set name (.text text)) := by
  intro other content member
  rcases Table.mem_entries_set member with isText | old
  · cases isText
  · exact marks other content old

theorem MarksComponents.set_label {attributes : Diagram.Attributes}
    (marks : MarksComponents attributes) (name : String) (component : Component) :
    MarksComponents (attributes.set name (.html component.label)) := by
  intro other content member
  rcases Table.mem_entries_set member with isLabel | old
  · cases isLabel
    exact ⟨component, rfl⟩
  · exact marks other content old

theorem marksComponents_toNode (component : Component) (id : String) :
    MarksComponents (component.toNode id).attributes :=
  (marksComponents_empty.set_text "shape" "plaintext").set_label "label" component

/-- Descriptors in which the only markup is that of components. -/
structure Drawn (nodes : List Diagram.Node) (edges : List Diagram.Edge) : Prop where
  nodes : forall node, node ∈ nodes -> MarksComponents node.attributes
  edges : forall edge, edge ∈ edges -> MarksComponents edge.attributes

namespace Drawn

variable {nodes otherNodes : List Diagram.Node} {edges otherEdges : List Diagram.Edge}

theorem nil : Drawn [] [] where
  nodes _ impossible := nomatch impossible
  edges _ impossible := nomatch impossible

theorem node {first : Diagram.Node} (marks : MarksComponents first.attributes)
    (drawn : Drawn nodes edges) : Drawn (first :: nodes) edges :=
  ⟨List.forall_mem_cons.mpr ⟨marks, drawn.nodes⟩, drawn.edges⟩

theorem edge {first : Diagram.Edge} (marks : MarksComponents first.attributes)
    (drawn : Drawn nodes edges) : Drawn nodes (first :: edges) :=
  ⟨drawn.nodes, List.forall_mem_cons.mpr ⟨marks, drawn.edges⟩⟩

theorem append (drawn : Drawn nodes edges) (others : Drawn otherNodes otherEdges) :
    Drawn (nodes ++ otherNodes) (edges ++ otherEdges) where
  nodes node member := (List.mem_append.mp member).elim (drawn.nodes node) (others.nodes node)
  edges edge member := (List.mem_append.mp member).elim (drawn.edges edge) (others.edges edge)

end Drawn

namespace Draft

variable {draft first second : Draft} {quota firstQuota secondQuota : Option Nat}
  {output firstOutput secondOutput : Output}

/-- The nodes and edges of a draft in the order in which they are handed over. -/
def descriptors (draft : Draft) : List Descriptor :=
  draft.nodes.map .node ++ draft.edges.map .edge

/-- Writes a draft to an output that holds at most `quota` bytes. -/
def write (draft : Draft) (quota : Option Nat) : Except Refusal Unit × Output :=
  match Output.start draft.settings quota with
  | (.error refusal, output) => (.error refusal, output)
  | (.ok (), output) =>
    match sink.takeAll draft.descriptors output with
    | (.error refusal, output) => (.error refusal, output)
    | (.ok (), output) => output.finish

theorem write_of_ok (accepted : (draft.write quota).1 = .ok ()) :
    draft.write quota = (.ok (), (draft.write quota).2) :=
  Prod.ext accepted rfl

/-- The bytes written without a refusal are those of the text of the draft. -/
theorem bytes_of_write (accepted : draft.write quota = (.ok (), output)) :
    output.bytes = draft.text.toUTF8 := by
  rw [write] at accepted
  split at accepted
  · cases accepted
  · next opened started =>
    split at accepted
    · cases accepted
    · next filled taken =>
      rw [bytes_of_stages started taken accepted]
      simp [text, descriptors, statement, Function.comp_def, ByteArray.append_assoc]

/-- What has been written without a refusal is the text of the draft. -/
theorem text_write (accepted : draft.write quota = (.ok (), output)) :
    output.text = draft.text := by
  rw [Output.text, bytes_of_write accepted, Output.textOf_toUTF8]

theorem write_eq_finish (draft : Draft) {opened filled : Output}
    (started : Output.start draft.settings quota = (.ok (), opened))
    (taken : sink.takeAll draft.descriptors opened = (.ok (), filled)) :
    draft.write quota = filled.finish := by
  rw [write, started]
  dsimp only
  rw [taken]

/-- Without a quota nothing is refused. -/
theorem write_unlimited (draft : Draft) : exists output, draft.write none = (.ok (), output) := by
  rcases stages_unlimited draft.settings draft.descriptors with
    ⟨opened, filled, output, started, taken, finished⟩
  exact ⟨output, (draft.write_eq_finish started taken).trans finished⟩

/-! ## The text tells what was written -/

theorem decode_text_of_drawn (drawn : Drawn draft.nodes draft.edges) :
    decode draft.text = some draft.contents :=
  decode_text
    ⟨fun node member => (drawn.nodes node member).legible,
      fun edge member => (drawn.edges edge member).legible⟩

/-- Two drafts that say the same. -/
structure SaysSame (first second : Draft) : Prop where
  graphName : first.settings.graphName = second.settings.graphName
  rankDirection : first.settings.rankDirection = second.settings.rankDirection
  graphAttributes : first.settings.graphAttributes = second.settings.graphAttributes
  nodeDefaults :
    defaults first.settings.fontName first.settings.nodeAttributes =
      defaults second.settings.fontName second.settings.nodeAttributes
  edgeDefaults :
    defaults first.settings.fontName first.settings.edgeAttributes =
      defaults second.settings.fontName second.settings.edgeAttributes
  nodes :
    first.nodes.map (fun node => (node.id, node.attributes.entries)) =
      second.nodes.map (fun node => (node.id, node.attributes.entries))
  edges :
    first.edges.map (fun edge => (edge.source, edge.target, edge.attributes.entries)) =
      second.edges.map (fun edge => (edge.source, edge.target, edge.attributes.entries))

theorem saysSame_of_contents (same : first.contents = second.contents) :
    first.SaysSame second where
  graphName := congrArg Contents.graphName same
  rankDirection := congrArg Contents.rankDirection same
  graphAttributes := AttributeMap.ext (map_plainly_inj.mp (congrArg Contents.graphAttributes same))
  nodeDefaults := map_plainly_inj.mp (congrArg Contents.nodeDefaults same)
  edgeDefaults := map_plainly_inj.mp (congrArg Contents.edgeDefaults same)
  nodes := congrArg Contents.nodes same
  edges := congrArg Contents.edges same

/-- Two drafts that are written as the same text say the same, since a decoder gives back what was
said.  It need not look beyond a token: whatever follows, a quoted text ends where its content
ends, and so does the label of a component, the brackets of which are balanced. -/
theorem write_decodable (firstDrawn : Drawn first.nodes first.edges)
    (secondDrawn : Drawn second.nodes second.edges)
    (firstWritten : first.write firstQuota = (.ok (), firstOutput))
    (secondWritten : second.write secondQuota = (.ok (), secondOutput)) :
    (firstOutput.text = secondOutput.text -> first.SaysSame second) ∧
      decode firstOutput.text = some first.contents ∧
      decode secondOutput.text = some second.contents ∧
      (forall content, Scans scanQuoted content (quote content).toList) ∧
      forall component : Component,
        Diagram.Balanced component.label.toList ∧
          Scans scanValue (.html component.label) ("<" ++ component.label ++ ">").toList := by
  have firstDecoded : decode firstOutput.text = some first.contents := by
    rw [text_write firstWritten, decode_text_of_drawn firstDrawn]
  have secondDecoded : decode secondOutput.text = some second.contents := by
    rw [text_write secondWritten, decode_text_of_drawn secondDrawn]
  refine ⟨fun same => ?_, firstDecoded, secondDecoded, scans_quote, fun component =>
    ⟨component.balanced_label, scans_value (component.leads_label 0)⟩⟩
  rw [same, secondDecoded] at firstDecoded
  exact saysSame_of_contents (Option.some.inj firstDecoded).symm

/-- A component whose texts have brackets. -/
def inscribedShop : Component where
  typeName := "List<Shop>"
  parameters := ["n: <1>"]
  dependencies := ["Shop"]
  shareable := true
  shared := false
  provider := false
  provided := true

/-- A draft whose texts are full of marks that mean something in DOT. -/
def inscribed : Draft where
  settings :=
    { Settings.default with
      graphName := "the \"plan\""
      rankDirection := some .leftToRight
      graphAttributes := .ofList [("label", "a;\nb"), ("page size", "\\")] }
  nodes :=
    [inscribedShop.toNode "N1",
      (Diagram.Node.plain "]; \"").setText "label" "\\\""]
  edges := [(Diagram.Edge.plain "N1:1" "]; \"").setText "style" ">"]

/-- The same draft, but for where its nodes are met. -/
def inscribedElsewhere : Draft :=
  { inscribed with nodes := inscribed.nodes.map ({ · with target := "" }) }

theorem inscribed_decoded :
    (inscribed.write none).2.text = (inscribedElsewhere.write (some 1000)).2.text ∧
      inscribed.SaysSame inscribedElsewhere ∧
      decode (inscribed.write none).2.text = some inscribed.contents := by
  have shop := marksComponents_toNode inscribedShop "N1"
  have plain := marksComponents_empty.set_text "label" "\\\""
  have edge := marksComponents_empty.set_text "style" ">"
  have firstDrawn : Drawn inscribed.nodes inscribed.edges :=
    .node shop (.node plain (.edge edge .nil))
  have secondDrawn : Drawn inscribedElsewhere.nodes inscribedElsewhere.edges :=
    .node shop (.node plain (.edge edge .nil))
  have firstWritten := write_of_ok (show (inscribed.write none).1 = .ok () by decide +kernel)
  have secondWritten :=
    write_of_ok (show (inscribedElsewhere.write (some 1000)).1 = .ok () by decide +kernel)
  have sameText : inscribed.text = inscribedElsewhere.text := rfl
  have same := (text_write firstWritten).trans (sameText.trans (text_write secondWritten).symm)
  rcases write_decodable firstDrawn secondDrawn firstWritten secondWritten with
    ⟨saysSame, decoded, _⟩
  exact ⟨same, saysSame same, decoded⟩

end Draft
end Dot
end InjectionPlan
