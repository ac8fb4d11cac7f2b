import InjectionPlan.Proofs.Naming
import InjectionPlan.Proofs.Tokens

namespace InjectionPlan
namespace Dot

/-!
# Decoding DOT

The text of a graph is decoded statement by statement.  How a statement starts tells of which kind
it is: only a setting has an equality sign behind its name, only defaults begin with a bare word
and a bracket, and an arrow or a colon comes behind the identifier of an edge's source.  So the
decoder gives back the contents from which the text was written (`Draft.decode_text`).
-/

open Diagram (AttributeValue)

/-! ## Contents -/

/-- What a graph in DOT says. -/
structure Contents where
  graphName : String
  rankDirection : Option RankDirection
  graphAttributes : List (String × AttributeValue)
  nodeDefaults : List (String × AttributeValue)
  edgeDefaults : List (String × AttributeValue)
  /-- The identifiers of the nodes with their attributes. -/
  nodes : List (String × List (String × AttributeValue))
  /-- The sources and targets of the edges with their attributes. -/
  edges : List (String × String × List (String × AttributeValue))
deriving DecidableEq

/-- An entry whose value is plain text. -/
def plainly (entry : String × String) : String × AttributeValue :=
  (entry.1, .text entry.2)

theorem map_plainly_inj {first second : List (String × String)} :
    first.map plainly = second.map plainly <-> first = second := by
  apply List.map_inj_right
  rintro ⟨name, content⟩ ⟨otherName, otherContent⟩ same
  cases same
  rfl

def nodeContent (node : Diagram.Node) : String × List (String × AttributeValue) :=
  (node.id, node.attributes.entries)

def edgeContent (edge : Diagram.Edge) : String × String × List (String × AttributeValue) :=
  (edge.source, edge.target, edge.attributes.entries)

/-- A graph that is to be written. -/
structure Draft where
  settings : Settings
  nodes : List Diagram.Node
  edges : List Diagram.Edge
deriving DecidableEq

/-- What a draft says. -/
def Draft.contents (draft : Draft) : Contents where
  graphName := draft.settings.graphName
  rankDirection := draft.settings.rankDirection
  graphAttributes := draft.settings.graphAttributes.entries.map plainly
  nodeDefaults := (defaults draft.settings.fontName draft.settings.nodeAttributes).map plainly
  edgeDefaults := (defaults draft.settings.fontName draft.settings.edgeAttributes).map plainly
  nodes := draft.nodes.map nodeContent
  edges := draft.edges.map edgeContent

/-- The text of a draft. -/
def Draft.text (draft : Draft) : String :=
  preamble draft.settings ++ String.join (draft.nodes.map nodeStatement) ++
    String.join (draft.edges.map edgeStatement) ++ closing

/-! ## The decoder -/

/-- The end of a line. -/
def lineEnd : List Char := [';', '\n']

/-- Scans what stands before the value of a setting. -/
def scanHead : Scanner String := fun input => do
  let input <- behind [' ', ' '] input
  let (name, input) <- scanName input
  let rest <- behind ['='] input
  return (name, rest)

/-- Scans the statement of the direction. -/
def scanDirection : Scanner RankDirection := fun input => do
  let (name, input) <- scanHead input
  if name = "rankdir" then
    RankDirection.options.findSome? fun (word, direction) => do
      let input <- behind word.toList input
      let rest <- behind lineEnd input
      return (direction, rest)
  else none

/-- Scans the statement of an attribute of the graph. -/
def scanSetting : Scanner (String × AttributeValue) := fun input => do
  let (name, input) <- scanHead input
  let (content, input) <- scanQuoted input
  let rest <- behind lineEnd input
  return ((name, .text content), rest)

/-- Scans the statement of defaults. -/
def scanDefaults (kind : String) : Scanner (List (String × AttributeValue)) := fun input => do
  let input <- behind ("  " ++ kind ++ " [").toList input
  let (entries, input) <- scanList scanAssignment input
  let rest <- behind lineEnd input
  return (entries, rest)

/-- Scans attributes, of which there may be none. -/
def scanAttributes : Scanner (List (String × AttributeValue)) := fun input =>
  match behind [' ', '['] input with
  | some input => scanList scanAssignment input
  | none => some ([], input)

def scanNode : Scanner (String × List (String × AttributeValue)) := fun input => do
  let input <- behind [' ', ' '] input
  let (id, input) <- scanQuoted input
  let (attributes, input) <- scanAttributes input
  let rest <- behind lineEnd input
  return ((id, attributes), rest)

/-- Scans an endpoint, with its port if a colon follows the identifier. -/
def scanEndpoint : Scanner String := fun input => do
  let (id, input) <- scanQuoted input
  match behind [':'] input with
  | some input =>
    let (port, rest) <- scanQuoted input
    return (id ++ ":" ++ port, rest)
  | none => return (id, input)

def scanEdge : Scanner (String × String × List (String × AttributeValue)) := fun input => do
  let input <- behind [' ', ' '] input
  let (source, input) <- scanEndpoint input
  let input <- behind " -> ".toList input
  let (target, input) <- scanEndpoint input
  let (attributes, input) <- scanAttributes input
  let rest <- behind lineEnd input
  return ((source, target, attributes), rest)

/-- Scans what may be left out. -/
def scanOptional {α : Type} (scanner : Scanner α) (input : List Char) : Option α × List Char :=
  match scanner input with
  | some (value, rest) => (some value, rest)
  | none => (none, input)

/-- Decodes the text of a graph. -/
def decode (text : String) : Option Contents := do
  let input <- behind "digraph ".toList text.toList
  let (graphName, input) <- scanQuoted input
  let input <- behind [' ', '\x7b', '\n'] input
  let (rankDirection, input) := scanOptional scanDirection input
  let (graphAttributes, input) := scanMany scanSetting input
  let (nodeDefaults, input) := scanOptional (scanDefaults "node") input
  let (edgeDefaults, input) := scanOptional (scanDefaults "edge") input
  let (nodes, input) := scanMany scanNode input
  let (edges, input) := scanMany scanEdge input
  if input = closing.toList then
    some
      { graphName, rankDirection, graphAttributes
        nodeDefaults := nodeDefaults.getD []
        edgeDefaults := edgeDefaults.getD []
        nodes, edges }
  else none

/-! ## Statements are scanned -/

theorem scanHead_assigned (name : String) (rest : List Char) :
    scanHead ([' ', ' '] ++ ((attributeName name).toList ++ '=' :: rest)) = some (name, rest) := by
  rw [scanHead, behind_append]
  simp [scanName_attributeName name (show isWordChar '=' = false by decide), behind]

theorem scans_direction (direction : RankDirection) :
    Scans scanDirection direction (directionStatement (some direction)).toList := by
  intro rest
  have written : (directionStatement (some direction)).toList ++ rest =
      [' ', ' '] ++ ((attributeName "rankdir").toList ++
        '=' :: (direction.display.toList ++ ';' :: '\n' :: rest)) := by
    have bare : attributeName "rankdir" = "rankdir" := by decide
    simp [directionStatement, bare]
  rw [written, scanDirection, scanHead_assigned]
  cases direction <;> rfl

/-- The statement of an attribute of the graph. -/
def settingStatement (entry : String × String) : String :=
  "  " ++ textAssignment entry ++ ";\n"

/-- The direction stands at one place of the preamble, and nothing around it depends on it. -/
theorem preamble_around (settings : Settings) :
    preamble settings =
      ("digraph " ++ quote settings.graphName ++ " \x7b\n") ++
        directionStatement settings.rankDirection ++
        (String.join (settings.graphAttributes.entries.map settingStatement) ++
          defaultsStatement "node" (defaults settings.fontName settings.nodeAttributes) ++
          defaultsStatement "edge" (defaults settings.fontName settings.edgeAttributes)) := by
  unfold preamble
  simp only [String.append_assoc]
  rfl

theorem toList_settingStatement (entry : String × String) (rest : List Char) :
    (settingStatement entry).toList ++ rest =
      [' ', ' '] ++ ((attributeName entry.1).toList ++
        '=' :: ((quote entry.2).toList ++ ';' :: '\n' :: rest)) := by
  simp [settingStatement, textAssignment, assignment]

theorem scans_setting (entry : String × String) :
    Scans scanSetting (plainly entry) (settingStatement entry).toList := by
  intro rest
  rw [toList_settingStatement, scanSetting, scanHead_assigned]
  simp [scans_quote entry.2 (';' :: '\n' :: rest), behind, lineEnd, plainly]

theorem scans_defaults (kind : String) {entries : List (String × String)}
    (nonempty : entries ≠ []) :
    Scans (scanDefaults kind) (entries.map plainly) (defaultsStatement kind entries).toList := by
  intro rest
  have listed : Scans (scanList scanAssignment) (entries.map plainly)
      (String.intercalate ", " (entries.map textAssignment) ++ "]").toList :=
    scans_list (fun entry _ => scans_assignment entry.1 trivial) nonempty
  have statement : defaultsStatement kind entries =
      "  " ++ kind ++ " [" ++ String.intercalate ", " (entries.map textAssignment) ++ "];\n" := by
    cases entries with
    | nil => exact absurd rfl nonempty
    | cons entry later => rfl
  have written : (defaultsStatement kind entries).toList ++ rest =
      ("  " ++ kind ++ " [").toList ++
        ((String.intercalate ", " (entries.map textAssignment) ++ "]").toList ++
          ';' :: '\n' :: rest) := by
    rw [statement]
    simp
  rw [written, scanDefaults, behind_append]
  simp only [Option.bind_eq_bind, Option.bind_some, listed (';' :: '\n' :: rest)]
  rfl

/-- Attributes that can be read from their text. -/
def LegibleAttributes (attributes : Diagram.Attributes) : Prop :=
  forall entry, entry ∈ attributes.entries -> Legible entry.2

theorem scanAttributes_attributeList {attributes : Diagram.Attributes}
    (legible : LegibleAttributes attributes) (rest : List Char) :
    scanAttributes ((attributeList attributes).toList ++ ';' :: rest) =
      some (attributes.entries, ';' :: rest) := by
  unfold LegibleAttributes at legible
  unfold attributeList
  generalize attributes.entries = entries at legible ⊢
  cases entries with
  | nil => rfl
  | cons first others =>
      let write (entry : String × AttributeValue) := assignment entry.1 entry.2
      have listed : Scans (scanList scanAssignment) ((first :: others).map id)
          (String.intercalate ", " ((first :: others).map write) ++ "]").toList :=
        scans_list (fun entry member => scans_assignment entry.1 (legible entry member))
          (List.cons_ne_nil _ _)
      rw [List.map_id] at listed
      have written : (" [" ++ String.intercalate ", " ((first :: others).map write) ++
          "]").toList ++ ';' :: rest = [' ', '['] ++
            ((String.intercalate ", " ((first :: others).map write) ++ "]").toList ++
              ';' :: rest) := by
        simp
      refine (congrArg scanAttributes written).trans ?_
      rw [scanAttributes, behind_append]
      exact listed (';' :: rest)

theorem scans_node {node : Diagram.Node} (legible : LegibleAttributes node.attributes) :
    Scans scanNode (nodeContent node) (nodeStatement node).toList := by
  intro rest
  have written : (nodeStatement node).toList ++ rest =
      [' ', ' '] ++ ((quote node.id).toList ++
        ((attributeList node.attributes).toList ++ ';' :: '\n' :: rest)) := by
    simp [nodeStatement]
  rw [written, scanNode, behind_append]
  simp [scans_quote node.id _, scanAttributes_attributeList legible, behind, lineEnd, nodeContent]

/-- An endpoint is scanned if no colon follows. -/
theorem scanEndpoint_endpoint (target : String) {mark : Char} (ends : mark ≠ ':')
    (rest : List Char) :
    scanEndpoint ((endpoint target).toList ++ mark :: rest) = some (target, mark :: rest) := by
  have noColon : behind [':'] (mark :: rest) = none := by simp [behind, ends]
  by_cases colon : ':' ∈ target.toList
  · rcases List.eq_append_cons_of_mem colon with ⟨id, port, split, plain⟩
    have whole : String.ofList id ++ ":" ++ String.ofList port = target := by
      apply String.toList_injective
      rw [toList_append_port, String.toList_ofList, String.toList_ofList, split]
    have written : (endpoint target).toList ++ mark :: rest = (quote (String.ofList id)).toList ++
        ':' :: ((quote (String.ofList port)).toList ++ mark :: rest) := by
      unfold endpoint
      rw [split, Diagram.splitPort_append_port plain]
      simp
    rw [written, scanEndpoint, scans_quote]
    simp [behind, scans_quote (String.ofList port) (mark :: rest), whole]
  · unfold endpoint
    rw [Diagram.splitPort_of_colon_not_mem colon]
    dsimp only
    rw [String.ofList_toList, scanEndpoint, scans_quote]
    simp [noColon]

/-- The rest of a statement starts with a blank or a semicolon. -/
theorem attributeList_cases (attributes : Diagram.Attributes) (rest : List Char) :
    exists mark later, (attributeList attributes).toList ++ ';' :: rest = mark :: later ∧
      (mark = ' ' ∨ mark = ';') := by
  unfold attributeList
  split
  · exact ⟨';', rest, rfl, Or.inr rfl⟩
  · exact ⟨' ', _, by simp; rfl, Or.inl rfl⟩

theorem scans_edge {edge : Diagram.Edge} (legible : LegibleAttributes edge.attributes) :
    Scans scanEdge (edgeContent edge) (edgeStatement edge).toList := by
  intro rest
  have written : (edgeStatement edge).toList ++ rest =
      [' ', ' '] ++ ((endpoint edge.source).toList ++ ' ' :: (['-', '>', ' '] ++
        ((endpoint edge.target).toList ++
          ((attributeList edge.attributes).toList ++ ';' :: '\n' :: rest)))) := by
    simp [edgeStatement]
  have attributes := scanAttributes_attributeList legible ('\n' :: rest)
  rcases attributeList_cases edge.attributes ('\n' :: rest) with ⟨mark, later, starts, marks⟩
  have ends : mark ≠ ':' := by rcases marks with rfl | rfl <;> decide
  have target := scanEndpoint_endpoint edge.target ends later
  rw [← starts] at target
  rw [written, scanEdge, behind_append]
  simp [scanEndpoint_endpoint edge.source (show ' ' ≠ ':' by decide), behind, target, attributes,
    lineEnd, edgeContent]

/-! ## Where a kind of statement ends -/

/-- A statement about a node or an edge: a quoted text, and no equality sign behind it. -/
def StartsWithSubject (input : List Char) : Prop :=
  exists text mark later, input = [' ', ' '] ++ ((quote text).toList ++ mark :: later) ∧ mark ≠ '='

theorem nodeStatement_subject (node : Diagram.Node) (rest : List Char) :
    StartsWithSubject ((nodeStatement node).toList ++ rest) := by
  rcases attributeList_cases node.attributes ('\n' :: rest) with ⟨mark, later, starts, marks⟩
  refine ⟨node.id, mark, later, ?_, by rcases marks with rfl | rfl <;> decide⟩
  rw [← starts]
  simp [nodeStatement]

theorem edgeStatement_subject (edge : Diagram.Edge) (rest : List Char) :
    exists text mark later,
      (edgeStatement edge).toList ++ rest =
        [' ', ' '] ++ ((quote text).toList ++ mark :: later) ∧
      (mark = ':' ∨ mark = ' ' ∧ exists further, later = '-' :: further) := by
  unfold edgeStatement
  generalize endpoint edge.target = target
  unfold endpoint
  split
  · exact ⟨_, ':', _, by simp; rfl, Or.inl rfl⟩
  · exact ⟨_, ' ', _, by simp; rfl, Or.inr ⟨rfl, _, rfl⟩⟩

theorem scanHead_subject {input : List Char} (subject : StartsWithSubject input) :
    scanHead input = none := by
  rcases subject with ⟨text, mark, later, rfl, different⟩
  rw [scanHead, behind_append]
  simp [scans_quoted_name text (mark :: later), behind, different]

theorem scanDefaults_subject {kind : String} (known : kind = "node" ∨ kind = "edge")
    {input : List Char} (subject : StartsWithSubject input) : scanDefaults kind input = none := by
  rcases subject with ⟨text, mark, later, rfl, _⟩
  rcases known with rfl | rfl <;> simp [scanDefaults, behind, quote]

theorem scanNode_edgeStatement (edge : Diagram.Edge) (rest : List Char) :
    scanNode ((edgeStatement edge).toList ++ rest) = none := by
  rcases edgeStatement_subject edge rest with ⟨text, mark, later, written, marks⟩
  rw [written, scanNode, behind_append]
  rcases marks with rfl | ⟨rfl, further, rfl⟩
  · simp [scans_quote text _, scanAttributes, behind, lineEnd]
  · simp [scans_quote text _, scanAttributes, behind, lineEnd]

/-- Defaults have no equality sign behind their kind. -/
theorem scanHead_defaultsStatement {kind : String} (known : kind = "node" ∨ kind = "edge")
    (entries : List (String × String)) {rest : List Char} (stops : scanHead rest = none) :
    scanHead ((defaultsStatement kind entries).toList ++ rest) = none := by
  cases entries with
  | nil => exact stops
  | cons entry others =>
      have bare : attributeName kind = kind := by rcases known with rfl | rfl <;> decide
      have written : (defaultsStatement kind (entry :: others)).toList ++ rest =
          [' ', ' '] ++ ((attributeName kind).toList ++ ' ' :: ("[" ++
            String.intercalate ", " ((entry :: others).map textAssignment) ++
              "];\n").toList ++ rest) := by
        rw [bare]
        simp [defaultsStatement]
      rw [written, scanHead, behind_append]
      simp [scanName_attributeName kind (show isWordChar ' ' = false by decide), behind]

theorem scanDirection_settingStatement (entry : String × String) (rest : List Char) :
    scanDirection ((settingStatement entry).toList ++ rest) = none := by
  rw [toList_settingStatement, scanDirection, scanHead_assigned]
  simp [RankDirection.options, RankDirection.display, behind, quote]

theorem scanDefaults_other (entries : List (String × String)) {rest : List Char}
    (stops : scanDefaults "node" rest = none) :
    scanDefaults "node" ((defaultsStatement "edge" entries).toList ++ rest) = none := by
  cases entries with
  | nil => exact stops
  | cons entry others => simp [scanDefaults, defaultsStatement, behind]

/-! ## The parts of a graph -/

section

variable {α : Type} {scanner : Scanner α}

theorem scanOptional_of_some {value : α} {input rest : List Char}
    (scans : scanner input = some (value, rest)) :
    scanOptional scanner input = (some value, rest) := by
  rw [scanOptional, scans]

theorem scanOptional_of_none {input : List Char} (stops : scanner input = none) :
    scanOptional scanner input = (none, input) := by
  rw [scanOptional, stops]

/-- A scanner that stops at each of several statements stops in front of all of them. -/
theorem stops_flatMap {β : Type u} {write : β -> List Char} {sources : List β}
    (each : forall source, source ∈ sources -> forall rest, scanner (write source ++ rest) = none)
    {rest : List Char} (stops : scanner rest = none) :
    scanner (sources.flatMap write ++ rest) = none := by
  cases sources with
  | nil => exact stops
  | cons source others =>
      rw [List.flatMap_cons, List.append_assoc]
      exact each source List.mem_cons_self _

end

theorem scanOptional_direction (direction : Option RankDirection) {rest : List Char}
    (stops : scanDirection rest = none) :
    scanOptional scanDirection ((directionStatement direction).toList ++ rest) =
      (direction, rest) := by
  cases direction with
  | none => exact scanOptional_of_none stops
  | some direction => exact scanOptional_of_some (scans_direction direction rest)

theorem scanOptional_defaults (kind : String) (entries : List (String × String))
    {rest : List Char} (stops : scanDefaults kind rest = none) :
    exists read,
      scanOptional (scanDefaults kind) ((defaultsStatement kind entries).toList ++ rest) =
        (read, rest) ∧ read.getD [] = entries.map plainly := by
  cases entries with
  | nil => exact ⟨none, scanOptional_of_none stops, rfl⟩
  | cons entry others =>
      have scans := scans_defaults kind (List.cons_ne_nil entry others) rest
      exact ⟨_, scanOptional_of_some scans, rfl⟩

/-- The edges and the end of a graph. -/
def edgePart (edges : List Diagram.Edge) : List Char :=
  edges.flatMap (fun edge => (edgeStatement edge).toList) ++ closing.toList

/-- The nodes of a graph and what follows. -/
def nodePart (nodes : List Diagram.Node) (edges : List Diagram.Edge) : List Char :=
  nodes.flatMap (fun node => (nodeStatement node).toList) ++ edgePart edges

/-- What follows the defaults is the end of the graph or starts with a subject. -/
theorem nodePart_cases (nodes : List Diagram.Node) (edges : List Diagram.Edge) :
    nodePart nodes edges = closing.toList ∨ StartsWithSubject (nodePart nodes edges) := by
  unfold nodePart edgePart
  cases nodes with
  | cons node others =>
      rw [List.flatMap_cons, List.append_assoc]
      exact Or.inr (nodeStatement_subject node _)
  | nil =>
      cases edges with
      | nil => exact Or.inl rfl
      | cons edge others =>
          rw [List.flatMap_nil, List.nil_append, List.flatMap_cons, List.append_assoc]
          rcases edgeStatement_subject edge (others.flatMap (fun edge =>
            (edgeStatement edge).toList) ++ closing.toList) with
            ⟨text, mark, later, written, marks⟩
          refine Or.inr ⟨text, mark, later, written, ?_⟩
          rcases marks with rfl | ⟨rfl, _⟩ <;> decide

theorem scanHead_nodePart (nodes : List Diagram.Node) (edges : List Diagram.Edge) :
    scanHead (nodePart nodes edges) = none := by
  rcases nodePart_cases nodes edges with ending | subject
  · rw [ending]
    rfl
  · exact scanHead_subject subject

theorem scanDefaults_nodePart {kind : String} (known : kind = "node" ∨ kind = "edge")
    (nodes : List Diagram.Node) (edges : List Diagram.Edge) :
    scanDefaults kind (nodePart nodes edges) = none := by
  rcases nodePart_cases nodes edges with ending | subject
  · rw [ending]
    rcases known with rfl | rfl <;> rfl
  · exact scanDefaults_subject known subject

section

variable {nodes : List Diagram.Node} {edges : List Diagram.Edge}

theorem scanMany_edgePart
    (legible : forall edge, edge ∈ edges -> LegibleAttributes edge.attributes) :
    scanMany scanEdge (edgePart edges) = (edges.map edgeContent, closing.toList) := by
  apply scanMany_flatMap
  · exact fun edge member => scans_edge (legible edge member)
  · simp [edgeStatement]
  · rfl

theorem scanMany_nodePart
    (legible : forall node, node ∈ nodes -> LegibleAttributes node.attributes) :
    scanMany scanNode (nodePart nodes edges) = (nodes.map nodeContent, edgePart edges) := by
  apply scanMany_flatMap
  · exact fun node member => scans_node (legible node member)
  · simp [nodeStatement]
  · exact stops_flatMap (fun edge _ => scanNode_edgeStatement edge) rfl

theorem scanMany_settings (entries : List (String × String)) {rest : List Char}
    (stops : scanHead rest = none) :
    scanMany scanSetting (entries.flatMap (fun entry => (settingStatement entry).toList) ++ rest) =
      (entries.map plainly, rest) := by
  apply scanMany_flatMap
  · exact fun entry _ => scans_setting entry
  · simp [settingStatement]
  · rw [scanSetting, stops]
    rfl

end

/-! ## The whole text -/

/-- All attributes of a draft can be read from their text. -/
structure Draft.LegibleThroughout (draft : Draft) : Prop where
  nodes : forall node, node ∈ draft.nodes -> LegibleAttributes node.attributes
  edges : forall edge, edge ∈ draft.edges -> LegibleAttributes edge.attributes

theorem Draft.toList_text (draft : Draft) :
    draft.text.toList =
      "digraph ".toList ++ ((quote draft.settings.graphName).toList ++ ([' ', '\x7b', '\n'] ++
        ((directionStatement draft.settings.rankDirection).toList ++
          (draft.settings.graphAttributes.entries.flatMap (fun entry =>
              (settingStatement entry).toList) ++
            ((defaultsStatement "node"
                (defaults draft.settings.fontName draft.settings.nodeAttributes)).toList ++
              ((defaultsStatement "edge"
                  (defaults draft.settings.fontName draft.settings.edgeAttributes)).toList ++
                nodePart draft.nodes draft.edges)))))) := by
  simp [text, preamble, nodePart, edgePart, settingStatement, String.toList_join,
    List.flatMap_map]

/-- The decoder gives back what a draft says. -/
theorem Draft.decode_text {draft : Draft} (legible : draft.LegibleThroughout) :
    decode draft.text = some draft.contents := by
  have whole := draft.toList_text
  rcases draft with ⟨settings, nodes, edges⟩
  dsimp only at whole
  have stopsHead := scanHead_nodePart nodes edges
  have stopsNode := scanDefaults_nodePart (Or.inl rfl) nodes edges
  have stopsEdge := scanDefaults_nodePart (Or.inr rfl) nodes edges
  rcases scanOptional_defaults "edge" (defaults settings.fontName settings.edgeAttributes)
    stopsEdge with ⟨edgeRead, edgeScanned, edgeSame⟩
  rcases scanOptional_defaults "node" (defaults settings.fontName settings.nodeAttributes)
    (scanDefaults_other (defaults settings.fontName settings.edgeAttributes) stopsNode) with
    ⟨nodeRead, nodeScanned, nodeSame⟩
  have stopsSettings := scanHead_defaultsStatement (Or.inl rfl)
    (defaults settings.fontName settings.nodeAttributes)
    (scanHead_defaultsStatement (Or.inr rfl) (defaults settings.fontName settings.edgeAttributes)
      stopsHead)
  have settingsScanned := scanMany_settings settings.graphAttributes.entries stopsSettings
  have stopsDirection : scanDirection (settings.graphAttributes.entries.flatMap
      (fun entry => (settingStatement entry).toList) ++ _) = none :=
    stops_flatMap (fun entry _ => scanDirection_settingStatement entry)
      (by rw [scanDirection, stopsSettings]; rfl)
  have directionScanned := scanOptional_direction settings.rankDirection stopsDirection
  rw [decode, whole, behind_append]
  simp only [Option.bind_eq_bind, Option.bind_some, scans_quote settings.graphName _,
    behind_append, directionScanned, settingsScanned, nodeScanned, edgeScanned,
    scanMany_nodePart legible.nodes, scanMany_edgePart legible.edges, if_true, nodeSame, edgeSame]
  rfl

end Dot
end InjectionPlan
