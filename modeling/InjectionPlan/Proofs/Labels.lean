import InjectionPlan.Proofs.Ports
import InjectionPlan.Proofs.Tokens

namespace InjectionPlan
namespace Diagram

/-!
# What a label says

The label of a component is markup: elements with attributes, and texts between them.  An element
starts at an angle bracket, and no text holds one, so the label is taken apart at its brackets and
each part is read for itself (`elements?`).  What is read are the elements from which the label was
written (`Component.elements?_label`), whatever the texts are.  So the label tells all of the
component but whether a provider is shareable (`Component.label_tells`).
-/

open Dot (Scanner Scans behind behind_append scanMany scanMany_flatMap)

/-! ## Texts in markup -/

/-- A text in which each occurrence of a character has been replaced. -/
def replaced (character : Char) (name : String) (text : List Char) : List Char :=
  text.flatMap fun other => if other = character then name.toList else [other]

/-- To write a text in markup is to replace one kind of characters after the other.  The names of
the others hold ampersands, so these come first. -/
theorem toList_markup (text : String) :
    (markup text).toList =
      replaced '"' "&quot;" (replaced '>' "&gt;" (replaced '<' "&lt;"
        (replaced '&' "&amp;" text.toList))) := by
  unfold markup replaced
  rw [String.toList_ofList, List.flatMap_assoc, List.flatMap_assoc, List.flatMap_assoc]
  refine List.flatMap_congr fun character _ => ?_
  unfold markupChar
  by_cases ampersand : character = '&'
  · subst ampersand
    rfl
  · by_cases opens : character = '<'
    · subst opens
      rfl
    · by_cases closes : character = '>'
      · subst closes
        rfl
      · by_cases quote : character = '"'
        · subst quote
          rfl
        · rw [if_neg ampersand, if_neg opens, if_neg closes, if_neg quote, if_neg ampersand,
            List.flatMap_singleton, if_neg opens, List.flatMap_singleton, if_neg closes,
            List.flatMap_singleton, if_neg quote]

/-- What the names behind an ampersand stand for. -/
def entities : List (String × Char) :=
  [("amp;", '&'), ("lt;", '<'), ("gt;", '>'), ("quot;", '"')]

/-- Reads one character of a text. -/
def scanCharacter : Scanner Char
  | [] => none
  | first :: input =>
    if first = '&' then
      entities.findSome? fun (name, character) =>
        (behind name.toList input).map fun rest => (character, rest)
    else some (first, input)

theorem scans_markupChar (character : Char) :
    Scans scanCharacter character (markupChar character) := by
  intro rest
  unfold markupChar
  by_cases ampersand : character = '&'
  · subst ampersand
    rfl
  · by_cases opens : character = '<'
    · subst opens
      rfl
    · by_cases closes : character = '>'
      · subst closes
        rfl
      · by_cases quote : character = '"'
        · subst quote
          rfl
        · simp [ampersand, opens, closes, quote, scanCharacter]

theorem markupChar_ne_nil (character : Char) : markupChar character ≠ [] := by
  unfold markupChar
  split_ifs <;> exact List.cons_ne_nil _ _

/-- A text is read up to its end. -/
theorem scanMany_markup (text : String) :
    scanMany scanCharacter (markup text).toList = (text.toList, []) := by
  have reads : scanMany scanCharacter (text.toList.flatMap markupChar ++ []) =
      (text.toList.map id, []) := by
    apply scanMany_flatMap
    · intro character _
      exact scans_markupChar character
    · exact markupChar_ne_nil
    · rfl
  rw [List.append_nil, List.map_id] at reads
  rw [markup, String.toList_ofList]
  exact reads

theorem opening_not_mem_markup (text : String) : '<' ∉ (markup text).toList := by
  intro member
  rw [markup, String.toList_ofList] at member
  rcases List.mem_flatMap.mp member with ⟨character, _, written⟩
  unfold markupChar at written
  split_ifs at written with ampersand opens closes quote
  · exact absurd written (by decide)
  · exact absurd written (by decide)
  · exact absurd written (by decide)
  · exact absurd written (by decide)
  · exact opens (List.mem_singleton.mp written).symm

/-! ## Elements -/

/-- The start or the end of an element, with the text behind it. -/
structure Element where
  /-- The name of the element, with a stroke before it at the end. -/
  tag : String
  attributes : List (String × String)
  text : String
deriving DecidableEq

namespace Element

/-- An element without attributes that is followed by another one. -/
def bare (tag : String) : Element :=
  ⟨tag, [], ""⟩

/-- The same element without the text. -/
def silent (element : Element) : Element :=
  { element with text := "" }

/-- The text of an element behind the bracket with which it starts. -/
def written (element : Element) : String :=
  element.tag ++
    String.join (element.attributes.map fun (name, value) =>
      Component.markupAttribute name value) ++
    ">" ++ markup element.text

end Element

/-- Whether a character belongs to the name of an element. -/
def isTagChar (character : Char) : Bool :=
  character ≠ ' ' && character ≠ '>'

/-- Reads an attribute with its value. -/
def scanMarkupAttribute : Scanner (String × String) := fun input => do
  let input <- behind [' '] input
  let name := input.takeWhile (· ≠ '=')
  let input <- behind ['=', '"'] (input.dropWhile (· ≠ '='))
  let value := input.takeWhile (· ≠ '"')
  let rest <- behind ['"'] (input.dropWhile (· ≠ '"'))
  return ((String.ofList name, String.ofList value), rest)

/-- Reads an element that starts here, with all that follows. -/
def readElement (input : List Char) : Option Element := do
  let tag := input.takeWhile isTagChar
  let (attributes, input) := scanMany scanMarkupAttribute (input.dropWhile isTagChar)
  let input <- behind ['>'] input
  let (text, rest) := scanMany scanCharacter input
  if rest.isEmpty then some ⟨String.ofList tag, attributes, String.ofList text⟩ else none

/-- The elements of markup, each of which starts at an angle bracket. -/
def elements? (content : String) : Option (List Element) :=
  match content.toList.splitOn '<' with
  | [] :: parts => parts.mapM readElement
  | _ => none

/-- How an attribute is written. -/
def attributeText (entry : String × String) : List Char :=
  (Component.markupAttribute entry.1 entry.2).toList

theorem Element.toList_written (element : Element) :
    element.written.toList =
      element.tag.toList ++
        (element.attributes.flatMap attributeText ++ '>' :: (markup element.text).toList) := by
  simp only [Element.written, String.toList_append, String.toList_join, List.flatMap_map,
    List.append_assoc]
  rfl

/-- A name and attributes that can be read. -/
structure Clean (tag : String) (attributes : List (String × String)) : Prop where
  tag : forall character, character ∈ tag.toList -> isTagChar character = true ∧ character ≠ '<'
  names : forall entry, entry ∈ attributes ->
    forall character, character ∈ entry.1.toList -> character ≠ '=' ∧ character ≠ '<'
  values : forall entry, entry ∈ attributes ->
    forall character, character ∈ entry.2.toList -> character ≠ '"' ∧ character ≠ '<'

theorem toList_markupAttribute (name value : String) (rest : List Char) :
    (Component.markupAttribute name value).toList ++ rest =
      ' ' :: (name.toList ++ '=' :: '"' :: (value.toList ++ '"' :: rest)) := by
  simp [Component.markupAttribute]

/-- What is read of a text before a character that does not belong to it. -/
theorem takeWhile_append_cons (belongs : Char -> Bool) (mark : Char) {text : List Char}
    (all : forall character, character ∈ text -> belongs character = true)
    (ends : belongs mark = false) (rest : List Char) :
    (text ++ mark :: rest).takeWhile belongs = text ∧
      (text ++ mark :: rest).dropWhile belongs = mark :: rest := by
  have other : ¬ belongs mark = true := ne_true_of_eq_false ends
  constructor
  · rw [List.takeWhile_append_of_pos all, List.takeWhile_cons_of_neg other, List.append_nil]
  · rw [List.dropWhile_append_of_pos all, List.dropWhile_cons_of_neg other]

theorem scans_markupAttribute {name value : String}
    (named : forall character, character ∈ name.toList -> character ≠ '=')
    (valued : forall character, character ∈ value.toList -> character ≠ '"') :
    Scans scanMarkupAttribute (name, value) (Component.markupAttribute name value).toList := by
  intro rest
  have ofName := takeWhile_append_cons (· ≠ '=') '='
    (fun character member => decide_eq_true (named character member)) (by decide)
    ('"' :: (value.toList ++ '"' :: rest))
  have ofValue := takeWhile_append_cons (· ≠ '"') '"'
    (fun character member => decide_eq_true (valued character member)) (by decide) rest
  rcases ofName with ⟨firstName, behindName⟩
  rcases ofValue with ⟨firstValue, behindValue⟩
  rw [toList_markupAttribute, scanMarkupAttribute]
  simp only [behind, if_pos, Option.bind_eq_bind, Option.bind_some, firstName, behindName,
    firstValue, behindValue, String.ofList_toList]
  rfl

/-- Whether an element is clean, found letter by letter. -/
def isClean (tag : String) (attributes : List (String × String)) : Bool :=
  tag.toList.all (fun character => isTagChar character && character != '<') &&
    attributes.all fun entry =>
      entry.1.toList.all (fun character => character != '=' && character != '<') &&
        entry.2.toList.all fun character => character != '"' && character != '<'

theorem isClean_iff (tag : String) (attributes : List (String × String)) :
    isClean tag attributes = true ↔ Clean tag attributes := by
  simp only [isClean, Bool.and_eq_true, List.all_eq_true, bne_iff_ne, ne_eq]
  constructor
  · rintro ⟨tag, entries⟩
    exact ⟨tag, fun entry member => (entries entry member).1,
      fun entry member => (entries entry member).2⟩
  · intro clean
    exact ⟨clean.tag, fun entry member => ⟨clean.names entry member, clean.values entry member⟩⟩

instance (tag : String) (attributes : List (String × String)) :
    Decidable (Clean tag attributes) :=
  decidable_of_iff (isClean tag attributes = true) (isClean_iff tag attributes)

/-- What follows the name of an element does not belong to it. -/
theorem ends_tag (attributes : List (String × String)) (text : List Char) :
    exists mark rest, isTagChar mark = false ∧
      attributes.flatMap attributeText ++ '>' :: text = mark :: rest := by
  cases attributes with
  | nil =>
      refine ⟨'>', text, rfl, ?_⟩
      rfl
  | cons entry others =>
      rw [List.flatMap_cons, List.append_assoc, attributeText, toList_markupAttribute]
      exact ⟨' ', _, rfl, rfl⟩

namespace Clean

variable {tag : String} {attributes : List (String × String)}

theorem scanMany_attributes (clean : Clean tag attributes) (rest : List Char) :
    scanMany scanMarkupAttribute (attributes.flatMap attributeText ++ '>' :: rest) =
      (attributes, '>' :: rest) := by
  have reads : scanMany scanMarkupAttribute (attributes.flatMap attributeText ++ '>' :: rest) =
      (attributes.map id, '>' :: rest) := by
    apply scanMany_flatMap
    · intro entry member
      apply scans_markupAttribute
      · intro character within
        exact (clean.names entry member character within).1
      · intro character within
        exact (clean.values entry member character within).1
    · intro entry
      simp [attributeText, Component.markupAttribute]
    · rfl
  rw [List.map_id] at reads
  exact reads

/-- An element is read as it was written. -/
theorem readElement_written (clean : Clean tag attributes) (text : String) :
    readElement (Element.mk tag attributes text).written.toList =
      some ⟨tag, attributes, text⟩ := by
  rcases ends_tag attributes (markup text).toList with ⟨mark, rest, ends, starts⟩
  rcases takeWhile_append_cons isTagChar mark
    (fun character member => (clean.tag character member).1) ends rest with ⟨first, later⟩
  rw [← starts] at first later
  rw [readElement, Element.toList_written]
  dsimp only
  rw [first, later, clean.scanMany_attributes]
  simp [behind, scanMany_markup]

theorem opening_not_mem_written (clean : Clean tag attributes) (text : String) :
    '<' ∉ (Element.mk tag attributes text).written.toList := by
  intro member
  rw [Element.toList_written] at member
  rcases List.mem_append.mp member with inTag | behindTag
  · exact (clean.tag '<' inTag).2 rfl
  · rcases List.mem_append.mp behindTag with inAttributes | behindAttributes
    · rcases List.mem_flatMap.mp inAttributes with ⟨entry, within, inEntry⟩
      have parts : '<' ∈ entry.1.toList ∨ '<' ∈ entry.2.toList := by
        simpa [attributeText, Component.markupAttribute] using inEntry
      rcases parts with inName | inValue
      · exact (clean.names entry within '<' inName).2 rfl
      · exact (clean.values entry within '<' inValue).2 rfl
    · rcases List.mem_cons.mp behindAttributes with closing | inText
      · exact absurd closing (by decide)
      · exact opening_not_mem_markup text inText

end Clean

/-! ## Markup of several elements -/

/-- The text of elements, each behind its bracket. -/
def markupOf (elements : List Element) : List Char :=
  elements.flatMap fun element => '<' :: element.written.toList

theorem markupOf_cons (element : Element) (rest : List Element) :
    markupOf (element :: rest) = '<' :: element.written.toList ++ markupOf rest :=
  List.flatMap_cons

theorem markupOf_append (first second : List Element) :
    markupOf (first ++ second) = markupOf first ++ markupOf second :=
  List.flatMap_append

theorem splitOn_markupOf {elements : List Element}
    (clean : forall element, element ∈ elements -> Clean element.tag element.attributes)
    {first : List Char} (plain : '<' ∉ first) :
    (first ++ markupOf elements).splitOn '<' =
      first :: elements.map fun element => element.written.toList := by
  have noMark {text : List Char} (plain : '<' ∉ text) :
      forall character, character ∈ text -> (character == '<') = false := by
    intro character member
    apply beq_eq_false_iff_ne.mpr
    rintro rfl
    exact plain member
  induction elements generalizing first with
  | nil =>
      rw [markupOf, List.flatMap_nil, List.append_nil]
      exact List.splitOnP_eq_singleton (noMark plain)
  | cons element rest ih =>
      have later := ih (fun other member => clean other (List.mem_cons_of_mem _ member))
        ((clean element List.mem_cons_self).opening_not_mem_written element.text)
      rw [markupOf_cons, List.cons_append, List.splitOn,
        List.splitOnP_append_cons_of_forall_mem (noMark plain) '<' rfl, List.map_cons]
      exact congrArg (List.cons first) later

/-- Markup is read as the elements from which it was written. -/
theorem elements?_eq {content : String} {elements : List Element}
    (clean : forall element, element ∈ elements -> Clean element.tag element.attributes)
    (written : content.toList = markupOf elements) : elements? content = some elements := by
  have parts := splitOn_markupOf clean (List.not_mem_nil : '<' ∉ [])
  rw [List.nil_append, ← written] at parts
  rw [elements?, parts]
  dsimp only
  clear parts written
  induction elements with
  | nil => rfl
  | cons element rest ih =>
      have first := (clean element List.mem_cons_self).readElement_written element.text
      have others := ih fun other member => clean other (List.mem_cons_of_mem _ member)
      rw [List.map_cons, List.mapM_cons, first, others]
      rfl

/-! ## The elements of a label -/

namespace Component

variable (component : Component)

/-- The start of the table. -/
def tableElement : Element :=
  { tag := "TABLE"
    attributes := [("BORDER", "0"), ("CELLBORDER", "1"), ("CELLSPACING", "0")] ++
      (if component.provided then [("STYLE", "rounded")] else []) ++
      (if component.shared then [] else [("COLOR", "#e41a1c")])
    text := "" }

def headerColours : List (String × String) :=
  if component.provider then [("BGCOLOR", "#cbd5e8")]
  else if component.shareable then [("BGCOLOR", "#b3e2cd")]
  else []

def headerElements : List Element :=
  [.bare "TR", ⟨"TD", ("PORT", headerPort) :: component.headerColours, ""⟩,
    ⟨"B", [], component.typeName⟩, .bare "/B", .bare "/TD", .bare "/TR"]

def parameterElements (parameter : String) : List Element :=
  [.bare "TR", ⟨"TD", [("ALIGN", "LEFT")], ""⟩, ⟨"I", [], parameter⟩, .bare "/I", .bare "/TD",
    .bare "/TR"]

def dependencyElements (port : Nat) (dependency : String) : List Element :=
  [.bare "TR", ⟨"TD", [("PORT", toString port), ("ALIGN", "LEFT")], dependency⟩, .bare "/TD",
    .bare "/TR"]

/-- The elements from which the label is written. -/
def elements : List Element :=
  component.tableElement :: (component.headerElements ++
    component.parameters.flatMap parameterElements ++
    (component.dependencies.zipIdx 1).flatMap (fun (dependency, port) =>
      dependencyElements port dependency) ++ [.bare "/TABLE"])

theorem toList_tableStart :
    component.tableStart.toList = '<' :: component.tableElement.written.toList := by
  cases provided : component.provided <;> cases shared : component.shared <;>
    simp [tableStart, tableElement, provided, shared, Element.toList_written, attributeText, markup]

theorem toList_headerRow : component.headerRow.toList = markupOf component.headerElements := by
  cases provider : component.provider <;> cases shareable : component.shareable <;>
    simp [headerRow, headerElements, headerColour, headerColours, provider, shareable, markupOf,
      Element.bare, Element.toList_written, attributeText, markup]

theorem toList_parameterRow (parameter : String) :
    (parameterRow parameter).toList = markupOf (parameterElements parameter) := by
  simp [parameterRow, parameterElements, markupOf, Element.bare, Element.toList_written,
    attributeText, markup]

theorem toList_dependencyRow (port : Nat) (dependency : String) :
    (dependencyRow port dependency).toList = markupOf (dependencyElements port dependency) := by
  simp [dependencyRow, dependencyElements, markupOf, Element.bare, Element.toList_written,
    attributeText, markup]

theorem toList_parameterRows (parameters : List String) :
    (String.join (parameters.map parameterRow)).toList =
      markupOf (parameters.flatMap parameterElements) := by
  rw [String.toList_join, List.flatMap_map, markupOf, List.flatMap_assoc]
  apply List.flatMap_congr
  intro parameter _
  exact toList_parameterRow parameter

theorem toList_dependencyRows (port : Nat) (dependencies : List String) :
    (String.join (dependencyRows port dependencies)).toList =
      markupOf ((dependencies.zipIdx port).flatMap fun (dependency, port) =>
        dependencyElements port dependency) := by
  induction dependencies generalizing port with
  | nil => rfl
  | cons dependency rest ih =>
      rw [dependencyRows, String.join_cons, String.toList_append, ih, List.zipIdx_cons,
        List.flatMap_cons, markupOf_append, toList_dependencyRow]

/-- A label is the text of its elements. -/
theorem toList_label : component.label.toList = markupOf component.elements := by
  have closing : "</TABLE>".toList = markupOf [.bare "/TABLE"] := by
    simp [markupOf, Element.bare, Element.toList_written, markup]
  rw [label, String.toList_append, String.toList_append, String.toList_append,
    String.toList_append, toList_tableStart, toList_headerRow, toList_parameterRows,
    toList_dependencyRows, closing, elements, markupOf_cons component.tableElement,
    markupOf_append, markupOf_append, markupOf_append]
  simp only [List.append_assoc]

theorem clean_tableElement :
    Clean component.tableElement.tag component.tableElement.attributes := by
  unfold tableElement
  cases component.provided <;> cases component.shared <;> decide

theorem clean_headerElements :
    forall element, element ∈ component.headerElements ->
      Clean element.tag element.attributes := by
  unfold headerElements headerColours
  cases component.provider <;> cases component.shareable <;>
    simp only [List.forall_mem_cons, Element.bare, headerPort] <;> decide

theorem clean_parameterElements (parameter : String) :
    forall element, element ∈ parameterElements parameter ->
      Clean element.tag element.attributes := by
  simp only [parameterElements, List.forall_mem_cons, Element.bare]
  decide

/-- The number of a port needs no escaping. -/
theorem clean_port (port : Nat) :
    Clean "TD" [("PORT", toString port), ("ALIGN", "LEFT")] := by
  have blank : Clean "TD" [("PORT", ""), ("ALIGN", "LEFT")] := by decide
  constructor
  · exact blank.tag
  · intro entry member
    rcases List.mem_cons.mp member with rfl | other
    · exact blank.names ("PORT", "") List.mem_cons_self
    · exact blank.names entry (List.mem_cons_of_mem _ other)
  · intro entry member
    rcases List.mem_cons.mp member with rfl | other
    · intro character inNumeral
      rw [Nat.toString_eq_repr, Nat.toList_repr] at inNumeral
      have digit := Nat.isDigit_of_mem_toDigits (by decide) (by decide) inNumeral
      constructor
      · exact fun quote => nomatch quote ▸ digit
      · exact fun opens => nomatch opens ▸ digit
    · exact blank.values entry (List.mem_cons_of_mem _ other)

theorem clean_dependencyElements (port : Nat) (dependency : String) :
    forall element, element ∈ dependencyElements port dependency ->
      Clean element.tag element.attributes := by
  simp only [dependencyElements, List.forall_mem_cons, Element.bare]
  exact ⟨by decide, clean_port port, by decide⟩

theorem clean_elements :
    forall element, element ∈ component.elements -> Clean element.tag element.attributes := by
  intro element member
  rcases List.mem_cons.mp member with rfl | behindTable
  · exact component.clean_tableElement
  · rcases List.mem_append.mp behindTable with inRows | last
    · rcases List.mem_append.mp inRows with inFirstRows | inDependencies
      · rcases List.mem_append.mp inFirstRows with inHeader | inParameters
        · exact component.clean_headerElements element inHeader
        · rcases List.mem_flatMap.mp inParameters with ⟨parameter, _, inRow⟩
          exact clean_parameterElements parameter element inRow
      · rcases List.mem_flatMap.mp inDependencies with ⟨⟨dependency, port⟩, _, inRow⟩
        exact clean_dependencyElements port dependency element inRow
    · rw [List.mem_singleton.mp last]
      decide

/-- From a label the elements are read from which it was written. -/
theorem elements?_label : elements? component.label = some component.elements :=
  elements?_eq component.clean_elements component.toList_label

end Component

/-! ## What elements say -/

/-- The texts behind the elements of a name. -/
def textsOf (tag : String) (elements : List Element) : List String :=
  elements.flatMap fun element => if element.tag = tag then [element.text] else []

/-- The values of an attribute. -/
def valuesOf (name : String) (elements : List Element) : List String :=
  elements.flatMap fun element =>
    element.attributes.flatMap fun entry => if entry.1 = name then [entry.2] else []

/-- The texts of the cells to which a port and an alignment are given. -/
def portCells (elements : List Element) : List String :=
  elements.flatMap fun element =>
    if element.tag = "TD" ∧ element.attributes.map Prod.fst = ["PORT", "ALIGN"] then
      [element.text]
    else []

namespace Component

/-- The component with the same rows, but without texts. -/
def blank (component : Component) : Component :=
  { component with
    typeName := ""
    parameters := component.parameters.map fun _ => ""
    dependencies := component.dependencies.map fun _ => "" }

/-- The elements say all of a component but whether a provider is shareable. -/
structure Reads (component : Component) (elements : List Element) : Prop where
  typeName : textsOf "B" elements = [component.typeName]
  parameters : textsOf "I" elements = component.parameters
  dependencies : portCells elements = component.dependencies
  /-- The header has its port, and the dependencies are numbered. -/
  ports : valuesOf "PORT" elements =
    headerPort :: (List.range' 1 component.dependencies.length).map toString
  provided : valuesOf "STYLE" elements = if component.provided then ["rounded"] else []
  unshared : valuesOf "COLOR" elements = if component.shared then [] else ["#e41a1c"]
  colour : valuesOf "BGCOLOR" elements =
    if component.provider then ["#cbd5e8"] else if component.shareable then ["#b3e2cd"] else []
  /-- No text makes an element. -/
  frame : elements? component.blank.label = some (elements.map Element.silent)

/-- Two components agree in all that is shown of them. -/
structure LooksLike (first second : Component) : Prop where
  typeName : first.typeName = second.typeName
  parameters : first.parameters = second.parameters
  dependencies : first.dependencies = second.dependencies
  provided : first.provided = second.provided
  shared : first.shared = second.shared
  provider : first.provider = second.provider
  shareable : first.provider = false -> first.shareable = second.shareable

variable (component : Component)

/-- What is read from the elements is read from the parts of the table. -/
theorem flatMap_elements {α : Type u} (read : Element -> List α) :
    component.elements.flatMap read =
      read component.tableElement ++ component.headerElements.flatMap read ++
        component.parameters.flatMap (fun parameter =>
          (parameterElements parameter).flatMap read) ++
        (component.dependencies.zipIdx 1).flatMap (fun (dependency, port) =>
          (dependencyElements port dependency).flatMap read) ++
        read (.bare "/TABLE") := by
  simp [elements, List.flatMap_append, List.flatMap_assoc]

private theorem flatMap_nothing {α : Type u} {β : Type v} (entries : List α) :
    entries.flatMap (fun _ => ([] : List β)) = [] :=
  List.flatMap_eq_nil_iff.mpr fun _ _ => rfl

theorem textsOf_header : textsOf "B" component.elements = [component.typeName] := by
  rw [textsOf, flatMap_elements]
  simp [tableElement, headerElements, parameterElements, dependencyElements, Element.bare]

theorem textsOf_parameters : textsOf "I" component.elements = component.parameters := by
  rw [textsOf, flatMap_elements]
  simp [tableElement, headerElements, parameterElements, dependencyElements, Element.bare]

theorem portCells_dependencies : portCells component.elements = component.dependencies := by
  have noHeader : component.headerElements.flatMap (fun element =>
      if element.tag = "TD" ∧ element.attributes.map Prod.fst = ["PORT", "ALIGN"] then
        [element.text] else []) = [] := by
    unfold headerElements headerColours
    split_ifs <;> rfl
  have cells : (component.dependencies.zipIdx 1).flatMap (fun entry => [entry.1]) =
      component.dependencies := by
    rw [← List.map_eq_flatMap, List.zipIdx_map_fst]
  rw [portCells, flatMap_elements, noHeader]
  simpa [tableElement, parameterElements, dependencyElements, Element.bare, flatMap_nothing]
    using cells

/-- The attributes of a name are those of the table and the header, and those in the cells of the
rows. -/
theorem valuesOf_elements (name : String) :
    valuesOf name component.elements =
      valuesOf name [component.tableElement] ++ valuesOf name component.headerElements ++
        component.parameters.flatMap (fun _ => valuesOf name [⟨"TD", [("ALIGN", "LEFT")], ""⟩]) ++
        (component.dependencies.zipIdx 1).flatMap (fun entry =>
          valuesOf name [⟨"TD", [("PORT", toString entry.2), ("ALIGN", "LEFT")], ""⟩]) := by
  rw [valuesOf, flatMap_elements]
  simp [valuesOf, parameterElements, dependencyElements, Element.bare]

theorem valuesOf_port :
    valuesOf "PORT" component.elements =
      headerPort :: (List.range' 1 component.dependencies.length).map toString := by
  have table : valuesOf "PORT" [component.tableElement] = [] := by
    unfold tableElement
    split_ifs <;> rfl
  have header : valuesOf "PORT" component.headerElements = [headerPort] := by
    unfold headerElements headerColours
    split_ifs <;> rfl
  have numbers : (component.dependencies.zipIdx 1).flatMap (fun entry => [toString entry.2]) =
      (List.range' 1 component.dependencies.length).map toString := by
    rw [← List.map_eq_flatMap, ← List.zipIdx_map_snd 1 component.dependencies, List.map_map]
    rfl
  rw [valuesOf_elements, table, header]
  simpa [valuesOf, flatMap_nothing] using numbers

/-- Rows have no attributes but ports and alignments. -/
theorem valuesOf_eq_of_ne {name : String} (notPort : "PORT" ≠ name) (notAlign : "ALIGN" ≠ name) :
    valuesOf name component.elements =
      valuesOf name [component.tableElement] ++ valuesOf name component.headerElements := by
  rw [valuesOf_elements]
  simp [valuesOf, notPort, notAlign, flatMap_nothing]

theorem valuesOf_style :
    valuesOf "STYLE" component.elements = if component.provided then ["rounded"] else [] := by
  rw [valuesOf_eq_of_ne component (by decide) (by decide)]
  unfold tableElement headerElements headerColours
  split_ifs <;> rfl

theorem valuesOf_colour :
    valuesOf "COLOR" component.elements = if component.shared then [] else ["#e41a1c"] := by
  rw [valuesOf_eq_of_ne component (by decide) (by decide)]
  unfold tableElement headerElements headerColours
  split_ifs <;> rfl

theorem valuesOf_headerColour :
    valuesOf "BGCOLOR" component.elements =
      if component.provider then ["#cbd5e8"]
      else if component.shareable then ["#b3e2cd"]
      else [] := by
  rw [valuesOf_eq_of_ne component (by decide) (by decide)]
  unfold tableElement headerElements headerColours
  split_ifs <;> rfl

theorem elements_blank : component.blank.elements = component.elements.map Element.silent := by
  have header : component.blank.headerElements =
      component.headerElements.map Element.silent := rfl
  have parameters : (component.parameters.map fun _ => "").flatMap parameterElements =
      (component.parameters.flatMap parameterElements).map Element.silent := by
    rw [List.flatMap_map, List.map_flatMap]
    rfl
  have dependencies (port : Nat) (rows : List String) :
      ((rows.map fun _ => "").zipIdx port).flatMap (fun (dependency, port) =>
          dependencyElements port dependency) =
        ((rows.zipIdx port).flatMap fun (dependency, port) =>
          dependencyElements port dependency).map Element.silent := by
    rw [List.zipIdx_map, List.flatMap_map, List.map_flatMap]
    rfl
  rw [elements, elements, List.map_cons, List.map_append, List.map_append, List.map_append,
    header]
  dsimp only [blank]
  rw [parameters, dependencies]
  rfl

/-- What is read from the elements of a label. -/
theorem reads_elements : component.Reads component.elements where
  typeName := component.textsOf_header
  parameters := component.textsOf_parameters
  dependencies := component.portCells_dependencies
  ports := component.valuesOf_port
  provided := component.valuesOf_style
  unshared := component.valuesOf_colour
  colour := component.valuesOf_headerColour
  frame := by
    rw [elements?_label, elements_blank]

theorem provided_of_styles {one other : Bool}
    (same : (if one then ["rounded"] else []) = if other then ["rounded"] else []) :
    one = other := by
  cases one <;> cases other <;> simp at same ⊢

theorem shared_of_borders {one other : Bool}
    (same : (if one then [] else ["#e41a1c"]) = if other then [] else ["#e41a1c"]) :
    one = other := by
  cases one <;> cases other <;> simp at same ⊢

/-- The colour of a header tells whether the component is a provider, and if it is not, whether it
is shareable. -/
theorem flags_of_colours {provider shareable otherProvider otherShareable : Bool}
    (same : (if provider then ["#cbd5e8"] else if shareable then ["#b3e2cd"] else []) =
      if otherProvider then ["#cbd5e8"] else if otherShareable then ["#b3e2cd"] else []) :
    provider = otherProvider ∧ (provider = false -> shareable = otherShareable) := by
  cases provider <;> cases otherProvider <;> cases shareable <;> cases otherShareable <;>
    simp at same ⊢

/-- Two components of which the same elements are read look alike. -/
theorem Reads.looksLike {first second : Component} {elements : List Element}
    (ofFirst : first.Reads elements) (ofSecond : second.Reads elements) :
    first.LooksLike second := by
  have colours := ofFirst.colour.symm.trans ofSecond.colour
  have styles := ofFirst.provided.symm.trans ofSecond.provided
  have borders := ofFirst.unshared.symm.trans ofSecond.unshared
  constructor
  · exact List.singleton_inj.mp (ofFirst.typeName.symm.trans ofSecond.typeName)
  · exact ofFirst.parameters.symm.trans ofSecond.parameters
  · exact ofFirst.dependencies.symm.trans ofSecond.dependencies
  · exact provided_of_styles styles
  · exact shared_of_borders borders
  · exact (flags_of_colours colours).1
  · exact (flags_of_colours colours).2

/-- What is not shown of a component does not change its label. -/
theorem LooksLike.label_eq {first second : Component} (alike : first.LooksLike second) :
    first.label = second.label := by
  have colour : first.headerColour = second.headerColour := by
    unfold headerColour
    rw [← alike.provider]
    cases provider : first.provider with
    | true => rfl
    | false => rw [alike.shareable provider]
  unfold label tableStart headerRow
  rw [colour, alike.typeName, alike.parameters, alike.dependencies, alike.provided, alike.shared]

/-- A label tells the component.  Two nodes have the same label if and only if the components they
show look alike, and the label is markup of which the component is read: its texts, its ports and
what else is shown of it.  What elements there are does not depend on the texts. -/
theorem label_tells (first second : Component) (id other : String) :
    ((first.toNode id).label? = (second.toNode other).label? <-> first.LooksLike second) ∧
      exists content elements,
        (first.toNode id).label? = some (.html content) ∧
          elements? content = some elements ∧ first.Reads elements := by
  constructor
  · constructor
    · intro same
      rw [label?_toNode, label?_toNode] at same
      have labels : first.label = second.label :=
        AttributeValue.html.inj (Option.some.inj same)
      have parts := (elements?_label first).symm.trans
        ((congrArg elements? labels).trans (elements?_label second))
      have read := second.reads_elements
      rw [← Option.some_inj.mp parts] at read
      exact first.reads_elements.looksLike read
    · intro alike
      rw [label?_toNode, label?_toNode, alike.label_eq]
  · exact ⟨first.label, first.elements, label?_toNode first id, elements?_label first,
      first.reads_elements⟩

end Component

end Diagram
end InjectionPlan
