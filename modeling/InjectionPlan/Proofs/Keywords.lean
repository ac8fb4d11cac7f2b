import Mathlib
import InjectionPlan.Proofs.Writing

namespace InjectionPlan
namespace Dot

/-!
# Names of attributes and keywords

DOT has six keywords, which are recognized whatever their case, and a bare word that is a keyword is
not an identifier.  The name of an attribute is written bare if it is a word of ASCII characters
that does not start with a digit, and quoted otherwise.  So every name in a graph is read back from
its place, except that a name which is a keyword is not read as an identifier at all
(`names_written`).

For this the text of a graph is taken apart into pieces, of which each is an attribute or has none
in it.
-/

open Diagram (AttributeValue Descriptor)

/-! ## Identifiers of DOT -/

def keywords : List String :=
  ["node", "edge", "graph", "digraph", "subgraph", "strict"]

/-- Whether a word is a keyword; the case of its letters does not matter. -/
def isKeyword (word : List Char) : Bool :=
  decide (String.ofList (word.map Char.toLower) ∈ keywords)

/-- The characters of bare identifiers: those of words, and all beyond ASCII. -/
def isIdentifierChar (character : Char) : Bool :=
  isWordChar character || decide (128 ≤ character.toNat)

/-- Reads an identifier: a text between quotes, or else a word that neither starts with a digit nor
is a keyword.  Numbers and markup are identifiers as well, but they start in another way. -/
def scanIdentifier : Scanner String
  | '"' :: input => scanQuoted ('"' :: input)
  | input =>
    match input.takeWhile isIdentifierChar with
    | [] => none
    | first :: word =>
      if first.isDigit || isKeyword (first :: word) then none
      else some (String.ofList (first :: word), input.dropWhile isIdentifierChar)

/-- The shape of a plain name: a letter or underscore, and then letters, digits and underscores. -/
def IsPlain (name : List Char) : Prop :=
  exists first rest, name = first :: rest ∧ (first.isAlpha = true ∨ first = '_') ∧
    forall character, character ∈ rest -> character.isAlphanum = true ∨ character = '_'

theorem isDigit_of_isAlpha {character : Char} (letter : character.isAlpha = true) :
    character.isDigit = false := by
  grind [Char.isAlpha, Char.isUpper, Char.isLower, Char.isDigit]

theorem isWordChar_iff (character : Char) :
    isWordChar character = true <-> character.isAlphanum = true ∨ character = '_' := by
  simp [isWordChar]

/-- The names written bare are the plain ones. -/
theorem isBare_iff (name : List Char) : isBare name = true <-> IsPlain name := by
  unfold isBare IsPlain
  cases name with
  | nil => simp
  | cons first rest =>
      have starts : first.isDigit = false ∧ isWordChar first = true <->
          first.isAlpha = true ∨ first = '_' := by
        rw [isWordChar_iff, Char.isAlphanum, Bool.or_eq_true]
        constructor
        · rintro ⟨noDigit, (letter | digit) | underscore⟩
          · exact Or.inl letter
          · cases noDigit.symm.trans digit
          · exact Or.inr underscore
        · rintro (letter | rfl)
          · exact ⟨isDigit_of_isAlpha letter, Or.inl (Or.inl letter)⟩
          · exact ⟨by decide, Or.inr rfl⟩
      simp only [List.all_cons, Bool.and_eq_true, Bool.not_eq_true', List.all_eq_true,
        isWordChar_iff, ← and_assoc]
      rw [← isWordChar_iff, starts]
      constructor
      · rintro ⟨head, tail⟩
        exact ⟨first, rest, ⟨rfl, head⟩, tail⟩
      · rintro ⟨_, _, ⟨same, head⟩, tail⟩
        cases same
        exact ⟨head, tail⟩

/-- Keywords are plain. -/
theorem isBare_of_isKeyword {word : List Char} (keyword : isKeyword word = true) :
    isBare word = true := by
  have lower : String.ofList (word.map Char.toLower) ∈ keywords := of_decide_eq_true keyword
  have letters : keywords.all (fun text => text.toList.all Char.isAlpha) = true := rfl
  have visible : "" ∉ keywords := by decide
  have all : forall character, character ∈ word -> character.isAlpha = true := by
    intro character member
    have lowerLetters := List.all_eq_true.mp letters _ lower
    rw [String.toList_ofList, List.all_eq_true] at lowerLetters
    rw [← Char.isAlpha_toLower_eq_isAlpha]
    exact lowerLetters _ (List.mem_map_of_mem member)
  rw [isBare_iff]
  cases word with
  | nil => exact absurd lower visible
  | cons first rest =>
      refine ⟨first, rest, rfl, Or.inl (all first List.mem_cons_self), fun character member => ?_⟩
      rw [Char.isAlphanum, all character (List.mem_cons_of_mem _ member)]
      exact Or.inl rfl

/-- A name is read from where it is written, unless it is a keyword. -/
theorem scanIdentifier_attributeName (name : String) (rest : List Char) :
    scanIdentifier ((attributeName name).toList ++ '=' :: rest) =
      if isKeyword name.toList then none else some (name, '=' :: rest) := by
  unfold attributeName
  cases bare : isBare name.toList with
  | false =>
      have noKeyword : isKeyword name.toList = false :=
        Bool.eq_false_iff.mpr fun keyword => by cases bare.symm.trans (isBare_of_isKeyword keyword)
      have scanned := scans_quote name ('=' :: rest)
      have starts : (quote name).toList ++ '=' :: rest =
          '"' :: (escape name.toList ++ '"' :: '=' :: rest) := by
        simp [quote]
      rw [if_neg Bool.false_ne_true, noKeyword, if_neg Bool.false_ne_true]
      rw [starts] at scanned ⊢
      exact scanned
  | true =>
      have word := isWordChar_of_isBare bare
      have identifier : forall character, character ∈ name.toList ->
          isIdentifierChar character = true := fun character member => by
        rw [isIdentifierChar, word character member, Bool.true_or]
      have taken : (name.toList ++ '=' :: rest).takeWhile isIdentifierChar = name.toList := by
        rw [List.takeWhile_append_of_pos identifier, List.takeWhile_cons_of_neg (by decide),
          List.append_nil]
      have dropped : (name.toList ++ '=' :: rest).dropWhile isIdentifierChar = '=' :: rest := by
        rw [List.dropWhile_append_of_pos identifier, List.dropWhile_cons_of_neg (by decide)]
      rcases (isBare_iff _).mp bare with ⟨first, others, split, starts, _⟩
      have noQuote : first ≠ '"' := by
        rintro rfl
        revert starts
        decide
      have noDigit : first.isDigit = false := by
        rcases starts with letter | rfl
        · exact isDigit_of_isAlpha letter
        · rfl
      rw [if_pos rfl]
      unfold scanIdentifier
      split
      · next input quoted =>
        rw [split] at quoted
        cases quoted
        exact absurd rfl noQuote
      · rw [taken, dropped, split]
        dsimp only
        rw [noDigit, Bool.false_or, ← split, String.ofList_toList]

/-! ## Graphs in pieces -/

/-- A piece of a graph in DOT: an attribute with its value, or what stands between attributes. -/
inductive Piece
  | assigned (name : String) (value : AttributeValue)
  | other (text : String)

/-- The attributes of a descriptor. -/
def descriptorEntries : Descriptor -> List (String × AttributeValue)
  | .node node => node.attributes.entries
  | .edge edge => edge.attributes.entries

/-- All attributes that are written in a graph: those of the graph itself, those that nodes and
edges have by default, and those of each descriptor. -/
def writtenEntries (settings : Settings) (descriptors : List Descriptor) :
    List (String × AttributeValue) :=
  settings.graphAttributes.entries.map plainly ++
    (defaults settings.fontName settings.nodeAttributes).map plainly ++
    (defaults settings.fontName settings.edgeAttributes).map plainly ++
    descriptors.flatMap descriptorEntries

namespace Piece

def text : Piece -> String
  | assigned name value => attributeName name ++ "=" ++ valueText value
  | other text => text

def entry? : Piece -> Option (String × AttributeValue)
  | assigned name value => some (name, value)
  | other _ => none

/-- The text of several pieces. -/
def textOf (pieces : List Piece) : String :=
  String.join (pieces.map text)

/-- The attributes in several pieces. -/
def entriesOf (pieces : List Piece) : List (String × AttributeValue) :=
  pieces.filterMap entry?

/-- Attributes with commas between them. -/
def listed : List (String × AttributeValue) -> List Piece
  | [] => []
  | (name, value) :: rest =>
    .assigned name value :: rest.flatMap fun (name, value) => [.other ", ", .assigned name value]

/-- The attributes of a statement, with a bracket before them and another behind. -/
def bracketed (opening closing : String) (entries : List (String × AttributeValue)) : List Piece :=
  if entries = [] then [] else .other opening :: (listed entries ++ [.other closing])

def ofSetting (entry : String × String) : List Piece :=
  [.other "  ", .assigned entry.1 (.text entry.2), .other ";\n"]

def ofDescriptor : Descriptor -> List Piece
  | .node node =>
    .other ("  " ++ quote node.id) :: (bracketed " [" "]" node.attributes.entries ++
      [.other ";\n"])
  | .edge edge =>
    .other ("  " ++ endpoint edge.source ++ " -> " ++ endpoint edge.target) ::
      (bracketed " [" "]" edge.attributes.entries ++ [.other ";\n"])

/-- The pieces of a graph with statements for descriptors. -/
def ofGraph (settings : Settings) (descriptors : List Descriptor) : List Piece :=
  .other ("digraph " ++ quote settings.graphName ++ " \x7b\n" ++
      directionStatement settings.rankDirection) ::
    (settings.graphAttributes.entries.flatMap ofSetting ++
      bracketed "  node [" "];\n"
        ((defaults settings.fontName settings.nodeAttributes).map plainly) ++
      bracketed "  edge [" "];\n"
        ((defaults settings.fontName settings.edgeAttributes).map plainly) ++
      descriptors.flatMap ofDescriptor ++ [.other closing])

theorem toList_textOf (pieces : List Piece) :
    (textOf pieces).toList = pieces.flatMap fun piece => piece.text.toList := by
  rw [textOf, String.toList_join, List.flatMap_map]

@[simp] theorem textOf_cons (piece : Piece) (rest : List Piece) :
    textOf (piece :: rest) = piece.text ++ textOf rest := by
  apply String.toList_injective
  rw [String.toList_append, toList_textOf, toList_textOf, List.flatMap_cons]

@[simp] theorem textOf_append (first second : List Piece) :
    textOf (first ++ second) = textOf first ++ textOf second := by
  apply String.toList_injective
  rw [String.toList_append, toList_textOf, toList_textOf, toList_textOf, List.flatMap_append]

@[simp] theorem textOf_nil : textOf [] = "" := rfl

theorem text_assigned (name : String) (value : AttributeValue) :
    (assigned name value).text = assignment name value :=
  (assignment_eq name value).symm

theorem textOf_listed (entries : List (String × AttributeValue)) :
    textOf (listed entries) =
      String.intercalate ", " (entries.map fun entry => assignment entry.1 entry.2) := by
  cases entries with
  | nil => rfl
  | cons first rest =>
      apply String.toList_injective
      rw [List.map_cons, toList_intercalate_cons, toList_textOf, listed, List.flatMap_cons,
        text_assigned, List.flatMap_assoc, List.flatMap_map]
      simp [assignment_eq, text]

theorem textOf_bracketed (opening closing : String) (entries : List (String × AttributeValue)) :
    textOf (bracketed opening closing entries) =
      match entries.map fun entry => assignment entry.1 entry.2 with
      | [] => ""
      | written => opening ++ String.intercalate ", " written ++ closing := by
  cases entries with
  | nil => rfl
  | cons first rest =>
      rw [bracketed, if_neg (List.cons_ne_nil _ _), textOf_cons, textOf_append, textOf_listed]
      simp [text, String.append_assoc]

theorem textOf_attributes (attributes : Diagram.Attributes) :
    textOf (bracketed " [" "]" attributes.entries) = attributeList attributes :=
  textOf_bracketed _ _ _

theorem textOf_defaults (kind : String) (entries : List (String × String)) :
    textOf (bracketed ("  " ++ kind ++ " [") "];\n" (entries.map plainly)) =
      defaultsStatement kind entries := by
  rw [textOf_bracketed, List.map_map, defaultsStatement]
  rfl

theorem textOf_ofSetting (entry : String × String) :
    textOf (ofSetting entry) = settingStatement entry := by
  simp [ofSetting, settingStatement, text, textAssignment, assignment_eq, String.append_assoc]

theorem textOf_ofDescriptor (descriptor : Descriptor) :
    textOf (ofDescriptor descriptor) = statement descriptor := by
  cases descriptor <;>
    simp [ofDescriptor, statement, nodeStatement, edgeStatement, textOf_attributes, text,
      String.append_assoc]

theorem textOf_flatMap {α : Type u} (pieces : α -> List Piece) (write : α -> String)
    (same : forall source, textOf (pieces source) = write source) (sources : List α) :
    textOf (sources.flatMap pieces) = String.join (sources.map write) := by
  induction sources with
  | nil => rfl
  | cons source rest ih =>
      rw [List.flatMap_cons, textOf_append, same, ih, List.map_cons, String.join_cons]

/-- The pieces of a graph make up its text. -/
theorem textOf_ofGraph (settings : Settings) (descriptors : List Descriptor) :
    textOf (ofGraph settings descriptors) =
      preamble settings ++ String.join (descriptors.map statement) ++ closing := by
  have nodes := textOf_defaults "node" (defaults settings.fontName settings.nodeAttributes)
  have edges := textOf_defaults "edge" (defaults settings.fontName settings.edgeAttributes)
  rw [ofGraph, preamble_around]
  simp only [textOf_cons, textOf_append, textOf_nil, textOf_flatMap ofSetting _ textOf_ofSetting,
    textOf_flatMap ofDescriptor _ textOf_ofDescriptor, text, ← nodes, ← edges,
    String.append_assoc, String.append_empty]
  rfl

@[simp] theorem entriesOf_nil : entriesOf [] = [] := rfl

@[simp] theorem entriesOf_other (text : String) (rest : List Piece) :
    entriesOf (other text :: rest) = entriesOf rest := rfl

@[simp] theorem entriesOf_assigned (name : String) (value : AttributeValue) (rest : List Piece) :
    entriesOf (assigned name value :: rest) = (name, value) :: entriesOf rest := rfl

@[simp] theorem entriesOf_append (first second : List Piece) :
    entriesOf (first ++ second) = entriesOf first ++ entriesOf second :=
  List.filterMap_append

theorem entriesOf_flatMap {α : Type u} (pieces : α -> List Piece) (sources : List α) :
    entriesOf (sources.flatMap pieces) =
      sources.flatMap fun source => entriesOf (pieces source) := by
  induction sources with
  | nil => rfl
  | cons source rest ih => rw [List.flatMap_cons, entriesOf_append, ih, List.flatMap_cons]

@[simp] theorem entriesOf_bracketed (opening closing : String)
    (entries : List (String × AttributeValue)) :
    entriesOf (bracketed opening closing entries) = entries := by
  cases entries with
  | nil => rfl
  | cons first rest =>
      rw [bracketed, if_neg (List.cons_ne_nil _ _), listed]
      simp [entriesOf_flatMap]

theorem entriesOf_ofDescriptor (descriptor : Descriptor) :
    entriesOf (ofDescriptor descriptor) = descriptorEntries descriptor := by
  cases descriptor <;> simp [ofDescriptor, descriptorEntries]

/-- The attributes in them are those that are to be written. -/
theorem entriesOf_ofGraph (settings : Settings) (descriptors : List Descriptor) :
    entriesOf (ofGraph settings descriptors) = writtenEntries settings descriptors := by
  have further : settings.graphAttributes.entries.flatMap (fun entry => [plainly entry]) =
      settings.graphAttributes.entries.map plainly := List.map_eq_flatMap.symm
  simp only [ofGraph, entriesOf_other, entriesOf_append, entriesOf_flatMap, entriesOf_bracketed,
    entriesOf_ofDescriptor, entriesOf_nil, List.append_nil]
  rw [writtenEntries, ← further]
  rfl

end Piece

/-! ## Names in a text -/

open Piece (textOf entriesOf ofGraph)

/-- At the beginning of a text a name is read, and an equality sign behind it. -/
def ReadsName (name : String) (text : List Char) : Prop :=
  exists behind, scanIdentifier text = some (name, '=' :: behind)

theorem readsName_iff (name : String) (value : AttributeValue) (later : List Piece) :
    ReadsName name (textOf (.assigned name value :: later)).toList <->
      isKeyword name.toList = false := by
  have starts : (textOf (.assigned name value :: later)).toList =
      (attributeName name).toList ++
        '=' :: ((valueText value).toList ++ (textOf later).toList) := by
    simp [Piece.text]
  rw [ReadsName, starts, scanIdentifier_attributeName]
  cases isKeyword name.toList <;> simp

/-- Plain names are written bare, and others quoted, so that they are read back. -/
theorem attributeName_cases (name : String) :
    IsPlain name.toList ∧ attributeName name = name ∨
      ¬ IsPlain name.toList ∧ attributeName name = quote name ∧
        Scans scanQuoted name (attributeName name).toList := by
  unfold attributeName
  rw [← isBare_iff]
  cases isBare name.toList with
  | true => exact Or.inl ⟨rfl, rfl⟩
  | false => exact Or.inr ⟨Bool.false_ne_true, rfl, scans_quote name⟩

/-- A graph is written piece by piece. -/
theorem exists_written (settings : Settings) (descriptors : List Descriptor) :
    exists opened filled output, Output.start settings none = (.ok (), opened) ∧
      sink.takeAll descriptors opened = (.ok (), filled) ∧
      filled.finish = (.ok (), output) ∧
      output.text = textOf (ofGraph settings descriptors) := by
  rcases stages_unlimited settings descriptors with
    ⟨opened, filled, output, started, taken, finished⟩
  refine ⟨opened, filled, output, started, taken, finished, ?_⟩
  rw [Output.text, bytes_of_stages started taken finished, Output.textOf_toUTF8,
    Piece.textOf_ofGraph]

/-- In any graph that is written, whatever the names of its attributes are, each of them is written
bare if it is plain, and quoted otherwise.  At its place it is read as an identifier exactly if it
is not a keyword. -/
theorem names_written (settings : Settings) (descriptors : List Descriptor) :
    (exists opened filled output, Output.start settings none = (.ok (), opened) ∧
      sink.takeAll descriptors opened = (.ok (), filled) ∧
      filled.finish = (.ok (), output) ∧
      output.text = textOf (ofGraph settings descriptors)) ∧
    entriesOf (ofGraph settings descriptors) = writtenEntries settings descriptors ∧
    forall earlier name value later,
      ofGraph settings descriptors = earlier ++ .assigned name value :: later ->
        (IsPlain name.toList ∧ attributeName name = name ∨
          ¬ IsPlain name.toList ∧ attributeName name = quote name ∧
            Scans scanQuoted name (attributeName name).toList) ∧
        textOf (ofGraph settings descriptors) =
          textOf earlier ++ textOf (.assigned name value :: later) ∧
        (ReadsName name (textOf (.assigned name value :: later)).toList <->
          isKeyword name.toList = false) := by
  refine ⟨exists_written settings descriptors, Piece.entriesOf_ofGraph settings descriptors,
    fun earlier name value later split => ⟨attributeName_cases name, ?_,
      readsName_iff name value later⟩⟩
  rw [split, Piece.textOf_append]

/-- Settings with a keyword among the names. -/
def keywordSettings : Settings :=
  { Settings.default with graphAttributes := .ofList [("node", "x"), ("node color", "y")] }

/-- Not every name is read: a keyword is not. -/
theorem not_names_read :
    ¬ forall (settings : Settings) (descriptors : List Descriptor) (earlier : List Piece)
      (name : String) (value : AttributeValue) (later : List Piece),
        ofGraph settings descriptors = earlier ++ .assigned name value :: later ->
          ReadsName name (textOf (.assigned name value :: later)).toList := by
  intro always
  have reads := always keywordSettings [] [_, .other "  "] "node" (.text "x") _ rfl
  rw [readsName_iff] at reads
  exact absurd reads (by decide)

/-- A name with a keyword in it is quoted and read back; a keyword is written bare and is not. -/
theorem names_written_keyword :
    (exists earlier later, ofGraph keywordSettings [] =
        earlier ++ .assigned "node color" (.text "y") :: later ∧
      ReadsName "node color" (textOf (.assigned "node color" (.text "y") :: later)).toList) ∧
    exists earlier later, ofGraph keywordSettings [] =
        earlier ++ .assigned "node" (.text "x") :: later ∧
      attributeName "node" = "node" ∧
      ¬ ReadsName "node" (textOf (.assigned "node" (.text "x") :: later)).toList := by
  rcases names_written keywordSettings [] with ⟨_, _, places⟩
  have first := places [_, .other "  "] "node" (.text "x") _ rfl
  have second := places [_, _, _, _, .other "  "] "node color" (.text "y") _ rfl
  refine ⟨⟨[_, _, _, _, .other "  "], _, rfl, second.2.2.mpr (by decide)⟩,
    [_, .other "  "], _, rfl, by decide, fun reads => ?_⟩
  exact absurd (first.2.2.mp reads) (by decide)

end Dot
end InjectionPlan
