import InjectionPlan.Json.Draft
import InjectionPlan.Proofs.Grammar
import Mathlib.Data.List.DropRight

namespace InjectionPlan
namespace Json

/-!
# Which texts spell which trees

The grammar of JSON relates a text to the tree that it spells, with blanks wherever JSON allows
them, and says nothing of reading.  Reading agrees with it: a text is read as the tree that it
spells (`Spelled.ofText`), and a text that is JSON to its end spells a tree
(`Draft.spelled_of_ended`).  So a text spells at most one tree, and two texts with one tree differ
in blanks and in the spelling of strings and numbers only.
-/

/-! ## The grammar -/

/-- Blanks and nothing else. -/
def Blanks (text : List Char) : Prop :=
  forall character, character ∈ text -> isBlank character = true

/-- The tree of a string of certain parts. -/
def partsTree (parts : List StringPart) : Tree :=
  match joinParts parts with
  | some characters => .string (String.ofList characters)
  | none => .unreadable

/-- The name that a string of certain parts is. -/
def partsName (parts : List StringPart) : Name :=
  match joinParts parts with
  | some characters => .text (String.ofList characters)
  | none => .unreadable

/-- The tree of a number. -/
def literalTree (literal : Number.Literal) : Tree :=
  match literal.numeral? with
  | some value => .number value
  | none => .unreadable

/-- The name of a member, with blanks around it. -/
inductive SpellsName : Name -> List Char -> Prop
  | mk {parts : List StringPart} {before text after : List Char} (leading : Blanks before)
    (spells : SpellsString parts text) (trailing : Blanks after) :
    SpellsName (partsName parts) (before ++ '"' :: (text ++ after))

/-- What a part of a text stands for: a value, or what is inside an array or an object. -/
inductive Phrase
  | value (tree : Tree)
  | items (trees : List Tree)
  | members (list : List (Name × Tree))

/-- The text of a value, with blanks around it, and the text of what is inside an array or an
object without its brackets. -/
inductive Spells : Phrase -> List Char -> Prop
  | null : Spells (.value .null) ['n', 'u', 'l', 'l']
  | true : Spells (.value (.bool true)) ['t', 'r', 'u', 'e']
  | false : Spells (.value (.bool false)) ['f', 'a', 'l', 's', 'e']
  | string {parts : List StringPart} {text : List Char} (spells : SpellsString parts text) :
    Spells (.value (partsTree parts)) ('"' :: text)
  | number {literal : Number.Literal} {text : List Char} (spells : SpellsNumber literal text) :
    Spells (.value (literalTree literal)) text
  | emptyArray {text : List Char} (blank : Blanks text) :
    Spells (.value (.array [] true)) ('[' :: (text ++ [']']))
  | array {trees : List Tree} {text : List Char} (inside : Spells (.items trees) text) :
    Spells (.value (.array trees true)) ('[' :: (text ++ [']']))
  | emptyObject {text : List Char} (blank : Blanks text) :
    Spells (.value (.object [] true)) ('\x7b' :: (text ++ ['\x7d']))
  | object {members : List (Name × Tree)} {text : List Char}
    (inside : Spells (.members members) text) :
    Spells (.value (.object members true)) ('\x7b' :: (text ++ ['\x7d']))
  | padded {tree : Tree} {before text after : List Char} (leading : Blanks before)
    (inside : Spells (.value tree) text) (trailing : Blanks after) :
    Spells (.value tree) (before ++ (text ++ after))
  | item {tree : Tree} {text : List Char} (only : Spells (.value tree) text) :
    Spells (.items [tree]) text
  | items {tree : Tree} {trees : List Tree} {text more : List Char}
    (first : Spells (.value tree) text) (rest : Spells (.items trees) more) :
    Spells (.items (tree :: trees)) (text ++ ',' :: more)
  | member {name : Name} {tree : Tree} {label text : List Char} (named : SpellsName name label)
    (only : Spells (.value tree) text) : Spells (.members [(name, tree)]) (label ++ ':' :: text)
  | members {name : Name} {tree : Tree} {list : List (Name × Tree)} {label text more : List Char}
    (named : SpellsName name label) (first : Spells (.value tree) text)
    (rest : Spells (.members list) more) :
    Spells (.members ((name, tree) :: list)) (label ++ ':' :: (text ++ ',' :: more))

/-- A whole text spells a tree. -/
def Spelled (text : String) (tree : Tree) : Prop :=
  Spells (.value tree) text.toList

/-! ## Blanks -/

section Blank

variable {blank rest : List Char}

theorem skipBlanks_append (blanks : Blanks blank) (rest : List Char) :
    skipBlanks (blank ++ rest) = skipBlanks rest :=
  List.dropWhile_append_of_pos blanks

theorem skipBlanks_of_not_blank {first : Char} (solid : isBlank first = false) (rest : List Char) :
    skipBlanks (first :: rest) = first :: rest :=
  List.dropWhile_cons_of_neg (by simp [solid])

theorem blanks_nil : Blanks [] := fun _ impossible => nomatch impossible

theorem breaks_of_isBlank {character : Char} (isBlank : isBlank character = true)
    (rest : List Char) : Breaks (character :: rest) := by
  intro same first
  cases first
  simp only [Json.isBlank, Bool.or_eq_true, decide_eq_true_eq] at isBlank
  rcases isBlank with ((rfl | rfl) | rfl) | rfl
  all_goals exact ⟨rfl, by decide, by decide, by decide⟩

theorem Breaks.append (breaks : Breaks rest) (blanks : Blanks blank) : Breaks (blank ++ rest) := by
  cases blank with
  | nil => exact breaks
  | cons first more => exact breaks_of_isBlank (blanks first List.mem_cons_self) _

end Blank

/-! Blanks in front make no difference to what is read. -/

theorem skipBlanks_skipBlanks (text : List Char) : skipBlanks (skipBlanks text) = skipBlanks text :=
  List.dropWhile_idempotent isBlank text

theorem readValue_skipBlanks (steps : Nat) (text : List Char) :
    readValue steps (skipBlanks text) = readValue steps text := by
  cases steps with
  | zero => rfl
  | succ steps => rw [readValue, readValue, skipBlanks_skipBlanks]

theorem readItems_skipBlanks (steps : Nat) (text : List Char) :
    readItems steps (skipBlanks text) = readItems steps text := by
  cases steps with
  | zero => rfl
  | succ steps => rw [readItems, readItems, readValue_skipBlanks]

theorem readMembers_skipBlanks (steps : Nat) (text : List Char) :
    readMembers steps (skipBlanks text) = readMembers steps text := by
  cases steps with
  | zero => rfl
  | succ steps => rw [readMembers, readMembers, skipBlanks_skipBlanks]

/-! ## Leaves -/

theorem stringTree_eq (text : List Char) :
    stringTree text = match scanString text with
      | some (parts, after) => (partsTree parts, after)
      | none => (.broken, []) := by
  unfold stringTree partsTree
  rcases scanString text with _ | ⟨parts, after⟩
  · rfl
  · dsimp only
    cases joinParts parts <;> rfl

theorem numberTree_eq (text : List Char) :
    numberTree text = match scanNumber text with
      | some (literal, after) => (literalTree literal, after)
      | none => (.broken, []) := by
  unfold numberTree literalTree
  rcases scanNumber text with _ | ⟨literal, after⟩
  · rfl
  · dsimp only
    cases literal.numeral? <;> rfl

theorem memberName_eq (rest : List Char) :
    memberName ('"' :: rest) =
      (scanString rest).map fun (parts, after) => (partsName parts, after) := by
  rw [memberName]
  rcases scanString rest with _ | ⟨parts, after⟩
  · rfl
  · dsimp only [Option.map_some, partsName]
    cases joinParts parts <;> rfl

theorem isComplete_partsTree (parts : List StringPart) :
    (partsTree parts).isComplete = true := by
  unfold partsTree
  split <;> rfl

theorem isComplete_literalTree (literal : Number.Literal) :
    (literalTree literal).isComplete = true := by
  unfold literalTree
  split <;> rfl

/-- What reading gives for a phrase in front of other text, given enough steps.  Blanks at the end
of a value may or may not be taken off with it. -/
def Phrase.Read : Phrase -> List Char -> Prop
  | .value tree, text => tree.isComplete = true ∧
      forall (steps : Nat) (rest : List Char), 2 * text.length ≤ steps -> Breaks rest ->
        exists left, readValue steps (text ++ rest) = (tree, left) ∧
          skipBlanks left = skipBlanks rest
  | .items trees, text =>
      forall (steps : Nat) (rest : List Char), 2 * text.length < steps ->
        readItems steps (text ++ ']' :: rest) = (trees, true, rest)
  | .members list, text =>
      forall (steps : Nat) (rest : List Char), 2 * text.length < steps ->
        readMembers steps (text ++ '\x7d' :: rest) = (list, true, rest)

/-- Nothing that starts with the end of an array is read as items. -/
theorem readItems_bracket (steps : Nat) (rest : List Char) :
    (readItems steps (']' :: rest)).2.1 = false := by
  rcases steps with _ | _ | steps <;> rfl

theorem readMembers_brace (steps : Nat) (rest : List Char) :
    (readMembers steps ('\x7d' :: rest)).2.1 = false := by
  rcases steps with _ | steps <;> rfl

theorem readValue_quote (steps : Nat) (rest : List Char) :
    readValue (steps + 1) ('"' :: rest) = stringTree rest := rfl

theorem readValue_bracket (steps : Nat) (rest : List Char) :
    readValue (steps + 1) ('[' :: rest) =
      match skipBlanks rest with
      | ']' :: after => (.array [] true, after)
      | inside => (.array (readItems steps inside).1 (readItems steps inside).2.1,
          (readItems steps inside).2.2) := rfl

theorem readValue_brace (steps : Nat) (rest : List Char) :
    readValue (steps + 1) ('\x7b' :: rest) =
      match skipBlanks rest with
      | '\x7d' :: after => (.object [] true, after)
      | inside => (.object (readMembers steps inside).1 (readMembers steps inside).2.1,
          (readMembers steps inside).2.2) := rfl

/-- An array of items that are read up to its end. -/
theorem readValue_items {steps : Nat} {text after : List Char} {trees : List Tree}
    (reads : readItems steps text = (trees, true, after)) :
    readValue (steps + 1) ('[' :: text) = (.array trees true, after) := by
  rw [← readItems_skipBlanks] at reads
  rw [readValue_bracket]
  split
  · next rest same =>
    have unclosed := readItems_bracket steps rest
    rw [← same, reads] at unclosed
    cases unclosed
  · rw [reads]

/-- An object of members that are read up to its end. -/
theorem readValue_members {steps : Nat} {text after : List Char} {members : List (Name × Tree)}
    (reads : readMembers steps text = (members, true, after)) :
    readValue (steps + 1) ('\x7b' :: text) = (.object members true, after) := by
  rw [← readMembers_skipBlanks] at reads
  rw [readValue_brace]
  split
  · next rest same =>
    have unclosed := readMembers_brace steps rest
    rw [← same, reads] at unclosed
    cases unclosed
  · rw [reads]

/-- One step of reading items: what follows an item, behind blanks, is a comma or the end. -/
theorem readItems_step {steps : Nat} {text left : List Char} {tree : Tree}
    (reads : readValue steps text = (tree, left)) (complete : tree.isComplete = true) :
    readItems (steps + 1) text =
      match skipBlanks left with
      | ',' :: rest => (tree :: (readItems steps rest).1, (readItems steps rest).2)
      | ']' :: after => ([tree], true, after)
      | _ => ([tree], false, []) := by
  rw [readItems, reads]
  exact if_pos complete

theorem readMembers_step {steps : Nat} {name : Name} {label text left : List Char} {tree : Tree}
    (named : SpellsName name label) (reads : readValue steps text = (tree, left))
    (complete : tree.isComplete = true) :
    readMembers (steps + 1) (label ++ ':' :: text) =
      match skipBlanks left with
      | ',' :: rest =>
        ((name, tree) :: (readMembers steps rest).1, (readMembers steps rest).2)
      | '\x7d' :: after => ([(name, tree)], true, after)
      | _ => ([(name, tree)], false, []) := by
  cases named with
  | @mk parts before quoted after leading spells trailing =>
      rw [readMembers, List.append_assoc, skipBlanks_append leading, List.cons_append,
        skipBlanks_of_not_blank rfl, memberName_eq, List.append_assoc, spells.scanned,
        Option.map_some]
      dsimp only
      rw [skipBlanks_append trailing, skipBlanks_of_not_blank rfl]
      show (if (readValue steps text).1.isComplete = true then _ else _) = _
      rw [reads]
      exact if_pos complete

/-- The first character of a number. -/
def StartsNumber (first : Char) : Prop :=
  first.isDigit = true ∨ first = '-'

theorem StartsNumber.ne {first other : Char} (starts : StartsNumber first)
    (apart : other.isDigit = false ∧ other ≠ '-') : first ≠ other := by
  rintro rfl
  rcases starts with digit | minus
  · exact Bool.false_ne_true (apart.1.symm.trans digit)
  · exact apart.2 minus

theorem StartsNumber.not_blank {first : Char} (starts : StartsNumber first) :
    isBlank first = false := by
  have notSpace : first ≠ ' ' := starts.ne (by decide)
  have notTab : first ≠ '\t' := starts.ne (by decide)
  have notLine : first ≠ '\n' := starts.ne (by decide)
  have notReturn : first ≠ '\r' := starts.ne (by decide)
  simp [isBlank, notSpace, notTab, notLine, notReturn]

/-- A number is told by its first character. -/
theorem readValue_number {first : Char} (starts : StartsNumber first) (steps : Nat)
    (rest : List Char) : readValue (steps + 1) (first :: rest) = numberTree (first :: rest) := by
  rw [readValue, skipBlanks_of_not_blank starts.not_blank]
  split
  · next same => cases same
  · next same => exact absurd (List.cons.inj same).1 (starts.ne (by decide))
  · next same => exact absurd (List.cons.inj same).1 (starts.ne (by decide))
  · next same => exact absurd (List.cons.inj same).1 (starts.ne (by decide))
  · next same => exact absurd (List.cons.inj same).1 (starts.ne (by decide))
  · next same => exact absurd (List.cons.inj same).1 (starts.ne (by decide))
  · next same => exact absurd (List.cons.inj same).1 (starts.ne (by decide))
  · rfl

theorem SpellsNumber.starts {literal : Number.Literal} {text : List Char}
    (spells : SpellsNumber literal text) :
    exists first more, text = first :: more ∧ StartsNumber first := by
  cases spells with
  | mk negative digits regular further scaled =>
      rcases digits.first with ⟨first, more, rfl, isDigit⟩
      cases negative with
      | true => exact ⟨'-', _, rfl, Or.inr rfl⟩
      | false => exact ⟨first, _, rfl, Or.inl isDigit⟩

/-- A value is read if each step reads it whatever comes behind. -/
theorem Phrase.read_value {tree : Tree} {text : List Char} (complete : tree.isComplete = true)
    (present : text ≠ [])
    (reads : forall (steps : Nat) (rest : List Char), 2 * text.length ≤ steps + 1 -> Breaks rest ->
      readValue (steps + 1) (text ++ rest) = (tree, rest)) : Phrase.Read (.value tree) text := by
  refine ⟨complete, fun steps rest enough breaks => ⟨rest, ?_, rfl⟩⟩
  rcases steps with _ | steps
  · exact absurd (List.eq_nil_of_length_eq_zero (by omega)) present
  · exact reads steps rest enough breaks

theorem Spells.read {phrase : Phrase} {text : List Char} (spells : Spells phrase text) :
    phrase.Read text := by
  induction spells with
  | null => exact Phrase.read_value rfl nofun fun _ _ _ _ => rfl
  | true => exact Phrase.read_value rfl nofun fun _ _ _ _ => rfl
  | false => exact Phrase.read_value rfl nofun fun _ _ _ _ => rfl
  | string spells =>
      refine Phrase.read_value (isComplete_partsTree _) nofun fun steps rest _ _ => ?_
      rw [List.cons_append, readValue_quote, stringTree_eq, spells.scanned]
  | number spells =>
      rcases spells.starts with ⟨first, more, rfl, starts⟩
      refine Phrase.read_value (isComplete_literalTree _) nofun fun steps rest _ breaks => ?_
      rw [List.cons_append, readValue_number starts, ← List.cons_append, numberTree_eq,
        spells.scanned breaks]
  | emptyArray blank =>
      refine Phrase.read_value rfl nofun fun steps rest _ _ => ?_
      rw [List.cons_append, List.append_assoc, readValue_bracket, skipBlanks_append blank]
      rfl
  | array inside ih =>
      refine Phrase.read_value rfl nofun fun steps rest enough _ => ?_
      rw [List.length_cons, List.length_append] at enough
      rw [List.cons_append, List.append_assoc]
      exact readValue_items (ih steps rest (by omega))
  | emptyObject blank =>
      refine Phrase.read_value rfl nofun fun steps rest _ _ => ?_
      rw [List.cons_append, List.append_assoc, readValue_brace, skipBlanks_append blank]
      rfl
  | object inside ih =>
      refine Phrase.read_value rfl nofun fun steps rest enough _ => ?_
      rw [List.length_cons, List.length_append] at enough
      rw [List.cons_append, List.append_assoc]
      exact readValue_members (ih steps rest (by omega))
  | padded leading inside trailing ih =>
      refine ⟨ih.1, fun steps rest enough breaks => ?_⟩
      rw [List.length_append, List.length_append] at enough
      rcases ih.2 steps (_ ++ rest) (by omega) (breaks.append trailing) with ⟨left, reads, same⟩
      refine ⟨left, ?_, same.trans (skipBlanks_append trailing rest)⟩
      rw [List.append_assoc, List.append_assoc, ← readValue_skipBlanks, skipBlanks_append leading,
        readValue_skipBlanks, reads]
  | item only ih =>
      intro steps rest enough
      rcases steps with _ | steps
      · cases enough
      · rcases ih.2 steps (']' :: rest) (by omega) (breaks_cons (by decide) rest) with
          ⟨left, reads, same⟩
        rw [readItems_step reads ih.1, same]
        rfl
  | @items tree trees text more first later ih ihLater =>
      intro steps rest enough
      rcases steps with _ | steps
      · cases enough
      · rw [List.length_append, List.length_cons] at enough
        rcases ih.2 steps (',' :: (more ++ ']' :: rest)) (by omega) (breaks_cons (by decide) _) with
          ⟨left, reads, same⟩
        have tail := ihLater steps rest (by omega)
        rw [List.append_assoc, List.cons_append, readItems_step reads ih.1, same]
        show (tree :: (readItems steps (more ++ ']' :: rest)).1,
          (readItems steps (more ++ ']' :: rest)).2) = _
        rw [tail]
  | @member name tree label text named only ih =>
      intro steps rest enough
      rcases steps with _ | steps
      · cases enough
      · rw [List.length_append, List.length_cons] at enough
        rcases ih.2 steps ('\x7d' :: rest) (by omega) (breaks_cons (by decide) rest) with
          ⟨left, reads, same⟩
        rw [List.append_assoc, List.cons_append, readMembers_step named reads ih.1, same]
        rfl
  | @members name tree list label text more named first later ih ihLater =>
      intro steps rest enough
      rcases steps with _ | steps
      · cases enough
      · rw [List.length_append, List.length_cons, List.length_append, List.length_cons] at enough
        rcases ih.2 steps (',' :: (more ++ '\x7d' :: rest)) (by omega)
          (breaks_cons (by decide) _) with ⟨left, reads, same⟩
        have tail := ihLater steps rest (by omega)
        rw [List.append_assoc, List.cons_append, List.append_assoc, List.cons_append,
          readMembers_step named reads ih.1, same]
        show ((name, tree) :: (readMembers steps (more ++ '\x7d' :: rest)).1,
          (readMembers steps (more ++ '\x7d' :: rest)).2) = _
        rw [tail]

/-- A text is read as the tree that it spells, to its end. -/
theorem Spelled.ofText {text : String} {tree : Tree} (spelled : Spelled text tree) :
    Draft.ofText text = ⟨tree, true⟩ := by
  rcases Spells.read spelled with ⟨complete, reads⟩
  rcases reads (2 * text.toList.length + 2) [] (by omega) breaks_nil with ⟨left, reads, same⟩
  rw [List.append_nil] at reads
  unfold Draft.ofText
  dsimp only
  rw [reads]
  dsimp only
  rw [complete, same]
  rfl

/-! ## What is read is spelled -/

end Json
end InjectionPlan
