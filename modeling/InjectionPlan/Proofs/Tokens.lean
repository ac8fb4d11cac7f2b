import InjectionPlan.Dot.Statement
import InjectionPlan.Proofs.Markup

namespace InjectionPlan
namespace Dot

/-!
# Reading the tokens of DOT

A scanner takes a value off the input and leaves the rest.  It scans a text if it gives back what
was written, whatever follows (`Scans`).  A quote ends a quoted text only if no backslash stands
before it, and markup ends where its brackets are closed.  So scanners need not look at what
follows.  Only a bare name could go on; its law asks for a character that ends it.
-/

open Diagram (AttributeValue level levelBehind level_cons)

/-- Takes a value off the input. -/
abbrev Scanner (α : Type) := List Char -> Option (α × List Char)

/-- A value is taken off the text that was written for it, whatever follows. -/
def Scans {α : Type} (scanner : Scanner α) (value : α) (written : List Char) : Prop :=
  forall rest, scanner (written ++ rest) = some (value, rest)

/-- What stands behind a token. -/
def behind : (token input : List Char) -> Option (List Char)
  | [], input => some input
  | _ :: _, [] => none
  | expected :: token, first :: input => if first = expected then behind token input else none

@[simp] theorem behind_append (token rest : List Char) :
    behind token (token ++ rest) = some rest := by
  induction token with
  | nil => rfl
  | cons expected token ih => rw [List.cons_append, behind, if_pos rfl, ih]

/-! ## Quoted texts -/

/-- Reads up to the quote that ends a text. -/
def scanEscaped : Scanner (List Char)
  | [] => none
  | '"' :: rest => some ([], rest)
  | ['\\'] => none
  | '\\' :: marked :: input =>
    (scanEscaped input).map fun (text, rest) =>
      ((if marked = 'n' then '\n' else marked) :: text, rest)
  | first :: input => (scanEscaped input).map fun (text, rest) => (first :: text, rest)

/-- Reads a text between quotes. -/
def scanQuoted : Scanner String := fun input => do
  let input <- behind ['"'] input
  let (text, rest) <- scanEscaped input
  return (String.ofList text, rest)

theorem scanEscaped_escape (text rest : List Char) :
    scanEscaped (escape text ++ '"' :: rest) = some (text, rest) := by
  induction text with
  | nil => rfl
  | cons character later ih =>
      have split : escape (character :: later) ++ '"' :: rest =
          escapeChar character ++ (escape later ++ '"' :: rest) := by
        rw [escape, List.flatMap_cons, List.append_assoc]
        rfl
      rw [split, escapeChar]
      by_cases backslash : character = '\\'
      · simp [backslash, scanEscaped, ih]
      · by_cases quote : character = '"'
        · simp [quote, scanEscaped, ih]
        · by_cases newline : character = '\n'
          · simp [newline, scanEscaped, ih]
          · simp [backslash, quote, newline, scanEscaped, ih]

theorem scans_quote (text : String) : Scans scanQuoted text (quote text).toList := by
  intro rest
  have written : (quote text).toList ++ rest = ['"'] ++ (escape text.toList ++ '"' :: rest) := by
    rw [quote, String.toList_ofList]
    simp
  rw [written, scanQuoted, behind_append]
  simp [scanEscaped_escape]

/-! ## Names -/

/-- Reads a name, bare or between quotes. -/
def scanName : Scanner String := fun input =>
  let word := input.takeWhile isWordChar
  if isBare word then some (String.ofList word, input.dropWhile isWordChar)
  else scanQuoted input

theorem isWordChar_of_isBare {name : List Char} (bare : isBare name = true) :
    forall character, character ∈ name -> isWordChar character = true := by
  unfold isBare at bare
  split at bare
  · cases bare
  · exact List.all_eq_true.mp (Bool.and_eq_true_iff.mp bare).2

/-- A quote is not part of a word. -/
theorem scans_quoted_name (text : String) : Scans scanName text (quote text).toList := by
  intro rest
  have noWord : ((quote text).toList ++ rest).takeWhile isWordChar = [] := by
    rw [quote, String.toList_ofList]
    rfl
  rw [scanName, noWord]
  exact scans_quote text rest

/-- A name is read if a character follows that could not be part of it. -/
theorem scanName_attributeName (name : String) {mark : Char} (ends : isWordChar mark = false)
    (rest : List Char) :
    scanName ((attributeName name).toList ++ mark :: rest) = some (name, mark :: rest) := by
  unfold attributeName
  cases bare : isBare name.toList with
  | true =>
      have word := isWordChar_of_isBare bare
      have noWord : ¬ isWordChar mark = true := ne_true_of_eq_false ends
      rw [if_pos rfl, scanName, List.takeWhile_append_of_pos word,
        List.takeWhile_cons_of_neg noWord, List.append_nil,
        List.dropWhile_append_of_pos word, List.dropWhile_cons_of_neg noWord, if_pos bare,
        String.ofList_toList]
  | false =>
      rw [if_neg Bool.false_ne_true]
      exact scans_quoted_name name (mark :: rest)

/-! ## Values -/

/-- Reads up to the bracket that closes markup. -/
def scanMarkup : (depth : Nat) -> Scanner (List Char)
  | _, [] => none
  | depth, character :: input =>
    match levelBehind depth character with
    | none => some ([], input)
    | some next => (scanMarkup next input).map fun (text, rest) => (character :: text, rest)

theorem scanMarkup_of_level {depth reached : Nat} {content : List Char}
    (reaches : level depth content = some reached) (input : List Char) :
    scanMarkup depth (content ++ input) =
      (scanMarkup reached input).map fun (text, rest) => (content ++ text, rest) := by
  induction content generalizing depth with
  | nil =>
      cases reaches
      simp
  | cons character later ih =>
      rw [level_cons, Option.bind_eq_some_iff] at reaches
      rcases reaches with ⟨next, stays, reaches⟩
      rw [List.cons_append, scanMarkup, stays]
      dsimp only
      rw [ih reaches, Option.map_map]
      rfl

/-- Reads the value of an attribute. -/
def scanValue : Scanner AttributeValue
  | '<' :: input =>
    (scanMarkup 0 input).map fun (content, rest) => (.html (String.ofList content), rest)
  | input => (scanQuoted input).map fun (content, rest) => (.text content, rest)

/-- Reads a name with its value. -/
def scanAssignment : Scanner (String × AttributeValue) := fun input => do
  let (name, input) <- scanName input
  let input <- behind ['='] input
  let (value, rest) <- scanValue input
  return ((name, value), rest)

/-- Markup has to close what it opens; any text is legible. -/
def Legible : AttributeValue -> Prop
  | .text _ => True
  | .html content => level 0 content.toList = some 0

/-- How a value is written. -/
def valueText : AttributeValue -> String
  | .text content => quote content
  | .html content => "<" ++ content ++ ">"

theorem assignment_eq (name : String) (value : AttributeValue) :
    assignment name value = attributeName name ++ "=" ++ valueText value := by
  cases value with
  | text content => rfl
  | html content =>
      apply String.toList_injective
      simp [assignment, valueText]

theorem scans_value {value : AttributeValue} (legible : Legible value) :
    Scans scanValue value (valueText value).toList := by
  intro rest
  cases value with
  | text content =>
      have starts : (quote content).toList ++ rest =
          '"' :: (escape content.toList ++ '"' :: rest) := by
        simp [quote]
      have scans := scans_quote content rest
      rw [starts] at scans
      rw [valueText, starts]
      simp [scanValue, scans]
  | html content =>
      have written : (valueText (.html content)).toList ++ rest =
          '<' :: (content.toList ++ '>' :: rest) := by
        simp [valueText]
      rw [written, scanValue, scanMarkup_of_level legible ('>' :: rest)]
      simp [scanMarkup, levelBehind]

theorem scans_assignment (name : String) {value : AttributeValue} (legible : Legible value) :
    Scans scanAssignment (name, value) (assignment name value).toList := by
  intro rest
  have written : (assignment name value).toList ++ rest =
      (attributeName name).toList ++ '=' :: ((valueText value).toList ++ rest) := by
    simp [assignment_eq]
  rw [written, scanAssignment, scanName_attributeName name (by decide)]
  simp [behind, scans_value legible rest]

/-! ## Several values -/

section

variable {α : Type} {β : Type u} (scanner : Scanner α)

/-- Takes values off the input as long as there are any, but no more than the bound says. -/
def scanUpTo : (bound : Nat) -> List Char -> List α × List Char
  | 0, input => ([], input)
  | bound + 1, input =>
    match scanner input with
    | none => ([], input)
    | some (value, rest) =>
      let (values, last) := scanUpTo bound rest
      (value :: values, last)

/-- Takes values off the input as long as there are any.  There are at most as many of them as
characters. -/
def scanMany (input : List Char) : List α × List Char :=
  scanUpTo scanner input.length input

/-- Takes values off the input, with a comma between each two and a bracket behind the last. -/
def scanList : Scanner (List α) := fun input => do
  let (first, input) <- scanner input
  let (others, input) := scanMany (fun input => (behind [',', ' '] input).bind scanner) input
  let rest <- behind [']'] input
  return (first :: others, rest)

variable {scanner} {value : β -> α} {write : β -> List Char} {sources : List β}

theorem scanUpTo_flatMap
    (scans : forall source, source ∈ sources -> Scans scanner (value source) (write source))
    {rest : List Char} (stops : scanner rest = none) {bound : Nat}
    (enough : sources.length ≤ bound) :
    scanUpTo scanner bound (sources.flatMap write ++ rest) = (sources.map value, rest) := by
  induction sources generalizing bound with
  | nil =>
      cases bound with
      | zero => rfl
      | succ bound =>
          rw [List.flatMap_nil, List.nil_append, scanUpTo, stops]
          rfl
  | cons source later ih =>
      cases bound with
      | zero => cases enough
      | succ bound =>
          have others := ih (fun other member => scans other (List.mem_cons_of_mem _ member))
            (Nat.le_of_succ_le_succ enough)
          rw [List.flatMap_cons, List.append_assoc, scanUpTo,
            scans source List.mem_cons_self]
          dsimp only
          rw [others]
          rfl

theorem scanMany_flatMap
    (scans : forall source, source ∈ sources -> Scans scanner (value source) (write source))
    (visible : forall source, write source ≠ []) {rest : List Char}
    (stops : scanner rest = none) :
    scanMany scanner (sources.flatMap write ++ rest) = (sources.map value, rest) := by
  apply scanUpTo_flatMap scans stops
  rw [List.length_append]
  apply Nat.le_add_right_of_le
  clear scans
  induction sources with
  | nil => exact Nat.zero_le _
  | cons source later ih =>
      have visible := List.length_pos_iff.mpr (visible source)
      rw [List.flatMap_cons, List.length_append, List.length_cons]
      omega

/-- A list with commas, taken apart behind its first item. -/
theorem toList_intercalate_cons (first : String) (others : List String) :
    (String.intercalate ", " (first :: others)).toList =
      first.toList ++ others.flatMap fun other => ',' :: ' ' :: other.toList := by
  induction others generalizing first with
  | nil => simp
  | cons other later ih =>
      rw [String.intercalate_cons_cons, String.toList_append, String.toList_append, ih,
        List.flatMap_cons]
      simp

theorem scans_list {write : β -> String}
    (scans : forall source, source ∈ sources -> Scans scanner (value source) (write source).toList)
    (nonempty : sources ≠ []) :
    Scans (scanList scanner) (sources.map value)
      (String.intercalate ", " (sources.map write) ++ "]").toList := by
  intro rest
  cases sources with
  | nil => exact absurd rfl nonempty
  | cons first others =>
      have later : scanMany (fun input => (behind [',', ' '] input).bind scanner)
          (others.flatMap (fun other => ',' :: ' ' :: (write other).toList) ++ ']' :: rest) =
            (others.map value, ']' :: rest) := by
        apply scanMany_flatMap
        · exact fun other member => scans other (List.mem_cons_of_mem _ member)
        · exact fun _ => List.cons_ne_nil _ _
        · rfl
      have written : (String.intercalate ", " ((first :: others).map write) ++ "]").toList ++ rest =
          (write first).toList ++
            (others.flatMap (fun other => ',' :: ' ' :: (write other).toList) ++ ']' :: rest) := by
        rw [String.toList_append, List.map_cons, toList_intercalate_cons, List.flatMap_map]
        simp
      rw [written, scanList, scans first List.mem_cons_self]
      simp [later, behind]

end

end Dot
end InjectionPlan
