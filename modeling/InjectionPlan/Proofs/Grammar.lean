import InjectionPlan.Json.Lexeme
import Mathlib.Data.List.Basic

namespace InjectionPlan
namespace Json

open Number

/-!
# The grammar of strings and numbers

The relations of this module say which texts are strings and numbers, with what parts, and mention
no scanner.  The scanners take exactly such a text off the front of what they are given: whatever
the grammar admits is scanned (`SpellsString.scanned`, `SpellsNumber.scanned`), and whatever is
scanned is admitted by the grammar (`spellsString_of_scanned`, `spellsNumber_of_scanned`).  A number
is scanned only as far as it goes, so what follows must not go on with it.
-/

/-! ## Strings -/

/-- The text of a string with its closing quote but without the opening one. -/
inductive SpellsString : List StringPart -> List Char -> Prop
  | nil : SpellsString [] ['"']
  | codeUnit {first second third fourth : Char} {value : Nat} {parts : List StringPart}
    {text : List Char} (digits : hexUnit? first second third fourth = some value)
    (rest : SpellsString parts text) :
    SpellsString (.codeUnit value :: parts)
      ('\\' :: 'u' :: first :: second :: third :: fourth :: text)
  | escape {letter value : Char} {parts : List StringPart} {text : List Char}
    (stands : shortEscape? letter = some value) (rest : SpellsString parts text) :
    SpellsString (.char value :: parts) ('\\' :: letter :: text)
  | char {value : Char} {parts : List StringPart} {text : List Char}
    (plain : value ≠ '"' ∧ value ≠ '\\' ∧ 0x20 ≤ value.toNat) (rest : SpellsString parts text) :
    SpellsString (.char value :: parts) (value :: text)

theorem scanString_shortEscape {letter character : Char} (rest : List Char)
    (notUnit : letter ≠ 'u') (stands : shortEscape? letter = some character) :
    scanString ('\\' :: letter :: rest) =
      (scanString rest).map fun (parts, after) => (.char character :: parts, after) := by
  rw [scanString]
  · rw [stands]
  · intro first second third fourth more same
    exact absurd same notUnit

theorem SpellsString.scanned {parts : List StringPart} {text : List Char}
    (spells : SpellsString parts text) (rest : List Char) :
    scanString (text ++ rest) = some (parts, rest) := by
  induction spells with
  | nil => rfl
  | codeUnit digits _ ih => simp only [List.cons_append, scanString, digits, ih, Option.map_some]
  | @escape letter value parts text stands _ ih =>
      have notUnit : letter ≠ 'u' := by
        rintro rfl
        cases stands
      rw [List.cons_append, List.cons_append, scanString_shortEscape _ notUnit stands, ih]
      rfl
  | @char value parts text plain _ ih =>
      have regular : ¬(value = '\\' ∨ value.toNat < 0x20) :=
        not_or.mpr ⟨plain.2.1, Nat.not_lt.mpr plain.2.2⟩
      rw [List.cons_append, scanString, if_neg regular, ih]
      · rfl
      · exact plain.1
      · exact fun _ _ _ _ _ same _ => plain.2.1 same
      · exact fun _ _ same _ => plain.2.1 same

/-- Decimal digits, at least one. -/
structure SpellsDigits (digits : List Nat) (text : List Char) : Prop where
  present : text ≠ []
  decimal : forall character, character ∈ text -> character.isDigit = true
  stand : digits = text.map fun digit => digit.toNat - '0'.toNat

/-- The digits after a point, if there is one. -/
inductive SpellsFraction : Option (List Nat) -> List Char -> Prop
  | absent : SpellsFraction none []
  | present {digits : List Nat} {text : List Char} (spells : SpellsDigits digits text) :
    SpellsFraction (some digits) ('.' :: text)

/-- The sign of an exponent. -/
inductive SpellsSign : Bool -> List Char -> Prop
  | none : SpellsSign false []
  | plus : SpellsSign false ['+']
  | minus : SpellsSign true ['-']

/-- The exponent after its mark, if there is one. -/
inductive SpellsExponent : Option Int -> List Char -> Prop
  | absent : SpellsExponent none []
  | present {mark : Char} {negative : Bool} {sign text : List Char} {digits : List Nat}
    (marked : mark = 'e' ∨ mark = 'E') (signed : SpellsSign negative sign)
    (spells : SpellsDigits digits text) :
    SpellsExponent (some (if negative then -(digitsValue digits : Int) else digitsValue digits))
      (mark :: sign ++ text)

/-- The text of a number: a sign, whole digits with no zero in front of others, a fraction and an
exponent. -/
inductive SpellsNumber : Literal -> List Char -> Prop
  | mk (negative : Bool) {whole : List Nat} {fraction : Option (List Nat)} {exponent : Option Int}
    {wholeText fractionText exponentText : List Char} (digits : SpellsDigits whole wholeText)
    (regular : whole.head? = some 0 -> whole.length = 1)
    (further : SpellsFraction fraction fractionText)
    (scaled : SpellsExponent exponent exponentText) :
    SpellsNumber ⟨negative, whole, fraction, exponent⟩
      ((if negative then ['-'] else []) ++ (wholeText ++ (fractionText ++ exponentText)))

/-- A text with which no number can go on. -/
def Breaks (rest : List Char) : Prop :=
  forall character, character ∈ rest.head? ->
    character.isDigit = false ∧ character ≠ '.' ∧ character ≠ 'e' ∧ character ≠ 'E'

theorem breaks_nil : Breaks [] := fun _ impossible => nomatch impossible

theorem breaks_cons {character : Char} (apart : character ∈ [',', ']', '\x7d'])
    (rest : List Char) : Breaks (character :: rest) := by
  intro same member
  cases member
  simp only [List.mem_cons, List.not_mem_nil, or_false] at apart
  rcases apart with rfl | rfl | rfl
  all_goals exact ⟨rfl, by decide, by decide, by decide⟩

/-- A text with which no run of digits can go on. -/
def EndsDigits (rest : List Char) : Prop :=
  forall character, character ∈ rest.head? -> character.isDigit = false

theorem Breaks.endsDigits {rest : List Char} (breaks : Breaks rest) : EndsDigits rest :=
  fun character first => (breaks character first).1

namespace SpellsDigits

variable {digits : List Nat} {text : List Char}

theorem scanned (spells : SpellsDigits digits text) {rest : List Char} (ends : EndsDigits rest) :
    scanDigits (text ++ rest) = (digits, rest) := by
  have taken : (text ++ rest).takeWhile Char.isDigit = text ∧
      (text ++ rest).dropWhile Char.isDigit = rest := by
    rw [List.takeWhile_append_of_pos spells.decimal, List.dropWhile_append_of_pos spells.decimal]
    cases rest with
    | nil => exact ⟨List.append_nil _, rfl⟩
    | cons first more =>
        have stops := ends first rfl
        rw [List.takeWhile_cons_of_neg (by simp [stops]),
          List.dropWhile_cons_of_neg (by simp [stops])]
        exact ⟨List.append_nil _, rfl⟩
  rw [scanDigits, taken.1, taken.2, spells.stand]

theorem not_isEmpty (spells : SpellsDigits digits text) : digits.isEmpty = false := by
  rw [List.isEmpty_eq_false_iff, spells.stand]
  exact fun empty => spells.present (List.map_eq_nil_iff.mp empty)

theorem first (spells : SpellsDigits digits text) :
    exists character more, text = character :: more ∧ character.isDigit = true := by
  rcases text with _ | ⟨character, more⟩
  · exact absurd rfl spells.present
  · exact ⟨character, more, rfl, spells.decimal character List.mem_cons_self⟩

end SpellsDigits

/-- A fraction or an exponent after digits does not go on with the digits. -/
theorem SpellsFraction.endsDigits {fraction : Option (List Nat)} {text rest : List Char}
    (spells : SpellsFraction fraction text) (ends : EndsDigits rest) :
    EndsDigits (text ++ rest) := by
  cases spells with
  | absent => exact ends
  | present => exact fun character first => Option.mem_some.mp first ▸ rfl

theorem SpellsExponent.endsDigits {exponent : Option Int} {text rest : List Char}
    (spells : SpellsExponent exponent text) (ends : EndsDigits rest) :
    EndsDigits (text ++ rest) := by
  cases spells with
  | absent => exact ends
  | present marked =>
      intro character first
      cases first
      rcases marked with rfl | rfl
      · rfl
      · rfl

theorem SpellsFraction.scanned {fraction : Option (List Nat)} {text rest : List Char}
    (spells : SpellsFraction fraction text) (ends : EndsDigits rest)
    (noPoint : rest.head? ≠ some '.') :
    scanFraction (text ++ rest) = some (fraction, rest) := by
  cases spells with
  | absent =>
      rw [List.nil_append, scanFraction]
      rintro more rfl
      exact noPoint rfl
  | present digits =>
      rw [List.cons_append, scanFraction, digits.scanned ends]
      dsimp only
      rw [digits.not_isEmpty, if_neg Bool.false_ne_true]

theorem scanExponent_of_breaks {rest : List Char} (breaks : Breaks rest) :
    scanExponent rest = some (none, rest) := by
  cases rest with
  | nil => rfl
  | cons first more =>
      rcases breaks first rfl with ⟨_, _, notSmall, notLarge⟩
      exact if_neg (fun mark => mark.elim notSmall notLarge)

theorem SpellsDigits.exponentScanned {digits : List Nat} {text rest : List Char}
    (spells : SpellsDigits digits text) (negative : Bool) (ends : EndsDigits rest) :
    scanExponentDigits negative (text ++ rest) =
      some (some (if negative then -(digitsValue digits : Int) else digitsValue digits), rest) := by
  rw [scanExponentDigits, spells.scanned ends]
  dsimp only
  rw [spells.not_isEmpty, if_neg Bool.false_ne_true]

theorem SpellsExponent.scanned {exponent : Option Int} {text rest : List Char}
    (spells : SpellsExponent exponent text) (breaks : Breaks rest) :
    scanExponent (text ++ rest) = some (exponent, rest) := by
  cases spells with
  | absent => exact scanExponent_of_breaks breaks
  | @present mark negative sign text digits marked signed spells =>
      rw [List.cons_append, List.cons_append, List.append_assoc]
      unfold scanExponent
      dsimp only
      rw [if_pos marked]
      cases signed with
      | none =>
          rcases spells.first with ⟨first, more, text_eq, isDigit⟩
          have scans := spells.exponentScanned false breaks.endsDigits
          rw [List.nil_append]
          split
          · next digits same =>
            rw [text_eq] at same
            rw [(List.cons.inj same).1] at isDigit
            cases isDigit
          · next digits same =>
            rw [text_eq] at same
            rw [(List.cons.inj same).1] at isDigit
            cases isDigit
          · exact scans
      | plus => exact spells.exponentScanned false breaks.endsDigits
      | minus => exact spells.exponentScanned true breaks.endsDigits

theorem noPoint_of_spellsExponent {exponent : Option Int} {text rest : List Char}
    (spells : SpellsExponent exponent text) (breaks : Breaks rest) :
    (text ++ rest).head? ≠ some '.' := by
  cases spells with
  | absent => exact fun point => (breaks '.' point).2.1 rfl
  | present marked =>
      intro point
      cases point
      rcases marked with impossible | impossible <;> cases impossible

/-- A number is scanned to its end if what follows does not go on with it. -/
theorem SpellsNumber.scanned {literal : Literal} {text rest : List Char}
    (spells : SpellsNumber literal text) (breaks : Breaks rest) :
    scanNumber (text ++ rest) = some (literal, rest) := by
  cases spells with
  | @mk negative whole fraction exponent wholeText fractionText exponentText digits regular
      further scaled =>
      have afterFraction : EndsDigits (exponentText ++ rest) := scaled.endsDigits breaks.endsDigits
      have allowed : ¬(whole.isEmpty ∨ (whole.head? = some 0 ∧ 1 < whole.length)) := by
        rintro (empty | ⟨zero, long⟩)
        · exact absurd (digits.not_isEmpty.symm.trans empty) Bool.false_ne_true
        · have single := regular zero
          omega
      have magnitude : scanMagnitude negative
          (wholeText ++ (fractionText ++ (exponentText ++ rest))) =
            some (⟨negative, whole, fraction, exponent⟩, rest) := by
        rw [scanMagnitude, digits.scanned (further.endsDigits afterFraction)]
        dsimp only
        rw [if_neg allowed,
          further.scanned afterFraction (noPoint_of_spellsExponent scaled breaks)]
        dsimp only
        rw [scaled.scanned breaks]
      simp only [List.append_assoc]
      cases negative with
      | true => exact magnitude
      | false =>
          rcases digits.first with ⟨first, more, rfl, isDigit⟩
          rw [if_neg Bool.false_ne_true, List.nil_append, List.cons_append, scanNumber]
          · exact magnitude
          · rintro _ same
            rw [(List.cons.inj same).1] at isDigit
            cases isDigit

end Json
end InjectionPlan
