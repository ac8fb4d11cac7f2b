import InjectionPlan.Json.Value
import InjectionPlan.Proofs.Grammar
import Mathlib.Algebra.Group.Int.Defs
import Mathlib.Algebra.Group.Nat.Defs

namespace InjectionPlan
namespace Json

open Number

/-!
# Strings and integers in compact text

What compact text has in the place of a string or of an integer is the text of a string with just
those characters (`spellsString_escaped`) and of a number with just that value
(`spellsNumber_numeralChars`).  Only control characters are written as code units, so no two code
units are taken for the halves of one character.
-/

/-! ## Strings -/

theorem hexUnit?_hexDigits : forall value, value < 0x20 ->
    hexUnit? '0' '0' (hexDigit (value / 16)) (hexDigit value) = some value := by
  decide

/-- A part of a string that comes from a character, as such or as a code unit below the space. -/
inductive Stands : StringPart -> Char -> Prop
  | char (character : Char) : Stands (.char character) character
  | codeUnit {character : Char} (control : character.toNat < 0x20) :
    Stands (.codeUnit character.toNat) character

/-- What is written for a character is one part of a string. -/
theorem spellsString_escapeChar (character : Char) :
    exists part, Stands part character ∧ forall {parts : List StringPart} {text : List Char},
      SpellsString parts text -> SpellsString (part :: parts) (escapeChar character ++ text) := by
  by_cases short : character ∈ ['"', '\\', '\x08', '\x0c', '\n', '\r', '\t']
  · refine ⟨.char character, .char character, fun rest => ?_⟩
    simp only [List.mem_cons, List.not_mem_nil, or_false] at short
    rcases short with rfl | rfl | rfl | rfl | rfl | rfl | rfl
    all_goals exact .escape (by decide) rest
  · simp only [List.mem_cons, List.not_mem_nil, or_false, not_or] at short
    rcases short with ⟨notQuote, notBackslash, notBack, notForm, notLine, notReturn, notTab⟩
    unfold escapeChar
    rw [if_neg notQuote, if_neg notBackslash, if_neg notBack, if_neg notForm, if_neg notLine,
      if_neg notReturn, if_neg notTab]
    split
    · next control =>
      exact ⟨.codeUnit character.toNat, .codeUnit control,
        .codeUnit (hexUnit?_hexDigits _ control)⟩
    · next plain =>
      exact ⟨.char character, .char character,
        .char ⟨notQuote, notBackslash, Nat.not_lt.mp plain⟩⟩

/-- A code unit below the surrogates is a character by itself. -/
theorem joinParts_codeUnit {value : Nat} (small : value < 0xd800) (rest : List StringPart) :
    joinParts (.codeUnit value :: rest) = (joinParts rest).map (Char.ofNat value :: ·) := by
  have notHigh : ¬(0xd800 ≤ value ∧ value < 0xdc00) := by omega
  have notLow : ¬(0xdc00 ≤ value ∧ value < 0xe000) := by omega
  have alone : ¬(0xd800 ≤ value ∧ value < 0xe000) := by omega
  rcases rest with _ | ⟨_ | low, rest⟩
  · simp only [joinParts, if_neg alone]
  · simp only [joinParts, if_neg alone]
  · rw [joinParts, if_neg notHigh, if_neg notLow]

theorem joinParts_of_stands {part : StringPart} {character : Char} (stands : Stands part character)
    (rest : List StringPart) :
    joinParts (part :: rest) = (joinParts rest).map (character :: ·) := by
  cases stands with
  | char _ => rfl
  | codeUnit control =>
      rw [joinParts_codeUnit (by omega), Char.ofNat_toNat]

/-- An escaped string with its quote is a string, and its parts are its characters. -/
theorem spellsString_escaped (text : List Char) :
    exists parts, SpellsString parts (text.flatMap escapeChar ++ ['"']) ∧
      joinParts parts = some text := by
  induction text with
  | nil => exact ⟨[], .nil, rfl⟩
  | cons character more ih =>
      rcases spellsString_escapeChar character with ⟨part, stands, longer⟩
      rcases ih with ⟨parts, spells, joined⟩
      refine ⟨part :: parts, ?_, ?_⟩
      · rw [List.flatMap_cons, List.append_assoc]
        exact longer spells
      · rw [joinParts_of_stands stands, joined]
        rfl

/-! ## Integers -/

/-- The decimal digits of a number, as numbers. -/
def digitsOf (number : Nat) : List Nat :=
  (Nat.toDigits 10 number).map fun digit => digit.toNat - '0'.toNat

theorem spellsDigits_toDigits (number : Nat) :
    SpellsDigits (digitsOf number) (Nat.toDigits 10 number) where
  present := Nat.toDigits_ne_nil
  decimal _ member := Nat.isDigit_of_mem_toDigits (by decide) (by decide) member
  stand := rfl

theorem digitsValue_digitsOf (number : Nat) : digitsValue (digitsOf number) = number := by
  have same := Nat.ofDigitChars_ten_toDigits (n := number)
  rw [Nat.ofDigitChars_eq_foldl] at same
  rw [digitsValue, digitsOf, List.foldl_map]
  simpa [Nat.mul_comm] using same

/-- A number is not written with a zero in front. -/
theorem head?_digitsOf_ne_zero {number : Nat} (positive : 0 < number) :
    (digitsOf number).head? ≠ some 0 := by
  induction number using Nat.strongRecOn with
  | ind number ih =>
      by_cases small : number < 10
      · have single : forall digit, digit < 10 -> 0 < digit ->
            (digitsOf digit).head? ≠ some 0 := by decide
        exact single number small positive
      · have split := Nat.toDigits_of_base_le (show 1 < 10 by decide) (Nat.le_of_not_lt small)
        have front := ih (number / 10) (by omega) (by omega)
        unfold digitsOf at front ⊢
        rw [split, List.map_append, List.head?_append]
        cases digits : (Nat.toDigits 10 (number / 10)).map fun digit =>
            digit.toNat - '0'.toNat with
        | nil => exact absurd (List.map_eq_nil_iff.mp digits) Nat.toDigits_ne_nil
        | cons first rest =>
            rw [digits] at front
            exact front

theorem spellsNumber_toDigits (negative : Bool) (number : Nat) :
    SpellsNumber ⟨negative, digitsOf number, none, none⟩
      ((if negative then ['-'] else []) ++ Nat.toDigits 10 number) := by
  have regular : (digitsOf number).head? = some 0 -> (digitsOf number).length = 1 := by
    intro zero
    rcases Nat.eq_zero_or_pos number with rfl | positive
    · rfl
    · exact absurd zero (head?_digitsOf_ne_zero positive)
  have spells := SpellsNumber.mk negative (spellsDigits_toDigits number) regular .absent .absent
  simpa using spells

/-- The integers that are read without loss. -/
def InRange (value : Int) : Prop :=
  -2 ^ 63 ≤ value ∧ value < 2 ^ 64

instance (value : Int) : Decidable (InRange value) :=
  inferInstanceAs (Decidable (_ ∧ _))

theorem numeral?_natural {number : Nat} (small : number < 2 ^ 64) :
    Literal.numeral? ⟨false, digitsOf number, none, none⟩ = some (.integer number) := by
  have value := digitsValue_digitsOf number
  unfold digitsValue at value
  unfold Literal.numeral? Literal.integer?
  dsimp only
  rw [value, if_neg Bool.false_ne_true, if_pos (show number < Literal.significandLimit from small)]

theorem numeral?_negative {number : Nat} (positive : 0 < number) (small : number ≤ 2 ^ 63) :
    Literal.numeral? ⟨true, digitsOf number, none, none⟩ = some (.integer (-number)) := by
  have value := digitsValue_digitsOf number
  unfold digitsValue at value
  unfold Literal.numeral? Literal.integer?
  dsimp only
  rw [value, if_pos rfl, if_pos ⟨positive, small⟩]

/-- An integer in range is written as a number of that value. -/
theorem spellsNumber_numeralChars {value : Int} (inRange : InRange value) :
    exists literal, SpellsNumber literal (numeralChars (.integer value)) ∧
      literal.numeral? = some (.integer value) := by
  cases value with
  | ofNat number =>
      have small : number < 2 ^ 64 := by
        have bound : (number : Int) < 2 ^ 64 := inRange.2
        omega
      exact ⟨_, spellsNumber_toDigits false number, numeral?_natural small⟩
  | negSucc before =>
      have small : before + 1 ≤ 2 ^ 63 := by
        have bound := inRange.1
        omega
      exact ⟨_, spellsNumber_toDigits true (before + 1),
        numeral?_negative (Nat.succ_pos before) small⟩

end Json
end InjectionPlan
