import InjectionPlan.Session.Walk
import Mathlib.Data.List.TakeWhile

namespace InjectionPlan

/-!
# The texts of identifiers

An identifier's text consists of letters and digits and has neither a colon nor the letter that
marks a provider.  So the four texts that are made from an identifier, the identifier and its
provider, each alone or with the port of the header, never agree with one made from another
identifier, and what comes before the colon tells the node.
-/

/-- The header of the node with an identifier. -/
def headerOf (id : String) : String :=
  id ++ ":" ++ Diagram.headerPort

namespace Identifier

private theorem toList_text_numbered (number : Nat) :
    (numbered number).text.toList = 'N' :: Nat.toDigits 10 number := by
  change ("N" ++ toString number).toList = _
  rw [String.toList_append, Nat.toString_eq_repr, Nat.toList_repr]
  rfl

private theorem text_root_ne_numbered (number : Nat) : root.text ≠ (numbered number).text := by
  intro same
  have letters := congrArg String.toList same
  rw [toList_text_numbered] at letters
  exact absurd (List.head_eq_of_cons_eq letters) (by decide)

theorem text_injective {left right : Identifier} (same : left.text = right.text) :
    left = right := by
  cases left with
  | root =>
      cases right with
      | root => rfl
      | numbered number => exact absurd same (text_root_ne_numbered number)
  | numbered first =>
      cases right with
      | root => exact absurd same.symm (text_root_ne_numbered first)
      | numbered second =>
          have digits := congrArg String.toList same
          rw [toList_text_numbered, toList_text_numbered, List.cons.injEq] at digits
          have numbers := congrArg (fun digits => Nat.ofDigitChars 10 digits 0) digits.2
          simp only [Nat.ofDigitChars_ten_toDigits] at numbers
          exact congrArg numbered numbers

/-- Apart from the letters of the root's identifier there are only `N` and digits. -/
private theorem not_mem_text {character : Char} (inRoot : character ∉ "root".toList)
    (capital : character ≠ 'N') (noDigit : character.isDigit = false) (identifier : Identifier) :
    character ∉ identifier.text.toList := by
  cases identifier with
  | root => exact inRoot
  | numbered number =>
      rw [toList_text_numbered, List.mem_cons]
      rintro (first | later)
      · exact capital first
      · have digit := Nat.isDigit_of_mem_toDigits (by decide) (by decide) later
        rw [noDigit] at digit
        cases digit

theorem colon_not_mem_text (identifier : Identifier) : ':' ∉ identifier.text.toList :=
  not_mem_text (by decide) (by decide) (by decide) identifier

theorem provider_not_mem_text (identifier : Identifier) : 'P' ∉ identifier.text.toList :=
  not_mem_text (by decide) (by decide) (by decide) identifier

theorem colon_not_mem_providerId (identifier : Identifier) :
    ':' ∉ (providerId identifier.text).toList := by
  unfold providerId
  rw [String.toList_append, List.mem_append]
  rintro (inText | atEnd)
  · exact identifier.colon_not_mem_text inText
  · exact absurd atEnd (by decide)

theorem text_ne_empty (identifier : Identifier) : identifier.text ≠ "" := by
  intro empty
  have letters := congrArg String.toList empty
  cases identifier with
  | root => exact absurd letters (by decide)
  | numbered number =>
      rw [toList_text_numbered] at letters
      cases letters

theorem providerId_ne_text (provider other : Identifier) :
    providerId provider.text ≠ other.text := by
  intro same
  apply other.provider_not_mem_text
  rw [← same, providerId, String.toList_append]
  exact List.mem_append_right _ (by decide)

theorem providerId_injective {left right : String} (same : providerId left = providerId right) :
    left = right := by
  have letters := congrArg String.toList same
  rw [providerId, providerId, String.toList_append, String.toList_append] at letters
  exact String.toList_injective (List.append_cancel_right letters)

end Identifier

/-! ## What comes before the colon -/

namespace Diagram

theorem splitPort_of_colon_not_mem {text : List Char} (plain : ':' ∉ text) :
    splitPort text = (text, none) := by
  have different : forall character, character ∈ text -> character ≠ ':' :=
    fun character member same => plain (same ▸ member)
  have node : text.takeWhile (· ≠ ':') = text :=
    List.takeWhile_eq_self_iff.mpr (by simpa using different)
  have rest : text.dropWhile (· ≠ ':') = [] :=
    List.dropWhile_eq_nil_iff.mpr (by simpa using different)
  rw [splitPort, node, rest]
  rfl

theorem splitPort_append_port {text : List Char} (plain : ':' ∉ text) (port : List Char) :
    splitPort (text ++ ':' :: port) = (text, some port) := by
  have different : forall character, character ∈ text -> character ≠ ':' :=
    fun character member same => plain (same ▸ member)
  have node : (text ++ ':' :: port).takeWhile (· ≠ ':') = text := by
    rw [List.takeWhile_append_of_pos (by simpa using different),
      List.takeWhile_cons_of_neg (by decide), List.append_nil]
  have rest : (text ++ ':' :: port).dropWhile (· ≠ ':') = ':' :: port := by
    rw [List.dropWhile_append_of_pos (by simpa using different),
      List.dropWhile_cons_of_neg (by decide)]
  rw [splitPort, node, rest]
  rfl

end Diagram

theorem toList_append_port (text port : String) :
    (text ++ ":" ++ port).toList = text.toList ++ ':' :: port.toList := by
  rw [String.toList_append, String.toList_append, List.append_assoc]
  rfl

/-- The part of an endpoint that names the node. -/
def stem (endpoint : String) : List Char :=
  (Diagram.splitPort endpoint.toList).1

theorem stem_of_colon_not_mem {id : String} (plain : ':' ∉ id.toList) : stem id = id.toList := by
  rw [stem, Diagram.splitPort_of_colon_not_mem plain]

theorem stem_append_port {id port : String} (plain : ':' ∉ id.toList) :
    stem (id ++ ":" ++ port) = id.toList := by
  rw [stem, toList_append_port, Diagram.splitPort_append_port plain]

theorem stem_headerOf {id : String} (plain : ':' ∉ id.toList) : stem (headerOf id) = id.toList :=
  stem_append_port plain

theorem colon_mem_headerOf (id : String) : ':' ∈ (headerOf id).toList := by
  unfold headerOf
  rw [String.toList_append, String.toList_append]
  exact List.mem_append_left _ (List.mem_append_right _ (by decide))

theorem headerOf_ne_text (id : String) (identifier : Identifier) :
    headerOf id ≠ identifier.text :=
  fun same => identifier.colon_not_mem_text (same ▸ colon_mem_headerOf id)

theorem headerOf_ne_empty (id : String) : headerOf id ≠ "" := by
  intro empty
  have colon := colon_mem_headerOf id
  rw [empty] at colon
  cases colon

end InjectionPlan
