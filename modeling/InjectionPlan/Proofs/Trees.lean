import InjectionPlan.Json.Record
import InjectionPlan.Proofs.Lexemes
import InjectionPlan.Proofs.Spelling

namespace InjectionPlan
namespace Json

open Number

/-!
# Values, their trees and their text

The tree of a value says what the value says, and the compact text of a value spells its tree
(`Value.Integral.spelled`), so it is read as that tree.  From the tree the value itself is read if
there is room for its arrays and objects and their members are sorted by name
(`Value.Integral.recovered`); the members of any value that was read are
(`Value.sorted_of_value?`).
-/

namespace Value

/-! ## Trees of values -/

mutual

/-- The tree of a value. -/
def tree : Value -> Tree
  | null => .null
  | bool value => .bool value
  | number value => .number value
  | string text => .string text
  | array items => .array (itemTrees items) true
  | object members => .object (memberTrees members) true

def itemTrees : List Value -> List Tree
  | [] => []
  | first :: rest => tree first :: itemTrees rest

def memberTrees : List (String × Value) -> List (Name × Tree)
  | [] => []
  | (name, value) :: rest => (.text name, tree value) :: memberTrees rest

end

theorem memberTrees_eq_map (members : List (String × Value)) :
    memberTrees members = members.map fun member => (.text member.1, member.2.tree) := by
  induction members with
  | nil => rfl
  | cons member rest ih => rw [memberTrees, ih, List.map_cons]

mutual

/-- How many arrays and objects contain one another. -/
def depth : Value -> Nat
  | array items => itemsDepth items + 1
  | object members => membersDepth members + 1
  | null | bool _ | number _ | string _ => 0

def itemsDepth : List Value -> Nat
  | [] => 0
  | first :: rest => max (depth first) (itemsDepth rest)

def membersDepth : List (String × Value) -> Nat
  | [] => 0
  | (_, value) :: rest => max (depth value) (membersDepth rest)

end

theorem depth_le_membersDepth {name : String} {value : Value} {members : List (String × Value)}
    (member : (name, value) ∈ members) : value.depth ≤ membersDepth members := by
  induction members with
  | nil => cases member
  | cons first rest ih =>
      rcases first with ⟨other, own⟩
      rw [membersDepth]
      rcases List.mem_cons.mp member with same | later
      · cases same
        exact Nat.le_max_left _ _
      · exact Nat.le_trans (ih later) (Nat.le_max_right _ _)

theorem membersDepth_append (first second : List (String × Value)) :
    membersDepth (first ++ second) = max (membersDepth first) (membersDepth second) := by
  induction first with
  | nil => exact (Nat.zero_max _).symm
  | cons member rest ih => rw [List.cons_append, membersDepth, membersDepth, ih, Nat.max_assoc]

/-- A value all of whose numbers are integers in range. -/
inductive Integral : Value -> Prop
  | null : Integral .null
  | bool (value : Bool) : Integral (.bool value)
  | string (text : String) : Integral (.string text)
  | integer {value : Int} (inRange : InRange value) : Integral (.number (.integer value))
  | array {items : List Value} (each : forall item, item ∈ items -> Integral item) :
    Integral (.array items)
  | object {members : List (String × Value)}
    (each : forall member, member ∈ members -> Integral member.2) : Integral (.object members)

/-! ## The grammar of compact text -/

theorem spells_quote (text : String) : Spells (.value (.string text)) (quote text) := by
  rcases spellsString_escaped text.toList with ⟨parts, spells, joined⟩
  have whole := Spells.string spells
  rw [partsTree, joined] at whole
  dsimp only at whole
  rw [String.ofList_toList] at whole
  exact whole

theorem spellsName_quote (name : String) : SpellsName (.text name) (quote name) := by
  rcases spellsString_escaped name.toList with ⟨parts, spells, joined⟩
  have whole := SpellsName.mk blanks_nil spells blanks_nil
  rw [partsName, joined, List.append_nil, List.nil_append] at whole
  dsimp only at whole
  rw [String.ofList_toList] at whole
  exact whole

theorem spells_numeralChars {value : Int} (inRange : InRange value) :
    Spells (.value (.number (.integer value))) (numeralChars (.integer value)) := by
  rcases spellsNumber_numeralChars inRange with ⟨literal, spells, numeral⟩
  have whole := Spells.number spells
  rw [literalTree, numeral] at whole
  exact whole

/-- Items that are spelled one by one are spelled up to the end of their array. -/
theorem spells_itemChars {first : Value} {rest : List Value}
    (each : forall item, item ∈ first :: rest -> Spells (.value item.tree) item.chars) :
    exists text, first.chars ++ itemChars rest = text ++ [']'] ∧
      Spells (.items (itemTrees (first :: rest))) text := by
  induction rest generalizing first with
  | nil => exact ⟨first.chars, rfl, .item (each first List.mem_cons_self)⟩
  | cons second rest ih =>
      rcases ih fun item member => each item (List.mem_cons_of_mem _ member) with
        ⟨text, split, spells⟩
      refine ⟨first.chars ++ ',' :: text, ?_, .items (each first List.mem_cons_self) spells⟩
      rw [itemChars, List.cons_append, split, List.append_assoc]
      rfl

/-- So are members with their names. -/
theorem spells_memberChars {name : String} {value : Value} {rest : List (String × Value)}
    (each : forall member, member ∈ (name, value) :: rest ->
      Spells (.value member.2.tree) member.2.chars) :
    exists text, quote name ++ ':' :: value.chars ++ memberChars rest = text ++ ['\x7d'] ∧
      Spells (.members (memberTrees ((name, value) :: rest))) text := by
  have own := each (name, value) List.mem_cons_self
  induction rest generalizing name value with
  | nil => exact ⟨_, rfl, .member (spellsName_quote name) own⟩
  | cons second rest ih =>
      rcases second with ⟨other, further⟩
      have later := fun member isMember => each member (List.mem_cons_of_mem _ isMember)
      rcases ih later (later (other, further) List.mem_cons_self) with ⟨text, split, spells⟩
      refine ⟨quote name ++ ':' :: (value.chars ++ ',' :: text), ?_,
        .members (spellsName_quote name) own spells⟩
      simp only [memberChars, List.append_assoc, List.cons_append] at split ⊢
      rw [split]

/-- The text of a value spells its tree. -/
theorem Integral.spells {value : Value} (integral : value.Integral) :
    Spells (.value value.tree) value.chars := by
  induction integral with
  | null => exact .null
  | bool value => cases value <;> constructor
  | string text => exact spells_quote text
  | integer inRange => exact spells_numeralChars inRange
  | @array items _ ih =>
      cases items with
      | nil => exact .emptyArray blanks_nil
      | cons first rest =>
          rcases spells_itemChars ih with ⟨text, split, spells⟩
          have whole := Spells.array spells
          rw [← split] at whole
          exact whole
  | @object members _ ih =>
      rcases members with _ | ⟨⟨name, value⟩, rest⟩
      · exact .emptyObject blanks_nil
      · rcases spells_memberChars ih with ⟨text, split, spells⟩
        have whole := Spells.object spells
        rw [← split] at whole
        exact whole

/-! ## Reading the tree -/

/-- A value whose objects name their members in increasing order and each name once. -/
inductive Sorted : Value -> Prop
  | null : Sorted .null
  | bool (value : Bool) : Sorted (.bool value)
  | number (value : Numeral) : Sorted (.number value)
  | string (text : String) : Sorted (.string text)
  | array {items : List Value} (each : forall item, item ∈ items -> Sorted item) :
    Sorted (.array items)
  | object {members : List (String × Value)}
    (increasing : members.Pairwise fun left right => left.1 < right.1)
    (each : forall member, member ∈ members -> Sorted member.2) : Sorted (.object members)

/-- With enough room the tree of a value gives a value, and a sorted value is given back. -/
def Recovered (value : Value) : Prop :=
  forall room, value.depth ≤ room ->
    exists found, value.tree.value? room = some found ∧ (value.Sorted -> found = value)

theorem insertMember_last {name : String} {before : List (String × Value)}
    (smaller : forall member, member ∈ before -> member.1 < name) (value : Value) :
    insertMember name value before = before ++ [(name, value)] := by
  induction before with
  | nil => rfl
  | cons first rest ih =>
      have less : first.1 < name := smaller first List.mem_cons_self
      have notLess : ¬ name < first.1 := String.not_lt.mpr (Std.le_of_lt less)
      have different : name ≠ first.1 := Ne.symm (Std.ne_of_lt less)
      rw [insertMember, if_neg notLess, if_neg different,
        ih fun member isMember => smaller member (List.mem_cons_of_mem _ isMember)]
      rfl

theorem items?_of_recovered {items : List Value}
    (each : forall item, item ∈ items -> item.Recovered) {room : Nat}
    (enough : itemsDepth items ≤ room) :
    exists found, Tree.items? room (itemTrees items) = some found ∧
      ((forall item, item ∈ items -> item.Sorted) -> found = items) := by
  induction items with
  | nil => exact ⟨[], rfl, fun _ => rfl⟩
  | cons first rest ih =>
      rw [itemsDepth] at enough
      rcases each first List.mem_cons_self room (by omega) with ⟨value, own, same⟩
      rcases ih (fun item member => each item (List.mem_cons_of_mem _ member)) (by omega) with
        ⟨values, later, sameLater⟩
      refine ⟨value :: values, ?_, fun sorted => ?_⟩
      · rw [itemTrees, Tree.items?, own, later]
      · rw [same (sorted first List.mem_cons_self),
          sameLater fun item member => sorted item (List.mem_cons_of_mem _ member)]

/-- Members are added one after the other to those that came before. -/
theorem members?_of_recovered {members : List (String × Value)}
    (each : forall member, member ∈ members -> member.2.Recovered) {room : Nat}
    (enough : membersDepth members ≤ room) (before : List (String × Value)) :
    exists found, Tree.members? room (memberTrees members) before = some found ∧
      ((before ++ members).Pairwise (fun left right => left.1 < right.1) ->
        (forall member, member ∈ members -> member.2.Sorted) -> found = before ++ members) := by
  induction members generalizing before with
  | nil => exact ⟨before, rfl, fun _ _ => (List.append_nil before).symm⟩
  | cons first rest ih =>
      rcases first with ⟨name, value⟩
      rw [membersDepth] at enough
      have own : value.Recovered := each (name, value) List.mem_cons_self
      rcases own room (by omega) with ⟨found, reads, same⟩
      rcases ih (fun member isMember => each member (List.mem_cons_of_mem _ isMember)) (by omega)
        (insertMember name found before) with ⟨all, later, sameLater⟩
      refine ⟨all, ?_, fun increasing sorted => ?_⟩
      · rw [memberTrees, Tree.members?, reads]
        exact later
      · have smaller : forall member, member ∈ before -> member.1 < name := fun member isMember =>
          (List.pairwise_append.mp increasing).2.2 member isMember _ List.mem_cons_self
        have last : insertMember name found before = before ++ [(name, value)] := by
          rw [same (sorted (name, value) List.mem_cons_self)]
          exact insertMember_last smaller value
        rw [List.append_cons] at increasing ⊢
        rw [last] at sameLater
        exact sameLater increasing fun member isMember =>
          sorted member (List.mem_cons_of_mem _ isMember)

theorem Integral.recovered {value : Value} (integral : value.Integral) : value.Recovered := by
  induction integral with
  | null => exact fun _ _ => ⟨_, rfl, fun _ => rfl⟩
  | bool value => exact fun _ _ => ⟨_, rfl, fun _ => rfl⟩
  | string text => exact fun _ _ => ⟨_, rfl, fun _ => rfl⟩
  | integer inRange => exact fun _ _ => ⟨_, rfl, fun _ => rfl⟩
  | @array items each ih =>
      intro room enough
      rw [depth] at enough
      have notFull : ¬ (room = 0 ∨ true = false) := by simp; omega
      rcases items?_of_recovered ih (show itemsDepth items ≤ room - 1 by omega) with
        ⟨found, reads, same⟩
      refine ⟨.array found, ?_, fun sorted => ?_⟩
      · rw [tree, Tree.value?, if_neg notFull, reads]
        rfl
      · cases sorted with
        | array each => rw [same each]
  | @object members each ih =>
      intro room enough
      rw [depth] at enough
      have notFull : ¬ (room = 0 ∨ true = false) := by simp; omega
      rcases members?_of_recovered ih (show membersDepth members ≤ room - 1 by omega) [] with
        ⟨found, reads, same⟩
      refine ⟨.object found, ?_, fun sorted => ?_⟩
      · rw [tree, Tree.value?, if_neg notFull, reads]
        rfl
      · cases sorted with
        | object increasing each => rw [same increasing each, List.nil_append]

/-! ### Values that were read are sorted -/

theorem mem_insertMember {name : String} {value : Value} {members : List (String × Value)}
    {member : String × Value} (isMember : member ∈ insertMember name value members) :
    member = (name, value) ∨ member ∈ members := by
  induction members with
  | nil => exact Or.inl (List.mem_singleton.mp isMember)
  | cons first rest ih =>
      rw [insertMember] at isMember
      split at isMember
      · exact List.mem_cons.mp isMember
      · split at isMember
        · exact (List.mem_cons.mp isMember).imp_right (List.mem_cons_of_mem _)
        · rcases List.mem_cons.mp isMember with same | later
          · exact Or.inr (same ▸ List.mem_cons_self)
          · exact (ih later).imp_right (List.mem_cons_of_mem _)

theorem pairwise_insertMember (name : String) (value : Value) {members : List (String × Value)}
    (increasing : members.Pairwise fun left right => left.1 < right.1) :
    (insertMember name value members).Pairwise fun left right => left.1 < right.1 := by
  induction members with
  | nil => exact List.pairwise_singleton _ _
  | cons first rest ih =>
      rcases List.pairwise_cons.mp increasing with ⟨smallest, later⟩
      rw [insertMember]
      split
      · next less =>
        refine List.pairwise_cons.mpr ⟨fun member isMember => ?_, increasing⟩
        rcases List.mem_cons.mp isMember with rfl | isLater
        · exact less
        · exact String.lt_trans less (smallest member isLater)
      · next notLess =>
        split
        · next same => exact List.pairwise_cons.mpr ⟨same ▸ smallest, later⟩
        · next different =>
          refine List.pairwise_cons.mpr ⟨fun member isMember => ?_, ih later⟩
          rcases mem_insertMember isMember with rfl | isLater
          · exact Std.lt_of_le_of_ne (String.not_lt.mp notLess) (Ne.symm different)
          · exact smallest member isLater

mutual

/-- Whatever value a tree gives is sorted. -/
theorem sorted_of_value? (room : Nat) :
    forall {tree : Tree} {value : Value}, tree.value? room = some value -> value.Sorted
  | .null, _, rfl => .null
  | .bool value, _, rfl => .bool value
  | .number value, _, rfl => .number value
  | .string text, _, rfl => .string text
  | .array items closed, value, reads => by
      rw [Tree.value?] at reads
      split at reads
      · cases reads
      · rcases Option.map_eq_some_iff.mp reads with ⟨values, inside, rfl⟩
        exact .array (sorted_of_items? (room - 1) inside)
  | .object members closed, value, reads => by
      rw [Tree.value?] at reads
      split at reads
      · cases reads
      · rcases Option.map_eq_some_iff.mp reads with ⟨found, inside, rfl⟩
        have sorted := sorted_of_members? (room - 1) inside .nil nofun
        exact .object sorted.1 sorted.2

theorem sorted_of_items? (room : Nat) :
    forall {trees : List Tree} {values : List Value}, Tree.items? room trees = some values ->
      forall value, value ∈ values -> value.Sorted
  | [], _, rfl, _, isValue => nomatch isValue
  | first :: rest, values, reads, value, isValue => by
      rw [Tree.items?] at reads
      split at reads
      · next own others ownReads restReads =>
        cases reads
        rcases List.mem_cons.mp isValue with rfl | later
        · exact sorted_of_value? room ownReads
        · exact sorted_of_items? room restReads value later
      · cases reads

theorem sorted_of_members? (room : Nat) :
    forall {trees : List (Name × Tree)} {before members : List (String × Value)},
      Tree.members? room trees before = some members ->
      before.Pairwise (fun left right => left.1 < right.1) ->
      (forall member, member ∈ before -> member.2.Sorted) ->
      members.Pairwise (fun left right => left.1 < right.1) ∧
        forall member, member ∈ members -> member.2.Sorted
  | [], _, _, rfl, increasing, each => ⟨increasing, each⟩
  | (.text name, tree) :: rest, before, members, reads, increasing, each => by
      rw [Tree.members?] at reads
      split at reads
      · next value own =>
        refine sorted_of_members? room reads (pairwise_insertMember name value increasing) ?_
        intro member isMember
        rcases mem_insertMember isMember with rfl | isBefore
        · exact sorted_of_value? room own
        · exact each member isBefore
      · cases reads

end

end Value

theorem Value.Integral.spelled {value : Value} (integral : value.Integral) :
    Spelled value.compact value.tree := by
  rw [Spelled, Value.compact, String.toList_ofList]
  exact integral.spells

/-- The compact text of a value is its tree, and nothing follows. -/
theorem Draft.ofText_compact {value : Value} (integral : value.Integral) :
    Draft.ofText value.compact = ⟨value.tree, true⟩ :=
  integral.spelled.ofText

end Json
end InjectionPlan
