import InjectionPlan.Proofs.Records

namespace InjectionPlan
namespace Json

/-!
# Revisions of a tree that should make no difference

A shape says what the objects in a tree stand for: records with declared fields, tagged records
whose tag says which fields they have, or parts of a value that is kept as it is.  One revision of
a tree of some shape changes the order of the members of one object, or adds to one record a member
that is not declared.  Members with one name keep their order among themselves, and a member is
added only if it can be read as a value within the room that is left, because a tagged record is
read as a whole first.

A revision changes neither whether a tree can be read as a value (`Revision.readable`) nor, inside a
value that is kept, which value that is (`Shuffle.value?_eq`).
-/

/-! ## Members in another order -/

/-- The same members in another order; members of one name keep their order. -/
inductive Reordered : List (Name × Tree) -> List (Name × Tree) -> Prop
  | nil : Reordered [] []
  | cons (member : Name × Tree) {members others : List (Name × Tree)}
    (rest : Reordered members others) : Reordered (member :: members) (member :: others)
  | swap {first second : Name × Tree} (different : first.1 ≠ second.1)
    (rest : List (Name × Tree)) : Reordered (first :: second :: rest) (second :: first :: rest)
  | trans {members between others : List (Name × Tree)} (one : Reordered members between)
    (two : Reordered between others) : Reordered members others

namespace Reordered

variable {members others : List (Name × Tree)}

theorem refl : (members : List (Name × Tree)) -> Reordered members members
  | [] => .nil
  | member :: rest => .cons member (refl rest)

theorem perm (reordered : Reordered members others) : members.Perm others := by
  induction reordered with
  | nil => exact .nil
  | cons member _ ih => exact ih.cons member
  | swap _ rest => exact .swap _ _ rest
  | trans _ _ ih ihNext => exact ih.trans ihNext

/-- Members with distinct names may stand in any order. -/
theorem of_perm (perm : members.Perm others) (distinct : (members.map Prod.fst).Nodup) :
    Reordered members others := by
  induction perm with
  | nil => exact .nil
  | cons member _ ih => exact .cons member (ih (List.nodup_cons.mp distinct).2)
  | swap first second rest =>
      have apart := (List.nodup_cons.mp distinct).1
      exact .swap (fun same => apart (List.mem_cons.mpr (Or.inl same))) rest
  | trans one _ ih ihNext =>
      exact .trans (ih distinct) (ihNext ((one.map Prod.fst).nodup_iff.mp distinct))

/-- The first member of a name stays the first. -/
theorem find?_eq (reordered : Reordered members others) (name : Name) :
    members.find? (fun member => member.1 = name) =
      others.find? fun member => member.1 = name := by
  induction reordered with
  | nil => rfl
  | cons member _ ih => rw [List.find?_cons, List.find?_cons, ih]
  | @swap first second different rest =>
      by_cases own : first.1 = name
      · have other : second.1 ≠ name := fun same => different (own.trans same.symm)
        simp [own, other]
      · simp [List.find?_cons, own]
  | trans _ _ ih ihNext => exact ih.trans ihNext

theorem filter (reordered : Reordered members others) (keep : Name × Tree -> Bool) :
    Reordered (members.filter keep) (others.filter keep) := by
  induction reordered with
  | nil => exact .nil
  | cons member _ ih =>
      rw [List.filter_cons, List.filter_cons]
      split
      · exact .cons member ih
      · exact ih
  | @swap first second different rest =>
      cases keepsFirst : keep first <;> cases keepsSecond : keep second
      all_goals simp only [List.filter_cons, keepsFirst, keepsSecond, if_true, if_false,
        Bool.false_eq_true]
      · exact refl _
      · exact refl _
      · exact refl _
      · exact .swap different _
  | trans _ _ ih ihNext => exact ih.trans ihNext

end Reordered

/-! ## The order of members inside a value -/

theorem insertMember_comm {first second : String} (different : first ≠ second)
    (value other : Value) (members : List (String × Value)) :
    insertMember first value (insertMember second other members) =
      insertMember second other (insertMember first value members) := by
  -- The cases are how the two names stand to each other and to the first name of the members.
  induction members with
  | nil =>
      simp only [insertMember]
      grind
  | cons member rest ih =>
      rcases member with ⟨own, old⟩
      simp only [insertMember]
      grind [insertMember]

theorem members?_reordered {members others : List (Name × Tree)}
    (reordered : Reordered members others) (room : Nat) (sorted : List (String × Value)) :
    Tree.members? room others sorted = Tree.members? room members sorted := by
  induction reordered generalizing sorted with
  | nil => rfl
  | cons member _ ih =>
      rcases member with ⟨name | _, tree⟩
      · rw [Tree.members?, Tree.members?]
        cases Tree.value? room tree with
        | none => rfl
        | some value => exact ih _
      · rfl
  | @swap first second different rest =>
      rcases first with ⟨name | _, tree⟩ <;> rcases second with ⟨other | _, own⟩
      all_goals simp only [Tree.members?]
      · have apart : name ≠ other := fun same => different (congrArg Name.text same)
        cases Tree.value? room tree <;> cases Tree.value? room own
        all_goals simp only [insertMember_comm apart]
      · cases Tree.value? room tree <;> rfl
      · cases Tree.value? room own <;> rfl
  | trans _ _ ih ihNext => exact (ihNext sorted).trans (ih sorted)

/-- A tree with the members of one object somewhere inside in another order. -/
inductive Shuffle : Tree -> Tree -> Prop
  | reorder {members others : List (Name × Tree)} {closed : Bool}
    (reordered : Reordered members others) :
    Shuffle (.object members closed) (.object others closed)
  | item {before after : List Tree} {tree other : Tree} {closed : Bool}
    (inside : Shuffle tree other) :
    Shuffle (.array (before ++ tree :: after) closed) (.array (before ++ other :: after) closed)
  | member {before after : List (Name × Tree)} {name : Name} {tree other : Tree} {closed : Bool}
    (inside : Shuffle tree other) :
    Shuffle (.object (before ++ (name, tree) :: after) closed)
      (.object (before ++ (name, other) :: after) closed)

theorem items?_congr {room : Nat} {tree other : Tree}
    (same : other.value? room = tree.value? room) (before after : List Tree) :
    Tree.items? room (before ++ other :: after) = Tree.items? room (before ++ tree :: after) := by
  induction before with
  | nil => rw [List.nil_append, List.nil_append, Tree.items?, Tree.items?, same]
  | cons first rest ih => rw [List.cons_append, List.cons_append, Tree.items?, Tree.items?, ih]

theorem members?_congr {room : Nat} {tree other : Tree}
    (same : other.value? room = tree.value? room) (name : Name)
    (before after : List (Name × Tree)) (sorted : List (String × Value)) :
    Tree.members? room (before ++ (name, other) :: after) sorted =
      Tree.members? room (before ++ (name, tree) :: after) sorted := by
  induction before generalizing sorted with
  | nil =>
      cases name with
      | text name =>
          rw [List.nil_append, List.nil_append, Tree.members?, Tree.members?, same]
      | unreadable => rfl
  | cons first rest ih =>
      rcases first with ⟨own | _, value⟩
      · rw [List.cons_append, List.cons_append, Tree.members?, Tree.members?]
        cases Tree.value? room value with
        | none => rfl
        | some value => exact ih _
      · rfl

/-- The order of members makes no difference to the value that is read. -/
theorem Shuffle.value?_eq {tree other : Tree} (shuffle : Shuffle tree other) (room : Nat) :
    other.value? room = tree.value? room := by
  induction shuffle generalizing room with
  | reorder reordered => rw [Tree.value?, Tree.value?, members?_reordered reordered]
  | item _ ih => rw [Tree.value?, Tree.value?, items?_congr (ih _)]
  | member _ ih => rw [Tree.value?, Tree.value?, members?_congr (ih _)]

/-! ## Revisions -/

/-- What the objects in a tree stand for. -/
inductive Shape
  /-- Anything in which nothing is revised. -/
  | plain
  /-- A value that is kept as it is. -/
  | value
  | list (item : Shape)
  | record (slots : List (String × Shape))
  /-- A record whose member `kind`, or first item, is the name of the variant. -/
  | tagged (variants : List (String × List (String × Shape)))

/-- The tag of a record. -/
inductive Tagged (kind : String) : Tree -> Prop
  | object {members : List (Name × Tree)} {closed : Bool}
    (member : (.text "kind", .string kind) ∈ members) : Tagged kind (.object members closed)
  | array (items : List Tree) (closed : Bool) : Tagged kind (.array (.string kind :: items) closed)

/-- One revision of a tree of some shape, with room for so many arrays and objects in one
another. -/
inductive Revision : Shape -> (room : Nat) -> Tree -> Tree -> Prop
  | value {room : Nat} {tree other : Tree} (shuffle : Shuffle tree other) :
    Revision .value room tree other
  | item {shape : Shape} {room : Nat} {before after : List Tree} {tree other : Tree}
    {closed : Bool} (inside : Revision shape (room - 1) tree other) :
    Revision (.list shape) room (.array (before ++ tree :: after) closed)
      (.array (before ++ other :: after) closed)
  | reorder {slots : List (String × Shape)} {room : Nat} {members others : List (Name × Tree)}
    {closed : Bool} (reordered : Reordered members others) :
    Revision (.record slots) room (.object members closed) (.object others closed)
  | add {slots : List (String × Shape)} {room : Nat} {before after : List (Name × Tree)}
    {name : String} {tree : Tree} {closed : Bool} (unknown : name ∉ slots.map Prod.fst)
    (readable : tree.Readable (room - 1)) :
    Revision (.record slots) room (.object (before ++ after) closed)
      (.object (before ++ (.text name, tree) :: after) closed)
  | field {slots : List (String × Shape)} {shape : Shape} {room : Nat}
    {before after : List (Name × Tree)} {name : String} {tree other : Tree} {closed : Bool}
    (declared : Table.lookup name slots = some shape)
    (inside : Revision shape (room - 1) tree other) :
    Revision (.record slots) room (.object (before ++ (.text name, tree) :: after) closed)
      (.object (before ++ (.text name, other) :: after) closed)
  | entry {slots : List (String × Shape)} {shape : Shape} {room : Nat} {before after : List Tree}
    {name : String} {tree other : Tree} {closed : Bool}
    (declared : Table.lookup name slots = some shape)
    (place : before.length = (slots.map Prod.fst).idxOf name)
    (inside : Revision shape (room - 1) tree other) :
    Revision (.record slots) room (.array (before ++ tree :: after) closed)
      (.array (before ++ other :: after) closed)
  | variant {variants : List (String × List (String × Shape))} {slots : List (String × Shape)}
    {room : Nat} {kind : String} {tree other : Tree}
    (known : Table.lookup kind variants = some slots) (tag : Tagged kind tree)
    (inside : Revision (.record (("kind", .plain) :: slots)) room tree other) :
    Revision (.tagged variants) room tree other

namespace Revision

theorem ne_null {shape : Shape} {room : Nat} {tree other : Tree}
    (revision : Revision shape room tree other) : tree ≠ .null ∧ other ≠ .null := by
  induction revision with
  | value shuffle => cases shuffle <;> exact ⟨nofun, nofun⟩
  | item | reorder | add | field | entry => exact ⟨nofun, nofun⟩
  | variant _ _ _ ih => exact ih

/-- A revision leaves a tree readable. -/
theorem readable {shape : Shape} {room : Nat} {tree other : Tree}
    (revision : Revision shape room tree other) (readable : tree.Readable room) :
    other.Readable room := by
  induction revision with
  | value shuffle =>
      rw [Tree.Readable, shuffle.value?_eq]
      exact readable
  | item _ ih =>
      rw [Tree.readable_array] at readable ⊢
      refine ⟨readable.1, readable.2.1, ?_⟩
      have each := readable.2.2
      rw [List.forall_mem_append, List.forall_mem_cons] at each ⊢
      exact ⟨each.1, ih each.2.1, each.2.2⟩
  | reorder reordered =>
      rw [Tree.readable_object] at readable ⊢
      exact ⟨readable.1, readable.2.1, fun member isMember =>
        readable.2.2 member (reordered.perm.mem_iff.mpr isMember)⟩
  | add unknown added =>
      rw [Tree.readable_object] at readable ⊢
      refine ⟨readable.1, readable.2.1, ?_⟩
      have each := readable.2.2
      rw [List.forall_mem_append] at each
      rw [List.forall_mem_append, List.forall_mem_cons]
      exact ⟨each.1, ⟨⟨_, rfl⟩, added⟩, each.2⟩
  | field declared _ ih =>
      rw [Tree.readable_object] at readable ⊢
      refine ⟨readable.1, readable.2.1, ?_⟩
      have each := readable.2.2
      rw [List.forall_mem_append, List.forall_mem_cons] at each ⊢
      exact ⟨each.1, ⟨each.2.1.1, ih each.2.1.2⟩, each.2.2⟩
  | entry declared place _ ih =>
      rw [Tree.readable_array] at readable ⊢
      refine ⟨readable.1, readable.2.1, ?_⟩
      have each := readable.2.2
      rw [List.forall_mem_append, List.forall_mem_cons] at each ⊢
      exact ⟨each.1, ih each.2.1, each.2.2⟩
  | variant known tag _ ih => exact ih readable

end Revision

end Json
end InjectionPlan
