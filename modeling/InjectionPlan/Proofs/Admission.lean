import InjectionPlan.Proofs.Revisions

namespace InjectionPlan
namespace Json

/-!
# Readers that revisions make no difference to

A reader admits a shape if it reads from a revised tree whatever it reads from the tree.  Records
admit the shape of their fields (`Record.Respects.admits`), and tagged records the shape of their
variants (`Variants.Respects.admits`), if the readers of their fields do.
-/

/-! ## Values that are kept -/

namespace Outcome

/-- A value of one outcome is the value of another. -/
def Carries (first second : Outcome α) : Prop :=
  forall result, first = .value result -> second = .value result

theorem Carries.map {first second : Outcome α} (carries : first.Carries second)
    (function : α -> β) : Carries (function <$> first) (function <$> second) := by
  intro result maps
  cases first with
  | value own =>
      rw [carries own rfl]
      exact maps
  | fault place cause => cases maps

theorem Carries.seq {first second : Outcome (α -> β)} {argument other : Outcome α}
    (carries : first.Carries second) (also : argument.Carries other) :
    Carries (first <*> argument) (second <*> other) := by
  intro result combines
  cases first with
  | value function =>
      cases argument with
      | value own =>
          rw [carries function rfl, also own rfl]
          exact combines
      | fault place cause => cases combines
  | fault place cause =>
      cases argument with
      | value own => cases combines
      | fault later other =>
          change (if later < place then _ else _) = _ at combines
          split at combines <;> cases combines

end Outcome

/-- Whatever is read from a tree is read from each revision of it. -/
structure Reader.Admits (reader : Reader α) (shape : Shape) : Prop where
  reads : forall {scope : Scope} {tree other : Tree} {result : α},
    Revision shape scope.room tree other -> reader scope tree = .ok result ->
      reader scope other = .ok result

namespace Reader.Admits

theorem plain (reader : Reader α) : reader.Admits .plain :=
  ⟨fun revision _ => nomatch revision⟩

theorem value : Reader.value.Admits .value := by
  refine ⟨fun {scope tree other result} revision reads => ?_⟩
  cases revision with
  | value shuffle =>
      rw [Reader.value, shuffle.value?_eq]
      exact reads

/-- What is revised is an array or an object, before and after. -/
theorem optional {reader : Reader α} {shape : Shape} (admits : reader.Admits shape) :
    (Reader.optional reader).Admits shape := by
  refine ⟨fun {scope tree other result} revision reads => ?_⟩
  have present := revision.ne_null
  rw [Reader.optional, map_eq_ok_iff] at reads ⊢
  · rcases reads with ⟨value, own, same⟩
    exact ⟨value, admits.reads revision own, same⟩
  · exact present.2
  · exact present.1

theorem items {reader : Reader α} {shape : Shape} (admits : reader.Admits shape) {scope : Scope}
    {tree other : Tree} (revision : Revision shape scope.room tree other)
    (before after : List Tree) {results : List α}
    (reads : Reader.items reader scope (before ++ tree :: after) = .ok results) :
    Reader.items reader scope (before ++ other :: after) = .ok results := by
  induction before generalizing results with
  | nil =>
      rw [List.nil_append, items_cons_eq_ok_iff] at reads ⊢
      rcases reads with ⟨value, values, own, later, same⟩
      exact ⟨value, values, admits.reads revision own, later, same⟩
  | cons first rest ih =>
      rw [List.cons_append, items_cons_eq_ok_iff] at reads ⊢
      rcases reads with ⟨value, values, own, later, same⟩
      exact ⟨value, values, own, ih later, same⟩

theorem list {reader : Reader α} {shape : Shape} (admits : reader.Admits shape) :
    (Reader.list reader).Admits (.list shape) := by
  refine ⟨fun {scope tree other result} revision reads => ?_⟩
  cases revision with
  | @item _ _ before after own revised closed inside =>
      rw [list_array_eq_ok_iff] at reads ⊢
      have innerRevision : Revision shape scope.inner.room own revised := inside
      exact ⟨reads.1, reads.2.1, items admits innerRevision before after reads.2.2⟩

end Reader.Admits

/-! ## Fields -/

namespace Fields
namespace Intact

variable {names : List String} {closed : Bool} {members others before after : List (Name × Tree)}

theorem add {name : String} {tree : Tree} (intact : Intact names closed (before ++ after))
    (unknown : name ∉ names) (complete : tree.isComplete = true) :
    Intact names closed (before ++ (.text name, tree) :: after) := by
  have inFront : Intact names closed ((.text name, tree) :: (before ++ after)) :=
    intact_cons.mpr ⟨intact, fun _ => complete, fun declared => absurd declared unknown⟩
  exact inFront.perm List.perm_middle.symm

theorem field {name : String} {tree : Tree}
    (intact : Intact names closed (before ++ (.text name, tree) :: after))
    (declared : name ∈ names) (other : Tree) :
    Intact names closed (before ++ (.text name, other) :: after) := by
  have inFront := intact_cons.mp (intact.perm List.perm_middle)
  have replaced : Intact names closed ((.text name, other) :: (before ++ after)) :=
    intact_cons.mpr ⟨inFront.1, fun undeclared => absurd declared undeclared, inFront.2.2⟩
  exact replaced.perm List.perm_middle.symm

end Intact

/-- Fields that are at no fault of their own if others are not, and are read from the same trees or
from revisions of them. -/
structure Revised (slots : List (String × Shape)) (fields others : Fields) : Prop where
  scope : others.scope = fields.scope
  intact : fields.intact = .value () -> others.intact = .value ()
  found : forall {name : String} {shape : Shape}, Table.lookup name slots = some shape ->
    others.found? name = fields.found? name ∨
      exists tree other, fields.found? name = some tree ∧ others.found? name = some other ∧
        Revision shape fields.scope.room tree other

namespace Revised

variable {slots : List (String × Shape)} {fields others : Fields} {name : String} {shape : Shape}

theorem get (revised : fields.Revised slots others)
    (declared : Table.lookup name slots = some shape) {reader : Reader α}
    (admits : reader.Admits shape) (absent : Option α) :
    (fields.get name reader absent).Carries (others.get name reader absent) := by
  intro result reads
  rw [get_eq_value_iff] at reads ⊢
  rw [revised.scope]
  rcases revised.found declared with same | ⟨tree, other, found, foundOther, revision⟩
  · rw [same]
    exact reads
  · rw [found] at reads
    rw [foundOther]
    exact admits.reads revision reads

theorem required (revised : fields.Revised slots others)
    (declared : Table.lookup name slots = some shape) {reader : Reader α}
    (admits : reader.Admits shape) :
    (fields.required name reader).Carries (others.required name reader) :=
  revised.get declared admits none

theorem withDefault (revised : fields.Revised slots others)
    (declared : Table.lookup name slots = some shape) {reader : Reader α}
    (admits : reader.Admits shape) (default : α) :
    (fields.withDefault name default reader).Carries (others.withDefault name default reader) :=
  revised.get declared admits (some default)

/-! ### Revisions of the parts of a record -/

variable {title : String} {scope : Scope} {closed : Bool}
  {members reordered before after : List (Name × Tree)} {tree other : Tree}

theorem mem_names (declared : Table.lookup name slots = some shape) :
    name ∈ slots.map Prod.fst :=
  (Table.lookup_isSome_iff name slots).mp (Option.isSome_of_eq_some declared)

theorem reorder (sameMembers : Reordered members reordered) :
    Revised slots ⟨title, slots.map Prod.fst, scope, .members members closed⟩
      ⟨title, slots.map Prod.fst, scope, .members reordered closed⟩ where
  scope := rfl
  intact faultless := by
    rw [intact_members_iff] at faultless ⊢
    exact faultless.perm sameMembers.perm
  found {name _} _ := by
    left
    rw [found?, found?]
    dsimp only
    rw [sameMembers.find?_eq]

theorem add (unknown : name ∉ slots.map Prod.fst) (complete : tree.isComplete = true) :
    Revised slots ⟨title, slots.map Prod.fst, scope, .members (before ++ after) closed⟩
      ⟨title, slots.map Prod.fst, scope,
        .members (before ++ (.text name, tree) :: after) closed⟩ where
  scope := rfl
  intact faultless := by
    rw [intact_members_iff] at faultless ⊢
    exact faultless.add unknown complete
  found {own _} declared := by
    have apart : name ≠ own := fun same => unknown (same ▸ mem_names declared)
    left
    rw [found?, found?]
    dsimp only
    rw [List.find?_append, List.find?_append, List.find?_cons_of_neg (by simpa using apart)]

theorem field (declared : Table.lookup name slots = some shape)
    (revision : Revision shape scope.room tree other) :
    Revised slots
      ⟨title, slots.map Prod.fst, scope, .members (before ++ (.text name, tree) :: after) closed⟩
      ⟨title, slots.map Prod.fst, scope,
        .members (before ++ (.text name, other) :: after) closed⟩ where
  scope := rfl
  intact faultless := by
    rw [intact_members_iff] at faultless ⊢
    exact faultless.field (mem_names declared) other
  found {own wanted} lookedUp := by
    rw [found?, found?]
    dsimp only
    rw [List.find?_append, List.find?_append]
    cases earlier : before.find? fun member => member.1 = .text own with
    | some member => exact Or.inl rfl
    | none =>
        by_cases same : name = own
        · subst same
          cases declared.symm.trans lookedUp
          exact Or.inr ⟨tree, other, by simp, by simp, revision⟩
        · left
          rw [List.find?_cons_of_neg (by simpa using same),
            List.find?_cons_of_neg (by simpa using same)]

theorem entry {before after : List Tree} (declared : Table.lookup name slots = some shape)
    (place : before.length = (slots.map Prod.fst).idxOf name)
    (revision : Revision shape scope.room tree other) :
    Revised slots ⟨title, slots.map Prod.fst, scope, .items (before ++ tree :: after) closed⟩
      ⟨title, slots.map Prod.fst, scope, .items (before ++ other :: after) closed⟩ where
  scope := rfl
  intact faultless := by
    have sameLength : (before ++ other :: after).length = (before ++ tree :: after).length := by
      simp
    unfold Fields.intact Fields.itemsIntact at faultless ⊢
    dsimp only at faultless ⊢
    rw [sameLength]
    exact faultless
  found {own wanted} lookedUp := by
    rw [found?, found?]
    dsimp only
    by_cases same : name = own
    · subst same
      cases declared.symm.trans lookedUp
      rw [← place]
      exact Or.inr ⟨tree, other, by simp, by simp, revision⟩
    · left
      have apart : (slots.map Prod.fst).idxOf own ≠ before.length := by
        rw [place]
        exact fun equal => same ((List.idxOf_inj (mem_names declared)).mp equal.symm)
      have replaced : before ++ other :: after =
          (before ++ tree :: after).set before.length other := by
        simp
      rw [replaced, List.getElem?_set_ne apart.symm]

end Revised
end Fields

/-! ## Records -/

namespace Record

/-- The fields of a record are those of its shape, and it is made alike of revised fields. -/
structure Respects (record : Record α) (slots : List (String × Shape)) : Prop where
  names : record.names = slots.map Prod.fst
  build : forall {fields others : Fields}, fields.Revised slots others ->
    (record.build fields).Carries (record.build others)

variable {record : Record α} {slots : List (String × Shape)} {scope : Scope} {closed : Bool}
  {result : α}
namespace Respects

/-- A record is read from revised parts if it is read from the parts. -/
theorem ofParts (respects : record.Respects slots) {parts others : Parts}
    (revised : Fields.Revised slots ⟨record.title, slots.map Prod.fst, scope, parts⟩
      ⟨record.title, slots.map Prod.fst, scope, others⟩)
    (reads : record.ofParts scope parts = .ok result) :
    record.ofParts scope others = .ok result := by
  rw [ofParts_eq_ok_iff, respects.names] at reads ⊢
  exact ⟨revised.intact reads.1, respects.build revised result reads.2⟩

theorem admits (respects : record.Respects slots) :
    Reader.Admits record.read (.record slots) := by
  refine ⟨fun {scope tree other result} revision reads => ?_⟩
  cases revision with
  | reorder reordered =>
      rw [read_object_eq_ok_iff] at reads ⊢
      exact ⟨reads.1, respects.ofParts (.reorder reordered) reads.2⟩
  | add unknown readable =>
      rw [read_object_eq_ok_iff] at reads ⊢
      exact ⟨reads.1, respects.ofParts (.add unknown readable.isComplete) reads.2⟩
  | field declared inside =>
      rw [read_object_eq_ok_iff] at reads ⊢
      exact ⟨reads.1, respects.ofParts (.field declared inside) reads.2⟩
  | entry declared place inside =>
      rw [read_array_eq_ok_iff] at reads ⊢
      exact ⟨reads.1, respects.ofParts (.entry declared place inside) reads.2⟩

end Respects
end Record

/-! ## Tagged records -/

namespace Chosen

variable {variants : Variants α} {room : Nat} {closed : Bool}
  {members others before after : List (Name × Tree)} {record : Record α} {name : String}
  {tree other : Tree}

theorem choose_eq (chosen : Chosen variants room closed members record) {kind : String}
    (tag : Tagged kind (.object members closed)) : choose variants kind = .ok record := by
  rcases chosen.tag with ⟨own, found, only⟩
  cases tag with
  | object isMember =>
      have among : (Name.text "kind", Tree.string kind) ∈
          members.filter fun member => member.1 = .text "kind" :=
        List.mem_filter.mpr ⟨isMember, by simp⟩
      rw [only] at among
      cases List.mem_singleton.mp among
      exact found

theorem reorder (chosen : Chosen variants room closed members record)
    (reordered : Reordered members others) : Chosen variants room closed others record where
  closed := chosen.closed
  kept member isMember := chosen.kept member (reordered.perm.mem_iff.mpr isMember)
  tag := by
    rcases chosen.tag with ⟨kind, found, only⟩
    have same := (reordered.filter fun member => member.1 = .text "kind").perm
    rw [only] at same
    exact ⟨kind, found, List.singleton_perm.mp same |>.symm⟩

theorem add (chosen : Chosen variants room closed (before ++ after) record)
    (apart : name ≠ "kind") (readable : tree.Readable room) :
    Chosen variants room closed (before ++ (.text name, tree) :: after) record where
  closed := chosen.closed
  kept := by
    have kept := chosen.kept
    rw [List.forall_mem_append] at kept
    rw [List.forall_mem_append, List.forall_mem_cons]
    exact ⟨kept.1, ⟨name, rfl, fun _ => readable⟩, kept.2⟩
  tag := by
    have tag := chosen.tag
    rw [List.filter_append] at tag
    rw [List.filter_append, List.filter_cons_of_neg (by simpa using apart)]
    exact tag

theorem field (chosen : Chosen variants room closed (before ++ (.text name, tree) :: after) record)
    (apart : name ≠ "kind") (readable : tree.Readable room -> other.Readable room) :
    Chosen variants room closed (before ++ (.text name, other) :: after) record where
  closed := chosen.closed
  kept := by
    have kept := chosen.kept
    rw [List.forall_mem_append, List.forall_mem_cons] at kept ⊢
    rcases kept with ⟨early, ⟨_, same, own⟩, late⟩
    cases same
    exact ⟨early, ⟨name, rfl, fun notTag => readable (own notTag)⟩, late⟩
  tag := by
    have tag := chosen.tag
    rw [List.filter_append, List.filter_cons_of_neg (by simpa using apart)] at tag ⊢
    exact tag

end Chosen

theorem untagged_append (before after : List (Name × Tree)) :
    untagged (before ++ after) = untagged before ++ untagged after :=
  List.filter_append ..

theorem untagged_cons {name : String} (apart : name ≠ "kind") (tree : Tree)
    (rest : List (Name × Tree)) :
    untagged ((.text name, tree) :: rest) = (.text name, tree) :: untagged rest :=
  List.filter_cons_of_pos (by simpa using apart)

namespace Variants

/-- Variants with the names and the fields of their shape, none of which is the tag. -/
def Respects (variants : Variants α) (shapes : List (String × List (String × Shape))) : Prop :=
  List.Forall₂ (fun variant shape => variant.1 = shape.1 ∧ variant.2.Respects shape.2 ∧
    "kind" ∉ shape.2.map Prod.fst) variants shapes

variable {variants : Variants α} {shapes : List (String × List (String × Shape))}

theorem Respects.chosen (respects : variants.Respects shapes) {kind : String}
    {record : Record α} {slots : List (String × Shape)}
    (chosen : choose variants kind = .ok record)
    (known : Table.lookup kind shapes = some slots) :
    record.Respects slots ∧ "kind" ∉ slots.map Prod.fst := by
  rw [choose_eq_ok_iff] at chosen
  induction respects with
  | nil => cases known
  | @cons variant shape variants shapes first _ ih =>
      rcases variant with ⟨name, own⟩
      rcases shape with ⟨other, slots⟩
      rcases first with ⟨rfl, respects⟩
      rw [Table.lookup] at chosen known
      by_cases same : name = kind
      · rw [if_pos same] at chosen known
        cases chosen
        cases known
        exact respects
      · rw [if_neg same] at chosen known
        exact ih chosen known

theorem Respects.admits (respects : variants.Respects shapes) (title : String) :
    Reader.Admits (tagged title variants) (.tagged shapes) := by
  refine ⟨fun {scope tree other result} revision reads => ?_⟩
  cases revision with
  | @variant _ slots _ kind _ _ known tag inside =>
      cases inside with
      | reorder reordered =>
          rw [tagged_object_eq_ok_iff] at reads ⊢
          rcases reads with ⟨room, record, chosen, reads⟩
          have own := respects.chosen (chosen.choose_eq tag) known
          exact ⟨room, record, chosen.reorder reordered,
            own.1.ofParts (.reorder (reordered.filter _)) reads⟩
      | add unknown readable =>
          rw [tagged_object_eq_ok_iff] at reads ⊢
          rcases reads with ⟨room, record, chosen, reads⟩
          have own := respects.chosen (chosen.choose_eq tag) known
          rw [List.map_cons, List.mem_cons, not_or] at unknown
          refine ⟨room, record, chosen.add unknown.1 readable, ?_⟩
          rw [untagged_append] at reads
          rw [untagged_append, untagged_cons unknown.1]
          exact own.1.ofParts (.add unknown.2 readable.isComplete) reads
      | @field _ _ _ _ _ name _ _ _ declared inside =>
          rw [tagged_object_eq_ok_iff] at reads ⊢
          rcases reads with ⟨room, record, chosen, reads⟩
          have own := respects.chosen (chosen.choose_eq tag) known
          rw [Table.lookup] at declared
          split at declared
          · cases declared
            cases inside
          · next apart =>
            refine ⟨room, record, chosen.field (Ne.symm apart) inside.readable, ?_⟩
            rw [untagged_append, untagged_cons (Ne.symm apart)] at reads ⊢
            exact own.1.ofParts (.field declared inside) reads
      | @entry _ _ _ before after name _ _ _ declared place inside =>
          rw [Table.lookup] at declared
          split at declared
          · cases declared
            cases inside
          · next apart =>
            -- The tag is the first item, so what is revised comes behind it.
            rw [List.map_cons, List.idxOf_cons_ne _ apart] at place
            rcases before with _ | ⟨first, before⟩
            · cases place
            · cases tag with
              | array =>
                  rw [List.cons_append, tagged_array_eq_ok_iff] at reads ⊢
                  rcases reads with ⟨room, record, chosen, closed, readable, reads⟩
                  rcases chooseTree_eq_ok_iff.mp chosen with ⟨_, found, same⟩
                  cases same
                  have own := respects.chosen found known
                  refine ⟨room, record, chosen, closed, ?_,
                    own.1.ofParts (.entry declared (Nat.succ.inj place) inside) reads⟩
                  rw [List.forall_mem_append, List.forall_mem_cons] at readable ⊢
                  exact ⟨readable.1, inside.readable readable.2.1, readable.2.2⟩

end Variants

end Json
end InjectionPlan
