import InjectionPlan.Json.Record
import InjectionPlan.Table
import Mathlib.Data.List.Basic

namespace InjectionPlan
namespace Json

/-!
# When a reader gives a result

A reader fails with the fault that comes first; here is what has to be the case for it not to fail,
without an order of faults.  What matters of the members of a record is that each of them has a
name, that those with undeclared names are JSON, that declared names are not repeated
(`Fields.Intact`), and what the first member of each declared name is (`Fields.found?`).  What
matters of the members of a tagged record is besides that there is one tag and that the other
members can be read as values (`Chosen`).
-/

/-! ## Trees that can be read as values -/

namespace Tree

/-- Some value can be read from a tree within some room. -/
def Readable (room : Nat) (tree : Tree) : Prop :=
  (tree.value? room).isSome = true

theorem isSome_items? (room : Nat) (trees : List Tree) :
    (items? room trees).isSome = true <-> forall tree, tree ∈ trees -> Readable room tree := by
  induction trees with
  | nil => simp [items?]
  | cons first rest ih =>
      rw [List.forall_mem_cons, ← ih, Readable, items?]
      cases value? room first <;> cases items? room rest <;> simp

theorem isSome_members? (room : Nat) (members : List (Name × Tree))
    (sorted : List (String × Value)) :
    (members? room members sorted).isSome = true <-> forall member, member ∈ members ->
      (exists name, member.1 = .text name) ∧ Readable room member.2 := by
  induction members generalizing sorted with
  | nil => simp [members?]
  | cons first rest ih =>
      rcases first with ⟨name | _, tree⟩
      · rw [List.forall_mem_cons, members?, Readable]
        cases value? room tree with
        | none => simp
        | some value =>
            dsimp only
            rw [ih]
            simp
      · simp [members?]

theorem readable_array {room : Nat} {items : List Tree} {closed : Bool} :
    Readable room (.array items closed) <->
      room ≠ 0 ∧ closed = true ∧ forall item, item ∈ items -> Readable (room - 1) item := by
  rw [Readable, value?, ← isSome_items?]
  cases closed <;> by_cases empty : room = 0 <;> simp [empty]

theorem readable_object {room : Nat} {members : List (Name × Tree)} {closed : Bool} :
    Readable room (.object members closed) <->
      room ≠ 0 ∧ closed = true ∧ forall member, member ∈ members ->
        (exists name, member.1 = .text name) ∧ Readable (room - 1) member.2 := by
  rw [Readable, value?, ← isSome_members? _ _ []]
  cases closed <;> by_cases empty : room = 0 <;> simp [empty]

/-- What can be read as a value is JSON to its end. -/
theorem Readable.isComplete {room : Nat} {tree : Tree} (readable : tree.Readable room) :
    tree.isComplete = true := by
  cases tree with
  | array items closed => exact (readable_array.mp readable).2.1
  | object members closed => exact (readable_object.mp readable).2.1
  | broken => cases readable
  | null | bool | number | string | unreadable => rfl

end Tree

/-! ## Single values and arrays -/

namespace Outcome

theorem ofExcept_eq_value_iff {place : Nat} {outcome : Except Fault α} {result : α} :
    ofExcept place outcome = value result <-> outcome = .ok result := by
  cases outcome <;> simp [ofExcept]

/-- A value passes a check if the check gives no fault. -/
theorem toExcept_eq_ok_iff {check : Outcome Unit} {outcome : Outcome α} {result : α} :
    ((fun _ result => result) <$> check <*> outcome : Outcome α).toExcept = .ok result <->
      check = value () ∧ outcome = value result := by
  rcases check with _ | ⟨place, cause⟩ <;> rcases outcome with own | ⟨later, other⟩
  · change Except.ok own = _ <-> _
    simp
  · change Except.error other = _ <-> _
    simp
  · change Except.error cause = _ <-> _
    simp
  · change toExcept (if later < place then _ else _) = _ <-> _
    split <;> simp [toExcept]

end Outcome

theorem map_eq_ok_iff {function : α -> β} {outcome : Except Fault α} {result : β} :
    outcome.map function = .ok result <->
      exists value, outcome = .ok value ∧ function value = result := by
  cases outcome <;> simp [Except.map]

namespace Reader

theorem items_cons_eq_ok_iff {reader : Reader α} {scope : Scope} {first : Tree}
    {rest : List Tree} {results : List α} :
    items reader scope (first :: rest) = .ok results <->
      exists value values, reader scope first = .ok value ∧
        items reader scope rest = .ok values ∧ value :: values = results := by
  rw [items]
  cases reader scope first with
  | error fault => simp
  | ok value => simp [map_eq_ok_iff]

theorem list_array_eq_ok_iff {reader : Reader α} {scope : Scope} {trees : List Tree}
    {closed : Bool} {results : List α} :
    list reader scope (.array trees closed) = .ok results <->
      scope.room ≠ 0 ∧ closed = true ∧ items reader scope.inner trees = .ok results := by
  rw [list]
  by_cases empty : scope.room = 0
  · simp [empty]
  · rw [if_neg empty]
    cases items reader scope.inner trees <;> cases closed <;> simp [empty]

end Reader

/-! ## Fields -/

namespace Fields

/-- The tree from which a field is read. -/
def found? (fields : Fields) (name : String) : Option Tree :=
  match fields.parts with
  | .members list _ => (list.find? fun member => member.1 = .text name).map Prod.snd
  | .items list _ => list[fields.names.idxOf name]?

theorem get_eq_value_iff (fields : Fields) (name : String) (reader : Reader α)
    (absent : Option α) (result : α) :
    fields.get name reader absent = .value result <->
      match fields.found? name with
      | some tree => reader fields.scope tree = .ok result
      | none => absent = some result := by
  rcases fields with ⟨title, names, scope, ⟨list, closed⟩ | ⟨list, closed⟩⟩
  · rw [Fields.get, found?]
    dsimp only
    rw [List.find?_eq_getElem?_findIdx, ← placeOf]
    rcases list[placeOf name list]? with _ | ⟨own, tree⟩
    · cases absent <;> simp
    · dsimp only [Option.map_some]
      exact Outcome.ofExcept_eq_value_iff
  · rw [Fields.get, found?]
    dsimp only
    rcases list[names.idxOf name]? with _ | tree
    · cases absent <;> simp
    · dsimp only
      exact Outcome.ofExcept_eq_value_iff

/-- Members at no fault of their own: all have names, those with undeclared names are JSON, and no
declared name occurs twice. -/
structure Intact (names : List String) (closed : Bool) (members : List (Name × Tree)) : Prop where
  closed : closed = true
  named : forall member, member ∈ members ->
    exists name, member.1 = .text name ∧ (name ∉ names -> member.2.isComplete = true)
  once : (members.map Prod.fst).Pairwise fun first second =>
    forall name, name ∈ names -> ¬(first = .text name ∧ second = .text name)

theorem intact_cons {names : List String} {closed : Bool} {name : String} {tree : Tree}
    {rest : List (Name × Tree)} :
    Intact names closed ((.text name, tree) :: rest) <->
      Intact names closed rest ∧ (name ∉ names -> tree.isComplete = true) ∧
        (name ∈ names -> forall member, member ∈ rest -> member.1 ≠ .text name) := by
  constructor
  · rintro ⟨closed, named, once⟩
    rw [List.map_cons, List.pairwise_cons] at once
    refine ⟨⟨closed, fun member isMember => named member (List.mem_cons_of_mem _ isMember),
      once.2⟩, ?_, fun declared member isMember same => ?_⟩
    · rcases named _ List.mem_cons_self with ⟨_, same, complete⟩
      cases same
      exact complete
    · exact once.1 member.1 (List.mem_map_of_mem isMember) name declared ⟨rfl, same⟩
  · rintro ⟨⟨closed, named, once⟩, complete, apart⟩
    refine ⟨closed, List.forall_mem_cons.mpr ⟨⟨name, rfl, complete⟩, named⟩, ?_⟩
    rw [List.map_cons, List.pairwise_cons]
    refine ⟨fun other isOther own declared same => ?_, once⟩
    rcases List.mem_map.mp isOther with ⟨member, isMember, rfl⟩
    cases same.1
    exact apart declared member isMember same.2

theorem membersIntact_eq_value_iff {names : List String} {closed : Bool} {seen : List String}
    {place : Nat} {members : List (Name × Tree)} :
    membersIntact names closed seen place members = .value () <->
      Intact names closed members ∧ forall name, name ∈ names -> name ∈ seen ->
        forall member, member ∈ members -> member.1 ≠ .text name := by
  induction members generalizing seen place with
  | nil =>
      rw [membersIntact]
      cases closed with
      | true => exact ⟨fun _ => ⟨⟨rfl, nofun, .nil⟩, nofun⟩, fun _ => rfl⟩
      | false => exact ⟨nofun, fun intact => nomatch intact.1.closed⟩
  | cons first rest ih =>
      rcases first with ⟨name | _, tree⟩
      · rw [membersIntact, intact_cons]
        split
        · next declared =>
          split
          · next isSeen =>
            exact ⟨nofun, fun intact =>
              absurd rfl (intact.2 name declared isSeen _ List.mem_cons_self)⟩
          · next notSeen =>
            rw [ih]
            constructor
            · rintro ⟨intact, fresh⟩
              refine ⟨⟨intact, fun undeclared => absurd declared undeclared,
                fun _ => fresh name declared List.mem_cons_self⟩,
                fun other isDeclared isSeen => List.forall_mem_cons.mpr ⟨fun same => ?_,
                  fresh other isDeclared (List.mem_cons_of_mem _ isSeen)⟩⟩
              cases same
              exact notSeen isSeen
            · rintro ⟨⟨intact, _, apart⟩, fresh⟩
              refine ⟨intact, fun other isDeclared among => ?_⟩
              rcases List.mem_cons.mp among with rfl | isSeen
              · exact apart isDeclared
              · exact (List.forall_mem_cons.mp (fresh other isDeclared isSeen)).2
        · next undeclared =>
          split
          · next complete =>
            rw [ih]
            constructor
            · rintro ⟨intact, fresh⟩
              refine ⟨⟨intact, fun _ => complete, fun declared => absurd declared undeclared⟩,
                fun other isDeclared isSeen => List.forall_mem_cons.mpr ⟨fun same => ?_,
                  fresh other isDeclared isSeen⟩⟩
              cases same
              exact undeclared isDeclared
            · rintro ⟨intact, fresh⟩
              exact ⟨intact.1, fun other isDeclared isSeen =>
                (List.forall_mem_cons.mp (fresh other isDeclared isSeen)).2⟩
          · next incomplete =>
            exact ⟨nofun, fun intact => absurd (intact.1.2.1 undeclared) incomplete⟩
      · have refused : membersIntact names closed seen place ((.unreadable, tree) :: rest) =
            .fault place .malformed := rfl
        rw [refused]
        refine ⟨nofun, fun intact => ?_⟩
        rcases intact.1.named _ List.mem_cons_self with ⟨name, impossible, _⟩
        cases impossible

theorem intact_members_iff {title : String} {names : List String} {scope : Scope} {closed : Bool}
    {members : List (Name × Tree)} :
    intact ⟨title, names, scope, .members members closed⟩ = .value () <->
      Intact names closed members := by
  rw [intact]
  dsimp only
  rw [membersIntact_eq_value_iff]
  exact ⟨And.left, fun intact => ⟨intact, fun _ _ impossible => nomatch impossible⟩⟩

namespace Intact

variable {names : List String} {closed : Bool} {members others before after : List (Name × Tree)}

/-- In which order the members stand does not matter. -/
theorem perm (intact : Intact names closed members) (perm : members.Perm others) :
    Intact names closed others where
  closed := intact.closed
  named member isMember := intact.named member (perm.mem_iff.mpr isMember)
  once := intact.once.perm (perm.map Prod.fst)
    fun apart name declared same => apart name declared same.symm

end Intact
end Fields

/-! ## Records -/

namespace Record

variable {record : Record α} {scope : Scope} {closed : Bool} {result : α}

theorem ofParts_eq_ok_iff {parts : Parts} :
    record.ofParts scope parts = .ok result <->
      Fields.intact ⟨record.title, record.names, scope, parts⟩ = .value () ∧
        record.build ⟨record.title, record.names, scope, parts⟩ = .value result := by
  rw [ofParts]
  exact Outcome.toExcept_eq_ok_iff

theorem read_object_eq_ok_iff {members : List (Name × Tree)} :
    record.read scope (.object members closed) = .ok result <->
      scope.room ≠ 0 ∧ record.ofParts scope.inner (.members members closed) = .ok result := by
  rw [read]
  by_cases empty : scope.room = 0 <;> simp [empty]

theorem read_array_eq_ok_iff {items : List Tree} :
    record.read scope (.array items closed) = .ok result <->
      scope.room ≠ 0 ∧ record.ofParts scope.inner (.items items closed) = .ok result := by
  rw [read]
  by_cases empty : scope.room = 0 <;> simp [empty]

end Record

/-! ## Tagged records -/

/-- The members of a tagged record besides its tag. -/
def untagged (members : List (Name × Tree)) : List (Name × Tree) :=
  members.filter fun member => member.1 ≠ .text "kind"

/-- Members of which one is the tag of a variant, and the others can be read as values. -/
structure Chosen (variants : Variants α) (room : Nat) (closed : Bool)
    (members : List (Name × Tree)) (record : Record α) : Prop where
  closed : closed = true
  kept : forall member, member ∈ members -> exists name, member.1 = .text name ∧
    (name ≠ "kind" -> member.2.Readable room)
  tag : exists kind, choose variants kind = .ok record ∧
    members.filter (fun member => member.1 = .text "kind") = [(.text "kind", .string kind)]

theorem choose_eq_ok_iff {options : List (String × α)} {name : String} {result : α} :
    choose options name = .ok result <-> Table.lookup name options = some result := by
  have found : (options.find? fun option => option.1 = name).map Prod.snd =
      Table.lookup name options := by
    induction options with
    | nil => rfl
    | cons first rest ih =>
        rcases first with ⟨other, meaning⟩
        by_cases same : other = name
        · simp [Table.lookup, same]
        · simpa [Table.lookup, same] using ih
  rw [choose, ← found]
  cases options.find? fun option => option.1 = name <;> simp

theorem chooseTree_eq_ok_iff {options : List (String × α)} {tree : Tree} {result : α} :
    chooseTree options tree = .ok result <->
      exists name, choose options name = .ok result ∧ tree = .string name := by
  cases tree <;> simp [chooseTree]

section Finding

variable {variants : Variants α} {scope : Scope} {closed : Bool} {members : List (Name × Tree)}
  {own record : Record α}

/-- Behind the tag there is no other. -/
theorem findVariant_some_eq_ok_iff :
    findVariant variants scope closed (some own) members = .ok record <->
      closed = true ∧ (forall member, member ∈ members -> exists name, member.1 = .text name ∧
        (name ≠ "kind" -> member.2.Readable scope.room)) ∧
      members.filter (fun member => member.1 = .text "kind") = [] ∧ own = record := by
  induction members with
  | nil => cases closed <;> simp [findVariant]
  | cons first rest ih =>
      rcases first with ⟨name | _, tree⟩
      · by_cases isTag : name = "kind"
        · subst isTag
          simp [findVariant]
        · by_cases readable : isReadable scope tree = true
          · have kept : tree.Readable scope.room := readable
            rw [findVariant, if_neg isTag, if_pos readable, ih, List.forall_mem_cons]
            simp [isTag, kept]
          · have lost : ¬ tree.Readable scope.room := readable
            simp [findVariant, isTag, readable, lost]
      · simp [findVariant]

theorem chosen_iff {room : Nat} : Chosen variants room closed members record <->
    closed = true ∧ (forall member, member ∈ members -> exists name, member.1 = .text name ∧
      (name ≠ "kind" -> member.2.Readable room)) ∧
    exists kind, choose variants kind = .ok record ∧
      members.filter (fun member => member.1 = .text "kind") = [(.text "kind", .string kind)] :=
  ⟨fun ⟨closed, kept, tag⟩ => ⟨closed, kept, tag⟩, fun ⟨closed, kept, tag⟩ => ⟨closed, kept, tag⟩⟩

theorem findVariant_eq_ok_iff :
    findVariant variants scope closed none members = .ok record <->
      Chosen variants scope.room closed members record := by
  rw [chosen_iff]
  induction members with
  | nil => cases closed <;> simp [findVariant]
  | cons first rest ih =>
      rcases first with ⟨name | _, tree⟩
      · by_cases isTag : name = "kind"
        · subst isTag
          rw [findVariant, if_pos rfl]
          cases chosen : chooseTree variants tree with
          | error fault =>
              refine ⟨nofun, fun ⟨_, _, kind, found, only⟩ => ?_⟩
              rw [List.filter_cons_of_pos (by simp)] at only
              cases (List.cons.inj only).1
              cases chosen.symm.trans (chooseTree_eq_ok_iff.mpr ⟨kind, found, rfl⟩)
          | ok own =>
              rcases chooseTree_eq_ok_iff.mp chosen with ⟨kind, found, rfl⟩
              dsimp only
              rw [findVariant_some_eq_ok_iff, List.forall_mem_cons]
              simpa [found] using fun _ _ => and_comm
        · by_cases readable : isReadable scope tree = true
          · have kept : tree.Readable scope.room := readable
            rw [findVariant, if_neg isTag, if_pos readable, ih, List.forall_mem_cons]
            simp [isTag, kept]
          · have lost : ¬ tree.Readable scope.room := readable
            simp [findVariant, isTag, readable, lost]
      · simp [findVariant]

end Finding

section Tagged

variable {variants : Variants α} {title : String} {scope : Scope} {closed : Bool} {result : α}

theorem tagged_object_eq_ok_iff {members : List (Name × Tree)} :
    tagged title variants scope (.object members closed) = .ok result <->
      scope.room ≠ 0 ∧ exists record, Chosen variants (scope.room - 1) closed members record ∧
        record.ofParts { scope.inner with buffered := true }
          (.members (untagged members) true) = .ok result := by
  rw [tagged]
  dsimp only
  by_cases empty : scope.room = 0
  · simp [empty]
  · rw [if_neg empty]
    constructor
    · intro reads
      split at reads
      · cases reads
      · next record found => exact ⟨empty, record, findVariant_eq_ok_iff.mp found, reads⟩
    · rintro ⟨_, record, chosen, reads⟩
      have found : findVariant variants { scope.inner with buffered := true } closed none members =
          .ok record := findVariant_eq_ok_iff.mpr chosen
      rw [found]
      exact reads

theorem tagged_array_eq_ok_iff {kind : Tree} {items : List Tree} :
    tagged title variants scope (.array (kind :: items) closed) = .ok result <->
      scope.room ≠ 0 ∧ exists record, chooseTree variants kind = .ok record ∧ closed = true ∧
        (forall item, item ∈ items -> item.Readable (scope.room - 1)) ∧
        record.ofParts { scope.inner with buffered := true } (.items items true) = .ok result := by
  rw [tagged]
  dsimp only
  by_cases empty : scope.room = 0
  · simp [empty]
  · rw [if_neg empty]
    cases chooseTree variants kind with
    | error fault => simp
    | ok record =>
        have each : items.all (isReadable { scope.inner with buffered := true }) = true <->
            forall item, item ∈ items -> item.Readable (scope.room - 1) := List.all_eq_true
        dsimp only
        rw [← each]
        split
        · next whole =>
          exact ⟨fun reads => ⟨empty, record, rfl, whole.1, whole.2, reads⟩,
            fun ⟨_, _, same, _, _, reads⟩ => Except.ok.inj same ▸ reads⟩
        · next notWhole =>
          exact ⟨nofun, fun ⟨_, _, _, closed, readable, _⟩ => absurd ⟨closed, readable⟩ notWhole⟩

end Tagged

/-! ## Whole texts -/

theorem readText_eq_ok_iff {reader : Reader α} {text : String} {result : α} :
    readText reader text = .ok result <->
      reader .document (Draft.ofText text).tree = .ok result ∧
        (Draft.ofText text).ended = true := by
  rw [readText]
  cases reader .document (Draft.ofText text).tree with
  | error fault => simp
  | ok value => cases (Draft.ofText text).ended <;> simp

end Json
end InjectionPlan
