import InjectionPlan.Json.Member
import InjectionPlan.Proofs.Records
import InjectionPlan.Proofs.Trees

namespace InjectionPlan
namespace Json

/-!
# What is written for a field is read from it

A reader returns a result from a written value if it gives the result for the tree of the value
wherever there is room for its arrays and objects.  A record returns the result that its fields
make when the members written follow the order in which its fields are declared.  Fields are
looked up by name, so a field is read from the member of its name, and a field that was left out
from its default.
-/

open Value

/-! ## Members in the order of declaration -/

/-- Integral values for some of the declared names, in the order of declaration. -/
inductive Follows : List String -> List (String × Value) -> Prop
  | nil : Follows [] []
  | cons {name : String} {names : List String} {value : Value} {members : List (String × Value)}
    (integral : value.Integral) (rest : Follows names members) :
    Follows (name :: names) ((name, value) :: members)
  | skip {name : String} {names : List String} {members : List (String × Value)}
    (rest : Follows names members) : Follows (name :: names) members

namespace Follows

variable {name : String} {names : List String} {members : List (String × Value)}

theorem flag (flag : Bool) (rest : Follows names members) :
    Follows (name :: names) (flagMember name flag ++ members) := by
  cases flag with
  | false => exact .skip rest
  | true => exact .cons (.bool true) rest

theorem lastFlag (flag : Bool) : Follows [name] (flagMember name flag) :=
  List.append_nil (flagMember name flag) ▸ Follows.flag flag .nil

theorem optional {write : α -> Value} {option : Option α}
    (integral : forall value, option = some value -> (write value).Integral)
    (rest : Follows names members) :
    Follows (name :: names) (optionalMember name write option ++ members) := by
  cases option with
  | none => exact .skip rest
  | some value => exact .cons (integral value rfl) rest

theorem integral (follows : Follows names members) :
    forall member, member ∈ members -> member.2.Integral := by
  induction follows with
  | nil => exact fun member isMember => nomatch isMember
  | cons integral rest ih =>
      intro member isMember
      rcases List.mem_cons.mp isMember with rfl | later
      · exact integral
      · exact ih member later
  | skip rest ih => exact ih

theorem sublist (follows : Follows names members) : (members.map Prod.fst).Sublist names := by
  induction follows with
  | nil => exact .slnil
  | cons integral rest ih => exact ih.cons_cons _
  | skip rest ih => exact ih.cons _

theorem mem_names (follows : Follows names members) {member : String × Value}
    (isMember : member ∈ members) : member.1 ∈ names :=
  follows.sublist.subset (List.mem_map.mpr ⟨member, isMember, rfl⟩)

end Follows

/-! ## Looking up members -/

@[simp] theorem lookup_append (name : String) (first second : List (String × Value)) :
    Table.lookup name (first ++ second) =
      (Table.lookup name first).or (Table.lookup name second) := by
  induction first with
  | nil => rfl
  | cons member rest ih =>
      rcases member with ⟨other, value⟩
      by_cases same : other = name
      · simp [Table.lookup, same]
      · simp [Table.lookup, same, ih]

@[simp] theorem lookup_flagMember (name other : String) (flag : Bool) :
    Table.lookup name (flagMember other flag) =
      if other = name ∧ flag = true then some (.bool true) else none := by
  cases flag <;> simp [flagMember, Table.lookup]

@[simp] theorem lookup_optionalMember (name other : String) (write : α -> Value)
    (option : Option α) :
    Table.lookup name (optionalMember other write option) =
      if other = name then option.map write else none := by
  cases option <;> simp [optionalMember, Table.lookup]

theorem mem_of_lookup {name : String} {value : Value} {members : List (String × Value)}
    (found : Table.lookup name members = some value) : (name, value) ∈ members := by
  induction members with
  | nil => cases found
  | cons member rest ih =>
      rcases member with ⟨other, own⟩
      rw [Table.lookup] at found
      split at found
      · next same =>
        cases found
        exact same ▸ List.mem_cons_self
      · exact List.mem_cons_of_mem _ (ih found)

/-- The first member of a name is what is looked up. -/
theorem find?_memberTrees (name : String) (members : List (String × Value)) :
    ((memberTrees members).find? fun member => member.1 = .text name).map Prod.snd =
      (Table.lookup name members).map tree := by
  induction members with
  | nil => rfl
  | cons member rest ih =>
      rcases member with ⟨other, own⟩
      rw [memberTrees, Table.lookup]
      by_cases same : other = name
      · simp [same]
      · simpa [same] using ih

/-! ## Readers that return what was written -/

/-- A reader gives a result for what is written wherever there is room for it. -/
structure Reader.Returns (reader : Reader α) (written : Value) (result : α) : Prop where
  integral : written.Integral
  reads : forall scope : Scope, written.depth ≤ scope.room ->
    reader scope written.tree = .ok result

namespace Reader.Returns

theorem text (text : String) : Reader.text.Returns (.string text) text :=
  ⟨.string text, fun _ _ => rfl⟩

theorem index (index : UInt64) : Reader.index.Returns (indexValue index) index := by
  have bound : index.toNat < 18446744073709551616 := index.toNat_lt
  have inRange : InRange (Int.ofNat index.toNat) := by
    simp only [InRange, Int.ofNat_eq_natCast]
    omega
  refine ⟨.integer inRange, fun scope _ => ?_⟩
  have small : 0 ≤ Int.ofNat index.toNat ∧ Int.ofNat index.toNat ≤ 18446744073709551615 := by
    simp only [Int.ofNat_eq_natCast]
    omega
  have same : UInt64.ofNat (Int.ofNat index.toNat).toNat = index := UInt64.ofNat_toNat
  show (if 0 ≤ Int.ofNat index.toNat ∧ Int.ofNat index.toNat ≤ 18446744073709551615
    then Except.ok (UInt64.ofNat (Int.ofNat index.toNat).toNat) else _) = _
  rw [if_pos small, same]

theorem value {value : Value} (integral : value.Integral) (sorted : value.Sorted) :
    Reader.value.Returns value value := by
  refine ⟨integral, fun scope enough => ?_⟩
  rcases integral.recovered scope.room enough with ⟨found, reads, same⟩
  rw [Reader.value, reads, same sorted]

theorem optional {reader : Reader α} {written : Value} {result : α}
    (returns : reader.Returns written result) (present : written ≠ .null) :
    (Reader.optional reader).Returns written (some result) := by
  refine ⟨returns.integral, fun scope enough => ?_⟩
  have reads := returns.reads scope enough
  have notNull : written.tree ≠ .null := by
    cases written <;> simp [tree] at present ⊢
  rw [Reader.optional]
  · rw [reads]
    rfl
  · exact notNull

theorem null (reader : Reader α) : (Reader.optional reader).Returns .null none :=
  ⟨.null, fun _ _ => rfl⟩

theorem items {reader : Reader α} {write : α -> Value} {results : List α}
    (each : forall result, result ∈ results -> reader.Returns (write result) result)
    {scope : Scope} (enough : itemsDepth (results.map write) ≤ scope.room) :
    Reader.items reader scope (itemTrees (results.map write)) = .ok results := by
  induction results with
  | nil => rfl
  | cons first rest ih =>
      rw [List.map_cons, itemsDepth] at enough
      rw [List.map_cons, itemTrees, Reader.items,
        (each first List.mem_cons_self).reads scope (by omega)]
      dsimp only
      rw [ih (fun result member => each result (List.mem_cons_of_mem _ member)) (by omega)]
      rfl

theorem list {reader : Reader α} {write : α -> Value} {results : List α}
    (each : forall result, result ∈ results -> reader.Returns (write result) result) :
    (Reader.list reader).Returns (.array (results.map write)) results := by
  refine ⟨.array fun item member => ?_, fun scope enough => ?_⟩
  · rcases List.mem_map.mp member with ⟨result, isResult, rfl⟩
    exact (each result isResult).integral
  · rw [depth] at enough
    have notFull : scope.room ≠ 0 := by omega
    have inside : itemsDepth (results.map write) ≤ scope.inner.room := by
      rw [Scope.inner]
      dsimp only
      omega
    rw [tree, Reader.list, if_neg notFull, items each inside]
    rfl

theorem choice {options : List (String × α)} {name : String} {result : α}
    (chosen : choose options name = .ok result) :
    Reader.Returns (choice options) (.string name) result :=
  ⟨.string name, fun _ _ => chosen⟩

end Reader.Returns

/-! ## Fields -/

/-- The fields of a record that is read from written members. -/
structure Fields.Holds (fields : Fields) (members : List (String × Value)) : Prop where
  parts : fields.parts = .members (memberTrees members) true
  enough : membersDepth members ≤ fields.scope.room

namespace Fields
namespace Holds

variable {fields : Fields} {members : List (String × Value)} {name : String}

theorem found?_eq (holds : fields.Holds members) :
    fields.found? name = (Table.lookup name members).map tree := by
  rw [Fields.found?, holds.parts]
  exact find?_memberTrees name members

theorem get_found (holds : fields.Holds members) {reader : Reader α} {written : Value}
    {result : α} (found : Table.lookup name members = some written)
    (returns : reader.Returns written result) (absent : Option α) :
    fields.get name reader absent = .value result := by
  have enough : written.depth ≤ fields.scope.room :=
    Nat.le_trans (depth_le_membersDepth (mem_of_lookup found)) holds.enough
  rw [get_eq_value_iff, holds.found?_eq, found]
  exact returns.reads fields.scope enough

theorem get_absent (holds : fields.Holds members) {reader : Reader α}
    (missing : Table.lookup name members = none) (result : α) :
    fields.get name reader (some result) = .value result := by
  rw [get_eq_value_iff, holds.found?_eq, missing]
  rfl

theorem required (holds : fields.Holds members) {reader : Reader α} {written : Value} {result : α}
    (found : Table.lookup name members = some written)
    (returns : reader.Returns written result) : fields.required name reader = .value result :=
  holds.get_found found returns none

theorem withDefault (holds : fields.Holds members) {reader : Reader α} {written : Value}
    {result default : α} (found : Table.lookup name members = some written)
    (returns : reader.Returns written result) :
    fields.withDefault name default reader = .value result :=
  holds.get_found found returns (some default)

/-- A flag that is not set is left out and read as not set. -/
theorem flag (holds : fields.Holds members) {flag : Bool}
    (found : Table.lookup name members = if flag = true then some (.bool true) else none) :
    fields.withDefault name false .flag = .value flag := by
  cases flag with
  | false => exact holds.get_absent found false
  | true => exact holds.withDefault found ⟨.bool true, fun _ _ => rfl⟩

/-- So is an optional field without a value. -/
theorem optional (holds : fields.Holds members) {reader : Reader α} {write : α -> Value}
    {option : Option α} (found : Table.lookup name members = option.map write)
    (returns : forall value, option = some value -> reader.Returns (write value) value)
    (present : forall value, write value ≠ .null) :
    fields.withDefault name none (.optional reader) = .value option := by
  cases option with
  | none => exact holds.get_absent found none
  | some value => exact holds.withDefault found ((returns value rfl).optional (present value))

end Holds

/-! ## Records -/

/-- Members with declared names, each once, are at no fault themselves. -/
theorem intact_memberTrees {names : List String} {members : List (String × Value)}
    (declared : forall member, member ∈ members -> member.1 ∈ names)
    (nodup : (members.map Prod.fst).Nodup) : Intact names true (memberTrees members) := by
  induction members with
  | nil => exact ⟨rfl, nofun, .nil⟩
  | cons first rest ih =>
      rcases first with ⟨name, value⟩
      rcases List.forall_mem_cons.mp declared with ⟨isDeclared, declared⟩
      rcases List.nodup_cons.mp nodup with ⟨once, nodup⟩
      rw [memberTrees, intact_cons]
      refine ⟨ih declared nodup, fun undeclared => absurd isDeclared undeclared,
        fun _ member isMember same => ?_⟩
      rw [memberTrees_eq_map] at isMember
      rcases List.mem_map.mp isMember with ⟨written, isWritten, rfl⟩
      exact once (List.mem_map.mpr ⟨written, isWritten, Name.text.inj same⟩)

end Fields

namespace Record

/-- The fields of a record make a result wherever they are read from certain members. -/
def Builds (record : Record α) (members : List (String × Value)) (result : α) : Prop :=
  forall fields : Fields, fields.Holds members -> record.build fields = .value result

/-- A record of one field that has to be there. -/
theorem builds_one {make : α -> β} {title name : String} {reader : Reader α} {written : Value}
    {result : α} (returns : reader.Returns written result) :
    Builds ⟨title, [name], fun fields => make <$> fields.required name reader⟩
      [(name, written)] (make result) := by
  intro fields holds
  have field : fields.required name reader = .value result :=
    holds.required (by simp [Table.lookup]) returns
  simp only [field]
  rfl

/-- A record of two fields that have to be there. -/
theorem builds_two {make : α -> β -> γ} {title name other : String} {reader : Reader α}
    {further : Reader β} {written after : Value} {result : α} {next : β}
    (different : name ≠ other) (returns : reader.Returns written result)
    (also : further.Returns after next) :
    Builds ⟨title, [name, other],
        fun fields => make <$> fields.required name reader <*> fields.required other further⟩
      [(name, written), (other, after)] (make result next) := by
  intro fields holds
  have first : fields.required name reader = .value result :=
    holds.required (by simp [Table.lookup]) returns
  have second : fields.required other further = .value next :=
    holds.required (by simp [Table.lookup, different]) also
  simp only [first, second]
  rfl

variable {record : Record α} {members : List (String × Value)} {result : α}

theorem ofParts_memberTrees (follows : Follows record.names members)
    (nodup : record.names.Nodup) (builds : record.Builds members result) {scope : Scope}
    (enough : membersDepth members ≤ scope.room) :
    record.ofParts scope (.members (memberTrees members) true) = .ok result := by
  have intact : Fields.Intact record.names true (memberTrees members) :=
    Fields.intact_memberTrees (fun _ isMember => follows.mem_names isMember)
      (nodup.sublist follows.sublist)
  exact ofParts_eq_ok_iff.mpr
    ⟨Fields.intact_members_iff.mpr intact, builds _ ⟨rfl, enough⟩⟩

theorem returns (follows : Follows record.names members) (nodup : record.names.Nodup)
    (builds : record.Builds members result) : record.read.Returns (.object members) result := by
  refine ⟨.object follows.integral, fun scope enough => ?_⟩
  rw [depth] at enough
  have inside : membersDepth members ≤ scope.inner.room := by
    rw [Scope.inner]
    dsimp only
    omega
  rw [tree, read_object_eq_ok_iff]
  exact ⟨by omega, ofParts_memberTrees follows nodup builds inside⟩

end Record

/-! ## Variants -/

theorem notTag_of_mem {members : List (String × Value)}
    (noTag : forall member, member ∈ members -> member.1 ≠ "kind") :
    forall member, member ∈ memberTrees members -> member.1 ≠ .text "kind" := by
  rw [memberTrees_eq_map]
  intro member isMember
  rcases List.mem_map.mp isMember with ⟨written, isWritten, rfl⟩
  simpa using noTag written isWritten

/-- Members besides the tag do not change the variant. -/
theorem chosen_memberTrees {variants : Variants α} {members : List (String × Value)}
    {kind : String} {record : Record α} (chosen : choose variants kind = .ok record)
    (integral : forall member, member ∈ members -> member.2.Integral)
    (noTag : forall member, member ∈ members -> member.1 ≠ "kind") {room : Nat}
    (enough : membersDepth members ≤ room) :
    Chosen variants room true ((.text "kind", .string kind) :: memberTrees members) record where
  closed := rfl
  kept := by
    refine List.forall_mem_cons.mpr ⟨⟨"kind", rfl, fun apart => absurd rfl apart⟩, ?_⟩
    rw [memberTrees_eq_map]
    intro member isMember
    rcases List.mem_map.mp isMember with ⟨⟨name, value⟩, isWritten, rfl⟩
    have shallow := Nat.le_trans (depth_le_membersDepth isWritten) enough
    rcases (integral (name, value) isWritten).recovered room shallow with ⟨found, reads, _⟩
    exact ⟨name, rfl, fun _ => Option.isSome_of_eq_some reads⟩
  tag := by
    have others : (memberTrees members).filter (fun member => member.1 = .text "kind") = [] :=
      List.filter_eq_nil_iff.mpr fun member isMember =>
        by simpa using notTag_of_mem noTag member isMember
    refine ⟨kind, chosen, ?_⟩
    rw [List.filter_cons_of_pos (by simp), others]

theorem untagged_memberTrees {members : List (String × Value)}
    (noTag : forall member, member ∈ members -> member.1 ≠ "kind") :
    untagged (memberTrees members) = memberTrees members :=
  List.filter_eq_self.mpr fun member isMember =>
    by simpa using notTag_of_mem noTag member isMember

/-- A tagged record returns what the fields of the variant make. -/
theorem Reader.Returns.tagged {title kind : String} {variants : Variants α} {record : Record α}
    {members : List (String × Value)} {result : α}
    (chosen : choose variants kind = .ok record) (follows : Follows record.names members)
    (nodup : ("kind" :: record.names).Nodup) (builds : record.Builds members result) :
    Reader.Returns (tagged title variants) (taggedValue kind members) result := by
  rcases List.nodup_cons.mp nodup with ⟨noTag, nodup⟩
  have different : forall member, member ∈ members -> member.1 ≠ "kind" :=
    fun member isMember same => noTag (same ▸ follows.mem_names isMember)
  refine ⟨.object fun member isMember => ?_, fun scope enough => ?_⟩
  · rcases List.mem_cons.mp isMember with rfl | later
    · exact .string kind
    · exact follows.integral member later
  · rw [taggedValue, depth, membersDepth] at enough
    have inside : membersDepth members ≤ scope.room - 1 := by omega
    rw [taggedValue, tree, memberTrees, tree, tagged_object_eq_ok_iff]
    refine ⟨by omega, record, chosen_memberTrees chosen follows.integral different inside, ?_⟩
    have others : untagged ((.text "kind", .string kind) :: memberTrees members) =
        memberTrees members :=
      (List.filter_cons_of_neg (by simp)).trans (untagged_memberTrees different)
    rw [others]
    exact Record.ofParts_memberTrees follows nodup builds inside

/-! ## Whole texts -/

/-- The compact text of a value is read as what a reader returns for the value. -/
theorem readText_compact {reader : Reader α} {written : Value} {result : α}
    (returns : reader.Returns written result) (enough : written.depth ≤ 127) :
    readText reader written.compact = .ok result := by
  rw [readText_eq_ok_iff, Draft.ofText_compact returns.integral]
  exact ⟨returns.reads .document enough, rfl⟩

end Json
end InjectionPlan
