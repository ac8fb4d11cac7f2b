import InjectionPlan.Dot.SettingsJson
import InjectionPlan.Plan.Reading
import InjectionPlan.Plan.Writing
import InjectionPlan.Proofs.Fields

namespace InjectionPlan

open Json

/-!
# Documents and settings are read back

Whatever is written for a part of a plan is read as that part.  For each type its members follow
the declaration of its fields, and each field is read from the member of its name or, left out,
from its default.  So a document and the settings of a graph are read back from their compact text
(`documents_and_settings_return`).

A document may hold any value that exists already.  Such a value is read back if its numbers are
integers in range and its objects name their members in increasing order, as the objects of all
values that were read do.
-/

/-! ## Types and qualifiers -/

theorem ComponentType.returns (type : ComponentType) :
    ComponentType.read.Returns type.toJson type := by
  refine Record.returns (.cons (.string _) (.flag _ (.lastFlag _))) (by decide)
    fun fields holds => ?_
  have name : fields.required "name" .text = .value type.name :=
    holds.required (by simp [Table.lookup]) (.text _)
  have shareable : fields.withDefault "shareable" false .flag = .value type.shareable :=
    holds.flag (by simp [Table.lookup])
  have dataAccess : fields.withDefault "data_access" false .flag = .value type.dataAccess :=
    holds.flag (by simp [Table.lookup])
  simp only [ComponentType.record, name, shareable, dataAccess]
  rfl

theorem Qualifier.returns (qualifier : Qualifier) :
    Qualifier.read.Returns qualifier.toJson qualifier := by
  refine Record.returns (.cons (.string _) (.lastFlag _)) (by decide) fun fields holds => ?_
  have name : fields.required "name" .text = .value qualifier.name :=
    holds.required (by simp [Table.lookup]) (.text _)
  have parameter : fields.withDefault "parameter" false .flag = .value qualifier.parameter :=
    holds.flag (by simp [Table.lookup])
  simp only [Qualifier.record, name, parameter]
  rfl

theorem CachePolicy.returns (policy : CachePolicy) :
    CachePolicy.read.Returns policy.toJson policy :=
  .choice (by cases policy <;> rfl)

/-! ## Satisfactions -/

/-- A value that exists already has only integers in range for numbers and is sorted. -/
def Satisfaction.Legible (satisfaction : Satisfaction) : Prop :=
  forall value, satisfaction.instance? = some value -> value.Integral ∧ value.Sorted

theorem Satisfaction.returns {satisfaction : Satisfaction} (legible : satisfaction.Legible) :
    Satisfaction.read.Returns satisfaction.toJson satisfaction := by
  cases satisfaction with
  | null type =>
      exact .tagged rfl (.cons type.returns.integral .nil) (by decide)
        (Record.builds_one type.returns)
  | ofClass type =>
      exact .tagged rfl (.cons type.returns.integral .nil) (by decide)
        (Record.builds_one type.returns)
  | ofInstance type value =>
      rcases legible value rfl with ⟨integral, sorted⟩
      exact .tagged rfl (.cons type.returns.integral (.cons integral .nil)) (by decide)
        (Record.builds_two (by decide) type.returns (.value integral sorted))
  | ofProviderClass provider type =>
      exact .tagged rfl (.cons provider.returns.integral (.cons type.returns.integral .nil))
        (by decide) (Record.builds_two (by decide) provider.returns type.returns)
  | ofProviderInstance provider label type =>
      refine .tagged rfl (.cons provider.returns.integral
        (.optional (fun label _ => .string label) (.cons type.returns.integral .nil)))
        (by decide) fun fields holds => ?_
      have provider_eq : fields.required "provider" ComponentType.read = .value provider :=
        holds.required (by simp [Table.lookup]) provider.returns
      have label_eq : fields.withDefault "label" none (.optional .text) = .value label :=
        holds.optional (by simp [Table.lookup]) (fun label _ => .text label) (fun _ => by simp)
      have type_eq : fields.required "type" ComponentType.read = .value type :=
        holds.required (by simp [Table.lookup]) type.returns
      simp only [provider_eq, label_eq, type_eq]
      rfl

/-! ## Desires -/

theorem Site.returns (site : Site) : Site.read.Returns site.toJson site := by
  cases site with
  | constructorParameter index =>
      have returns := Reader.Returns.index index
      exact .tagged rfl (.cons returns.integral .nil) (by decide) (Record.builds_one returns)
  | setter member index =>
      have returns := Reader.Returns.index index
      exact .tagged rfl (.cons (.string member) (.cons returns.integral .nil)) (by decide)
        (Record.builds_two (by decide) (.text member) returns)
  | field member =>
      exact .tagged rfl (.cons (.string member) .nil) (by decide)
        (Record.builds_one (.text member))
  | noArgument member =>
      exact .tagged rfl (.cons (.string member) .nil) (by decide)
        (Record.builds_one (.text member))
  | simple => exact .tagged rfl .nil (by decide) fun _ _ => rfl
  | other name =>
      exact .tagged rfl (.cons (.string name) .nil) (by decide) (Record.builds_one (.text name))

theorem InjectionPoint.returns (point : InjectionPoint) :
    InjectionPoint.read.Returns point.toJson point := by
  refine Record.returns (.cons point.site.returns.integral
    (.optional (fun qualifier _ => qualifier.returns.integral) (.lastFlag _))) (by decide)
    fun fields holds => ?_
  have site : fields.required "site" Site.read = .value point.site :=
    holds.required (by simp [Table.lookup]) point.site.returns
  have qualifier : fields.withDefault "qualifier" none (.optional Qualifier.read) =
      .value point.qualifier :=
    holds.optional (by simp [Table.lookup]) (fun qualifier _ => qualifier.returns)
      (fun _ => by simp [Qualifier.toJson])
  have transient : fields.withDefault "transient" false .flag = .value point.transient :=
    holds.flag (by simp [Table.lookup])
  simp only [InjectionPoint.record, site, qualifier, transient]
  rfl

theorem Desire.returns (desire : Desire) : Desire.read.Returns desire.toJson desire :=
  have type := desire.desiredType.returns
  have point := desire.injectionPoint.returns
  Record.returns (.cons type.integral (.cons point.integral .nil)) (by decide)
    (Record.builds_two (by decide) type point)

/-! ## Documents -/

theorem DocumentNode.returns {entry : DocumentNode}
    (legible : forall satisfaction, entry.satisfaction = some satisfaction ->
      satisfaction.Legible) : DocumentNode.read.Returns entry.toJson entry := by
  have returns : forall satisfaction, entry.satisfaction = some satisfaction ->
      Satisfaction.read.Returns satisfaction.toJson satisfaction :=
    fun satisfaction same => Satisfaction.returns (legible satisfaction same)
  have present : forall satisfaction : Satisfaction, satisfaction.toJson ≠ .null := by
    intro satisfaction
    cases satisfaction <;> exact nofun
  refine Record.returns (.cons (.string _)
    (.optional (fun satisfaction same => (returns satisfaction same).integral)
      (.cons entry.cachePolicy.returns.integral .nil))) (by decide) fun fields holds => ?_
  have key : fields.required "key" .text = .value entry.key :=
    holds.required (by simp [Table.lookup]) (.text _)
  have satisfaction : fields.withDefault "satisfaction" none (.optional Satisfaction.read) =
      .value entry.satisfaction :=
    holds.optional (by simp [Table.lookup]) returns present
  have policy : fields.withDefault "cache_policy" .noPreference CachePolicy.read =
      .value entry.cachePolicy :=
    holds.withDefault (by simp [Table.lookup]) entry.cachePolicy.returns
  simp only [DocumentNode.record, key, satisfaction, policy]
  rfl

theorem DocumentEdge.returns (edge : DocumentEdge) :
    DocumentEdge.read.Returns edge.toJson edge := by
  refine Record.returns (.cons (.string _) (.cons (.string _)
    (.cons edge.desire.returns.integral .nil))) (by decide) fun fields holds => ?_
  have head : fields.required "from" .text = .value edge.head :=
    holds.required (by simp [Table.lookup]) (.text _)
  have tail : fields.required "to" .text = .value edge.tail :=
    holds.required (by simp [Table.lookup]) (.text _)
  have desire : fields.required "desire" Desire.read = .value edge.desire :=
    holds.required (by simp [Table.lookup]) edge.desire.returns
  simp only [DocumentEdge.record, head, tail, desire]
  rfl

/-- All values that exist already are as they can be read. -/
def Document.Legible (document : Document) : Prop :=
  forall entry, entry ∈ document.nodes ->
    forall satisfaction, entry.satisfaction = some satisfaction -> satisfaction.Legible

theorem Document.returns {document : Document} (legible : document.Legible) :
    Document.read.Returns document.toJson document := by
  have nodesReturn : (Reader.list DocumentNode.read).Returns
      (.array (document.nodes.map DocumentNode.toJson)) document.nodes :=
    .list fun entry member => DocumentNode.returns (legible entry member)
  have edgesReturn : (Reader.list DocumentEdge.read).Returns
      (.array (document.edges.map DocumentEdge.toJson)) document.edges :=
    .list fun edge _ => edge.returns
  have unsharedReturn : (Reader.list .text).Returns
      (.array (document.unshared.map .string)) document.unshared :=
    .list fun key _ => .text key
  refine Record.returns (.cons (.string _) (.cons nodesReturn.integral
    (.cons edgesReturn.integral (.cons unsharedReturn.integral .nil)))) (by decide)
    fun fields holds => ?_
  have root : fields.required "root" .text = .value document.root :=
    holds.required (by simp [Table.lookup]) (.text _)
  have nodes : fields.required "nodes" (.list DocumentNode.read) = .value document.nodes :=
    holds.required (by simp [Table.lookup]) nodesReturn
  have edges : fields.withDefault "edges" [] (.list DocumentEdge.read) = .value document.edges :=
    holds.withDefault (by simp [Table.lookup]) edgesReturn
  have unshared : fields.withDefault "unshared" [] (.list .text) = .value document.unshared :=
    holds.withDefault (by simp [Table.lookup]) unsharedReturn
  simp only [Document.record, root, nodes, edges, unshared]
  rfl

/-! ## Settings -/

namespace Dot

theorem RankDirection.returns (direction : RankDirection) :
    RankDirection.read.Returns direction.toJson direction :=
  .choice (by cases direction <;> rfl)

namespace AttributeMap

theorem insertEntry_last {name : String} {before : List (String × String)}
    (smaller : forall entry, entry ∈ before -> entry.1 < name) (value : String) :
    insertEntry name value before = before ++ [(name, value)] := by
  induction before with
  | nil => rfl
  | cons first rest ih =>
      have less : first.1 < name := smaller first List.mem_cons_self
      have notLess : ¬ name < first.1 := String.not_lt.mpr (Std.le_of_lt less)
      have different : name ≠ first.1 := Ne.symm (Std.ne_of_lt less)
      rw [insertEntry, if_neg notLess, if_neg different,
        ih fun entry member => smaller entry (List.mem_cons_of_mem _ member)]
      rfl

/-- Entries set in increasing order follow those of the map. -/
theorem entries_foldl_set (map : AttributeMap) (entries : List (String × String))
    (sorted : (map.entries ++ entries).Pairwise fun left right => left.1 < right.1) :
    (entries.foldl (fun map entry => map.set entry.1 entry.2) map).entries =
      map.entries ++ entries := by
  induction entries generalizing map with
  | nil => exact (List.append_nil _).symm
  | cons first rest ih =>
      have smaller : forall entry, entry ∈ map.entries -> entry.1 < first.1 :=
        fun entry member =>
          (List.pairwise_append.mp sorted).2.2 entry member first List.mem_cons_self
      have last : (map.set first.1 first.2).entries = map.entries ++ [first] :=
        insertEntry_last smaller first.2
      rw [List.append_cons, ← last] at sorted ⊢
      exact ih (map.set first.1 first.2) sorted

theorem ofList_entries (map : AttributeMap) : ofList map.entries = map :=
  ext (entries_foldl_set empty map.entries map.sorted)

theorem texts_memberTrees (entries : List (String × String)) :
    Reader.texts (Value.memberTrees (entries.map fun (name, value) => (name, .string value))) =
      .ok entries := by
  induction entries with
  | nil => rfl
  | cons first rest ih =>
      rw [List.map_cons, Value.memberTrees, Value.tree, Reader.texts, ih]
      rfl

theorem returns (map : AttributeMap) : AttributeMap.read.Returns map.toJson map := by
  refine ⟨.object fun member isMember => ?_, fun scope enough => ?_⟩
  · rcases List.mem_map.mp isMember with ⟨entry, _, rfl⟩
    exact .string entry.2
  · rw [toJson, Value.depth] at enough
    have notFull : scope.room ≠ 0 := by omega
    rw [AttributeMap.read, toJson, Value.tree, Reader.textMap, if_neg notFull, texts_memberTrees]
    exact congrArg Except.ok map.ofList_entries

@[simp] theorem lookup_toMember (name other : String) (map : AttributeMap) :
    Table.lookup name (map.toMember other) =
      if other = name ∧ map.entries.isEmpty = false then some map.toJson else none := by
  unfold toMember
  cases map.entries.isEmpty <;> simp [Table.lookup]

/-- A map without entries is left out and read as the map without entries. -/
theorem withDefault {fields : Fields} {members : List (String × Value)} {name : String}
    {map : AttributeMap} (holds : fields.Holds members)
    (found : Table.lookup name members =
      if map.entries.isEmpty = false then some map.toJson else none) :
    fields.withDefault name .empty AttributeMap.read = .value map := by
  cases none : map.entries.isEmpty with
  | true =>
      rw [none] at found
      have same : empty = map := ext (List.isEmpty_iff.mp none).symm
      exact same ▸ holds.get_absent found empty
  | false =>
      rw [none] at found
      exact holds.withDefault found map.returns

theorem follows {name : String} {names : List String} {members : List (String × Value)}
    (map : AttributeMap) (rest : Follows names members) :
    Follows (name :: names) (map.toMember name ++ members) := by
  unfold toMember
  split
  · exact .skip rest
  · exact .cons map.returns.integral rest

theorem depth_toMember (name : String) (map : AttributeMap) :
    Value.membersDepth (map.toMember name) ≤ 1 := by
  have texts : forall entries : List (String × String),
      Value.membersDepth (entries.map fun (name, value) => (name, .string value)) = 0 := by
    intro entries
    induction entries with
    | nil => rfl
    | cons first rest ih => rw [List.map_cons, Value.membersDepth, ih, Value.depth, Nat.max_self]
  unfold toMember
  split
  · exact Nat.zero_le 1
  · rw [toJson, Value.membersDepth, Value.depth, texts]
    exact Nat.le_refl 1

end AttributeMap

namespace Settings

theorem fontName_returns (font : Option String) :
    (Reader.optional .text).Returns (font.elim .null .string) font := by
  cases font with
  | none => exact .null .text
  | some name => exact (Reader.Returns.text name).optional (by simp)

theorem follows_toJson (settings : Settings) :
    Follows fieldNames (("graph_name", .string settings.graphName) ::
      optionalMember "rankdir" RankDirection.toJson settings.rankDirection ++
      [("font_name", settings.fontName.elim .null .string)] ++
      settings.graphAttributes.toMember "graph_attributes" ++
      settings.nodeAttributes.toMember "node_attributes" ++
      settings.edgeAttributes.toMember "edge_attributes") := by
  have ordered : Follows fieldNames (("graph_name", .string settings.graphName) ::
      (optionalMember "rankdir" RankDirection.toJson settings.rankDirection ++
        ("font_name", settings.fontName.elim .null .string) ::
          (settings.graphAttributes.toMember "graph_attributes" ++
            (settings.nodeAttributes.toMember "node_attributes" ++
              (settings.edgeAttributes.toMember "edge_attributes" ++ []))))) :=
    .cons (.string _) (.optional (fun direction _ => direction.returns.integral)
      (.cons (fontName_returns settings.fontName).integral
        (settings.graphAttributes.follows
          (settings.nodeAttributes.follows (settings.edgeAttributes.follows .nil)))))
  simpa only [List.append_assoc, List.cons_append, List.nil_append, List.append_nil] using ordered

theorem returns (settings : Settings) : Settings.read.Returns settings.toJson settings := by
  refine Record.returns settings.follows_toJson (by decide) fun fields holds => ?_
  have name : fields.withDefault "graph_name" defaultGraphName .text =
      .value settings.graphName :=
    holds.withDefault (by simp [Table.lookup]) (.text _)
  have direction : fields.withDefault "rankdir" none (.optional RankDirection.read) =
      .value settings.rankDirection :=
    holds.optional (by simp [Table.lookup]) (fun direction _ => direction.returns)
      (fun _ => by simp [RankDirection.toJson])
  have font : fields.withDefault "font_name" defaultFontName (.optional .text) =
      .value settings.fontName :=
    holds.withDefault (by simp [Table.lookup]) (fontName_returns settings.fontName)
  have graphAttributes : fields.withDefault "graph_attributes" .empty AttributeMap.read =
      .value settings.graphAttributes :=
    AttributeMap.withDefault holds (by simp [Table.lookup])
  have nodeAttributes : fields.withDefault "node_attributes" .empty AttributeMap.read =
      .value settings.nodeAttributes :=
    AttributeMap.withDefault holds (by simp [Table.lookup])
  have edgeAttributes : fields.withDefault "edge_attributes" .empty AttributeMap.read =
      .value settings.edgeAttributes :=
    AttributeMap.withDefault holds (by simp [Table.lookup])
  simp only [Settings.record, name, direction, font, graphAttributes, nodeAttributes,
    edgeAttributes]
  rfl

theorem depth_toJson (settings : Settings) : settings.toJson.depth ≤ 2 := by
  have graphAttributes :=
    AttributeMap.depth_toMember "graph_attributes" settings.graphAttributes
  have nodeAttributes := AttributeMap.depth_toMember "node_attributes" settings.nodeAttributes
  have edgeAttributes := AttributeMap.depth_toMember "edge_attributes" settings.edgeAttributes
  have direction : Value.membersDepth
      (optionalMember "rankdir" RankDirection.toJson settings.rankDirection) = 0 := by
    cases settings.rankDirection <;> rfl
  have font : (settings.fontName.elim Value.null .string).depth = 0 := by
    cases settings.fontName <;> rfl
  simp only [toJson, Value.depth, Value.membersDepth, Value.membersDepth_append, direction, font]
  omega

end Settings
end Dot

/-- A document with legible values in whose text at most 127 arrays and objects contain one another
is read back from that text, and so are all settings. -/
theorem documents_and_settings_return :
    (forall document : Document, document.Legible -> document.toJson.depth ≤ 127 ->
      Document.ofText document.toJson.compact = .ok document) ∧
    forall settings : Dot.Settings,
      readText Dot.Settings.read settings.toJson.compact = .ok settings := by
  refine ⟨fun document legible shallow => ?_, fun settings => ?_⟩
  · rw [Document.ofText, readText_compact (Document.returns legible) shallow]
    rfl
  · exact readText_compact settings.returns (Nat.le_trans settings.depth_toJson (by decide))

/-- A document that holds the value of a shelf. -/
def Document.shelf : Document where
  root := "root"
  nodes := [⟨"root", none, .memoize⟩,
    ⟨"shelf", some (.ofInstance ⟨"shop::Shelf", true, false⟩
      (.object [("books", .array [.string "Über \"A\\B\"\n", .null, .bool false]),
        ("room", .ofNat 18446744073709551615), ("shift", .ofInt (-9223372036854775808))])),
      .noPreference⟩]
  edges := [⟨"root", "shelf", ⟨⟨"shop::Shelf", true, false⟩,
    ⟨.setter "shelf" 18446744073709551615, some ⟨"shop::Main", true⟩, true⟩⟩⟩]
  unshared := ["shelf", "attic"]

theorem shelf_returns : Document.shelf.Legible ∧ Document.shelf.toJson.depth ≤ 127 ∧
    Document.ofText Document.shelf.toJson.compact = .ok Document.shelf := by
  have legible : Document.shelf.Legible := by
    intro entry member satisfaction held value found
    rcases List.mem_pair.mp member with rfl | rfl
    · cases held
    · cases held
      cases found
      constructor
      · refine .object (List.forall_mem_cons.mpr ⟨.array ?_, List.forall_mem_cons.mpr
          ⟨.integer (by decide), List.forall_mem_singleton.mpr (.integer (by decide))⟩⟩)
        exact List.forall_mem_cons.mpr ⟨.string _, List.forall_mem_cons.mpr
          ⟨.null, List.forall_mem_singleton.mpr (.bool false)⟩⟩
      · refine .object (by decide) (List.forall_mem_cons.mpr ⟨.array ?_, List.forall_mem_cons.mpr
          ⟨.number _, List.forall_mem_singleton.mpr (.number _)⟩⟩)
        exact List.forall_mem_cons.mpr ⟨.string _, List.forall_mem_cons.mpr
          ⟨.null, List.forall_mem_singleton.mpr (.bool false)⟩⟩
  have shallow : Document.shelf.toJson.depth ≤ 127 := by decide
  exact ⟨legible, shallow, documents_and_settings_return.1 Document.shelf legible shallow⟩

end InjectionPlan
