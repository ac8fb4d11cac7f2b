namespace InjectionPlan

/-!
# Tables that remember the order of their keys

A table associates keys with values.  Setting a key that is already present replaces its value
and leaves it where it was first written; a new key goes to the end.  Attribute lists need
exactly this, because their order is visible in the output, and the same type serves wherever a
finite map is looked up: identifiers of nodes, targets of identifiers, nodes of document keys.

That no key occurs twice is part of the type, so `entries` can be read as the graph of a finite
function.  `get?_set` and `keys_set` say all there is to know about `set`.
-/

/-- A finite map with its keys in order of first appearance. -/
structure Table (Key : Type u) (Value : Type v) where
  entries : List (Key × Value)
  keys_nodup : (entries.map Prod.fst).Nodup

namespace Table

variable {Key : Type u} {Value : Type v}

/-- The keys in order of first appearance. -/
def keys (table : Table Key Value) : List Key :=
  table.entries.map Prod.fst

def size (table : Table Key Value) : Nat :=
  table.entries.length

/-- The table without entries. -/
def empty : Table Key Value :=
  ⟨[], List.Pairwise.nil⟩

instance : Inhabited (Table Key Value) := ⟨empty⟩

theorem ext_entries {left right : Table Key Value} (same : left.entries = right.entries) :
    left = right := by
  cases left
  cases right
  cases same
  rfl

theorem size_ne_zero {table : Table Key Value} {key : Key} (member : key ∈ table.keys) :
    table.size ≠ 0 := by
  intro blank
  rw [keys, List.eq_nil_of_length_eq_zero blank] at member
  cases member

variable [DecidableEq Key]

instance [DecidableEq Value] : DecidableEq (Table Key Value) := fun left right =>
  if same : left.entries = right.entries then
    isTrue (ext_entries same)
  else
    isFalse fun equal => same (congrArg entries equal)

/-- The value found first under a key in a list of entries. -/
def lookup (key : Key) : List (Key × Value) -> Option Value
  | [] => none
  | (other, value) :: rest => if other = key then some value else lookup key rest

/-- Entries with one key set: replaced in place, or added at the end. -/
def assign (key : Key) (value : Value) : List (Key × Value) -> List (Key × Value)
  | [] => [(key, value)]
  | (other, old) :: rest =>
    if other = key then (key, value) :: rest else (other, old) :: assign key value rest

def get? (table : Table Key Value) (key : Key) : Option Value :=
  lookup key table.entries

def contains (table : Table Key Value) (key : Key) : Bool :=
  (table.get? key).isSome

theorem lookup_isSome_iff (key : Key) (entries : List (Key × Value)) :
    (lookup key entries).isSome = true <-> key ∈ entries.map Prod.fst := by
  induction entries with
  | nil => simp [lookup]
  | cons entry rest ih =>
    obtain ⟨other, value⟩ := entry
    by_cases same : other = key
    · simp [lookup, same]
    · simp [lookup, same, ih, Ne.symm same]

theorem map_fst_assign (key : Key) (value : Value) (entries : List (Key × Value)) :
    (assign key value entries).map Prod.fst =
      if key ∈ entries.map Prod.fst then entries.map Prod.fst
      else entries.map Prod.fst ++ [key] := by
  induction entries with
  | nil => simp [assign]
  | cons entry rest ih =>
    obtain ⟨other, old⟩ := entry
    by_cases same : other = key
    · simp [assign, same]
    · by_cases member : key ∈ rest.map Prod.fst
      · rw [if_pos member] at ih
        simp only [assign, if_neg same, List.map_cons, ih]
        rw [if_pos (List.mem_cons_of_mem _ member)]
      · rw [if_neg member] at ih
        simp only [assign, if_neg same, List.map_cons, ih]
        rw [if_neg]
        · rfl
        · intro found
          rcases List.mem_cons.mp found with equal | found
          · exact same equal.symm
          · exact member found

theorem lookup_assign (key other : Key) (value : Value) (entries : List (Key × Value)) :
    lookup other (assign key value entries) =
      if key = other then some value else lookup other entries := by
  induction entries with
  | nil => simp [assign, lookup]
  | cons entry rest ih =>
    obtain ⟨first, old⟩ := entry
    by_cases same : first = key
    · subst same
      by_cases found : first = other <;> simp [assign, lookup, found]
    · by_cases found : first = other
      · subst found
        simp [assign, lookup, same, Ne.symm same]
      · simp [assign, lookup, same, found, ih]

theorem lookup_eq_some_iff (key : Key) (value : Value) {entries : List (Key × Value)}
    (nodup : (entries.map Prod.fst).Nodup) :
    lookup key entries = some value <-> (key, value) ∈ entries := by
  induction entries with
  | nil => simp [lookup]
  | cons entry rest ih =>
    obtain ⟨other, old⟩ := entry
    obtain ⟨absent, nodup⟩ := List.nodup_cons.mp nodup
    by_cases same : other = key
    · subst same
      have notLater : (other, value) ∉ rest := fun member =>
        absent (List.mem_map.mpr ⟨_, member, rfl⟩)
      simp [lookup, notLater, eq_comm]
    · simp [lookup, same, Ne.symm same, ih nodup]

/-- Sets a key: a present key keeps its place, a new one goes to the end. -/
def set (table : Table Key Value) (key : Key) (value : Value) : Table Key Value where
  entries := assign key value table.entries
  keys_nodup := by
    rw [map_fst_assign]
    split
    · exact table.keys_nodup
    · next absent =>
      rw [List.nodup_append]
      refine ⟨table.keys_nodup, by simp, ?_⟩
      intro left inTable right isKey equal
      rw [List.mem_singleton] at isKey
      exact absent (isKey ▸ equal ▸ inTable)

/-- The table made by setting the entries of a list one after the other. -/
def ofList (entries : List (Key × Value)) : Table Key Value :=
  entries.foldl (fun table entry => table.set entry.1 entry.2) empty

@[simp] theorem get?_empty (key : Key) : (empty : Table Key Value).get? key = none := rfl

@[simp] theorem get?_set (table : Table Key Value) (key other : Key) (value : Value) :
    (table.set key value).get? other = if key = other then some value else table.get? other :=
  lookup_assign key other value table.entries

theorem keys_set (table : Table Key Value) (key : Key) (value : Value) :
    (table.set key value).keys = if key ∈ table.keys then table.keys else table.keys ++ [key] :=
  map_fst_assign key value table.entries

theorem size_set (table : Table Key Value) (key : Key) (value : Value) :
    (table.set key value).size = if key ∈ table.keys then table.size else table.size + 1 := by
  have lengths := congrArg List.length (table.keys_set key value)
  unfold keys at lengths ⊢
  rw [List.length_map] at lengths
  refine lengths.trans ?_
  split
  · exact List.length_map _
  · rw [List.length_append, List.length_map]
    rfl

theorem get?_eq_some_iff (table : Table Key Value) (key : Key) (value : Value) :
    table.get? key = some value <-> (key, value) ∈ table.entries :=
  lookup_eq_some_iff key value table.keys_nodup

theorem mem_entries_set {table : Table Key Value} {key other : Key} {value found : Value}
    (member : (other, found) ∈ (table.set key value).entries) :
    found = value ∨ (other, found) ∈ table.entries := by
  rw [← get?_eq_some_iff, get?_set] at member
  split at member
  · exact Or.inl (Option.some.inj member).symm
  · exact Or.inr ((table.get?_eq_some_iff other found).mp member)

theorem contains_iff (table : Table Key Value) (key : Key) :
    table.contains key = true <-> key ∈ table.keys :=
  lookup_isSome_iff key table.entries

theorem mem_keys_set (table : Table Key Value) (key : Key) (value : Value) :
    key ∈ (table.set key value).keys := by
  rw [← contains_iff, contains, get?_set, if_pos rfl]
  rfl

end Table
end InjectionPlan
