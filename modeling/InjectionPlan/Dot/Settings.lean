namespace InjectionPlan
namespace Dot

/-!
# Settings of the DOT preamble

The settings name the graph and give its direction, font and further attributes.  The further
attributes are maps, written in the order of their names; `AttributeMap` keeps them in that order
and each name once.
-/

/-- The direction in which a graph is laid out. -/
inductive RankDirection
  | topToBottom
  | leftToRight
  | bottomToTop
  | rightToLeft
deriving DecidableEq, Inhabited

namespace RankDirection

/-- The two letters of a direction. -/
def display : RankDirection -> String
  | topToBottom => "TB"
  | leftToRight => "LR"
  | bottomToTop => "BT"
  | rightToLeft => "RL"

/-- The directions with their letters. -/
def options : List (String × RankDirection) :=
  [topToBottom, leftToRight, bottomToTop, rightToLeft].map fun direction =>
    (direction.display, direction)

/-- A text that names no direction, in capitals. -/
structure Unknown where
  capitals : String
deriving DecidableEq

def Unknown.message (unknown : Unknown) : String :=
  "unknown rank direction '" ++ unknown.capitals ++ "' (expected TB, LR, BT or RL)"

/-- The direction that a text names; the case of ASCII letters does not matter. -/
def ofText (text : String) : Except Unknown RankDirection :=
  let capitals := String.ofList (text.toList.map Char.toUpper)
  match options.find? fun option => option.1 = capitals with
  | some option => .ok option.2
  | none => .error ⟨capitals⟩

theorem ofText_display (direction : RankDirection) : ofText direction.display = .ok direction := by
  cases direction <;> rfl

end RankDirection

/-- Sets an entry among entries in increasing order of their names. -/
def insertEntry (name value : String) : List (String × String) -> List (String × String)
  | [] => [(name, value)]
  | (other, old) :: rest =>
    if name < other then (name, value) :: (other, old) :: rest
    else if name = other then (name, value) :: rest
    else (other, old) :: insertEntry name value rest

private theorem lt_of_not_lt {left right : String} (notLess : ¬ left < right)
    (different : left ≠ right) : right < left :=
  Std.lt_of_le_of_ne (String.not_lt.mp notLess) (Ne.symm different)

private theorem mem_insertEntry {name value : String} {entries : List (String × String)}
    {entry : String × String} (member : entry ∈ insertEntry name value entries) :
    entry = (name, value) ∨ entry ∈ entries := by
  induction entries with
  | nil => simpa [insertEntry] using member
  | cons first rest ih =>
    obtain ⟨other, old⟩ := first
    simp only [insertEntry] at member
    split at member
    · simpa using member
    · split at member
      · rcases List.mem_cons.mp member with found | found
        · exact Or.inl found
        · exact Or.inr (List.mem_cons_of_mem _ found)
      · rcases List.mem_cons.mp member with found | found
        · exact Or.inr (found ▸ List.mem_cons_self)
        · rcases ih found with new | old
          · exact Or.inl new
          · exact Or.inr (List.mem_cons_of_mem _ old)

theorem pairwise_insertEntry (name value : String) (entries : List (String × String))
    (sorted : entries.Pairwise fun left right => left.1 < right.1) :
    (insertEntry name value entries).Pairwise fun left right => left.1 < right.1 := by
  induction entries with
  | nil => simp [insertEntry]
  | cons first rest ih =>
    obtain ⟨other, old⟩ := first
    have parts := List.pairwise_cons.mp sorted
    simp only [insertEntry]
    split
    · next less =>
      refine List.pairwise_cons.mpr ⟨?_, sorted⟩
      intro entry member
      rcases List.mem_cons.mp member with same | later
      · exact same ▸ less
      · exact String.lt_trans less (parts.1 entry later)
    · next notLess =>
      split
      · next same => exact List.pairwise_cons.mpr ⟨same ▸ parts.1, parts.2⟩
      · next different =>
        refine List.pairwise_cons.mpr ⟨?_, ih parts.2⟩
        intro entry member
        rcases mem_insertEntry member with new | later
        · exact new ▸ lt_of_not_lt notLess different
        · exact parts.1 entry later

/-- Names with values, in increasing order of the names and each name once. -/
structure AttributeMap where
  entries : List (String × String)
  sorted : entries.Pairwise fun left right => left.1 < right.1
deriving DecidableEq

namespace AttributeMap

theorem ext {first second : AttributeMap} (same : first.entries = second.entries) :
    first = second := by
  cases first
  cases second
  cases same
  rfl

def empty : AttributeMap := ⟨[], List.Pairwise.nil⟩

instance : Inhabited AttributeMap := ⟨empty⟩

/-- Sets the value of a name. -/
def set (map : AttributeMap) (name value : String) : AttributeMap :=
  ⟨insertEntry name value map.entries, pairwise_insertEntry name value map.entries map.sorted⟩

/-- The map made by setting the entries of a list one after the other. -/
def ofList (entries : List (String × String)) : AttributeMap :=
  entries.foldl (fun map entry => map.set entry.1 entry.2) empty

end AttributeMap

/-- The settings of a graph in DOT. -/
structure Settings where
  graphName : String
  /-- The direction; without one the reader of the graph decides. -/
  rankDirection : Option RankDirection
  /-- The font of nodes and edges. -/
  fontName : Option String
  graphAttributes : AttributeMap
  nodeAttributes : AttributeMap
  edgeAttributes : AttributeMap
deriving DecidableEq

namespace Settings

/-- The name of a graph that is given none. -/
def defaultGraphName : String := "plan"

/-- The font used unless another one, or none, is asked for. -/
def defaultFontName : Option String := some "Helvetica"

def default : Settings where
  graphName := defaultGraphName
  rankDirection := none
  fontName := defaultFontName
  graphAttributes := .empty
  nodeAttributes := .empty
  edgeAttributes := .empty

instance : Inhabited Settings := ⟨default⟩

/-- Replaces the direction and the name by those given. -/
def override (settings : Settings) (direction : Option RankDirection) (name : Option String) :
    Settings :=
  { settings with
    rankDirection := direction.or settings.rankDirection
    graphName := name.getD settings.graphName }

end Settings
end Dot
end InjectionPlan
