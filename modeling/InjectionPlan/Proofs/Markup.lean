import InjectionPlan.Diagram.Component

namespace InjectionPlan
namespace Diagram

/-!
# The angle brackets of markup

Markup stands between angle brackets in the output and is not escaped there.  Where it ends can
only be told by counting brackets.  Behind the label of a component the count is what it was in
front of it (`Component.leads_label`): the brackets of the label itself enclose elements, and those
of the texts in it are written with an ampersand.  So no beginning of a label closes more than it
opens, and the whole label closes what it opens (`Component.balanced_label`).
-/

/-- The depth of nesting behind a character.  Nothing can be closed at the outermost level. -/
def levelBehind (depth : Nat) (character : Char) : Option Nat :=
  if character = '<' then some (depth + 1)
  else if character = '>' then
    match depth with
    | 0 => none
    | outer + 1 => some outer
  else some depth

/-- The depth of nesting behind a text, unless it closes what has not been opened. -/
def level (depth : Nat) (text : List Char) : Option Nat :=
  text.foldlM levelBehind depth

theorem level_append (depth : Nat) (first second : List Char) :
    level depth (first ++ second) = (level depth first).bind (level · second) :=
  List.foldlM_append

theorem level_cons (depth : Nat) (character : Char) (rest : List Char) :
    level depth (character :: rest) = (levelBehind depth character).bind (level · rest) :=
  List.foldlM_cons

/-! ## What the level says -/

/-- No beginning of a text closes more than it opens, and the whole text closes what it opens. -/
structure Balanced (text : List Char) : Prop where
  closed : text.count '<' = text.count '>'
  opened : forall beginning, beginning <+: text -> beginning.count '>' ≤ beginning.count '<'

theorem count_of_level {depth reached : Nat} {text : List Char}
    (reaches : level depth text = some reached) :
    text.count '<' + depth = text.count '>' + reached := by
  induction text generalizing depth with
  | nil =>
      cases reaches
      rfl
  | cons character rest ih =>
      rw [level_cons, Option.bind_eq_some_iff] at reaches
      rcases reaches with ⟨next, behind, reaches⟩
      have later := ih reaches
      unfold levelBehind at behind
      split at behind
      · next opens =>
        cases behind
        rw [opens, List.count_cons_self, List.count_cons_of_ne (by decide)]
        omega
      · next notOpening =>
        split at behind
        · next closes =>
          rw [closes, List.count_cons_self, List.count_cons_of_ne (by decide)]
          cases depth with
          | zero => cases behind
          | succ outer =>
              cases behind
              omega
        · next notClosing =>
          cases behind
          rw [List.count_cons_of_ne notOpening, List.count_cons_of_ne notClosing]
          exact later

theorem balanced_of_level {text : List Char} (reaches : level 0 text = some 0) :
    Balanced text where
  closed := count_of_level reaches
  opened beginning begins := by
    rcases begins with ⟨rest, rfl⟩
    rw [level_append, Option.bind_eq_some_iff] at reaches
    rcases reaches with ⟨reached, first, _⟩
    have count := count_of_level first
    omega

/-! ## Texts that can be counted over -/

/-- A text leads from one level to another, at any depth. -/
def Leads (before : Nat) (text : String) (after : Nat) : Prop :=
  forall depth, level (depth + before) text.toList = some (depth + after)

theorem Leads.append {before between after : Nat} {first second : String}
    (leads : Leads before first between) (leadsOn : Leads between second after) :
    Leads before (first ++ second) after := by
  intro depth
  rw [String.toList_append, level_append, leads depth]
  exact leadsOn depth

/-- Whether a character is not an angle bracket. -/
def isPlain (character : Char) : Bool :=
  character ≠ '<' && character ≠ '>'

/-- A text without brackets stays at its level. -/
theorem leads_of_plain {text : String} (plain : text.toList.all isPlain = true) (before : Nat) :
    Leads before text before := by
  intro depth
  generalize text.toList = characters at plain
  induction characters with
  | nil => rfl
  | cons character rest ih =>
      rcases Bool.and_eq_true_iff.mp plain with ⟨first, later⟩
      have stays : levelBehind (depth + before) character = some (depth + before) := by
        rcases Bool.and_eq_true_iff.mp first with ⟨notOpening, notClosing⟩
        unfold levelBehind
        rw [if_neg (of_decide_eq_true notOpening), if_neg (of_decide_eq_true notClosing)]
      rw [level_cons, stays, Option.bind_some]
      exact ih later

theorem leads_join {before : Nat} {texts : List String}
    (each : forall text, text ∈ texts -> Leads before text before) :
    Leads before (String.join texts) before := by
  induction texts with
  | nil => exact fun _ => rfl
  | cons text rest ih =>
      rw [String.join_cons]
      exact (each text List.mem_cons_self).append
        (ih fun other member => each other (List.mem_cons_of_mem _ member))

private theorem plain_markupChar (original : Char) :
    (markupChar original).all isPlain = true := by
  unfold markupChar
  split
  · rfl
  · split
    · rfl
    · split
      · rfl
      · split
        · rfl
        · next notOpening notClosing _ => simp [isPlain, notOpening, notClosing]

/-- Texts are written in markup without brackets. -/
theorem leads_markup (text : String) (before : Nat) : Leads before (markup text) before := by
  apply leads_of_plain
  rw [markup, String.toList_ofList, List.all_flatMap]
  exact List.all_eq_true.mpr fun original _ => plain_markupChar original

namespace Component

variable (component : Component)

theorem leads_markupAttribute {name value : String} {before : Nat}
    (leadsName : Leads before name before) (leadsValue : Leads before value before) :
    Leads before (markupAttribute name value) before := by
  have blank : Leads before " " before := leads_of_plain (by decide) before
  have equals : Leads before "=\"" before := leads_of_plain (by decide) before
  have quote : Leads before "\"" before := leads_of_plain (by decide) before
  exact (((blank.append leadsName).append equals).append leadsValue).append quote

theorem leads_tableStart : Leads 0 component.tableStart 0 := by
  have opening : Leads 0 "<TABLE" 1 := fun _ => rfl
  have border : Leads 1 (markupAttribute "BORDER" "0") 1 := leads_of_plain (by decide) 1
  have cells : Leads 1 (markupAttribute "CELLBORDER" "1") 1 := leads_of_plain (by decide) 1
  have spacing : Leads 1 (markupAttribute "CELLSPACING" "0") 1 := leads_of_plain (by decide) 1
  have style :
      Leads 1 (if component.provided then markupAttribute "STYLE" "rounded" else "") 1 := by
    split <;> exact leads_of_plain (by decide) 1
  have colour :
      Leads 1 (if component.shared then "" else markupAttribute "COLOR" "#e41a1c") 1 := by
    split <;> exact leads_of_plain (by decide) 1
  have closing : Leads 1 ">" 0 := fun _ => rfl
  exact (((((opening.append border).append cells).append spacing).append style).append
    colour).append closing

theorem leads_headerColour : Leads 1 component.headerColour 1 := by
  unfold headerColour
  split
  · exact leads_of_plain (by decide) 1
  · split
    · exact leads_of_plain (by decide) 1
    · exact leads_of_plain (by decide) 1

theorem leads_headerRow : Leads 0 component.headerRow 0 := by
  have opening : Leads 0 "<TR><TD" 1 := fun _ => rfl
  have port : Leads 1 (markupAttribute "PORT" headerPort) 1 := leads_of_plain (by decide) 1
  have between : Leads 1 "><B>" 0 := fun _ => rfl
  have closing : Leads 0 "</B></TD></TR>" 0 := fun _ => rfl
  exact ((((opening.append port).append component.leads_headerColour).append between).append
    (leads_markup component.typeName 0)).append closing

theorem leads_parameterRow (parameter : String) : Leads 0 (parameterRow parameter) 0 := by
  have opening : Leads 0 "<TR><TD" 1 := fun _ => rfl
  have align : Leads 1 (markupAttribute "ALIGN" "LEFT") 1 := leads_of_plain (by decide) 1
  have between : Leads 1 "><I>" 0 := fun _ => rfl
  have closing : Leads 0 "</I></TD></TR>" 0 := fun _ => rfl
  exact (((opening.append align).append between).append (leads_markup parameter 0)).append closing

theorem leads_dependencyRow (port : Nat) (dependency : String) :
    Leads 0 (dependencyRow port dependency) 0 := by
  have digits : Leads 1 (toString port) 1 := by
    apply leads_of_plain
    rw [Nat.toString_eq_repr, Nat.toList_repr, List.all_eq_true]
    intro character member
    have digit := Nat.isDigit_of_mem_toDigits (by decide) (by decide) member
    apply Bool.and_eq_true_iff.mpr
    constructor
    · exact decide_eq_true fun opens => nomatch opens ▸ digit
    · exact decide_eq_true fun closes => nomatch closes ▸ digit
  have opening : Leads 0 "<TR><TD" 1 := fun _ => rfl
  have name : Leads 1 "PORT" 1 := leads_of_plain (by decide) 1
  have align : Leads 1 (markupAttribute "ALIGN" "LEFT") 1 := leads_of_plain (by decide) 1
  have between : Leads 1 ">" 0 := fun _ => rfl
  have closing : Leads 0 "</TD></TR>" 0 := fun _ => rfl
  exact ((((opening.append (leads_markupAttribute name digits)).append align).append
    between).append (leads_markup dependency 0)).append closing

theorem leads_dependencyRows (port : Nat) (dependencies : List String) :
    forall row, row ∈ dependencyRows port dependencies -> Leads 0 row 0 := by
  induction dependencies generalizing port with
  | nil => exact fun row member => (List.not_mem_nil member).elim
  | cons dependency rest ih =>
      intro row member
      rcases List.mem_cons.mp member with rfl | later
      · exact leads_dependencyRow port dependency
      · exact ih (port + 1) row later

/-- A label leads back to the level in front of it. -/
theorem leads_label : Leads 0 component.label 0 := by
  have parameters : Leads 0 (String.join (component.parameters.map parameterRow)) 0 := by
    apply leads_join
    intro row member
    rcases List.mem_map.mp member with ⟨parameter, _, rfl⟩
    exact leads_parameterRow parameter
  have dependencies : Leads 0 (String.join (dependencyRows 1 component.dependencies)) 0 :=
    leads_join (leads_dependencyRows 1 component.dependencies)
  have closing : Leads 0 "</TABLE>" 0 := fun _ => rfl
  exact (((component.leads_tableStart.append component.leads_headerRow).append parameters).append
    dependencies).append closing

/-- The label of a component closes what it opens, and never more. -/
theorem balanced_label : Balanced component.label.toList :=
  balanced_of_level (component.leads_label 0)

end Component

end Diagram
end InjectionPlan
