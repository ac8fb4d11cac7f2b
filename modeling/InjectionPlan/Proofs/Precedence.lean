import InjectionPlan.Proofs.Ordering

namespace InjectionPlan

/-!
# Which of two desires comes first

The order in which the dependencies of a component are shown can be told without keys: a rule for
each kind of injection site, and the desired type and the qualifier where that rule does not
decide (`Desire.precedence`).  Keys compare as this order has it (`OrderKey.compare_of`), and the
sorted edges are the only arrangement that is ascending and leaves edges in place that the order
does not tell apart (`sortEdges_arranges`).

The order does not look at everything that a desire says.  Two desires tie exactly if they agree in
the site, the name of the type and the name of the qualifier (`Desire.precedence_eq_iff`), so the
order in which edges were added shows exactly where different edges tie (`ties_iff_alike`).
-/

/-! ## Names -/

/-- Names are compared by their code points. -/
def compareNames (left right : String) : Ordering :=
  Ord.compare (left.toList.map Char.toNat) (right.toList.map Char.toNat)

private theorem compareOfLessAndEq_cons (first second : Char) (rest others : List Char) :
    compareOfLessAndEq (first :: rest) (second :: others) =
      (Ord.compare first.toNat second.toNat).then (compareOfLessAndEq rest others) := by
  have less : first < second <-> first.toNat < second.toNat := Iff.rfl
  unfold compareOfLessAndEq
  rcases Nat.lt_trichotomy first.toNat second.toNat with before | same | after
  · rw [Nat.compare_eq_lt.mpr before, if_pos (List.cons_lt_cons_iff.mpr (Or.inl (less.mpr before)))]
    rfl
  · cases Char.toNat_inj.mp same
    simp
  · have apart : first ≠ second := fun equal => by
      rw [equal] at after
      exact Nat.lt_irrefl _ after
    have behind : ¬ first :: rest < second :: others := by
      rw [List.cons_lt_cons_iff]
      rintro (before | ⟨same, _⟩)
      · exact Nat.lt_asymm after (less.mp before)
      · exact apart same
    rw [Nat.compare_eq_gt.mpr after, if_neg behind, if_neg (by simp [apart])]
    rfl

theorem compareNames_eq_compare (left right : String) :
    compareNames left right = Ord.compare left right := by
  have letters (first second : List Char) :
      Ord.compare (first.map Char.toNat) (second.map Char.toNat) =
        compareOfLessAndEq first second := by
    induction first generalizing second with
    | nil => cases second <;> rfl
    | cons character rest ih =>
        cases second with
        | nil => rfl
        | cons other others =>
            rw [compareOfLessAndEq_cons, ← ih]
            exact List.compareLex_cons_cons
  rw [compareNames, letters]
  change _ = compareOfLessAndEq left right
  unfold compareOfLessAndEq
  simp only [String.toList_inj]
  rfl

/-! ## The order of desires -/

/-- The place of a kind of site among the kinds. -/
def Site.place : Site -> Nat
  | .constructorParameter _ => 0
  | .setter _ _ => 1
  | .field _ => 2
  | .noArgument _ => 3
  | .simple => 4
  | .other _ => 5

/-- Sites of one kind are compared by what tells them apart, other sites by their kinds. -/
def Site.precedence : Site -> Site -> Ordering
  | .constructorParameter first, .constructorParameter second =>
    Ord.compare first.toNat second.toNat
  | .setter member first, .setter another second =>
    (compareNames member another).then (Ord.compare first.toNat second.toNat)
  | .field member, .field another => compareNames member another
  | .noArgument member, .noArgument another => compareNames member another
  | .simple, .simple => .eq
  | .other name, .other another => compareNames name another
  | left, right => Ord.compare left.place right.place

namespace Site

-- Sites of one kind.  Each of these computes, while the equations that belong to the definition
-- would have to rule out the last case first.

theorem precedence_constructorParameter (first second : UInt64) :
    (constructorParameter first).precedence (constructorParameter second) =
      Ord.compare first.toNat second.toNat :=
  rfl

theorem precedence_setter (member another : String) (first second : UInt64) :
    (setter member first).precedence (setter another second) =
      (compareNames member another).then (Ord.compare first.toNat second.toNat) :=
  rfl

theorem precedence_field (member another : String) :
    (field member).precedence (field another) = compareNames member another :=
  rfl

theorem precedence_noArgument (member another : String) :
    (noArgument member).precedence (noArgument another) = compareNames member another :=
  rfl

theorem precedence_other (name another : String) :
    (other name).precedence (other another) = compareNames name another :=
  rfl

end Site

namespace Desire

/-- The name of the qualifier; a desire without qualifier counts as one with an empty name. -/
def qualifierName (desire : Desire) : String :=
  desire.qualifier.elim "" Qualifier.name

/-- The site decides, then the desired type, then the qualifier. -/
def precedence (left right : Desire) : Ordering :=
  (left.injectionPoint.site.precedence right.injectionPoint.site).then <|
  (compareNames left.desiredType.name right.desiredType.name).then <|
  compareNames left.qualifierName right.qualifierName

/-- A desire comes no later than another one. -/
def AtMost (left right : Desire) : Prop :=
  (left.precedence right).isLE = true

/-- Two desires that agree in all that the order looks at. -/
structure Alike (left right : Desire) : Prop where
  site : left.injectionPoint.site = right.injectionPoint.site
  desiredType : left.desiredType.name = right.desiredType.name
  qualifier : left.qualifierName = right.qualifierName

end Desire

namespace OrderKey

theorem compare_toNat (left right : UInt64) :
    Ord.compare left.toNat right.toNat = Ord.compare left right := by
  change compareOfLessAndEq left.toNat right.toNat = compareOfLessAndEq left right
  unfold compareOfLessAndEq
  simp only [UInt64.toNat_inj]
  rfl

/-- The parts of a key that tell sites apart compare as the sites do. -/
private theorem compare_site (left right : Desire) :
    (Ord.compare (of left).category.rank (of right).category.rank).then
      ((Ord.compare (of left).member (of right).member).then
        ((Ord.compare (of left).index (of right).index).then
          (Ord.compare (of left).kind (of right).kind))) =
      left.injectionPoint.site.precedence right.injectionPoint.site := by
  rcases left with ⟨type, site, qualifier, transient⟩
  rcases right with ⟨otherType, other, otherQualifier, otherTransient⟩
  cases site with
  | constructorParameter index =>
      cases other with
      | constructorParameter another =>
          simp only [of, SiteCategory.of, Std.compare_self, Ordering.then_eq, Ordering.eq_then,
            Site.precedence_constructorParameter, compare_toNat]
      | _ => rfl
  | setter member index =>
      cases other with
      | setter other another =>
          simp only [of, SiteCategory.of, Std.compare_self, Ordering.then_eq, Ordering.eq_then,
            Site.precedence_setter, compareNames_eq_compare, compare_toNat]
      | _ => rfl
  | field member =>
      cases other with
      | field another =>
          simp only [of, SiteCategory.of, Std.compare_self, Ordering.then_self, Ordering.then_eq,
            Ordering.eq_then, Site.precedence_field, compareNames_eq_compare]
      | _ => rfl
  | noArgument member =>
      cases other with
      | noArgument another =>
          simp only [of, SiteCategory.of, Std.compare_self, Ordering.then_self, Ordering.then_eq,
            Ordering.eq_then, Site.precedence_noArgument, compareNames_eq_compare]
      | _ => rfl
  | simple =>
      cases other with
      | simple => rfl
      | _ => rfl
  | other name =>
      cases other with
      | other another =>
          simp only [of, SiteCategory.of, Std.compare_self, Ordering.eq_then,
            Site.precedence_other, compareNames_eq_compare]
      | _ => rfl

theorem qualifier_of (desire : Desire) : (of desire).qualifier = desire.qualifierName := by
  unfold of Desire.qualifierName
  cases desire.qualifier <;> rfl

/-- Keys compare as desires do. -/
theorem compare_of (left right : Desire) :
    (of left).compare (of right) = left.precedence right := by
  rw [Desire.precedence, ← compare_site, ← qualifier_of, ← qualifier_of, compareNames_eq_compare,
    compareNames_eq_compare]
  simp only [Ordering.then_assoc]
  rfl

end OrderKey

theorem Site.precedence_eq_iff (left right : Site) :
    left.precedence right = .eq <-> left = right := by
  cases left with
  | constructorParameter index =>
      cases right with
      | constructorParameter another =>
          simp only [precedence_constructorParameter, Std.compare_eq_iff_eq, UInt64.toNat_inj,
            constructorParameter.injEq]
      | _ => constructor <;> (intro same; cases same)
  | setter member index =>
      cases right with
      | setter other another =>
          simp only [precedence_setter, compareNames_eq_compare, Ordering.then_eq_eq,
            Std.compare_eq_iff_eq, UInt64.toNat_inj, setter.injEq]
      | _ => constructor <;> (intro same; cases same)
  | field member =>
      cases right with
      | field another =>
          simp only [precedence_field, compareNames_eq_compare, Std.compare_eq_iff_eq, field.injEq]
      | _ => constructor <;> (intro same; cases same)
  | noArgument member =>
      cases right with
      | noArgument another =>
          simp only [precedence_noArgument, compareNames_eq_compare, Std.compare_eq_iff_eq,
            noArgument.injEq]
      | _ => constructor <;> (intro same; cases same)
  | simple =>
      cases right with
      | simple => exact iff_of_true rfl rfl
      | _ => constructor <;> (intro same; cases same)
  | other name =>
      cases right with
      | other another =>
          simp only [precedence_other, compareNames_eq_compare, Std.compare_eq_iff_eq, other.injEq]
      | _ => constructor <;> (intro same; cases same)

namespace Desire

/-- The order does not tell desires apart exactly if they agree in all that it looks at. -/
theorem precedence_eq_iff (left right : Desire) :
    left.precedence right = .eq <-> left.Alike right := by
  rw [precedence, Ordering.then_eq_eq, Ordering.then_eq_eq, Site.precedence_eq_iff,
    compareNames_eq_compare, compareNames_eq_compare, Std.compare_eq_iff_eq,
    Std.compare_eq_iff_eq]
  exact ⟨fun ⟨site, desiredType, qualifier⟩ => ⟨site, desiredType, qualifier⟩,
    fun ⟨site, desiredType, qualifier⟩ => ⟨site, desiredType, qualifier⟩⟩

theorem of_eq_of_iff (left right : Desire) :
    OrderKey.of left = OrderKey.of right <-> left.Alike right := by
  rw [← precedence_eq_iff, ← OrderKey.compare_of]
  exact Std.LawfulEqCmp.compare_eq_iff_eq.symm

theorem atMost_iff (left right : Desire) :
    left.AtMost right <-> (OrderKey.of left).AtMost (OrderKey.of right) := by
  rw [AtMost, ← OrderKey.compare_of]
  rfl

theorem AtMost.total (left right : Desire) : left.AtMost right ∨ right.AtMost left := by
  rw [atMost_iff, atMost_iff]
  exact or_iff_not_imp_left.mpr OrderKey.AtMost.of_not

theorem AtMost.trans {first second third : Desire} (left : first.AtMost second)
    (right : second.AtMost third) : first.AtMost third := by
  rw [atMost_iff] at left right ⊢
  exact OrderKey.AtMost.trans left right

end Desire

/-! ## Arrangements of edges -/

/-- Edges put into the order of their desires: all of them, none before a lesser one, and those
that tie as they were. -/
structure Arranges (edges result : List Edge) : Prop where
  perm : result.Perm edges
  ascending : result.Pairwise fun first second => first.desire.AtMost second.desire
  stable : forall desire,
    result.filter (fun edge => edge.desire.precedence desire = .eq) =
      edges.filter fun edge => edge.desire.precedence desire = .eq

/-- The edges that tie with a desire are those with its key. -/
theorem filter_precedence (desire : Desire) (edges : List Edge) :
    edges.filter (fun edge => edge.desire.precedence desire = .eq) =
      keyed (OrderKey.of desire) edges := by
  apply List.filter_congr
  intro edge _
  rw [decide_eq_decide, Desire.precedence_eq_iff, ← Desire.of_eq_of_iff]
  rfl

theorem arranges_sortEdges (edges : List Edge) : Arranges edges (sortEdges edges) where
  perm := sortEdges_perm edges
  ascending := (ascending_sortEdges edges).imp fun atMost => (Desire.atMost_iff _ _).mpr atMost
  stable desire := by rw [filter_precedence, filter_precedence, keyed_sortEdges]

/-- The sorted edges are the only arrangement. -/
theorem Arranges.eq_sortEdges {edges result : List Edge} (arranges : Arranges edges result) :
    result = sortEdges edges := by
  have ascends : Ascending result :=
    arranges.ascending.imp fun atMost => (Desire.atMost_iff _ _).mp atMost
  refine ascends.eq_of_keyed (ascending_sortEdges edges) fun key => ?_
  rw [keyed_sortEdges]
  by_cases occurs : exists edge, edge ∈ edges ∧ edge.key = key
  · rcases occurs with ⟨edge, _, rfl⟩
    have tied := arranges.stable edge.desire
    rwa [filter_precedence, filter_precedence] at tied
  · have missing {others : List Edge} (among : forall edge, edge ∈ others -> edge ∈ edges) :
        keyed key others = [] :=
      List.filter_eq_nil_iff.mpr fun edge member same =>
        occurs ⟨edge, among edge member, of_decide_eq_true same⟩
    rw [missing fun edge member => arranges.perm.mem_iff.mp member, missing fun _ member => member]

/-- The sorted edges are the one arrangement of edges in the order of their desires.  Keys compare
as that order has it, and it ranks any two desires. -/
theorem sortEdges_arranges :
    (forall edges result : List Edge, Arranges edges result <-> result = sortEdges edges) ∧
    (forall left right : Desire,
      (OrderKey.of left).compare (OrderKey.of right) = left.precedence right) ∧
    (forall left right : Desire, left.AtMost right ∨ right.AtMost left) ∧
    forall first second third : Desire,
      first.AtMost second -> second.AtMost third -> first.AtMost third := by
  refine ⟨fun edges result => ⟨Arranges.eq_sortEdges, ?_⟩, OrderKey.compare_of,
    Desire.AtMost.total, fun first second third => Desire.AtMost.trans⟩
  rintro rfl
  exact arranges_sortEdges edges

/-! ## Ties -/

/-- Where different edges tie, the order in which they were added shows. -/
theorem eq_of_shown_anyhow {edges : List Edge}
    (anyhow : forall other : List Edge, other.Perm edges -> sortEdges other = sortEdges edges)
    {first second : Edge} (isFirst : first ∈ edges) (isSecond : second ∈ edges)
    (alike : first.desire.Alike second.desire) : first = second := by
  by_contra apart
  rcases List.append_of_mem isFirst with ⟨before, after, rfl⟩
  have behind : second ∈ before ++ after := by
    rcases List.mem_append.mp isSecond with left | right
    · exact List.mem_append_left _ left
    · rcases List.mem_cons.mp right with same | later
      · exact absurd same.symm apart
      · exact List.mem_append_right _ later
  rcases List.append_of_mem behind with ⟨sooner, later, rest⟩
  have front : (before ++ first :: after).Perm (first :: second :: (sooner ++ later)) := by
    refine List.perm_middle.trans (List.Perm.cons first ?_)
    rw [rest]
    exact List.perm_middle
  -- With the two edges in front, either of them first, the same order is shown, so the edges with
  -- their key begin with both.
  have swapped := front.trans (.swap second first _)
  have same := (anyhow _ front.symm).trans (anyhow _ swapped.symm).symm
  have sameKey : second.key = first.key := ((Desire.of_eq_of_iff _ _).mpr alike).symm
  have heads := (sortEdges_eq_iff _ _).mp same first.key
  rw [keyed_cons_of_eq, ← sameKey, keyed_cons_of_eq, keyed_cons_of_eq] at heads
  exact apart (List.cons.inj heads).1

/-- Where only equal edges tie, the order in which they were added does not show. -/
theorem sortEdges_of_perm {edges other : List Edge} (perm : other.Perm edges)
    (apart : forall first, first ∈ edges -> forall second, second ∈ edges ->
      first.desire.Alike second.desire -> first = second) : sortEdges other = sortEdges edges := by
  refine (sortEdges_eq_iff other edges).mpr fun key => ?_
  have equal : (keyed key edges).Pairwise (· = ·) := by
    refine List.pairwise_of_forall_mem_list fun first isFirst second isSecond => ?_
    rw [mem_keyed] at isFirst isSecond
    have sameKey : first.key = second.key := isFirst.2.trans isSecond.2.symm
    exact apart first isFirst.1 second isSecond.1 ((Desire.of_eq_of_iff _ _).mp sameKey)
  have rearranged : (keyed key other).Perm (keyed key edges) := perm.filter _
  exact rearranged.eq_of_pairwise (fun _ _ _ _ same _ => same)
    (rearranged.symm.pairwise equal Eq.symm) equal

/-- Keys are equal exactly if the desires agree in the site and in the names of the type and of the
qualifier.  So the order in which edges were added does not show exactly if no two different edges
agree in these. -/
theorem ties_iff_alike (left right : Desire) (edges : List Edge) :
    ((OrderKey.of left).compare (OrderKey.of right) = .eq <-> left.Alike right) ∧
      ((forall other : List Edge, other.Perm edges -> sortEdges other = sortEdges edges) <->
        forall first, first ∈ edges -> forall second, second ∈ edges ->
          first.desire.Alike second.desire -> first = second) := by
  refine ⟨?_, fun anyhow first isFirst second isSecond => ?_,
    fun apart other perm => sortEdges_of_perm perm apart⟩
  · rw [OrderKey.compare_of, Desire.precedence_eq_iff]
  · exact eq_of_shown_anyhow anyhow isFirst isSecond

/-- Two requests for one type.  What the second asks for is not kept. -/
def requests : Desire × Desire :=
  let type : ComponentType := ⟨"plan.Part", false, false⟩
  (⟨type, .simple, none, false⟩, ⟨type, .simple, none, true⟩)

/-- The two requests differ and tie all the same, and are shown in the order in which they were
added. -/
theorem requests_tie :
    requests.1 ≠ requests.2 ∧
      (OrderKey.of requests.1).compare (OrderKey.of requests.2) = .eq ∧
      sortEdges [⟨0, 1, requests.1⟩, ⟨0, 1, requests.2⟩] ≠
        sortEdges [⟨0, 1, requests.2⟩, ⟨0, 1, requests.1⟩] := by
  decide +kernel

end InjectionPlan
