import InjectionPlan.Plan.Order
import Mathlib.Data.List.Perm.Basic

namespace InjectionPlan

/-!
# What decides the order of dependencies

Keys are ordered linearly, so of two edges with different keys one has to come first, whichever was
added first.  Edges with one key stay as they were added.  Hence the order in which the edges of a
node are shown is settled by the edges of each key in the order in which they were added
(`sortEdges_eq_iff`), and where no key occurs twice, by the edges alone (`Rearranged.of_perm`).
-/

/-! ## The order of keys -/

theorem SiteCategory.rank_injective : Function.Injective SiteCategory.rank := by
  intro left right same
  cases left <;> cases right <;> first | rfl | cases same

namespace OrderKey

/-- The comparison of keys, part by part. -/
theorem compare_eq_lex : compare =
    compareLex (compareOn (·.category.rank)) (compareLex (compareOn OrderKey.member)
      (compareLex (compareOn OrderKey.index) (compareLex (compareOn OrderKey.kind)
        (compareLex (compareOn OrderKey.desiredType) (compareOn OrderKey.qualifier))))) := rfl

instance : Std.TransCmp compare := by
  rw [compare_eq_lex]
  infer_instance

/-- Only equal keys are neither before nor behind each other. -/
instance : Std.LawfulEqCmp compare where
  eq_of_compare {left right} same := by
    simp only [compare, Ordering.then_eq_eq, Std.compare_eq_iff_eq] at same
    rcases same with ⟨category, member, index, kind, desiredType, qualifier⟩
    cases left
    cases right
    cases SiteCategory.rank_injective category
    cases member
    cases index
    cases kind
    cases desiredType
    cases qualifier
    rfl

/-- A key comes no later than another one. -/
def AtMost (left right : OrderKey) : Prop :=
  (left.compare right).isLE = true

instance (left right : OrderKey) : Decidable (left.AtMost right) :=
  inferInstanceAs (Decidable (_ = true))

namespace AtMost

variable {first second third : OrderKey}

theorem refl (key : OrderKey) : key.AtMost key := by
  have same : key.compare key = .eq := Std.ReflCmp.compare_self
  rw [AtMost, same]
  rfl

theorem trans (left : first.AtMost second) (right : second.AtMost third) : first.AtMost third :=
  Std.TransCmp.isLE_trans left right

theorem antisymm (left : first.AtMost second) (right : second.AtMost first) : first = second :=
  Std.LawfulEqCmp.eq_of_compare (Std.OrientedCmp.isLE_antisymm left right)

theorem of_not (fails : ¬first.AtMost second) : second.AtMost first := by
  have behind := Std.OrientedCmp.lt_of_not_isLE fails
  rw [AtMost, behind]
  rfl

end AtMost
end OrderKey

/-! ## Edges by their keys -/

/-- What decides the place of an edge. -/
def Edge.key (edge : Edge) : OrderKey :=
  OrderKey.of edge.desire

/-- The edges with a key, in the order given. -/
def keyed (key : OrderKey) (edges : List Edge) : List Edge :=
  edges.filter fun edge => edge.key = key

theorem keyed_cons_of_eq (edge : Edge) (edges : List Edge) :
    keyed edge.key (edge :: edges) = edge :: keyed edge.key edges :=
  List.filter_cons_of_pos (decide_eq_true rfl)

theorem keyed_cons_of_ne {edge : Edge} {key : OrderKey} (other : edge.key ≠ key)
    (edges : List Edge) : keyed key (edge :: edges) = keyed key edges :=
  List.filter_cons_of_neg (fun same => other (of_decide_eq_true same))

theorem keyed_cons_congr (edge : Edge) {key : OrderKey} {left right : List Edge}
    (same : keyed key left = keyed key right) :
    keyed key (edge :: left) = keyed key (edge :: right) := by
  by_cases own : edge.key = key
  · subst own
    rw [keyed_cons_of_eq, keyed_cons_of_eq, same]
  · rw [keyed_cons_of_ne own, keyed_cons_of_ne own, same]

theorem mem_keyed (key : OrderKey) (edges : List Edge) (edge : Edge) :
    edge ∈ keyed key edges <-> edge ∈ edges ∧ edge.key = key := by
  rw [keyed, List.mem_filter, decide_eq_true_iff]

theorem insertEdge_cons (edge first : Edge) (rest : List Edge) :
    insertEdge edge (first :: rest) =
      if edge.key.AtMost first.key then edge :: first :: rest
      else first :: insertEdge edge rest := rfl

/-- An edge is put before all edges with its key. -/
theorem keyed_insertEdge (key : OrderKey) (edge : Edge) (edges : List Edge) :
    keyed key (insertEdge edge edges) = keyed key (edge :: edges) := by
  induction edges with
  | nil => rfl
  | cons first rest ih =>
      rw [insertEdge_cons]
      split
      · rfl
      · next later =>
        by_cases own : edge.key = key
        · subst own
          have apart : first.key ≠ edge.key := fun same => later (same ▸ .refl _)
          rw [keyed_cons_of_ne apart, ih, keyed_cons_of_eq, keyed_cons_of_eq,
            keyed_cons_of_ne apart]
        · rw [keyed_cons_of_ne own] at ih ⊢
          exact keyed_cons_congr first ih

/-- Edges with one key stay in the order given. -/
theorem keyed_sortEdges (key : OrderKey) (edges : List Edge) :
    keyed key (sortEdges edges) = keyed key edges := by
  induction edges with
  | nil => rfl
  | cons edge rest ih => exact (keyed_insertEdge key edge _).trans (keyed_cons_congr edge ih)

theorem mem_insertEdge (edge other : Edge) (edges : List Edge) :
    other ∈ insertEdge edge edges <-> other = edge ∨ other ∈ edges := by
  have same := (mem_keyed other.key (insertEdge edge edges) other).symm
  rw [keyed_insertEdge, mem_keyed, List.mem_cons] at same
  simpa using same

/-! ## The sorted edges -/

theorem insertEdge_perm (edge : Edge) (edges : List Edge) :
    (insertEdge edge edges).Perm (edge :: edges) := by
  induction edges with
  | nil => exact .refl _
  | cons first rest ih =>
      unfold insertEdge
      split
      · exact .refl _
      · exact (ih.cons first).trans (.swap edge first rest)

theorem sortEdges_perm (edges : List Edge) : (sortEdges edges).Perm edges := by
  induction edges with
  | nil => exact .refl _
  | cons edge rest ih => exact (insertEdge_perm edge (sortEdges rest)).trans (ih.cons edge)

/-- Edges of which none has a smaller key than an edge before it. -/
def Ascending (edges : List Edge) : Prop :=
  edges.Pairwise fun first second => first.key.AtMost second.key

theorem ascending_insertEdge (edge : Edge) {edges : List Edge} (ascending : Ascending edges) :
    Ascending (insertEdge edge edges) := by
  induction edges with
  | nil => exact List.pairwise_singleton _ edge
  | cons first rest ih =>
      rcases List.pairwise_cons.mp ascending with ⟨least, later⟩
      rw [insertEdge_cons]
      split
      · next smaller =>
        refine List.pairwise_cons.mpr ⟨?_, ascending⟩
        exact List.forall_mem_cons.mpr ⟨smaller, fun other member => smaller.trans (least _ member)⟩
      · next larger =>
        refine List.pairwise_cons.mpr ⟨fun other member => ?_, ih later⟩
        rcases (mem_insertEdge edge other rest).mp member with rfl | old
        · exact .of_not larger
        · exact least other old

theorem ascending_sortEdges (edges : List Edge) : Ascending (sortEdges edges) := by
  induction edges with
  | nil => exact List.Pairwise.nil
  | cons edge rest ih => exact ascending_insertEdge edge ih

/-- An edge that is in front has the least key of all. -/
theorem Ascending.head_atMost {first edge : Edge} {rest : List Edge}
    (ascending : Ascending (first :: rest)) (member : edge ∈ first :: rest) :
    first.key.AtMost edge.key := by
  rcases List.mem_cons.mp member with rfl | later
  · exact .refl _
  · exact (List.pairwise_cons.mp ascending).1 edge later

/-- Ascending edges are known from the edges of each key. -/
theorem Ascending.eq_of_keyed {left right : List Edge} (ascends : Ascending left)
    (ascendsToo : Ascending right) (same : forall key, keyed key left = keyed key right) :
    left = right := by
  have members (edge : Edge) : edge ∈ left <-> edge ∈ right := by
    have here := mem_keyed edge.key left edge
    rw [same, mem_keyed] at here
    simpa using here.symm
  induction left generalizing right with
  | nil =>
      symm
      apply List.eq_nil_of_subset_nil
      exact fun edge member => (members edge).mpr member
  | cons first rest ih =>
      cases right with
      | nil => cases (members first).mp List.mem_cons_self
      | cons other others =>
          have first_le := ascends.head_atMost ((members other).mpr List.mem_cons_self)
          have other_le := ascendsToo.head_atMost ((members first).mp List.mem_cons_self)
          have sameKey : first.key = other.key := first_le.antisymm other_le
          have heads := same first.key
          rw [keyed_cons_of_eq, sameKey, keyed_cons_of_eq] at heads
          rcases List.cons.inj heads with ⟨rfl, _⟩
          have tails : forall key, keyed key rest = keyed key others := by
            intro key
            have here := same key
            by_cases own : first.key = key
            · subst own
              rw [keyed_cons_of_eq, keyed_cons_of_eq] at here
              exact List.tail_eq_of_cons_eq here
            · rwa [keyed_cons_of_ne own, keyed_cons_of_ne own] at here
          rw [ih (List.pairwise_cons.mp ascends).2 (List.pairwise_cons.mp ascendsToo).2 tails]
          intro edge
          have here := mem_keyed edge.key rest edge
          rw [tails, mem_keyed] at here
          simpa using here.symm

/-- Two lists of edges are shown in the same order exactly if they have the same edges of each key
in the same order. -/
theorem sortEdges_eq_iff (left right : List Edge) :
    sortEdges left = sortEdges right <-> forall key, keyed key left = keyed key right := by
  constructor
  · intro same key
    rw [← keyed_sortEdges key left, same, keyed_sortEdges]
  · intro same
    apply (ascending_sortEdges left).eq_of_keyed (ascending_sortEdges right)
    intro key
    rw [keyed_sortEdges, keyed_sortEdges, same]

/-- A change of edges that leaves their keys alone leaves their order alone. -/
theorem sortEdges_map {change : Edge -> Edge} (keeps : forall edge, (change edge).key = edge.key)
    (edges : List Edge) : sortEdges (edges.map change) = (sortEdges edges).map change := by
  have inserted (edge : Edge) (edges : List Edge) :
      insertEdge (change edge) (edges.map change) = (insertEdge edge edges).map change := by
    induction edges with
    | nil => rfl
    | cons first rest ih =>
        rw [List.map_cons, insertEdge_cons, insertEdge_cons, keeps, keeps]
        split
        · rfl
        · rw [ih, List.map_cons]
  induction edges with
  | nil => rfl
  | cons edge rest ih => rw [List.map_cons, sortEdges, ih, inserted, sortEdges]

/-! ## Rearranging edges -/

/-- The same edges in another order, but edges with one key in the same order. -/
structure Rearranged (first second : List Edge) : Prop where
  perm : first.Perm second
  ties : forall key, keyed key first = keyed key second

namespace Rearranged

variable {first second : List Edge}

theorem sortEdges_eq (rearranged : Rearranged first second) :
    sortEdges first = sortEdges second :=
  (sortEdges_eq_iff first second).mpr rearranged.ties

/-- Where no key occurs twice, any order will do. -/
theorem of_perm (perm : first.Perm second) (distinct : (first.map Edge.key).Nodup) :
    Rearranged first second where
  perm := perm
  ties key := by
    have few : (keyed key first).Pairwise fun _ _ => False := by
      apply (List.pairwise_map.mp distinct).filter _ |>.imp_of_mem
      intro left right isLeft isRight apart
      rw [← keyed, mem_keyed] at isLeft isRight
      exact apart (isLeft.2.trans isRight.2.symm)
    exact (perm.filter _).eq_of_pairwise (fun _ _ _ _ impossible => impossible.elim) few
      ((perm.filter _).pairwise few fun impossible => impossible.elim)

end Rearranged
end InjectionPlan
