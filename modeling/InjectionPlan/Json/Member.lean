import InjectionPlan.Json.Value

namespace InjectionPlan
namespace Json

/-!
# Members of objects that are written

A flag that is not set and an optional field without a value are left out.
-/

/-- A flag as a member; left out if it is not set. -/
def flagMember (name : String) (flag : Bool) : List (String × Value) :=
  if flag then [(name, .bool true)] else []

/-- An optional field as a member; left out without a value. -/
def optionalMember (name : String) (write : α -> Value) : Option α -> List (String × Value)
  | some value => [(name, write value)]
  | none => []

/-- A record with a tag. -/
def taggedValue (kind : String) (members : List (String × Value)) : Value :=
  .object (("kind", .string kind) :: members)

/-- A number of 64 binary digits. -/
def indexValue (index : UInt64) : Value :=
  .ofNat index.toNat

end Json
end InjectionPlan
