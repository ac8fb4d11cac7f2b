import InjectionPlan.Json.Tree
import InjectionPlan.Text.Quoted

namespace InjectionPlan
namespace Json

open Number

/-!
# Why a JSON text does not stand for what is wanted

Every way of failing is a constructor, and `Fault.message` holds all the wording.
-/

/-- Why a tree was refused. -/
inductive Fault
  | malformed
  | missingField (name : String)
  | duplicateField (name : String)
  | unknownVariant (name : String) (known : List String)
  | wrongType (found : Found) (wanted : String)
  | wrongValue (found : Found) (wanted : String)
  | wrongLength (length : Nat) (wanted : String)
deriving DecidableEq

/-- How a message names what was found. -/
def Found.describe : Found -> String
  | .null => "null"
  | .boolean value => "boolean `" ++ (if value then "true" else "false") ++ "`"
  | .numeral (.integer value) => "integer `" ++ toString value ++ "`"
  | .numeral (.float value) => "floating point `" ++ Layout.standard.write value ++ "`"
  | .text value => "string " ++ Text.quoted value
  | .sequence => "sequence"
  | .map => "map"

/-- The names that would have been accepted, in words. -/
def describeKnown (known : List String) : String :=
  match known.map fun name => "`" ++ name ++ "`" with
  | [] => "there are no variants"
  | [only] => "expected " ++ only
  | [first, second] => "expected " ++ first ++ " or " ++ second
  | names => "expected one of " ++ String.intercalate ", " names

/-- The wording of a fault. -/
def Fault.message : Fault -> String
  | .malformed => "JSON syntax error"
  | .missingField name => "missing field `" ++ name ++ "`"
  | .duplicateField name => "duplicate field `" ++ name ++ "`"
  | .unknownVariant name known => "unknown variant `" ++ name ++ "`, " ++ describeKnown known
  | .wrongType found wanted => "invalid type: " ++ found.describe ++ ", expected " ++ wanted
  | .wrongValue found wanted => "invalid value: " ++ found.describe ++ ", expected " ++ wanted
  | .wrongLength length wanted =>
    "invalid length " ++ toString length ++ ", expected " ++ wanted

/-- The fault of finding the wrong kind of thing in a tree. -/
def Tree.mismatch (tree : Tree) (wanted : String) : Fault :=
  match tree.found? with
  | some found => .wrongType found wanted
  | none => .malformed

end Json
end InjectionPlan
