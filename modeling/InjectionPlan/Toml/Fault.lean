import InjectionPlan.Json.Fault
import InjectionPlan.Toml.Reader

namespace InjectionPlan
namespace Toml

open Number

/-!
# Why a TOML text does not stand for what is wanted

A text that is malformed as a whole has one message.  A value of the wrong kind is named, where a
date counts as a table.
-/

/-- In messages all numbers are written positionally, and ties go away from zero. -/
def plainLayout : Layout := ⟨.awayFromZero, -placeLimit, placeLimit, ""⟩

/-- The text of a number in messages. -/
def describeFloat : Extended -> String
  | .finite number => plainLayout.write number
  | .infinite negative => if negative then "-inf" else "inf"
  | .notANumber => "NaN"

/-- How a message names a value. -/
def Value.describe : Value -> String
  | .string text => "string " ++ Text.quoted text
  | .integer value => "integer `" ++ toString value ++ "`"
  | .float value => "floating point `" ++ describeFloat value ++ "`"
  | .boolean value => "boolean `" ++ (if value then "true" else "false") ++ "`"
  | .datetime _ => "map"
  | .array _ => "sequence"
  | .table _ _ => "map"
  | .tables _ => "sequence"

/-- Why a text was refused. -/
inductive Fault
  | malformed
  | unknownVariant (name : String) (known : List String)
  | wrongType (found : Value) (wanted : String)

def Fault.message : Fault -> String
  | .malformed => "TOML syntax error"
  | .unknownVariant name known =>
    "unknown variant `" ++ name ++ "`, " ++ Json.describeKnown known
  | .wrongType found wanted => "invalid type: " ++ found.describe ++ ", expected " ++ wanted

end Toml
end InjectionPlan
