import InjectionPlan.Command.Storage
import InjectionPlan.Dot.Rendering
import InjectionPlan.Dot.SettingsToml

namespace InjectionPlan
namespace Command

/-!
# What can go wrong

A failure says what the command was doing, and has a cause, which may have a cause of its own.
The chain of a failure is the text of each of these, from the outermost to the innermost.
-/

/-- Why there are no settings. -/
inductive SettingsError
  | unreadable (path : String) (cause : FileError)
  | parse (fault : Toml.Fault)

namespace SettingsError

def message : SettingsError -> String
  | unreadable path cause => "Failed to read config from " ++ path ++ ": " ++ cause.message
  | parse fault => "Failed to parse config: " ++ fault.message

def chain (error : SettingsError) : List String :=
  match error with
  | unreadable _ cause => [error.message, cause.message]
  | parse fault => [error.message, fault.message]

end SettingsError

/-- Why there is no plan. -/
inductive LoadError
  | unreadable (path : String) (cause : FileError)
  | invalid (error : PlanError)
deriving DecidableEq

namespace LoadError

def message : LoadError -> String
  | unreadable path cause => "Failed to read plan from " ++ path ++ ": " ++ cause.message
  | invalid error => error.message

def chain (error : LoadError) : List String :=
  match error with
  | unreadable _ cause => [error.message, cause.message]
  | invalid (.json fault) => [error.message, fault.message]
  | invalid (.graph cause) => [error.message, cause.message]
  | invalid _ => [error.message]

end LoadError

/-- Why the command has failed. -/
inductive Failure
  | settings (path : String) (cause : SettingsError)
  | output (path : String) (cause : FileError)
  | plan (path : String) (cause : LoadError)
  | rendering (path : String) (cause : Dot.RenderError)

namespace Failure

/-- The text of a failure and of its causes. -/
def chain : Failure -> List String
  | settings path cause => ("Invalid render configuration " ++ path) :: cause.chain
  | output path cause => ["Failed to create output file " ++ path, cause.message]
  | plan path cause => ("Could not load plan " ++ path) :: cause.chain
  | rendering _ (.preamble refusal) => ["Failed to write graph header", refusal.message]
  | rendering path (.content error) => ["Failed to render plan " ++ path, error.message]
  | rendering _ (.closing refusal) => ["Failed to finish graph output", refusal.message]

/-- The outermost text. -/
def message (failure : Failure) : String :=
  failure.chain.headD ""

/-- A cause as a line, with its number unless it is the only one. -/
def causeLine (number : Option Nat) (text : String) : String :=
  match number with
  | none => "    " ++ text
  | some number => "".pushn ' ' (5 - (toString number).length) ++ toString number ++ ": " ++ text

/-- A failure and its causes, as they are told to the user. -/
def report (failure : Failure) : String :=
  let lines :=
    match failure.chain.tail with
    | [] => []
    | [cause] => ["", "Caused by:", causeLine none cause]
    | causes =>
      "" :: "Caused by:" :: causes.mapIdx fun index cause => causeLine (some index) cause
  "\n".intercalate (("Error: " ++ failure.message) :: lines)

end Failure
end Command
end InjectionPlan
