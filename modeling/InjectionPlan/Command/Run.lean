import InjectionPlan.Command.Arguments
import InjectionPlan.Command.Failure
import InjectionPlan.Plan.Reading

namespace InjectionPlan
namespace Command

/-!
# Running the command

The settings are loaded first.  Then the output file, if there is one, is created, and only after
that the plan is loaded and rendered.  So a failure to load the settings leaves all files as they
are, and a failure to load the plan leaves an empty output.  What has been rendered is written even
if the rendering stops halfway.

What the bytes of the files come to is worked out without any access to files, in the first two
parts; the last part only says which files are read and written, and when.
-/

/-! ## Settings -/

/-- The settings in what was read from a file. -/
def settingsIn (path : String) (bytes : Except FileError ByteArray) :
    Except SettingsError Dot.Settings :=
  match textOf bytes with
  | .error cause => .error (.unreadable path cause)
  | .ok text => (Dot.Settings.ofToml text).mapError .parse

namespace Arguments

/-- Settings with what the arguments say themselves. -/
def adjust (arguments : Arguments) (settings : Dot.Settings) : Dot.Settings :=
  settings.override arguments.rankDirection arguments.graphName

/-- The settings that the arguments ask for, when a file was named and read. -/
def settingsFrom (arguments : Arguments) (path : String) (bytes : Except FileError ByteArray) :
    Except Failure Dot.Settings :=
  match settingsIn path bytes with
  | .error cause => .error (.settings path cause)
  | .ok settings => .ok (arguments.adjust settings)

/-- What is logged about the settings. -/
def settingsLog (arguments : Arguments) : List LogEvent :=
  match arguments.settings with
  | none => [.defaultSettings]
  | some _ => []

end Arguments

/-! ## Plans -/

/-- The plan in what was read from a file, with its document. -/
def planIn (path : String) (bytes : Except FileError ByteArray) :
    Except LoadError (Document × Plan) :=
  match textOf bytes with
  | .error cause => .error (.unreadable path cause)
  | .ok text =>
    match Document.ofText text with
    | .error error => .error (.invalid error)
    | .ok document =>
      match document.load with
      | .error error => .error (.invalid error)
      | .ok plan => .ok (document, plan)

/-- A plan as it was printed, as far as it was. -/
structure Printout where
  outcome : Except Failure Summary
  bytes : ByteArray
  log : List LogEvent

namespace Printout

/-- The plan in what was read from a file, printed. -/
def ofBytes (path : String) (settings : Dot.Settings) (bytes : Except FileError ByteArray) :
    Printout :=
  match planIn path bytes with
  | .error cause => ⟨.error (.plan path cause), .empty, []⟩
  | .ok (document, plan) =>
    let rendering := plan.render settings none
    { outcome := rendering.outcome.mapError (.rendering path)
      bytes := rendering.output.bytes
      log := document.loadLog plan ++ rendering.log }

/-- What is logged when a plan has been printed. -/
def endLog (printout : Printout) (path : String) : List LogEvent :=
  match printout.outcome with
  | .ok summary =>
    [.renderedPlan path summary.nodes summary.edges summary.unboundParameters]
  | .error _ => []

end Printout

/-! ## The run -/

/-- What comes of a run, apart from the files. -/
structure Report where
  outcome : Except Failure Summary
  /-- The bytes for the standard output. -/
  standardOutput : ByteArray
  log : List LogEvent

/-- The report on a printout; `standardOutput` is the part of it that goes there. -/
def Arguments.report (arguments : Arguments) (printout : Printout) (standardOutput : ByteArray) :
    Report where
  outcome := printout.outcome
  standardOutput := standardOutput
  log := arguments.settingsLog ++ printout.log ++ printout.endLog arguments.plan

section

variable {m : Type -> Type} [Monad m] (storage : Storage m Handle)

/-- Loads the settings that the arguments ask for: those of the file, or the usual ones. -/
def Arguments.loadSettings (arguments : Arguments) : m (Except Failure Dot.Settings) :=
  match arguments.settings with
  | none => return .ok (arguments.adjust .default)
  | some path => do return arguments.settingsFrom path (<- storage.read path)

/-- Prints the plan in a file. -/
def printPlan (path : String) (settings : Dot.Settings) : m Printout := do
  return Printout.ofBytes path settings (<- storage.read path)

/-- Prints the plan that the arguments name, to the output file or to the standard output. -/
def Arguments.print (arguments : Arguments) (settings : Dot.Settings) : m Report :=
  match arguments.output with
  | none => do
    let printout <- printPlan storage arguments.plan settings
    return arguments.report printout printout.bytes
  | some path => do
    match <- storage.create path with
    | .error cause => return ⟨.error (.output path cause), .empty, arguments.settingsLog⟩
    | .ok handle =>
      let printout <- printPlan storage arguments.plan settings
      storage.append handle printout.bytes
      return arguments.report printout .empty

/-- Loads the settings and prints the plan. -/
def Arguments.run (arguments : Arguments) : m Report := do
  match <- arguments.loadSettings storage with
  | .error failure => return ⟨.error failure, .empty, []⟩
  | .ok settings => arguments.print storage settings

end

end Command
end InjectionPlan
