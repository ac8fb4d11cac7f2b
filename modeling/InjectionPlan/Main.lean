import InjectionPlan.Command.Run

/-!
# The program

Reads the arguments, runs the command on the files of the system and tells what came of it.
-/

namespace InjectionPlan
namespace Command

/-- The cause of an error of the system. -/
def FileError.ofIO : IO.Error -> FileError
  | .noFileOrDirectory _ _ _ => .notFound
  | .noSuchThing _ code details => .ofCode code.toNat details
  | .inappropriateType _ code details => .ofCode code.toNat details
  | .invalidArgument _ code details => .ofCode code.toNat details
  | .permissionDenied _ code details => .ofCode code.toNat details
  | .resourceExhausted _ code details => .ofCode code.toNat details
  | .alreadyExists _ code details => .ofCode code.toNat details
  | .otherError code details => .ofCode code.toNat details
  | .resourceBusy code details => .ofCode code.toNat details
  | .unsupportedOperation code details => .ofCode code.toNat details
  | error => .other (toString error) 0

/-- The files of the system. -/
def systemStorage : Storage IO IO.FS.Handle where
  read path := do
    try
      return .ok (<- IO.FS.readBinFile path)
    catch error =>
      return .error (.ofIO error)
  create path := do
    try
      return .ok (<- IO.FS.Handle.mk path .write)
    catch error =>
      return .error (.ofIO error)
  append handle bytes := handle.write bytes

/-- Runs the command and gives the exit code. -/
def Arguments.execute (arguments : Arguments) : IO UInt32 := do
  let report <- arguments.run systemStorage
  (<- IO.getStdout).write report.standardOutput
  for event in report.log.filter (LogEvent.isTold arguments.verbose) do
    IO.eprintln event.line
  match report.outcome with
  | .ok _ => return 0
  | .error failure =>
    IO.eprintln failure.report
    return 1

/-- Says how to call the command and gives the exit code. -/
def UsageError.execute (error : UsageError) : IO UInt32 := do
  if error = .helpWanted || error = .versionWanted then
    IO.print error.message
    return 0
  else
    IO.eprint error.message
    return 2

end Command
end InjectionPlan

def main (words : List String) : IO UInt32 :=
  match InjectionPlan.Command.Arguments.ofWords words with
  | .ok arguments => arguments.execute
  | .error error => error.execute
