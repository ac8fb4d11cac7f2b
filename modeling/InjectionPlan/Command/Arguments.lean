import InjectionPlan.Dot.Settings

namespace InjectionPlan
namespace Command

/-!
# The arguments of the command

Words are read from left to right.  An option that takes a value gets the rest of its own word or
else the next plain word, and a plain word that no option waits for names the plan.  A value is
only checked when it is settled, which happens as soon as another argument is recognised or the
words end.  So of two faults the one that is met first is reported, except that a word that is no
argument at all is reported before the value that was given just ahead of it.

After the word `--` all words are plain.
-/

/-- What the command is asked to do. -/
structure Arguments where
  plan : String
  output : Option String
  settings : Option String
  rankDirection : Option Dot.RankDirection
  graphName : Option String
  verbose : Bool
deriving DecidableEq

/-- Why there is nothing to do. -/
inductive UsageError
  | helpWanted
  | versionWanted
  | unknownArgument
  | repeatedArgument
  | missingValue
  | invalidValue
  | unwantedValue
  | missingPlan
deriving DecidableEq

/-- The arguments that have a value. -/
inductive Slot
  | plan
  | output
  | settings
  | rankDirection
  | graphName
deriving DecidableEq

/-- The arguments without a value. -/
inductive Switch
  | verbose
  | help
  | version
deriving DecidableEq

/-- An argument that is written with dashes. -/
inductive Flag
  | slot (slot : Slot)
  | switch (switch : Switch)
deriving DecidableEq

namespace Flag

/-- The flag with a long name. -/
def ofName? : String -> Option Flag
  | "output" => some (.slot .output)
  | "config" => some (.slot .settings)
  | "rankdir" => some (.slot .rankDirection)
  | "graph-name" => some (.slot .graphName)
  | "verbose" => some (.switch .verbose)
  | "help" => some (.switch .help)
  | "version" => some (.switch .version)
  | _ => none

/-- The flag with a letter. -/
def ofLetter? : Char -> Option Flag
  | 'o' => some (.slot .output)
  | 'c' => some (.slot .settings)
  | 'v' => some (.switch .verbose)
  | 'h' => some (.switch .help)
  | 'V' => some (.switch .version)
  | _ => none

end Flag

/-- The settled arguments. -/
structure Given where
  plan : Option String
  output : Option String
  settings : Option String
  rankDirection : Option Dot.RankDirection
  graphName : Option String
  verbose : Bool
deriving DecidableEq

namespace Given

def nothing : Given := ⟨none, none, none, none, none, false⟩

def has (given : Given) : Slot -> Bool
  | .plan => given.plan.isSome
  | .output => given.output.isSome
  | .settings => given.settings.isSome
  | .rankDirection => given.rankDirection.isSome
  | .graphName => given.graphName.isSome

/-- A path must not be empty. -/
def checkPath (text : String) : Except UsageError String :=
  if text.isEmpty then .error .missingValue else .ok text

/-- Fills a slot, which must be free, with a value that fits it. -/
def put (given : Given) (slot : Slot) (text : String) : Except UsageError Given :=
  if given.has slot then .error .repeatedArgument
  else
    match slot with
    | .plan => (checkPath text).map fun path => { given with plan := some path }
    | .output => (checkPath text).map fun path => { given with output := some path }
    | .settings => (checkPath text).map fun path => { given with settings := some path }
    | .rankDirection =>
      match Dot.RankDirection.ofText text with
      | .ok direction => .ok { given with rankDirection := some direction }
      | .error _ => .error .invalidValue
    | .graphName => .ok { given with graphName := some text }

/-- Turns a switch on. -/
def turnOn (given : Given) : Switch -> Except UsageError Given
  | .verbose =>
    if given.verbose then .error .repeatedArgument else .ok { given with verbose := true }
  | .help => .error .helpWanted
  | .version => .error .versionWanted

/-- The arguments are complete when there is a plan. -/
def arguments (given : Given) : Except UsageError Arguments :=
  match given.plan with
  | none => .error .missingPlan
  | some plan =>
    .ok ⟨plan, given.output, given.settings, given.rankDirection, given.graphName, given.verbose⟩

end Given

/-- A slot that was met last, with its value if that has been met too. -/
structure Pending where
  slot : Slot
  value : Option String
deriving DecidableEq

/-- The arguments read so far. -/
structure Intake where
  given : Given
  pending : Option Pending
deriving DecidableEq

namespace Intake

def start : Intake := ⟨.nothing, none⟩

/-- Puts the pending value into its slot. -/
def settle (intake : Intake) : Except UsageError Given :=
  match intake.pending with
  | none => .ok intake.given
  | some ⟨_, none⟩ => .error .missingValue
  | some ⟨slot, some value⟩ => intake.given.put slot value

/-- Settles, and lets a slot wait for its value. -/
def await (intake : Intake) (slot : Slot) : Except UsageError Intake :=
  intake.settle.map fun given => ⟨given, some ⟨slot, none⟩⟩

/-- Settles, and fills a slot at once. -/
def fill (intake : Intake) (slot : Slot) (value : String) : Except UsageError Intake := do
  let given <- intake.settle
  let given <- given.put slot value
  return ⟨given, none⟩

/-- Settles, and turns a switch on. -/
def turnOn (intake : Intake) (switch : Switch) : Except UsageError Intake := do
  let given <- intake.settle
  let given <- given.turnOn switch
  return ⟨given, none⟩

/-- Whether the place of the plan is taken. -/
def hasPlan (intake : Intake) : Bool :=
  intake.given.plan.isSome || intake.pending.any fun pending => pending.slot = .plan

/-- Reads a word that names the plan. -/
def readPlan (intake : Intake) (word : String) : Except UsageError Intake :=
  if intake.hasPlan then .error .unknownArgument
  else intake.settle.map fun given => ⟨given, some ⟨.plan, some word⟩⟩

/-- Reads a word without dashes. -/
def readPlain (intake : Intake) (word : String) : Except UsageError Intake :=
  match intake.pending with
  | some ⟨slot, none⟩ => .ok { intake with pending := some ⟨slot, some word⟩ }
  | _ => intake.readPlan word

/-- Reads a long name, with the value written after an equals sign. -/
def readLong (intake : Intake) (name : String) (value : Option String) :
    Except UsageError Intake :=
  match Flag.ofName? name, value with
  | none, _ => .error .unknownArgument
  | some (.slot slot), some value => intake.fill slot value
  | some (.slot slot), none => intake.await slot
  | some (.switch _), some _ => .error .unwantedValue
  | some (.switch switch), none => intake.turnOn switch

/-- The value that follows a letter, after an optional equals sign. -/
def attached : List Char -> String
  | '=' :: value => String.ofList value
  | value => String.ofList value

/-- Reads letters: switches, and at the end possibly an option with its value. -/
def readLetters : (intake : Intake) -> List Char -> Except UsageError Intake
  | intake, [] => .ok intake
  | intake, letter :: rest =>
    match Flag.ofLetter? letter with
    | none => .error .unknownArgument
    | some (.slot slot) =>
      if rest.isEmpty then intake.await slot else intake.fill slot (attached rest)
    | some (.switch switch) =>
      match intake.turnOn switch with
      | .error error => .error error
      | .ok next => readLetters next rest

/-- The part of a long flag before the first equals sign, and the part after it. -/
def splitEquals : List Char -> List Char × Option (List Char)
  | [] => ([], none)
  | '=' :: rest => ([], some rest)
  | char :: rest => ((splitEquals rest).map (char :: ·) id)

/-- Reads a word by its dashes; a single dash is a plain word. -/
def readWord (intake : Intake) (word : String) : Except UsageError Intake :=
  match word.toList with
  | '-' :: '-' :: flag =>
    let (name, value) := splitEquals flag
    intake.readLong (String.ofList name) (value.map String.ofList)
  | '-' :: letter :: letters => intake.readLetters (letter :: letters)
  | _ => intake.readPlain word

/-- Reads words that name the plan, whatever they look like. -/
def readPlans : (intake : Intake) -> List String -> Except UsageError Intake
  | intake, [] => .ok intake
  | intake, word :: rest =>
    match intake.readPlan word with
    | .error error => .error error
    | .ok next => readPlans next rest

/-- Reads words up to `--`, and the words after that as plain ones. -/
def readWords : (intake : Intake) -> List String -> Except UsageError Intake
  | intake, [] => .ok intake
  | intake, word :: rest =>
    if word = "--" then intake.readPlans rest
    else
      match intake.readWord word with
      | .error error => .error error
      | .ok next => readWords next rest

end Intake

/-- Reads the words after the name of the command. -/
def Arguments.ofWords (words : List String) : Except UsageError Arguments := do
  let intake <- Intake.start.readWords words
  let given <- intake.settle
  given.arguments

/-- How the command is called. -/
def usage : String :=
  "Usage: injection-plan [OPTIONS] <PLAN>\n\n" ++
  "  -o, --output <OUTPUT>          write the graph to this file\n" ++
  "  -c, --config <CONFIG>          take settings from this TOML file\n" ++
  "      --rankdir <RANKDIR>        layout direction: TB, LR, BT or RL\n" ++
  "      --graph-name <GRAPH_NAME>  name of the graph\n" ++
  "  -v, --verbose                  log what is done\n" ++
  "  -h, --help                     show this text\n" ++
  "  -V, --version                  show the version\n"

def versionText : String :=
  "injection-plan 0.1.0\n"

def UsageError.message : UsageError -> String
  | .helpWanted => usage
  | .versionWanted => versionText
  | .unknownArgument => "error: unexpected argument\n\n" ++ usage
  | .repeatedArgument => "error: an argument is used more than once\n\n" ++ usage
  | .missingValue => "error: an argument needs a value\n\n" ++ usage
  | .invalidValue => "error: invalid layout direction\n\n" ++ usage
  | .unwantedValue => "error: an argument with a value that it does not take\n\n" ++ usage
  | .missingPlan => "error: no plan is given\n\n" ++ usage

end Command
end InjectionPlan
