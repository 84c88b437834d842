import ActorPlacement.Cluster.Alone
import ActorPlacement.CommandLine.Arguments
import ActorPlacement.CommandLine.Directory
import ActorPlacement.Config.Document
import ActorPlacement.Protocol.DryRun
import ActorPlacement.Quantity.Double

/-!
# Commands and what they print

`CommandLine.outcome` is the whole program as a function of its arguments and of the files that it
reads: an exit code and the texts for the two output streams.
-/

namespace ActorPlacement.CommandLine

/-- What a run of the program leaves behind. -/
structure Outcome where
  code : Nat
  stdout : String
  stderr : String
  deriving DecidableEq, Repr

/-- Reading of files by path. -/
abbrev Files := String → Except ReadRefusal String

/-- Read a configuration. -/
def readConfig (files : Files) (path : String) : Except (Failure Float) (Config Float) :=
  match files path with
  | .error why => .error (.config (.unreadable path why.message))
  | .ok s =>
    match Config.ofToml? s with
    | some config => .ok config
    | none => .error (.config .malformed)

/-- Check a configuration and list its classes. -/
def validate (files : Files) (path : String) : Except (DryRunFailure Float) String := do
  let config ← (readConfig files path).mapError fun failure => { failure }
  let classes ← config.validate.mapError fun failure => { failure }
  let head :=
    "✓ " ++ path ++ ": " ++ toString config.cluster.nodes.length ++ " node(s), " ++ toString classes.length
      ++ " actor class(es)"
  return linesOf (head :: classes.map fun name => "  - " ++ name)

/-- Resolve a class on the cluster that the configuration declares and print its launch parameters. -/
def resolve (files : Files) (path cls : String) (sets : List String) :
    Except (DryRunFailure Float) String := do
  let config ← (readConfig files path).mapError fun failure => { failure }
  let cluster ← (Cluster.ofSection config.cluster).mapError fun failure => { failure }
  let values ← ((dryRun config cls sets).run Cluster.answerAlone cluster).result
  return linesOf [Json.pretty (.table values.entries)]

/-- Lines with an indentation before each. -/
def indented (first rest : String) (s : String) : String :=
  first ++ joinedWith ("\n" ++ rest) (s.splitOn "\n")

/-- A number of a cause, right-aligned in five places. -/
def causeNumber (n : Nat) : String :=
  let digits := Decimal.digitsOf n
  String.ofList (List.replicate (5 - digits.length) ' ' ++ digits) ++ ": "

/-- A failure with its causes: a single cause is indented, several are numbered. -/
def failureReport : List String → String
  | [] => ""
  | [failure] => linesOf ["Error: " ++ failure]
  | [failure, cause] => linesOf ["Error: " ++ failure, "", "Caused by:", indented "    " "    " cause]
  | failure :: causes =>
    linesOf (["Error: " ++ failure, "", "Caused by:"]
      ++ causes.zipIdx.map fun (cause, n) => indented (causeNumber n) "       " cause)

/-- The outcome of a command. -/
def Command.outcome (files : Files) (command : Command) : Outcome :=
  let result :=
    match command with
    | .validate config => CommandLine.validate files config
    | .resolve config cls sets => CommandLine.resolve files config cls sets
  match result with
  | .ok text => { code := 0, stdout := text, stderr := "" }
  | .error failure => { code := 1, stdout := "", stderr := failureReport failure.chain }

/-- The path that a command reads. -/
def Command.path : Command → String
  | validate config => config
  | resolve config _ _ => config

/-- The outcome of the program. -/
def outcome (files : Files) (args : List String) : Outcome :=
  match Invocation.ofArguments args with
  | .run command => command.outcome files
  | .print text => { code := 0, stdout := text, stderr := "" }
  | .misuse => { code := 2, stdout := "", stderr := misuseText }

end ActorPlacement.CommandLine
