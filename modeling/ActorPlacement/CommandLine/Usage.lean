import ActorPlacement.Text.Affix

/-!
# Help and version texts
-/

namespace ActorPlacement.CommandLine

/-- The name of the program. -/
def programName : String := "actorgrid"

/-- The version of the program. -/
def programVersion : String := "0.1.0"

/-- The commands of the program. -/
inductive CommandName where
  | validate
  | resolve
  deriving DecidableEq, Repr

/-- The written name of a command. -/
def CommandName.text : CommandName → String
  | validate => "validate"
  | resolve => "resolve"

/-- The command of that very name. -/
def CommandName.ofText? (s : String) : Option CommandName :=
  [validate, resolve].find? fun c => c.text == s

/-- The version line of the program. -/
def versionText : String := programName ++ " " ++ programVersion ++ "\n"

/-- The version line of a command. -/
def CommandName.versionText (c : CommandName) : String :=
  programName ++ "-" ++ c.text ++ " " ++ programVersion ++ "\n"

/-- Lines of text. -/
def linesOf (lines : List String) : String := String.join (lines.map (· ++ "\n"))

/-- The help of the program. -/
def helpText : String :=
  linesOf
    ["actorgrid: placement groups and actor options",
      "",
      "Usage: actorgrid [OPTIONS] <COMMAND>",
      "",
      "Commands:",
      "  validate  Parse a config file and check every node and actor class",
      "  resolve   Resolve the launch parameters for one actor class",
      "  help      Print this message or the help of the given subcommand(s)",
      "",
      "Options:",
      "      --json-logs  Emit logs as JSON lines",
      "  -h, --help       Print help",
      "  -V, --version    Print version"]

/-- The help of the help command. -/
def helpOnHelpText : String :=
  linesOf
    ["Print this message or the help of the given subcommand(s)",
      "",
      "Usage: actorgrid help [COMMAND]...",
      "",
      "Arguments:",
      "  [COMMAND]...  Print help for the subcommand(s)"]

/-- How much a help text says. -/
inductive HelpLength where
  | short
  | long
  deriving DecidableEq, Repr

/-- The help of a command. Only `resolve` has more to say at length. -/
def CommandName.helpText : CommandName → HelpLength → String
  | validate, _ =>
    linesOf
      ["Parse a config file and check every node and actor class",
        "",
        "Usage: actorgrid validate [OPTIONS] <CONFIG>",
        "",
        "Arguments:",
        "  <CONFIG>  Path to actorgrid.toml",
        "",
        "Options:",
        "      --json-logs  Emit logs as JSON lines",
        "  -h, --help       Print help",
        "  -V, --version    Print version"]
  | resolve, .short =>
    linesOf
      ["Resolve the launch parameters for one actor class",
        "",
        "Usage: actorgrid resolve [OPTIONS] --class <CLASS>",
        "",
        "Options:",
        "  -c, --config <CONFIG>  [default: actorgrid.toml]",
        "      --json-logs        Emit logs as JSON lines",
        "      --class <CLASS>    Actor class declared under [classes.<name>]",
        "  -s, --set <KEY=VALUE>  Override an option, KEY=VALUE. Repeatable",
        "  -h, --help             Print help (see more with '--help')",
        "  -V, --version          Print version"]
  | resolve, .long =>
    linesOf
      ["Resolve the launch parameters for one actor class.",
        "",
        "Reserves the class placement group on the nodes declared in the config, "
          ++ "prints the result as JSON, then releases the reservation.",
        "",
        "Usage: actorgrid resolve [OPTIONS] --class <CLASS>",
        "",
        "Options:",
        "  -c, --config <CONFIG>",
        "          [default: actorgrid.toml]",
        "",
        "      --json-logs",
        "          Emit logs as JSON lines",
        "",
        "      --class <CLASS>",
        "          Actor class declared under [classes.<name>]",
        "",
        "  -s, --set <KEY=VALUE>",
        "          Override an option, KEY=VALUE. Repeatable",
        "",
        "  -h, --help",
        "          Print help (see a summary with '-h')",
        "",
        "  -V, --version",
        "          Print version"]

/-- What is said about arguments that cannot be understood. -/
def misuseText : String :=
  linesOf ["error: unusable arguments", "", "For more information, try '--help'."]

end ActorPlacement.CommandLine
