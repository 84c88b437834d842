import ActorPlacement.CommandLine.Usage

/-!
# Arguments

`Invocation.ofArguments` tells what the arguments ask for. Arguments are read from left to right; a
request for help or for the version counts as soon as it is read, unless something before it was wrong
already. An option has its value attached or takes the next argument, which then must not look like an
option itself. Every option but `--set` may be given once on each side of the command's name.
-/

namespace ActorPlacement.CommandLine

/-- A command with its arguments. -/
inductive Command where
  | validate (config : String)
  | resolve (config cls : String) (sets : List String)
  deriving DecidableEq, Repr

/-- What the arguments ask for. -/
inductive Invocation where
  | run (command : Command)
  | print (text : String)
  | misuse
  deriving DecidableEq, Repr

/-- One argument by its form. -/
inductive Argument where
  /-- Two dashes alone: what follows are no options. -/
  | separator
  /-- A name after two dashes, with what follows an equals sign. -/
  | long (name : String) (value : Option String)
  /-- A letter after one dash, with what is attached to it. -/
  | short (letter : Char) (value : Option String)
  | plain (text : String)
  deriving DecidableEq, Repr

/-- What is attached to a letter; an equals sign before it does not count. -/
def attachedValue : List Char → Option String
  | [] => none
  | '=' :: rest => some (String.ofList rest)
  | rest => some (String.ofList rest)

/-- The form of an argument. One dash alone is plain. -/
def Argument.ofText (s : String) : Argument :=
  match s.toList with
  | ['-', '-'] => .separator
  | '-' :: '-' :: rest =>
    match cutAt? '=' (String.ofList rest) with
    | some (name, value) => .long name (some value)
    | none => .long (String.ofList rest) none
  | '-' :: letter :: rest => .short letter (attachedValue rest)
  | _ => .plain s

/-- Whether an argument asks for help or the version, and which letter it has. -/
inductive Inquiry where
  | help (length : HelpLength)
  | version
  deriving DecidableEq, Repr

/-- The inquiry that an argument makes, if it makes one. What else is attached to a letter is not read. -/
def Argument.inquiry? : Argument → Option Inquiry
  | long "help" none => some (.help .long)
  | long "version" none => some .version
  | short 'h' _ => some (.help .short)
  | short 'V' _ => some .version
  | _ => none

/-- Whether an argument asks for logs in JSON. -/
def Argument.asksJsonLogs : Argument → Bool
  | long "json-logs" none => true
  | _ => false

/-- Answer an inquiry about a command. -/
def CommandName.answer (c : CommandName) : Inquiry → Invocation
  | .help length => .print (c.helpText length)
  | .version => .print c.versionText

/-- Read the arguments of `validate`: one path that is not empty. -/
def readValidate (jsonLogs : Bool) (config : Option String) : List String → Invocation
  | [] =>
    match config with
    | some config => .run (.validate config)
    | none => .misuse
  | s :: rest =>
    let arg := Argument.ofText s
    match arg.inquiry? with
    | some inquiry => CommandName.validate.answer inquiry
    | none =>
      if arg.asksJsonLogs then if jsonLogs then .misuse else readValidate true config rest
      else
        match arg, config, rest with
        | .plain path, none, rest => if path.isEmpty then .misuse else readValidate jsonLogs (some path) rest
        | .separator, some config, [] => .run (.validate config)
        | .separator, none, [path] => if path.isEmpty then .misuse else .run (.validate path)
        | _, _, _ => .misuse

/-- The options of `resolve` that take a value. -/
inductive ResolveOption where
  | config
  | cls
  | set
  deriving DecidableEq, Repr

/-- The option that an argument names, with what is attached. -/
def Argument.resolveOption? : Argument → Option (ResolveOption × Option String)
  | long "config" value => some (.config, value)
  | long "class" value => some (.cls, value)
  | long "set" value => some (.set, value)
  | short 'c' value => some (.config, value)
  | short 's' value => some (.set, value)
  | _ => none

/-- The options of `resolve` read so far. -/
structure ResolveDraft where
  config : Option String := none
  cls : Option String := none
  sets : List String := []
  jsonLogs : Bool := false

namespace ResolveDraft

/-- The configuration that is read when none is named. -/
def defaultConfig : String := "actorgrid.toml"

/-- Give an option its value. A path is not empty, and only assignments may be given several times. -/
def give? (d : ResolveDraft) (option : ResolveOption) (value : String) : Option ResolveDraft :=
  match option with
  | .config => if d.config.isSome || value.isEmpty then none else some { d with config := some value }
  | .cls => if d.cls.isSome then none else some { d with cls := some value }
  | .set => some { d with sets := d.sets ++ [value] }

/-- What the options ask for when all have been read. -/
def finish (d : ResolveDraft) : Invocation :=
  match d.cls with
  | some cls => .run (.resolve (d.config.getD defaultConfig) cls d.sets)
  | none => .misuse

end ResolveDraft

/-- Read the arguments of `resolve`. -/
def readResolve (d : ResolveDraft) : List String → Invocation
  | [] => d.finish
  | s :: rest =>
    let arg := Argument.ofText s
    match arg.inquiry?, arg.resolveOption? with
    | some inquiry, _ => CommandName.resolve.answer inquiry
    | none, some (option, some value) =>
      match d.give? option value with
      | some d => readResolve d rest
      | none => .misuse
    | none, some (option, none) =>
      match rest with
      | [] => .misuse
      | next :: rest =>
        match Argument.ofText next with
        | .plain value =>
          match d.give? option value with
          | some d => readResolve d rest
          | none => .misuse
        | _ => .misuse
    | none, none =>
      if arg.asksJsonLogs then if d.jsonLogs then .misuse else readResolve { d with jsonLogs := true } rest
      else
        match arg, rest with
        | .separator, [] => d.finish
        | _, _ => .misuse

/-- Read the arguments of `help`: the name of a command, if any. -/
def readHelp : List String → Invocation
  | [] => .print helpText
  | [name] =>
    match CommandName.ofText? name with
    | some c => .print (c.helpText .long)
    | none => if name == "help" then .print helpOnHelpText else .misuse
  | _ => .misuse

/-- Read the arguments up to the name of a command. -/
def readCommand (jsonLogs : Bool) : List String → Invocation
  | [] => .misuse
  | s :: rest =>
    match CommandName.ofText? s with
    | some .validate => readValidate false none rest
    | some .resolve => readResolve {} rest
    | none =>
      if s == "help" then readHelp rest
      else
        let arg := Argument.ofText s
        match arg.inquiry? with
        | some (.help _) => .print helpText
        | some .version => .print versionText
        | none => if arg.asksJsonLogs && !jsonLogs then readCommand true rest else .misuse

/-- What the arguments ask for. -/
def Invocation.ofArguments (args : List String) : Invocation := readCommand false args

end ActorPlacement.CommandLine
