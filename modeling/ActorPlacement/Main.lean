import ActorPlacement.CommandLine.Basic

/-!
# The program

Reads the file that a command names, and prints what the command comes to.
-/

namespace ActorPlacement.CommandLine

/-- Why a file could not be read. -/
def ReadRefusal.ofError : IO.Error → ReadRefusal
  | .noFileOrDirectory _ _ _ => .missing
  | .inappropriateType _ _ _ => .isDirectory
  | error => .other (toString error)

/-- Read the text of a file. -/
def readFile (path : String) : IO (Except ReadRefusal String) := do
  try
    return textOfBytes (← IO.FS.readBinFile path)
  catch error =>
    return .error (ReadRefusal.ofError error)

/-- Read what the arguments ask for, and nothing else. -/
def readFor (args : List String) : IO Files := do
  match Invocation.ofArguments args with
  | .run command =>
    let content ← readFile command.path
    return fun _ => content
  | _ => return fun _ => .error .missing

end ActorPlacement.CommandLine

open ActorPlacement in
/-- Run the program. -/
def main (args : List String) : IO UInt32 := do
  let outcome := CommandLine.outcome (← CommandLine.readFor args) args
  IO.print outcome.stdout
  IO.eprint outcome.stderr
  return UInt32.ofNat outcome.code
