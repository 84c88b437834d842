/-!
# Reading files

What becomes of an attempt to read a file, and directories that hold just some named files.
-/

namespace ActorPlacement.CommandLine

/-- Why a file cannot be read. -/
inductive ReadRefusal where
  | missing
  | isDirectory
  | notDirectory
  | nameTooLong
  | notText
  | other (text : String)
  deriving DecidableEq, Repr

/-- The words for a file that cannot be read. -/
def ReadRefusal.message : ReadRefusal → String
  | missing => "No such file or directory (os error 2)"
  | isDirectory => "Is a directory (os error 21)"
  | notDirectory => "Not a directory (os error 20)"
  | nameTooLong => "File name too long (os error 36)"
  | notText => "stream did not contain valid UTF-8"
  | other text => text

/-- Bytes as a text. -/
def textOfBytes (bytes : ByteArray) : Except ReadRefusal String :=
  match String.fromUTF8? bytes with
  | some s => .ok s
  | none => .error .notText

/-- A file of a directory: the parts of its path, and its bytes. -/
structure StoredFile where
  path : List String
  bytes : ByteArray

/-- A directory with everything in it. -/
structure Directory where
  files : List StoredFile

namespace Directory

/-- The directory of some named files. -/
def ofFiles (files : List (String × ByteArray)) : Directory :=
  ⟨files.map fun f => ⟨f.1.splitOn "/", f.2⟩⟩

/-- The file at a path. -/
def file? (d : Directory) (path : List String) : Option StoredFile := d.files.find? fun f => f.path == path

/-- Whether a path leads to a directory. -/
def isDirectory (d : Directory) (path : List String) : Bool :=
  path.isEmpty || d.files.any fun f => path.length < f.path.length && path.isPrefixOf f.path

/-- Whether a part of a path names no entry of a directory. -/
def isStep (part : String) : Bool := part == "" || part == "." || part == ".."

/-- Walk along the parts of a path. Every part but the last has to lead to a directory; an empty part
stays where it is. Outside of the directory there are directories but no files. -/
def walk (d : Directory) : List String → List String → Except ReadRefusal (List String)
  | place, [] => .ok place
  | place, part :: rest =>
    if d.isDirectory place then
      if part == "" || part == "." then walk d place rest
      else if part == ".." then
        if place.isEmpty then if rest.all isStep then .ok [] else .error .missing
        else walk d place.dropLast rest
      else if 255 < part.utf8ByteSize then .error .nameTooLong
      else
        let next := place ++ [part]
        if d.isDirectory next || (d.file? next).isSome then walk d next rest else .error .missing
    else .error .notDirectory

/-- Read the text of the file at a path that starts in the directory. -/
def read (d : Directory) (path : String) : Except ReadRefusal String :=
  if path.startsWith "/" then .error .missing
  else if 4096 ≤ path.utf8ByteSize then .error .nameTooLong
  else
    match d.walk [] (path.splitOn "/") with
    | .error why => .error why
    | .ok place =>
      match d.file? place with
      | some f => textOfBytes f.bytes
      | none => .error .isDirectory

end Directory

end ActorPlacement.CommandLine
