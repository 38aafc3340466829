/-!
# Files

The program reads at most one file, by a path. `ReadFailure` gives the reasons why a file cannot be
read. A `Directory` is a fixed set of files by their relative paths, from which a path can be read
without a disk: a path is followed part by part, and every part but the last must lead to a
directory.
-/

namespace MiniC

/-- Why a file cannot be read as text. -/
inductive ReadFailure where
  /-- Nothing is at the path. -/
  | notFound
  /-- A directory is at the path. -/
  | isDirectory
  /-- The path goes on after a file. -/
  | notDirectory
  /-- The file is not text. -/
  | notText
  /-- Another reason, in words. -/
  | other (reason : String)
  deriving DecidableEq, Repr

namespace ReadFailure

/-- A reason in words. -/
def message : ReadFailure → String
  | notFound => "No such file or directory (os error 2)"
  | isDirectory => "Is a directory (os error 21)"
  | notDirectory => "Not a directory (os error 20)"
  | notText => "stream did not contain valid UTF-8"
  | other reason => reason

end ReadFailure

namespace Path

/-- The parts of a path between its slashes, of which `seen` belongs to the first one, in reverse
order. -/
def partsAfter (seen : List Char) : List Char → List String
  | [] => [String.ofList seen.reverse]
  | c :: rest =>
    if c = '/' then String.ofList seen.reverse :: partsAfter [] rest
    else partsAfter (c :: seen) rest

/-- The parts of a path between its slashes. -/
def parts (path : String) : List String := partsAfter [] path.toList

/-- Whether a part of a path stays where it is. -/
def isStationary (part : String) : Bool := part = "" || part = "."

/-- The name of the file that a path leads to, unless the path ends by going up. -/
def fileName? (path : String) : Option String :=
  match ((parts path).filter fun part => !isStationary part).getLast? with
  | none => none
  | some part => if part = ".." then none else some part

end Path

/-- Files by their relative paths. -/
structure Directory where
  /-- The paths of the files, each as the list of its parts, with the contents. -/
  files : List (List String × ByteArray)

namespace Directory

/-- A place that a path can lead to. -/
inductive Place where
  /-- A directory above the root of the files. -/
  | above
  /-- The directory with the given parts, from the root of the files on. -/
  | directory (parts : List String)
  /-- A file. -/
  | file (content : ByteArray)

/-- The place below a directory under a name. -/
def child (d : Directory) (parts : List String) (name : String) : Except ReadFailure Place :=
  let parts := parts ++ [name]
  match d.files.find? fun f => f.1 = parts with
  | some f => .ok (.file f.2)
  | none =>
    if d.files.any fun f => parts.isPrefixOf f.1 then .ok (.directory parts) else .error .notFound

/-- Follows one part of a path. -/
def step (d : Directory) (place : Place) (part : String) : Except ReadFailure Place :=
  match place with
  | .file _ => .error .notDirectory
  | .above =>
    if Path.isStationary part || part = ".." then .ok .above else .error .notFound
  | .directory parts =>
    if Path.isStationary part then .ok place
    else if part = ".." then .ok (if parts.isEmpty then .above else .directory parts.dropLast)
    else d.child parts part

/-- Reads the file at a path. Nothing is known of what is above the root of the files. -/
def read (d : Directory) (path : String) : Except ReadFailure ByteArray :=
  if path = "" then .error .notFound
  else
    let start := if path.toList.head? = some '/' then Place.above else Place.directory []
    match (Path.parts path).foldlM d.step start with
    | .error failure => .error failure
    | .ok (.file content) => .ok content
    | .ok _ => .error .isDirectory

end Directory

end MiniC
