import Marginalia.Entries
import Marginalia.Failure
import Marginalia.Path
import Marginalia.Text.Line
import Marginalia.Tree

/-!
# Files in memory

A file system that is held in memory: what each file holds or how reading it fails, the directories
that are there without files, and those that may not be listed. `readText` reads a file as text and
`tree` is what a walk below a directory meets. Files are listed in the order in which they were
first set.
-/

namespace Marginalia

/-- What reading a file meets. -/
inductive Content
  | octets (bytes : List UInt8)
  | failing (why : Failure)
  deriving Repr

/-- A file system in memory; its paths are absolute and in normal form. -/
structure Files where
  cwd : String := "/"
  contents : List (Path.Normal × Content) := []
  directories : List Path.Normal := []
  denied : List Path.Normal := []

namespace Files

/-- The octets of a text as the content of a file. -/
def ofText (s : String) : Content :=
  .octets (Utf8.encode s.toList)

/-- The normal form of a path. -/
def locate (fs : Files) (path : String) : Path.Normal :=
  Path.absolute fs.cwd path

/-- Writes a file. -/
def set (fs : Files) (path : String) (c : Content) : Files :=
  { fs with contents := Entries.put (fs.locate path) c fs.contents }

/-- Removes a file. -/
def remove (fs : Files) (path : String) : Files :=
  { fs with contents := Entries.remove (fs.locate path) fs.contents }

/-- The names that lead from a directory down to a place below it. -/
def below? (directory place : Path.Normal) : Option (List String) :=
  if directory.slashes = place.slashes then
    match Path.dropShared directory.names place.names with
    | ([], name :: names) => some (name :: names)
    | _ => none
  else none

/-! ## Reading -/

/-- Reads octets as text, with every line end as a line feed. -/
def textOf (bytes : List UInt8) : Except Failure String :=
  match Utf8.decode bytes with
  | .ok cs => .ok (String.ofList (Text.unifyLineEnds cs))
  | .error m => .error (.malformed m bytes)

/-- Reads the file at a path. -/
def readText (fs : Files) (path : String) : Except Failure String :=
  match fs.contents.lookup (fs.locate path) with
  | some (.octets bytes) => textOf bytes
  | some (.failing why) => .error why
  | none =>
    if fs.contents.any fun e => (below? (fs.locate path) e.1).isSome then
      .error (Failure.isADirectory path)
    else .error (Failure.noSuchFile path)

/-! ## Listing -/

/-- The names of the files in a directory. -/
def filesIn (fs : Files) (directory : Path.Normal) : List String :=
  fs.contents.filterMap fun e =>
    match below? directory e.1 with
    | some [name] => some name
    | _ => none

/-- The names of the directories in a directory. -/
def directoriesIn (fs : Files) (directory : Path.Normal) : List String :=
  let ofFiles := fs.contents.filterMap fun e =>
    match below? directory e.1 with
    | some (name :: _ :: _) => some name
    | _ => none
  let ofDirectories := fs.directories.filterMap fun d => (below? directory d).bind (·.head?)
  (ofFiles ++ ofDirectories).eraseDups

/-- There is a directory at the place. -/
def isDirectory (fs : Files) (place : Path.Normal) : Bool :=
  (fs.contents.any fun e => (below? place e.1).isSome)
    || fs.directories.any fun d => d = place || (below? place d).isSome

/-- What a walk from `path` meets, at most `depth` directories deep. -/
def treeTo (fs : Files) : Nat → String → Tree
  | 0, _ => .listed [] []
  | depth + 1, path =>
    let place := fs.locate path
    if fs.denied.contains place then .unlistable (Failure.permissionDenied path)
    else if !fs.isDirectory place then .unlistable (Failure.noSuchFile path)
    else .listed (fs.filesIn place)
      ((fs.directoriesIn place).map fun name => (name, fs.treeTo depth (Path.join path name)))

/-- More directories than lie above one another anywhere. -/
def depth (fs : Files) : Nat :=
  ((fs.contents.map (·.1.names.length) ++ fs.directories.map (·.names.length)).foldl max 0) + 2

/-- What a walk from `path` meets. -/
def tree (fs : Files) (path : String) : Tree :=
  fs.treeTo fs.depth path

end Files

end Marginalia
