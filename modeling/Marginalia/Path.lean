/-!
# Paths

Paths in the manner of POSIX: names between slashes, relative to a current directory unless they
begin with a slash. `normalize` drops empty names and `.` and resolves `..` against the name before
it; a path that begins with exactly two slashes keeps both. `relative?` leads from one directory to
a path, by way of the names that they have in common.
-/

namespace Marginalia.Path

/-- A path in normal form. -/
structure Normal where
  /-- How many slashes it begins with: none, one or two. -/
  slashes : Nat
  /-- The names between the slashes. -/
  names : List String
  deriving DecidableEq, Repr

/-- The slashes at the front that count; three and more are as good as one. -/
def leadingSlashes : List Char → Nat
  | '/' :: '/' :: '/' :: _ => 1
  | '/' :: '/' :: _ => 2
  | '/' :: _ => 1
  | _ => 0

/-- The path begins at the root of the file system. -/
def isAbsolute (path : String) : Bool :=
  path.toList.head? = some '/'

/-- What stands between the slashes. -/
def pieces (path : String) : List String :=
  (path.toList.splitOn '/').map String.ofList

/-- Follows one piece of a path. The names so far are given and returned with the last one first;
above the root there is only the root. -/
def follow (rooted : Bool) (names : List String) (piece : String) : List String :=
  if piece = "" ∨ piece = "." then names
  else if piece = ".." then
    match names with
    | [] => if rooted then [] else [".."]
    | last :: before => if last = ".." then ".." :: last :: before else before
  else piece :: names

/-- The normal form of a path. -/
def normalize (path : String) : Normal :=
  let slashes := leadingSlashes path.toList
  ⟨slashes, ((pieces path).foldl (follow (0 < slashes)) []).reverse⟩

/-- Some names as a path; no names at all are the place where the path begins. -/
def ofNames (names : List String) : String :=
  if names.isEmpty then "." else "/".intercalate names

/-- The text of a normal form. -/
def Normal.render (n : Normal) : String :=
  if n.slashes = 0 then ofNames n.names
  else String.ofList (List.replicate n.slashes '/') ++ "/".intercalate n.names

/-- A path followed from a directory. -/
def join (directory path : String) : String :=
  if isAbsolute path then path
  else if directory = "" || directory.toList.getLast? = some '/' then directory ++ path
  else directory ++ "/" ++ path

/-- The normal form of a path followed from the current directory. -/
def absolute (cwd path : String) : Normal :=
  normalize (if isAbsolute path then path else join cwd path)

/-- The text of the absolute path. -/
def absoluteText (cwd path : String) : String :=
  (absolute cwd path).render

/-- What is left of two lists behind the longest beginning that they share. -/
def dropShared : List String → List String → List String × List String
  | a :: as, b :: bs => if a = b then dropShared as bs else (a :: as, b :: bs)
  | as, bs => (as, bs)

/-- The way from `start` to `path`; the empty path leads nowhere. -/
def relative? (cwd path start : String) : Option String :=
  if path = "" then none
  else
    let rest := dropShared (absolute cwd start).names (absolute cwd path).names
    some (ofNames (List.replicate rest.1.length ".." ++ rest.2))

/-- The path as seen from inside `root`, when it lies there. -/
def insideRoot? (cwd path root : String) : Option String :=
  match relative? cwd path root with
  | none => none
  | some way => if way = ".." || "../".toList.isPrefixOf way.toList then none else some way

end Marginalia.Path
