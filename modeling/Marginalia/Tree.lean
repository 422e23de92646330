import Marginalia.Failure
import Marginalia.Path

/-!
# Directory trees

What a walk through a directory meets: the files of the directory, then the directories in it one
after the other. A walk passes over the directories and files that `keeps` refuses, and goes on
where a directory cannot be listed.
-/

namespace Marginalia

/-- A directory as a walk meets it. -/
inductive Tree
  | unlistable (why : Failure)
  | listed (files : List String) (directories : List (String × Tree))

/-- What a walk finds. -/
inductive Found
  | file (path : String)
  | failure (why : Failure)
  deriving DecidableEq, Repr

namespace Tree

mutual

/-- The walk through a directory at `path`. -/
def walk (keeps : String → Bool) (path : String) : Tree → List Found
  | .unlistable why => [.failure why]
  | .listed files directories =>
    ((files.map (Path.join path)).filter keeps).map .file ++ walkEach keeps path directories

/-- The walks through the directories in the directory at `path`. -/
def walkEach (keeps : String → Bool) (path : String) : List (String × Tree) → List Found
  | [] => []
  | (name, t) :: rest =>
    (if keeps (Path.join path name) then walk keeps (Path.join path name) t else [])
      ++ walkEach keeps path rest

end

end Tree

end Marginalia
