import Marginalia.Path
import Marginalia.Pattern.Reader

/-!
# Ignored paths

A path is ignored when one of some patterns is found in it. With a root, the patterns see only the
part of the path inside the root, so that a project under `~/build/app` is not lost to the pattern
`build`. The rule `isIgnored` holds of any searches; `isIgnoredBy` is the rule with patterns.
-/

namespace Marginalia.Ignore

/-- The part of a path that the patterns see. An empty root counts as none, and a path outside the
root is seen as it is. -/
def visiblePart (cwd path : String) (root : Option String) : String :=
  match root with
  | none => path
  | some r => if r = "" then path else (Path.insideRoot? cwd path r).getD path

/-- One of the searches finds something in the visible part of the path. -/
def isIgnored (searches : List (String → Bool)) (cwd path : String) (root : Option String) : Bool :=
  searches.any fun search => search (visiblePart cwd path root)

/-! ## Patterns as they are given -/

section Reading

variable [Pattern.Dialect]

/-- A pattern given by its source, or one that has been read already. -/
inductive Given
  | source (text : String)
  | ready (p : Pattern)
  deriving Repr

namespace Given

/-- The pattern that is meant. A source is read without any flags. -/
def read : Given → Except Pattern.Error Pattern
  | .source text => Pattern.Dialect.compile text {}
  | .ready p => .ok p

/-- The source of the pattern, without what the source does not say. -/
def text : Given → String
  | .source text => text
  | .ready p => p.source

end Given

/-- Reads all patterns; the first one that cannot be read fails. -/
def readAll (patterns : List Given) : Except Pattern.Error (List Pattern) :=
  patterns.mapM Given.read

/-- Searches pattern by pattern and reads each one when its turn comes. -/
def anyFound (s : String) : List Given → Except Pattern.Error Bool
  | [] => .ok false
  | g :: rest => do
    let p ← g.read
    if p.isFoundIn s then return true else anyFound s rest

/-- Whether a path is ignored, where patterns after the first one found are never read. -/
def isIgnoredLazily (patterns : List Given) (cwd path : String) (root : Option String) :
    Except Pattern.Error Bool :=
  anyFound (visiblePart cwd path root) patterns

end Reading

/-- Whether a path is ignored by patterns that have been read. -/
def isIgnoredBy (patterns : List Pattern) (cwd path : String) (root : Option String) : Bool :=
  isIgnored (patterns.map (·.isFoundIn)) cwd path root

/-- The sources of the patterns that are used when none are given: version control, dependencies
and build results. -/
def defaultSources : List String :=
  ["\\.git", "node_modules", "dist", "build", "\\.pi"]

end Marginalia.Ignore
