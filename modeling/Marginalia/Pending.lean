import Marginalia.Block
import Marginalia.Entries

/-!
# Pending comments

The blocks that wait for a trigger, file by file. The files come in the order in which each was last
added; a file without blocks is not kept.
-/

namespace Marginalia

/-- The blocks that wait, by file. -/
structure Pending where
  entries : List (String × List Block) := []
  deriving Repr

namespace Pending

/-- Nothing waits. -/
def empty : Pending := {}

/-- The blocks of a file. -/
def get (p : Pending) (path : String) : List Block :=
  (p.entries.lookup path).getD []

/-- Replaces the blocks of a file. -/
def replace (p : Pending) (path : String) (blocks : List Block) : Pending :=
  if blocks.isEmpty then ⟨Entries.remove path p.entries⟩ else ⟨Entries.put path blocks p.entries⟩

/-- All blocks that wait. -/
def snapshot (p : Pending) : List Block :=
  p.entries.flatMap (·.2)

/-- The blocks of all files but one. -/
def others (p : Pending) (path : String) : List Block :=
  (Entries.remove path p.entries).flatMap (·.2)

/-- The number of files with blocks. -/
def fileCount (p : Pending) : Nat :=
  p.entries.length

/-- The number of blocks. -/
def size (p : Pending) : Nat :=
  p.entries.foldr (fun e n => e.2.length + n) 0

/-- The file has blocks. -/
def contains (p : Pending) (path : String) : Bool :=
  p.entries.any (·.1 = path)

/-! ## Operations -/

/-- What changes a pending set. -/
inductive Operation
  | replace (path : String) (blocks : List Block)
  | clear
  deriving DecidableEq, Repr

/-- Does an operation. A replacement answers with the blocks that the file had before. -/
def perform (p : Pending) : Operation → Option (List Block) × Pending
  | .replace path blocks => (some (p.get path), p.replace path blocks)
  | .clear => (none, .empty)

end Pending

end Marginalia
