import Marginalia.Digest.Md5
import Marginalia.Marker
import Marginalia.Text.Line
import Marginalia.Text.Utf8

/-!
# Comment blocks

A block is a run of marked lines that follow one another in a file. `Block.ofContent` finds the
blocks of a file: it goes through the lines from the last to the first, and a marked line joins the
block that begins on the next line or stands alone. `Block.key` names a block by its file, its place
and a digest of its text.
-/

namespace Marginalia

/-- A run of marked lines of one file. -/
structure Block where
  path : String
  /-- The number of the first line; the first line of a file has the number 1. -/
  line : Int
  /-- The lines as they stand in the file. -/
  lines : List String := []
  /-- One of the lines is a trigger. -/
  trigger : Bool := false
  deriving DecidableEq, Repr

namespace Block

/-- The number of the last line. -/
def endLine (b : Block) : Int :=
  b.line + b.lines.length - 1

/-- The lines with their numbers. -/
def numberedLines (b : Block) : List (Int × String) :=
  b.lines.zipIdx.map fun p => (b.line + p.2, p.1)

/-- Puts a marked line, whose number is `n`, before the blocks of the lines that follow it. -/
def prepend (path : String) (n : Int) (line : String) (m : Marker) : List Block → List Block
  | [] => [⟨path, n, [line], m = .trigger⟩]
  | b :: rest =>
    if b.line = n + 1 then
      { b with line := n, lines := line :: b.lines, trigger := m = .trigger || b.trigger } :: rest
    else ⟨path, n, [line], m = .trigger⟩ :: b :: rest

/-- The blocks of some lines, the first of which has the number `n`. -/
def ofLines (path : String) : Int → List String → List Block
  | _, [] => []
  | n, line :: rest =>
    match Marker.ofLine? line with
    | none => ofLines path (n + 1) rest
    | some m => prepend path n line m (ofLines path (n + 1) rest)

/-- The blocks of a file, in the order of its lines. -/
def ofContent (path content : String) : List Block :=
  ofLines path 1 (Text.lines content)

/-- One of the blocks holds a trigger. -/
def anyTrigger (blocks : List Block) : Bool :=
  blocks.any (·.trigger)

/-- The blocks that hold a trigger. -/
def triggers (blocks : List Block) : List Block :=
  blocks.filter (·.trigger)

/-- The text of the block. -/
def text (b : Block) : String :=
  "\n".intercalate b.lines

/-- Names a block: its file, its first line and a digest of its text. -/
def key (b : Block) : String :=
  b.path ++ ":" ++ toString b.line ++ ":" ++ Md5.hexDigest (Utf8.encode b.text.toList)

end Block

end Marginalia
