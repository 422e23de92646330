import Marginalia.Block
import Marginalia.Path
import Marginalia.Text.Blank

/-!
# Messages

The message that hands some blocks to an agent: rules, then the blocks file by file, each line with
its number. The files come in the order of their first blocks, and each has one heading, its path as
seen from a base directory.
-/

namespace Marginalia.Message

/-- The rules that open every message. -/
def preamble : String :=
  "The AI comments below can be found in the code files.\n" ++
  "They contain your instructions.\n" ++
  "Line numbers are provided for reference.\n" ++
  "Rules:\n" ++
  "- Only make changes to files and lines that have AI comments.\n" ++
  "- Do not modify any other files or areas of files.\n" ++
  "- Follow the instructions in the AI comments strictly.\n" ++
  "- Be sure to remove all AI comments from the code during or after the changes.\n" ++
  "- After changes are finished say just \"Done\" and nothing else.\n"

/-- A path as seen from a base directory. Without a base, or with an empty one, that is the current
directory; a path to which no way leads is left as it is. -/
def relativePath (cwd path : String) (base : Option String) : String :=
  let start := match base with
    | some b => if b = "" then "." else b
    | none => "."
  (Path.relative? cwd path start).getD path

/-- The files of some blocks, in the order of their first blocks. -/
def filesOf (blocks : List Block) : List String :=
  (blocks.map (·.path)).eraseDups

/-- The lines about one file: its heading, the lines of its blocks and an empty line. -/
def fileLines (cwd : String) (base : Option String) (blocks : List Block) (path : String) :
    List String :=
  (relativePath cwd path base ++ ":") ::
    ((blocks.filter (·.path = path)).flatMap (·.numberedLines)).map
      (fun p => toString p.1 ++ ": " ++ p.2) ++ [""]

/-- The message about some blocks; nothing is said about no blocks. -/
def ofBlocks (cwd : String) (base : Option String) (blocks : List Block) : String :=
  if blocks.isEmpty then ""
  else
    let parts := preamble :: (filesOf blocks).flatMap (fileLines cwd base blocks)
    String.ofList (Text.trim ("\n".intercalate parts).toList)

end Marginalia.Message
