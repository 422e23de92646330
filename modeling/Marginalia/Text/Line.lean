/-!
# Lines

A text is cut into lines at its line feeds, so that joining the lines with line feeds gives the text
back, and a text read from a file has its other line ends turned into line feeds first.
-/

namespace Marginalia.Text

/-- The lines of a text; a line feed at the end is followed by an empty line. -/
def lines (text : String) : List String :=
  (text.toList.splitOn '\n').map String.ofList

/-- Writes every line end as a line feed: a carriage return counts as one line end, alone or with a
line feed after it. -/
def unifyLineEnds : List Char → List Char
  | [] => []
  | '\r' :: '\n' :: rest => '\n' :: unifyLineEnds rest
  | c :: rest => (if c = '\r' then '\n' else c) :: unifyLineEnds rest

end Marginalia.Text
