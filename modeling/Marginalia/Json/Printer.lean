import Marginalia.Text.Quoted

/-!
# Writing JSON

Texts and objects of texts, written with the characters of ASCII alone: a character above the
printable ones of ASCII is written by its code units, of which a character beyond the first plane
has two.
-/

namespace Marginalia.Json

/-- The code units of a character. -/
def codeUnits (c : Char) : List Nat :=
  let n := c.toNat
  if n < 0x10000 then [n]
  else [0xd800 + (n - 0x10000) / 0x400, 0xdc00 + (n - 0x10000) % 0x400]

/-- A character within quotes. -/
def writeChar (c : Char) : List Char :=
  match c with
  | '"' => ['\\', '"']
  | '\\' => ['\\', '\\']
  | '\n' => ['\\', 'n']
  | '\r' => ['\\', 'r']
  | '\t' => ['\\', 't']
  | '\x08' => ['\\', 'b']
  | '\x0c' => ['\\', 'f']
  | c =>
    if 32 ≤ c.toNat && c.toNat < 127 then [c]
    else (codeUnits c).flatMap fun n => '\\' :: 'u' :: Text.hexDigits 4 n

/-- A text in quotes. -/
def writeText (s : String) : String :=
  String.ofList ('"' :: s.toList.flatMap writeChar ++ ['"'])

/-- An object whose values are texts. -/
def writeObject (fields : List (String × String)) : String :=
  let pairs := fields.map fun p => writeText p.1 ++ ": " ++ writeText p.2
  "\x7b" ++ ", ".intercalate pairs ++ "\x7d"

end Marginalia.Json
