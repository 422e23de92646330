import Marginalia.Text.Printable

/-!
# Quoted text

A text between quotes, on one line and with nothing invisible in it. Single quotes are used unless
the text holds some and no double ones. The quote and the backslash are escaped by a backslash, tab
and line ends have letters of their own, and any other character that is not printable is written
by its code point.
-/

namespace Marginalia.Text

/-- The lowest `digits` hexadecimal digits of a number. -/
def hexDigits : Nat → Nat → List Char
  | 0, _ => []
  | digits + 1, n => hexDigits digits (n / 16) ++ [Nat.digitChar (n % 16)]

/-- A character by its code point, in the shortest of the three forms. -/
def escapeCode (c : Char) : List Char :=
  let n := c.toNat
  if n < 0x100 then '\\' :: 'x' :: hexDigits 2 n
  else if n < 0x10000 then '\\' :: 'u' :: hexDigits 4 n
  else '\\' :: 'U' :: hexDigits 8 n

/-- A character between the given quotes. -/
def quoteChar (quote c : Char) : List Char :=
  if c = quote || c = '\\' then ['\\', c]
  else if c = '\t' then ['\\', 't']
  else if c = '\n' then ['\\', 'n']
  else if c = '\r' then ['\\', 'r']
  else if isPrintable c then [c]
  else escapeCode c

/-- The quote that stands around a text. -/
def quoteFor (cs : List Char) : Char :=
  if cs.contains '\'' && !cs.contains '"' then '"' else '\''

/-- The text in quotes. -/
def quoted (s : String) : String :=
  let quote := quoteFor s.toList
  String.ofList (quote :: s.toList.flatMap (quoteChar quote) ++ [quote])

/-- The text with its characters beyond ASCII written by their code points. -/
def asciiOnly (s : String) : String :=
  String.ofList (s.toList.flatMap fun c => if c.toNat < 128 then [c] else escapeCode c)

/-- Octets in quotes behind the letter b. Each is written as the ASCII character of its number, if
there is one, and else by the number. -/
def quotedOctets (octets : List UInt8) : String :=
  let cs := octets.map fun b => Char.ofNat b.toNat
  let quote := quoteFor cs
  let written := cs.flatMap fun c => if c.toNat < 128 then quoteChar quote c else escapeCode c
  String.ofList ('b' :: quote :: written ++ [quote])

/-- Some texts as a bracketed list of quoted texts. -/
def quotedList (items : List String) : String :=
  "[" ++ ", ".intercalate (items.map quoted) ++ "]"

end Marginalia.Text
