import Marginalia.Json.Basic
import Marginalia.Text.Digits

/-!
# Reading JSON

`Json.read` reads a text that holds one JSON value between blanks. The names `NaN`, `Infinity` and
`-Infinity` are read as numbers. A text in quotes holds no control characters. A whole number may be
too long to be read, and lists and objects may be nested too deeply.
-/

namespace Marginalia.Json

/-- Why a text cannot be read. -/
inductive Fault
  /-- It is not written in JSON. -/
  | malformed
  /-- A whole number has too many digits. -/
  | longNumber
  /-- A list, or an object, lies within too many others. -/
  | deepNesting (isList : Bool)
  deriving DecidableEq, Repr

/-- What lies within so many lists and objects is not read when it is one itself. -/
def mostLevels : Nat := 984

/-! ## Blanks and digits -/

/-- What may stand around a value. -/
def isBlank (c : Char) : Bool :=
  c == ' ' || c == '\t' || c == '\n' || c == '\r'

/-- The text without its blanks at the front. -/
def skipBlanks (cs : List Char) : List Char :=
  cs.dropWhile isBlank

/-- The rest behind a word that stands at the front. -/
def after? (word : String) (cs : List Char) : Option (List Char) :=
  if word.toList.isPrefixOf cs then some (cs.drop word.toList.length) else none

/-! ## Numbers -/

/-- The digits after a point, if a digit follows the point. -/
def readFraction : List Char → Option (List Char × List Char)
  | '.' :: d :: rest =>
    if d.isDigit then some (d :: rest.takeWhile Char.isDigit, rest.dropWhile Char.isDigit)
    else none
  | _ => none

/-- The value of an exponent, if digits follow its letter and sign. -/
def readExponent : List Char → Option (Int × List Char)
  | e :: rest =>
    if e == 'e' || e == 'E' then
      let (sign, rest) : Int × List Char := match rest with
        | '-' :: r => (-1, r)
        | '+' :: r => (1, r)
        | r => (1, r)
      match rest.takeWhile Char.isDigit with
      | [] => none
      | ds => some (sign * Text.ofDigits ds, rest.dropWhile Char.isDigit)
    else none
  | [] => none

/-- The digits before the point: a zero, or digits that begin with none. -/
def readWhole : List Char → Option (List Char × List Char)
  | '0' :: rest => some (['0'], rest)
  | d :: rest =>
    if d.isDigit then some (d :: rest.takeWhile Char.isDigit, rest.dropWhile Char.isDigit)
    else none
  | [] => none

/-- A number without its sign. -/
def readUnsigned (negative : Bool) (cs : List Char) : Except Fault (Json × List Char) := do
  let some (ds, rest) := readWhole cs | throw .malformed
  match readFraction rest, readExponent ((readFraction rest).elim rest (·.2)) with
  | none, none =>
    if Text.mostDigits < ds.length then throw .longNumber
    return (.whole (if negative then -Text.ofDigits ds else Text.ofDigits ds), rest)
  | fraction, exponent =>
    let places := fraction.elim [] (·.1)
    let rest := (exponent.map (·.2)).getD (fraction.elim rest (·.2))
    let power := exponent.elim 0 (·.1) - places.length
    return (.real (.ofDecimal negative (Text.ofDigits (ds ++ places)) power), rest)

/-- A number. -/
def readNumber : List Char → Except Fault (Json × List Char)
  | '-' :: cs => readUnsigned true cs
  | cs => readUnsigned false cs

/-! ## Texts -/

/-- The value of a hexadecimal digit. -/
def hexValue? (c : Char) : Option Nat :=
  if c.isDigit then some (c.toNat - '0'.toNat)
  else if 'a' ≤ c && c ≤ 'f' then some (c.toNat - 'a'.toNat + 10)
  else if 'A' ≤ c && c ≤ 'F' then some (c.toNat - 'A'.toNat + 10)
  else none

/-- The value of four hexadecimal digits. -/
def readHex : List Char → Option (Nat × List Char)
  | a :: b :: c :: d :: rest => do
    let n := ((← hexValue? a) * 16 + (← hexValue? b)) * 256 + (← hexValue? c) * 16 + (← hexValue? d)
    return (n, rest)
  | _ => none

/-- The character that a letter after a backslash stands for. -/
def escape? : Char → Option Char
  | '"' => some '"'
  | '\\' => some '\\'
  | '/' => some '/'
  | 'b' => some '\x08'
  | 'f' => some '\x0c'
  | 'n' => some '\n'
  | 'r' => some '\r'
  | 't' => some '\t'
  | _ => none

/-- The character given by a code unit; two units that belong together give one character, and a
unit that is one of two without the other gives the replacement character. -/
def readUnit (cs : List Char) : Option (Char × List Char) := do
  let (n, rest) ← readHex cs
  if 0xd800 ≤ n && n < 0xdc00 then
    match rest with
    | '\\' :: 'u' :: more =>
      match readHex more with
      | some (m, after) =>
        if 0xdc00 ≤ m && m < 0xe000 then
          return (Char.ofNat (0x10000 + (n - 0xd800) * 0x400 + (m - 0xdc00)), after)
        else return ('\ufffd', rest)
      | none => return ('\ufffd', rest)
    | _ => return ('\ufffd', rest)
  else if 0xdc00 ≤ n && n < 0xe000 then return ('\ufffd', rest)
  else return (Char.ofNat n, rest)

/-- The rest of a text in quotes, behind the characters read so far, of which the last one comes
first. The first argument bounds its length. -/
def readQuoted : Nat → List Char → List Char → Except Fault (String × List Char)
  | 0, _, _ => throw .malformed
  | fuel + 1, before, cs =>
    match cs with
    | [] => throw .malformed
    | '"' :: rest => return (String.ofList before.reverse, rest)
    | '\\' :: 'u' :: rest =>
      match readUnit rest with
      | some (c, rest) => readQuoted fuel (c :: before) rest
      | none => throw .malformed
    | '\\' :: e :: rest =>
      match escape? e with
      | some c => readQuoted fuel (c :: before) rest
      | none => throw .malformed
    | c :: rest =>
      if c.toNat < 0x20 || c == '\\' then throw .malformed else readQuoted fuel (c :: before) rest

/-! ## Values -/

/-- The values that are written as words. -/
def words : List (String × Json) :=
  [("null", .null), ("true", .bool true), ("false", .bool false), ("NaN", .real .notANumber),
    ("Infinity", .real (.infinite false)), ("-Infinity", .real (.infinite true))]

/-- A word or a number at the front. -/
def readScalar (cs : List Char) : Except Fault (Json × List Char) :=
  match words.findSome? fun p => (after? p.1 cs).map fun rest => (p.2, rest) with
  | some found => .ok found
  | none => readNumber cs

mutual

/-- A value at the front. The first argument bounds the number of its parts and the length of its
texts; twice the length of the whole is enough, as each part takes a character and counts twice. The
second one counts the lists and objects around the value. -/
def readValue : Nat → Nat → List Char → Except Fault (Json × List Char)
  | 0, _, _ => throw .malformed
  | fuel + 1, level, cs =>
    match cs with
    | '"' :: rest => do
      let (s, rest) ← readQuoted fuel [] rest
      return (.text s, rest)
    | '[' :: rest => do
      if mostLevels ≤ level then throw (.deepNesting true)
      match skipBlanks rest with
      | ']' :: rest => return (.list [], rest)
      | rest => do
        let (items, rest) ← readItems fuel (level + 1) [] rest
        return (.list items, rest)
    | '\x7b' :: rest => do
      if mostLevels ≤ level then throw (.deepNesting false)
      match skipBlanks rest with
      | '\x7d' :: rest => return (.object [], rest)
      | rest => do
        let (fields, rest) ← readFields fuel (level + 1) [] rest
        return (.object fields, rest)
    | cs => readScalar cs

/-- The items of a list behind those read so far, up to the closing bracket. -/
def readItems : Nat → Nat → List Json → List Char → Except Fault (List Json × List Char)
  | 0, _, _, _ => throw .malformed
  | fuel + 1, level, before, cs => do
    let (v, rest) ← readValue fuel level cs
    match skipBlanks rest with
    | ']' :: rest => return ((v :: before).reverse, rest)
    | ',' :: rest => readItems fuel level (v :: before) (skipBlanks rest)
    | _ => throw .malformed

/-- The fields of an object behind those read so far, up to the closing brace. -/
def readFields : Nat → Nat → List (String × Json) → List Char →
    Except Fault (List (String × Json) × List Char)
  | 0, _, _, _ => throw .malformed
  | fuel + 1, level, before, cs => do
    let '"' :: rest := cs | throw .malformed
    let (name, rest) ← readQuoted fuel [] rest
    let ':' :: rest := skipBlanks rest | throw .malformed
    let (v, rest) ← readValue fuel level (skipBlanks rest)
    match skipBlanks rest with
    | '\x7d' :: rest => return (((name, v) :: before).reverse, rest)
    | ',' :: rest => readFields fuel level ((name, v) :: before) (skipBlanks rest)
    | _ => throw .malformed

end

/-- Reads a text that holds one value and nothing else but blanks. -/
def read (s : String) : Except Fault Json := do
  let cs := skipBlanks s.toList
  let (v, rest) ← readValue (2 * cs.length + 2) 0 cs
  if (skipBlanks rest).isEmpty then return v else throw .malformed

end Marginalia.Json
