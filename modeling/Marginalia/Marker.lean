import Marginalia.Text.Alphanumeric
import Marginalia.Text.Blank

/-!
# Marked lines

A line is marked when it is a comment of its own (`#`, `//` or `--`) that begins or ends with the
marker `ai`, in any case. A marker followed by `!` is a trigger: it asks for everything collected so
far to be sent. `Marker.ofLine?` reads the marker of a line.

A marker leads when only blanks stand before it and it ends there as a word; it trails when the
character before it is no part of a word and only blanks and closing punctuation follow. The text
beside the marker has to lie on one line, which matters only for lines that hold a line end.
-/

namespace Marginalia

/-- What a marked line asks for. -/
inductive Marker
  /-- Keep the line until a trigger comes. -/
  | collect
  /-- Send what has been collected, this line included. -/
  | trigger
  deriving DecidableEq, Repr

namespace Marker

/-! ## Characters -/

/-- The first letter of the marker. -/
def isFirstLetter (c : Char) : Bool :=
  c == 'a' || c == 'A'

/-- The second letter of the marker; the dotted capital and the dotless small letter count. -/
def isSecondLetter (c : Char) : Bool :=
  c == 'i' || c == 'I' || c == 'İ' || c == 'ı'

/-- What may stand between a leading marker and its text. -/
def isPause (c : Char) : Bool :=
  Text.isBlank c || c == ':'

/-- What may follow a trailing marker. -/
def isClosing (c : Char) : Bool :=
  Text.isBlank c || c == ':' || c == '.' || c == ',' || c == ';' || c == '!' || c == '?'

/-! ## The two places of a marker -/

/-- What follows the comment sign. -/
def commentBody? : List Char → Option (List Char)
  | '#' :: body => some body
  | '/' :: '/' :: body => some body
  | '-' :: '-' :: body => some body
  | _ => none

/-- Some pauses, then a text that is not empty and holds no line end. -/
def endsInText (r : List Char) : Bool :=
  let onLastLine := r.reverse.takeWhile (· != '\n')
  let before := r.reverse.dropWhile (· != '\n')
  !onLastLine.isEmpty && before.all isPause

/-- Blanks around a text that is not empty and holds no line end. -/
def holdsOneLine (x : List Char) : Bool :=
  let core := Text.trim x
  if core.isEmpty then x.any (· != '\n') else core.all (· != '\n')

/-- The marker at the front, read off what follows its two letters. -/
def afterLetters? : List Char → Option Marker
  | [] => none
  | '!' :: r => if r.isEmpty || endsInText r then some trigger else none
  | c :: r => if !Text.isWord c && endsInText (c :: r) then some collect else none

/-- The marker at the front of a comment's body. -/
def leading? (body : List Char) : Option Marker :=
  match Text.trimLeft body with
  | a :: i :: r => if isFirstLetter a && isSecondLetter i then afterLetters? r else none
  | _ => none

/-- The marker at the back of a comment's body. The body is read from its end: the closing
characters, the two letters of the marker, and before them a text that ends outside a word. -/
def trailing? (body : List Char) : Option Marker :=
  match body.reverse.dropWhile isClosing with
  | i :: a :: c :: r =>
    if isSecondLetter i && isFirstLetter a && !Text.isWord c && holdsOneLine (c :: r).reverse then
      if (body.reverse.takeWhile isClosing).getLast? = some '!' then some trigger else some collect
    else none
  | _ => none

/-- Of two readings of one line the trigger wins. -/
def join : Option Marker → Option Marker → Option Marker
  | none, m => m
  | m, none => m
  | some trigger, _ => some trigger
  | some collect, m => m

/-- The marker of a line, if it has one. -/
def ofLine? (line : String) : Option Marker :=
  match commentBody? (Text.trim line.toList) with
  | some body => join (leading? body) (trailing? body)
  | none => none

end Marker

end Marginalia
