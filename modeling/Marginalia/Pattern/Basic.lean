import Marginalia.Text.Alphanumeric
import Marginalia.Text.Blank
import Marginalia.Text.Folding

/-!
# Patterns

Regular expressions and the search for them in a text. A set of places of the text is a number whose
bits stand for the places. For a text an expression becomes a `Route`, and `Route.starts` gives the
places from which a match leads to one of some others; a pattern is found when there is a place from
which a match leads anywhere. A text has finitely many places and a match never goes back, so that
further repetitions than there are places bring nothing new.

What an expression matches depends on some flags, which may change inside it. A `Pattern` is what
comes of reading a source with some flags.
-/

namespace Marginalia.Pattern

/-! ## Flags -/

/-- What is asked of a pattern beside what it says. -/
structure Flags where
  /-- Letters match in either case. -/
  fold : Bool := false
  /-- Every line of a text has a beginning and an end. -/
  multiline : Bool := false
  /-- A line feed is a character like any other. -/
  dotAll : Bool := false
  /-- Blanks in the source mean nothing, and neither does what follows a hash sign. -/
  verbose : Bool := false
  /-- Only the characters of ASCII are digits, blanks and letters. -/
  ascii : Bool := false
  deriving DecidableEq, Repr

/-- What either of the flags ask. -/
def Flags.or (f g : Flags) : Flags where
  fold := f.fold || g.fold
  multiline := f.multiline || g.multiline
  dotAll := f.dotAll || g.dotAll
  verbose := f.verbose || g.verbose
  ascii := f.ascii || g.ascii

/-- How the flags change in a part of a pattern. -/
structure Change where
  add : Flags := {}
  drop : Flags := {}
  deriving DecidableEq, Repr

/-- The flags after a change. -/
def Change.apply (c : Change) (f : Flags) : Flags where
  fold := (f.fold || c.add.fold) && !c.drop.fold
  multiline := (f.multiline || c.add.multiline) && !c.drop.multiline
  dotAll := (f.dotAll || c.add.dotAll) && !c.drop.dotAll
  verbose := (f.verbose || c.add.verbose) && !c.drop.verbose
  ascii := (f.ascii || c.add.ascii) && !c.drop.ascii

/-! ## Characters -/

/-- A named class of characters. -/
inductive CharClass
  | digit
  | blank
  | word
  deriving DecidableEq, Repr

/-- The class holds the character; with `ascii`, it holds characters of ASCII only. -/
def CharClass.holds (ascii : Bool) : CharClass → Char → Bool
  | .digit, c => if ascii then c.isDigit else Text.isDecimal c
  | .blank, c => if ascii then c == ' ' || ('\t' ≤ c && c ≤ '\r') else Text.isBlank c
  | .word, c => if ascii then c.isAlphanum || c == '_' else Text.isWord c

/-- A member of a character set. -/
inductive Item
  | one (c : Char)
  /-- A character beyond the basic plane that is not the only member; where letters are folded, it
  stands for those whose small form it is. -/
  | small (c : Char)
  /-- The characters between two code points; these need not be characters themselves. -/
  | range (first last : Nat)
  /-- A named class, or all that it leaves out. -/
  | named (kind : CharClass) (negated : Bool)
  deriving DecidableEq, Repr

/-- The code points of the characters that a character stands for. -/
def formsOf (f : Flags) (c : Char) : List Nat :=
  if !f.fold then [c.toNat]
  else if f.ascii then [c.toLower.toNat, c.toUpper.toNat]
  else Text.letterForms c

/-- The character is among those of the item. The letters of a range that goes beyond the basic
plane are folded in all scripts, if they are at all. -/
def Item.holds (f : Flags) : Item → Char → Bool
  | .one d, c =>
    if !f.fold then d == c
    else if f.ascii then d.toLower == c.toLower
    else Text.sameLetter d c
  | .small d, c => if f.fold && !f.ascii then d.toNat == Text.smallForm c.toNat else d == c
  | .range first last, c =>
    let capitals := if f.fold && 0x10000 ≤ last then Text.capitalsOf c.toNat else []
    (formsOf f c ++ capitals).any fun n => first ≤ n && n ≤ last
  | .named kind negated, c => kind.holds f.ascii c != negated

/-! ## Expressions -/

/-- A condition on a place in a text. -/
inductive Anchor
  /-- The beginning of the text. -/
  | textStart
  /-- The end of the text. -/
  | textEnd
  /-- The beginning of the text, or of any of its lines if they have one. -/
  | lineStart
  /-- The end of the text, or before a line feed: one that ends the text, or any if the lines have
  an end. -/
  | lineEnd
  /-- Between a character of a word and one that is none. -/
  | wordBoundary
  /-- Not at a word boundary, in a text that is not empty. -/
  | insideWord
  deriving DecidableEq, Repr

/-- A regular expression. -/
inductive Expr
  | empty
  /-- Any character, but a line feed only if this is one like any other. -/
  | any
  | oneOf (negated : Bool) (items : List Item)
  | anchor (a : Anchor)
  | seq (first second : Expr)
  | either (first second : Expr)
  /-- At least and at most so many times; without a bound when `most` is missing. -/
  | times (least : Nat) (most : Option Nat) (e : Expr)
  /-- The expression matches here, or does not; nothing is consumed. -/
  | ahead (negated : Bool) (e : Expr)
  /-- The expression, which passes so many characters, matches up to here, or does not. -/
  | behind (negated : Bool) (width : Nat) (e : Expr)
  /-- The expression, with other flags. -/
  | under (change : Change) (e : Expr)
  deriving DecidableEq, Repr

/-- The place lies between a character of a word and one that is none. -/
def isBoundary (ascii : Bool) (text : Array Char) (i : Nat) : Bool :=
  let isWord := CharClass.word.holds ascii
  let before := if i = 0 then false else (text[i - 1]?).any isWord
  before != (text[i]?).any isWord

/-- The condition holds at the place. -/
def Anchor.holds (f : Flags) (text : Array Char) (i : Nat) : Anchor → Bool
  | .textStart => i == 0
  | .textEnd => i == text.size
  | .lineStart => i == 0 || (f.multiline && text[i - 1]? == some '\n')
  | .lineEnd => i == text.size || ((f.multiline || i + 1 == text.size) && text[i]? == some '\n')
  | .wordBoundary => isBoundary f.ascii text i
  | .insideWord => !text.isEmpty && !isBoundary f.ascii text i

/-! ## Sets of places -/

/-- A set of places of a text. -/
abbrev Places := Nat

/-- All places of a text of the given length; there is one behind the last character. -/
def allPlaces (size : Nat) : Places :=
  (1 <<< (size + 1)) - 1

/-- Which of `n` numbers from the given one on have a property, as a set of places from zero on. -/
def placesWhere (holds : Nat → Bool) : Nat → Nat → Places
  | _, 0 => 0
  | first, n + 1 => 2 * placesWhere holds (first + 1) n + (if holds first then 1 else 0)

/-! ## Matching -/

/-- What an expression does in one text. -/
inductive Route
  /-- Stays where it is, at one of some places. -/
  | stay (here : Places)
  /-- Passes the character behind one of some places. -/
  | pass (here : Places)
  | seq (first second : Route)
  | either (first second : Route)
  | times (least : Nat) (most : Option Nat) (r : Route)
  | ahead (negated : Bool) (r : Route)
  | behind (negated : Bool) (width : Nat) (r : Route)
  deriving Repr

/-- What the expression does in the text. -/
def Expr.route (text : Array Char) (f : Flags) : Expr → Route
  | .empty => .stay (allPlaces text.size)
  | .any => .pass (characters fun c => f.dotAll || c != '\n')
  | .oneOf negated items => .pass (characters fun c => items.any (·.holds f c) != negated)
  | .anchor a => .stay (placesWhere (fun i => a.holds f text i) 0 (text.size + 1))
  | .seq first second => .seq (first.route text f) (second.route text f)
  | .either first second => .either (first.route text f) (second.route text f)
  | .times least most e => .times least most (e.route text f)
  | .ahead negated e => .ahead negated (e.route text f)
  | .behind negated width e => .behind negated width (e.route text f)
  | .under change e => e.route text (change.apply f)
where
  /-- The places before a character of some kind. -/
  characters (kind : Char → Bool) : Places :=
    placesWhere (fun i => (text[i]?).any kind) 0 text.size

/-- Goes back `n` steps, or as many as there is anything to go back to. -/
def stepBack (step : Places → Places) : Nat → Places → Places
  | 0, places => places
  | n + 1, places => if places = 0 then 0 else stepBack step n (step places)

/-- The places from which the newest ones are reached in at most `n` steps, with those known
before. -/
def reachBack (step : Places → Places) : Nat → Places → Places → Places
  | 0, known, _ => known
  | n + 1, known, newest =>
    let all := known ||| step newest
    if all = known then known else reachBack step n all (all ^^^ known)

/-- The places of a text of the given length from which the route leads to one of some places. -/
def Route.starts (size : Nat) : Route → Places → Places
  | .stay here, ends => ends &&& here
  | .pass here, ends => (ends >>> 1) &&& here
  | .seq first second, ends => first.starts size (second.starts size ends)
  | .either first second, ends => first.starts size ends ||| second.starts size ends
  | .times least most r, ends =>
    let more := match most with
      | some m => min (m - least) (size + 1)
      | none => size + 1
    let reached := reachBack (r.starts size) more ends ends
    stepBack (r.starts size) (min least (size + 1)) reached
  | .ahead negated r, ends =>
    keep negated ends (r.starts size (allPlaces size))
  | .behind negated width r, ends =>
    -- No match is wider than the text, so that a greater width is as good as any other.
    let found := r.starts size (allPlaces size) <<< min width (size + 1)
    keep negated ends (found &&& allPlaces size)
where
  /-- Those of some places that are among others, or those that are not. -/
  keep (negated : Bool) (ends found : Places) : Places :=
    if negated then ends &&& (found ^^^ allPlaces size) else ends &&& found

/-- A match of the expression begins somewhere in the text. -/
def Expr.isFoundIn (f : Flags) (e : Expr) (s : String) : Bool :=
  let text := s.toList.toArray
  (e.route text f).starts text.size (allPlaces text.size) != 0

end Pattern

/-- A pattern: its source, the flags that it has in the end, and in which texts it is found. -/
structure Pattern where
  source : String
  flags : Pattern.Flags
  isFoundIn : String → Bool

instance : Repr Pattern :=
  ⟨fun p => reprPrec (p.source, p.flags)⟩

end Marginalia
