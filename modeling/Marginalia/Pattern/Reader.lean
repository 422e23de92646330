import Marginalia.Pattern.Pieces
import Marginalia.Text.Digits
import Marginalia.Text.Quoted

/-!
# Reading patterns

`Pattern.compile` reads the source of a pattern or says what is wrong with it and where. The source
is cut into tokens, a character or a backslash with the character after it. A backslash that nothing
follows is noticed as soon as the token before it is taken.

A source may begin by asking for flags, and these hold from its beginning. So `headFlags` looks
first which flags the pattern has in the end, and with them the source is read from left to right
with a stack of open groups: what a pattern says depends on its source and on the flags that it has
in the end. References to what a group has matched are not read, and neither is what keeps a match
from trying something else.

`Dialect` is what the rest of the library knows of patterns: how a source is read.
-/

namespace Marginalia.Pattern

/-! ## Errors -/

/-- What is wrong with the source of a pattern. -/
inductive Fault
  | unterminatedGroup
  | unterminatedSet
  | nothingToRepeat
  | repeatedTwice
  | unopenedGroup
  | danglingEscape
  | badEscape (c : Char)
  | unexpectedEnd
  | missingName
  | unterminatedName
  | badName (name : String)
  | crossedBounds
  | badRange (text : String)
  | unknownExtension (text : String)
  | unterminatedComment
  | incompleteEscape (text : String)
  | largeOctal (text : String)
  | missingGroup (number : Nat)
  | repeatedName (name : String) (number former : Nat)
  | variableWidth
  /-- Something is wrong with a group of flags. -/
  | badFlags (text : String)
  | lateFlags
  /-- Letters are to be those of ASCII, and those of all scripts. -/
  | clashingFlags
  /-- The source asks for something that is beyond the reader. -/
  | unsupported (text : String)
  /-- So many repetitions are never asked for. -/
  | hugeRepetition
  /-- The number of repetitions has so many digits that it is not read. -/
  | longRepetition (digits : Nat)
  /-- A group lies within too many others. -/
  | deepNesting
  deriving DecidableEq, Repr

/-- What is wrong, in words. -/
def Fault.message : Fault → String
  | .unterminatedGroup => "missing ), unterminated subpattern"
  | .unterminatedSet => "unterminated character set"
  | .nothingToRepeat => "nothing to repeat"
  | .repeatedTwice => "multiple repeat"
  | .unopenedGroup => "unbalanced parenthesis"
  | .danglingEscape => "bad escape (end of pattern)"
  | .badEscape c => "bad escape \\" ++ String.singleton c
  | .unexpectedEnd => "unexpected end of pattern"
  | .missingName => "missing group name"
  | .unterminatedName => "missing >, unterminated name"
  | .badName name => "bad character in group name " ++ Text.quoted name
  | .crossedBounds => "min repeat greater than max repeat"
  | .badRange text => "bad character range " ++ text
  | .unknownExtension text => "unknown extension " ++ text
  | .unterminatedComment => "missing ), unterminated comment"
  | .incompleteEscape text => "incomplete escape " ++ text
  | .largeOctal text => "octal escape value " ++ text ++ " outside of range 0-0o377"
  | .missingGroup number => "invalid group reference " ++ toString number
  | .repeatedName name number former =>
    "redefinition of group name " ++ Text.quoted name ++ " as group " ++ toString number
      ++ "; was group " ++ toString former
  | .variableWidth => "look-behind requires fixed-width pattern"
  | .badFlags text => text
  | .lateFlags => "global flags not at the start of the expression"
  | .clashingFlags => "ASCII and UNICODE flags are incompatible"
  | .unsupported text => "cannot read " ++ text
  | .hugeRepetition => "the repetition number is too large"
  | .longRepetition digits =>
    "Exceeds the limit (" ++ toString Text.mostDigits ++ " digits) for integer string conversion: "
      ++ "value has " ++ toString digits
      ++ " digits; use sys.set_int_max_str_digits() to increase the limit"
  | .deepNesting => "maximum recursion depth exceeded"

/-- The fault is that something exceeds its bounds, for which no place is shown. -/
def Fault.isExcess : Fault → Bool
  | .hugeRepetition | .longRepetition _ | .deepNesting => true
  | _ => false

/-- A fault at a place of a source. -/
structure Error where
  fault : Fault
  source : String
  position : Nat
  deriving DecidableEq, Repr

/-- The fault and its place; in a source of several lines, also by line and column. -/
def Error.message (e : Error) : String :=
  let base := e.fault.message ++ " at position " ++ toString e.position
  let cs := e.source.toList
  if e.fault.isExcess then e.fault.message
  else if cs.contains '\n' then
    let before := cs.take e.position
    let line := before.count '\n' + 1
    let column := (before.reverse.takeWhile (· != '\n')).length + 1
    base ++ " (line " ++ toString line ++ ", column " ++ toString column ++ ")"
  else base

/-! ## Tokens -/

/-- A unit of the source. -/
inductive Symbol
  | plain (c : Char)
  | escaped (c : Char)
  /-- A backslash at the end. -/
  | dangling
  deriving DecidableEq, Repr

/-- A unit of the source and its place. -/
structure Token where
  symbol : Symbol
  position : Nat
  deriving DecidableEq, Repr

/-- The source text of a unit. -/
def Symbol.text : Symbol → String
  | .plain c => String.singleton c
  | .escaped c => "\\" ++ String.singleton c
  | .dangling => "\\"

/-- Cuts a source into tokens; the first has the given place. -/
def tokens : Nat → List Char → List Token
  | _, [] => []
  | n, ['\\'] => [⟨.dangling, n⟩]
  | n, '\\' :: c :: rest => ⟨.escaped c, n⟩ :: tokens (n + 2) rest
  | n, c :: rest => ⟨.plain c, n⟩ :: tokens (n + 1) rest

/-- A failed reading: the fault and its place. -/
abbrev Failed := Fault × Nat

/-- Refuses a backslash at the end as soon as it comes next. -/
def settle (ts : List Token) : Except Failed (List Token) :=
  match ts with
  | ⟨.dangling, n⟩ :: _ => .error (.danglingEscape, n)
  | ts => .ok ts

/-- Takes the next token. -/
def next? : List Token → Except Failed (Option (Token × List Token))
  | [] => .ok none
  | t :: rest => do
    let rest ← settle rest
    return some (t, rest)

/-- Takes the next token if it is the given character. -/
def take? (c : Char) : List Token → Except Failed (Option (List Token))
  | ⟨.plain d, _⟩ :: rest => if d = c then do return some (← settle rest) else .ok none
  | _ => .ok none

/-- The place of the next token; `size` is the place after the last. -/
def placeOf (size : Nat) : List Token → Nat
  | [] => size
  | t :: _ => t.position

/-- The characters of a kind at the front, at most so many. -/
def readWhile (kind : Char → Bool) : Nat → List Token → Except Failed (List Char × List Token)
  | 0, ts => .ok ([], ts)
  | n + 1, ts =>
    match ts with
    | ⟨.plain c, _⟩ :: rest =>
      if kind c then do
        let (more, rest) ← readWhile kind n (← settle rest)
        return (c :: more, rest)
      else .ok ([], ts)
    | _ => .ok ([], ts)

/-- What follows the first of the given characters; `none` when there is none. -/
def skipBeyond (c : Char) : List Token → Except Failed (Option (List Token))
  | [] => .ok none
  | t :: rest => do
    discard (settle rest)
    if t.symbol = .plain c then return some rest else skipBeyond c rest

/-! ## Escapes -/

/-- The class that an escaped letter names. -/
def classEscape? (c : Char) : Option Item :=
  match c with
  | 'd' => some (.named .digit false)
  | 'D' => some (.named .digit true)
  | 's' => some (.named .blank false)
  | 'S' => some (.named .blank true)
  | 'w' => some (.named .word false)
  | 'W' => some (.named .word true)
  | _ => none

/-- The condition that an escaped letter names. -/
def anchorEscape? (c : Char) : Option Anchor :=
  match c with
  | 'A' => some .textStart
  | 'Z' => some .textEnd
  | 'b' => some .wordBoundary
  | 'B' => some .insideWord
  | _ => none

/-- The control character that an escaped letter names. -/
def controlEscape? (c : Char) : Option Char :=
  match c with
  | 'a' => some '\x07'
  | 'f' => some '\x0c'
  | 'n' => some '\n'
  | 'r' => some '\r'
  | 't' => some '\t'
  | 'v' => some '\x0b'
  | _ => none

/-- How many hexadecimal digits follow an escaped letter. -/
def hexDigits? (c : Char) : Option Nat :=
  match c with
  | 'x' => some 2
  | 'u' => some 4
  | 'U' => some 8
  | _ => none

def isOctal (c : Char) : Bool :=
  '0' ≤ c && c ≤ '7'

def isHex (c : Char) : Bool :=
  c.isDigit || ('a' ≤ c && c ≤ 'f') || ('A' ≤ c && c ≤ 'F')

/-- The number that some digits say. -/
def valueIn (base : Nat) (ds : List Char) : Nat :=
  ds.foldl (fun n c => base * n + (if c.isDigit then c.toNat - 48 else c.toLower.toNat - 87)) 0

/-- What a code point stands for; where it is no character, for nothing. -/
def ofCode (n : Nat) : Item :=
  if n.isValidChar then .one (Char.ofNat n) else .range n n

/-- The code point that an item is. -/
def Item.code? : Item → Option Nat
  | .one c => some c.toNat
  | .range first last => if first = last then some first else none
  | _ => none

/-- An octal escape. -/
def octalEscape (position : Nat) (ds : List Char) (ts : List Token) :
    Except Failed (Item × List Token) :=
  if 0o377 < valueIn 8 ds then .error (.largeOctal ("\\" ++ String.ofList ds), position)
  else .ok (ofCode (valueIn 8 ds), ts)

/-- An escaped character that stands for a character, by the digits that follow it or by itself. -/
def literalEscape (c : Char) (position : Nat) (ts : List Token) :
    Except Failed (Item × List Token) :=
  match controlEscape? c, hexDigits? c with
  | some d, _ => .ok (.one d, ts)
  | none, some n => do
    let (ds, ts) ← readWhile isHex n ts
    let text := "\\" ++ String.ofList (c :: ds)
    if ds.length < n then .error (.incompleteEscape text, position)
    else if 0x10ffff < valueIn 16 ds then .error (.badEscape c, position)
    else return (ofCode (valueIn 16 ds), ts)
  | none, none =>
    if c = 'N' then .error (.unsupported "\\N", position)
    else if c.isAlphanum then .error (.badEscape c, position)
    else .ok (.one c, ts)

/-- An escaped digit outside sets: an octal escape, or else a reference to one of the groups so
far. -/
def digitEscape (groups : Nat) (c : Char) (position : Nat) (ts : List Token) :
    Except Failed (Item × List Token) := do
  if c = '0' then
    let (ds, ts) ← readWhile isOctal 2 ts
    octalEscape position (c :: ds) ts
  else
    let (more, ts) ← readWhile Char.isDigit 1 ts
    let (last, ts) ←
      if (c :: more).all isOctal && !more.isEmpty then readWhile isOctal 1 ts else pure ([], ts)
    if !last.isEmpty then octalEscape position (c :: more ++ last) ts
    else
      let number := valueIn 10 (c :: more)
      if groups < number then .error (.missingGroup number, position)
      else .error (.unsupported ("\\" ++ String.ofList (c :: more)), position)

/-! ## Sets -/

/-- A member of a set, from its first token. -/
def setItem (t : Token) (ts : List Token) : Except Failed (Item × List Token) :=
  match t.symbol with
  | .plain c => .ok (.one c, ts)
  | .escaped 'b' => .ok (.one '\x08', ts)
  | .escaped c =>
    match classEscape? c with
    | some item => .ok (item, ts)
    | none =>
      if isOctal c then do
        let (ds, ts) ← readWhile isOctal 2 ts
        octalEscape t.position (c :: ds) ts
      else literalEscape c t.position ts
  | .dangling => .error (.danglingEscape, t.position)

/-- Reads the rest of a set that began at `opened`. A closing bracket that comes first is a member;
a hyphen between two members makes a range and stands for itself before the closing bracket. The
first argument bounds the number of members. -/
def readSet (opened : Nat) : Nat → List Item → List Token → Except Failed (List Item × List Token)
  | 0, _, _ => .error (.unterminatedSet, opened)
  | fuel + 1, items, ts => do
    let some (t, ts) ← next? ts | .error (.unterminatedSet, opened)
    if t.symbol = .plain ']' && !items.isEmpty then return (items.reverse, ts)
    let (item, ts) ← setItem t ts
    let some ts' ← take? '-' ts | readSet opened fuel (item :: items) ts
    let some (u, ts'') ← next? ts' | .error (.unterminatedSet, opened)
    if u.symbol = .plain ']' then return ((.one '-' :: item :: items).reverse, ts'')
    let (upper, ts'') ← setItem u ts''
    let text := t.symbol.text ++ "-" ++ u.symbol.text
    match item.code?, upper.code? with
    | some first, some last =>
      if last < first then .error (.badRange text, t.position)
      else readSet opened fuel (.range first last :: items) ts''
    | _, _ => .error (.badRange text, t.position)

/-! ## Repetition -/

/-- From here on a number of repetitions is too large. -/
def repetitionBound : Nat := 0xffffffff

/-- The number of repetitions that some digits say. -/
def repetitions (position : Nat) (ds : List Char) : Except Failed Nat :=
  if Text.mostDigits < ds.length then .error (.longRepetition ds.length, position)
  else if repetitionBound ≤ Text.ofDigits ds then .error (.hugeRepetition, position)
  else .ok (Text.ofDigits ds)

/-- Reads the bounds after an opening brace; `none` when the brace only stands for itself. -/
def readBounds (ts : List Token) :
    Except Failed (Option (Nat × Option Nat × List Token)) := do
  let inside := placeOf 0 ts
  if (ts.head?.map (·.symbol)) = some (.plain '}') then return none
  let (low, ts) ← readWhile Char.isDigit ts.length ts
  let (high, ts) ← match ← take? ',' ts with
    | some ts => readWhile Char.isDigit ts.length ts
    | none => pure (low, ts)
  let some ts ← take? '}' ts | return none
  let least ← repetitions inside low
  if high.isEmpty then return some (least, none, ts)
  let most ← repetitions inside high
  if most < least then .error (.crossedBounds, inside)
  else return some (least, some most, ts)

/-! ## Flags -/

/-- What a group of flags asks for. -/
structure FlagGroup where
  change : Change := {}
  /-- Letters are those of all scripts. -/
  unicode : Bool := false
  /-- It is asked for what the group holds, and not for the whole source. -/
  isLocal : Bool := false

/-- The flag that a letter asks for. -/
def flag? (c : Char) : Option Flags :=
  match c with
  | 'i' => some { fold := true }
  | 'm' => some { multiline := true }
  | 's' => some { dotAll := true }
  | 'x' => some { verbose := true }
  | 'a' => some { ascii := true }
  | _ => none

/-- A letter that asks for no flag, or something else in its place. -/
def unknownFlag (t : Token) (expected : String) : Failed :=
  match t.symbol with
  | .plain c =>
    (.badFlags (if c.isAlpha then "unknown flag" else "missing " ++ expected), t.position)
  | _ => (.badFlags ("missing " ++ expected), t.position)

/-- Reads the flags to be dropped, from the first of them on. -/
def readDropped (size : Nat) (g : FlagGroup) : Nat → Token → List Token →
    Except Failed (FlagGroup × List Token)
  | 0, t, _ => .error (unknownFlag t ":")
  | fuel + 1, t, ts => do
    let .plain c := t.symbol | .error (unknownFlag t "flag")
    let some flag := flag? c |
      if c = 'u' || c = 'L' then
        .error (.badFlags "bad inline flags: cannot turn off flags 'a', 'u' and 'L'", t.position)
      else .error (unknownFlag t "flag")
    if flag.ascii then
      .error (.badFlags "bad inline flags: cannot turn off flags 'a', 'u' and 'L'", t.position)
    let g := { g with change.drop := g.change.drop.or flag }
    let some (u, ts) ← next? ts | .error (.badFlags "missing :", size)
    if u.symbol = .plain ':' then return ({ g with isLocal := true }, ts)
    readDropped size g fuel u ts

/-- Reads a group of flags, from the first of them on. -/
def readAdded (size : Nat) (g : FlagGroup) : Nat → Token → List Token →
    Except Failed (FlagGroup × List Token)
  | 0, t, _ => .error (unknownFlag t "-, : or )")
  | fuel + 1, t, ts => do
    let clash := Fault.badFlags "bad inline flags: flags 'a', 'u' and 'L' are incompatible"
    let g ← match t.symbol with
      | .plain 'u' =>
        if g.change.add.ascii then .error (clash, t.position) else pure { g with unicode := true }
      | .plain 'L' =>
        .error (.badFlags "bad inline flags: cannot use 'L' flag with a str pattern", t.position)
      | .plain c =>
        match flag? c with
        | none => .error (unknownFlag t "-, : or )")
        | some flag =>
          if flag.ascii && g.unicode then .error (clash, t.position)
          else pure { g with change.add := g.change.add.or flag }
      | _ => .error (unknownFlag t "-, : or )")
    let some (u, ts) ← next? ts | .error (.badFlags "missing -, : or )", size)
    if u.symbol = .plain ')' then return (g, ts)
    if u.symbol = .plain ':' then return ({ g with isLocal := true }, ts)
    if u.symbol ≠ .plain '-' then readAdded size g fuel u ts
    else
      let some (v, ts) ← next? ts | .error (.badFlags "missing flag", size)
      readDropped size g (ts.length + 1) v ts

/-- Some flags are asked for and dropped at once. -/
def Change.isContrary (c : Change) : Bool :=
  c.add.fold && c.drop.fold || c.add.multiline && c.drop.multiline
    || c.add.dotAll && c.drop.dotAll || c.add.verbose && c.drop.verbose

/-- Reads a group of flags, from its first token on. -/
def readFlags (size : Nat) (t : Token) (ts : List Token) :
    Except Failed (FlagGroup × List Token) := do
  let (g, ts) ←
    if t.symbol = .plain '-' then do
      let some (u, ts) ← next? ts | .error (.badFlags "missing flag", size)
      readDropped size {} (ts.length + 1) u ts
    else readAdded size {} (ts.length + 1) t ts
  if g.change.isContrary then
    .error (.badFlags "bad inline flags: flag turned on and off", placeOf size ts)
  -- Letters of all scripts are what there is without the flag for those of ASCII.
  return ({ g with change.drop.ascii := g.unicode }, ts)

/-- A blank that a verbose source may hold anywhere. -/
def isGap (t : Token) : Bool :=
  match t.symbol with
  | .plain c => CharClass.blank.holds true c
  | _ => false

/-- What stands before everything else in a source, with what follows it: a group of flags, or a
remark or gap as a group that asks for none. -/
def headGroup? (verbose : Bool) : List Token → Option (FlagGroup × List Token)
  | ⟨.plain '(', _⟩ :: ⟨.plain '?', _⟩ :: t :: rest =>
    if t.symbol = .plain '#' then beyond ')' rest
    else match readFlags 0 t rest with
      | .ok (g, rest) => if g.isLocal then none else some (g, rest)
      | .error _ => none
  | t :: rest =>
    if verbose && isGap t then some ({}, rest)
    else if verbose && t.symbol = .plain '#' then beyond '\n' rest
    else none
  | [] => none
where
  /-- Nothing is asked for up to a character. -/
  beyond (c : Char) (ts : List Token) : Option (FlagGroup × List Token) :=
    match skipBeyond c ts with
    | .ok (some rest) => some ({}, rest)
    | _ => none

/-- The flags that a source has in the end, when it is given some: those that it asks for at its
beginning come to them. Further whether it asks for letters of all scripts there. The first argument
bounds the number of groups and gaps. -/
def headFlags : Nat → Flags → Bool → List Token → Flags × Bool
  | 0, f, unicode, _ => (f, unicode)
  | fuel + 1, f, unicode, ts =>
    match headGroup? f.verbose ts with
    | some (g, rest) => headFlags fuel (f.or g.change.add) (unicode || g.unicode) rest
    | none => (f, unicode)

/-! ## Widths -/

/-- At least and at most how many characters the expression passes; without a bound when the second
number is missing. -/
def Expr.widths : Expr → Nat × Option Nat
  | .empty | .anchor _ | .ahead .. | .behind .. => (0, some 0)
  | .any | .oneOf .. => (1, some 1)
  | .seq first second =>
    (first.widths.1 + second.widths.1, return (← first.widths.2) + (← second.widths.2))
  | .either first second =>
    (min first.widths.1 second.widths.1, return max (← first.widths.2) (← second.widths.2))
  | .times least most e =>
    (least * e.widths.1, if e.widths.2 = some 0 then some 0 else return (← e.widths.2) * (← most))
  | .under _ e => e.widths

/-- How many characters the expression passes, if that is always the same. -/
def Expr.width? (e : Expr) : Option Nat :=
  if e.widths.2 = some e.widths.1 then some e.widths.1 else none

/-! ## Groups -/

/-- What a part of a sequence is, as far as repeating it is concerned. -/
inductive PartKind
  | ordinary
  | condition
  | repetition
  deriving DecidableEq, Repr

/-- What becomes of the pieces in a group. -/
inductive GroupKind
  /-- They only stand together. -/
  | together
  /-- They are one piece. -/
  | whole
  | ahead (negated : Bool)
  | behind (negated : Bool)
  | under (change : Change)
  deriving DecidableEq, Repr

/-- A group that is being read: its alternatives so far and the parts of the current one, both with
the last one first. A part is what a quantifier behind it repeats. -/
structure OpenGroup where
  kind : GroupKind := .together
  opened : Nat := 0
  /-- Blanks in it mean nothing. -/
  verbose : Bool := false
  alternatives : List (List Piece) := []
  parts : List (PartKind × List Piece) := []

namespace OpenGroup

/-- Adds a part to the current alternative. -/
def push (g : OpenGroup) (kind : PartKind) (part : List Piece) : OpenGroup :=
  { g with parts := (kind, part) :: g.parts }

/-- The pieces of the current alternative. -/
def sequence (g : OpenGroup) : List Piece :=
  g.parts.foldl (fun pieces part => part.2 ++ pieces) []

/-- Ends the current alternative. -/
def nextAlternative (g : OpenGroup) : OpenGroup :=
  { g with alternatives := g.sequence :: g.alternatives, parts := [] }

/-- The pieces that stand in the group. -/
def content (g : OpenGroup) : List Piece :=
  match g.alternatives.reverse with
  | [] => g.sequence
  | first :: others => Pattern.alternatives first (others ++ [g.sequence])

/-- The pieces that the group comes to. What is looked for behind has to have one width. -/
def pieces (g : OpenGroup) : Except Failed (List Piece) :=
  let e := Piece.sequence g.content
  match g.kind with
  | .together => .ok g.content
  | .whole => .ok [.compound e]
  | .ahead negated => .ok [.compound (.ahead negated e)]
  | .behind negated =>
    match e.width? with
    | some width => .ok [.compound (.behind negated width e)]
    | none => .error (.variableWidth, g.opened)
  | .under change => .ok [.compound (.under change e)]

/-- Repeats the last part, as the quantifier at `position` says. -/
def repeatLast (g : OpenGroup) (position least : Nat) (most : Option Nat) :
    Except Failed OpenGroup :=
  match g.parts with
  | [] => .error (.nothingToRepeat, position)
  | (.condition, _) :: _ => .error (.nothingToRepeat, position)
  | (.repetition, _) :: _ => .error (.repeatedTwice, position)
  | (.ordinary, part) :: before =>
    let repeated := Expr.times least most (Piece.sequence part)
    .ok { g with parts := (.repetition, [.compound repeated]) :: before }

end OpenGroup

/-! ## The whole source -/

/-- The state of the reading: the innermost group and those around it, how many groups can be
referred to, and the names of some of them with their numbers. -/
structure Progress where
  current : OpenGroup := {}
  outer : List OpenGroup := []
  groups : Nat := 0
  names : List (String × Nat) := []

/-- Nothing has been read yet. -/
def Progress.isAtStart (p : Progress) : Bool :=
  p.outer.isEmpty && p.current.alternatives.isEmpty && p.current.parts.isEmpty

/-- The name of a group, up to the closing angle bracket. -/
def readName (size : Nat) : Nat → List Char → List Token → Except Failed (String × List Token)
  | 0, _, _ => .error (.missingName, size)
  | fuel + 1, name, ts => do
    match ts with
    | [] =>
      if name.isEmpty then .error (.missingName, size)
      else .error (.unterminatedName, size - name.length)
    | t :: _ =>
      let some (_, rest) ← next? ts | .error (.missingName, size)
      if t.symbol = .plain '>' then
        if name.isEmpty then .error (.missingName, t.position)
        else return (String.ofList name, rest)
      else readName size fuel (name ++ t.symbol.text.toList) rest

/-- A name is a word that does not begin with a digit. -/
def isName (name : String) : Bool :=
  name.toList.all Text.isWord && !(name.toList.head?.any Text.isDecimal)

/-- No group lies within so many others. -/
def groupBound : Nat := 490

/-- Begins a group at `opened` and goes on with some tokens. -/
def enter (opened : Nat) (p : Progress) (kind : GroupKind) (ts : List Token) :
    Except Failed (Progress × List Token) :=
  if groupBound ≤ p.outer.length then .error (.deepNesting, opened)
  else
    let verbose := match kind with
      | .under change => (p.current.verbose || change.add.verbose) && !change.drop.verbose
      | _ => p.current.verbose
    .ok ({ p with current := { kind, opened, verbose }, outer := p.current :: p.outer }, ts)

/-- Begins a group that can be referred to. -/
def enterNumbered (opened : Nat) (p : Progress) (ts : List Token) :
    Except Failed (Progress × List Token) :=
  enter opened { p with groups := p.groups + 1 } .whole ts

/-- Reads what stands after the opening parenthesis at `opened`. -/
def readOpening (size opened : Nat) (p : Progress) (ts : List Token) :
    Except Failed (Progress × List Token) := do
  let some ts ← take? '?' ts | enterNumbered opened p ts
  let some (t, ts) ← next? ts | .error (.unexpectedEnd, size)
  match t.symbol with
  | .plain ':' => enter opened p .together ts
  | .plain '=' => enter opened p (.ahead false) ts
  | .plain '!' => enter opened p (.ahead true) ts
  | .plain '#' =>
    let some ts ← skipBeyond ')' ts | .error (.unterminatedComment, opened)
    return (p, ts)
  | .plain '(' => .error (.unsupported "(?(", opened)
  | .plain '>' => .error (.unsupported "(?>", opened)
  | .plain 'P' =>
    match ← take? '<' ts with
    | some rest =>
      let (name, after) ← readName size (rest.length + 1) [] rest
      if !isName name then .error (.badName name, placeOf size rest)
      else match p.names.lookup name with
        | some former => .error (.repeatedName name (p.groups + 1) former, placeOf size rest)
        | none => enterNumbered opened { p with names := (name, p.groups + 1) :: p.names } after
    | none =>
      let some (u, _) ← next? ts | .error (.unexpectedEnd, size)
      if u.symbol = .plain '=' then .error (.unsupported "(?P=", opened)
      else .error (.unknownExtension ("?P" ++ u.symbol.text), opened + 1)
  | .plain '<' =>
    let some (u, ts) ← next? ts | .error (.unexpectedEnd, size)
    if u.symbol = .plain '=' then enter opened p (.behind false) ts
    else if u.symbol = .plain '!' then enter opened p (.behind true) ts
    else .error (.unknownExtension ("?<" ++ u.symbol.text), opened + 1)
  | .plain c =>
    if c = '-' || c = 'u' || c = 'L' || (flag? c).isSome then
      let (g, rest) ← readFlags size t ts
      if g.isLocal then enter opened p (.under g.change) rest
      -- These flags have been seen to before.
      else if p.isAtStart then return (p, rest)
      else .error (.lateFlags, opened)
    else .error (.unknownExtension ("?" ++ t.symbol.text), opened + 1)
  | s => .error (.unknownExtension ("?" ++ s.text), opened + 1)

/-- The bounds of a one-character quantifier. -/
def quantifier? (c : Char) : Option (Nat × Option Nat) :=
  match c with
  | '*' => some (0, none)
  | '+' => some (1, none)
  | '?' => some (0, some 1)
  | _ => none

/-- Repeats the last part. The mark of a reluctant quantifier is dropped: it has no bearing on
whether a pattern is found. -/
def quantify (p : Progress) (position least : Nat) (most : Option Nat) (ts : List Token) :
    Except Failed (Progress × List Token) := do
  let current ← p.current.repeatLast position least most
  if let some _ ← take? '+' ts then .error (.unsupported "possessive quantifier", position)
  return ({ p with current }, (← take? '?' ts).getD ts)

/-- Reads one part that begins with the token `t`; `ts` are the tokens after it. -/
def readPart (size : Nat) (p : Progress) (t : Token) (ts : List Token) :
    Except Failed (Progress × List Token) := do
  let add (kind : PartKind) (e : Expr) : Progress :=
    { p with current := p.current.push kind [.simple e] }
  match t.symbol with
  | .escaped c =>
    match anchorEscape? c, classEscape? c with
    | some a, _ => return (add .condition (.anchor a), ts)
    | _, some item => return (add .ordinary (.oneOf false [item]), ts)
    | none, none =>
      let (item, ts) ←
        if c.isDigit then digitEscape p.groups c t.position ts else literalEscape c t.position ts
      return (add .ordinary (.oneOf false [item]), ts)
  | .dangling => .error (.danglingEscape, t.position)
  | .plain '.' => return (add .ordinary .any, ts)
  | .plain '^' => return (add .condition (.anchor .lineStart), ts)
  | .plain '$' => return (add .condition (.anchor .lineEnd), ts)
  | .plain '|' => return ({ p with current := p.current.nextAlternative }, ts)
  | .plain '(' => readOpening size t.position p ts
  | .plain ')' =>
    match p.outer with
    | [] => .error (.unopenedGroup, t.position)
    | g :: outer =>
      return ({ p with current := g.push .ordinary (← p.current.pieces), outer }, ts)
  | .plain '[' =>
    let (negated, ts) := match ← take? '^' ts with
      | some rest => (true, rest)
      | none => (false, ts)
    let (items, ts) ← readSet t.position (ts.length + 1) [] ts
    return (add .ordinary (.oneOf negated (setOf items)), ts)
  | .plain '{' =>
    match ← readBounds ts with
    | none => return (add .ordinary (.oneOf false [.one '{']), ts)
    | some (least, most, ts) => quantify p t.position least most ts
  | .plain c =>
    match quantifier? c with
    | some (least, most) => quantify p t.position least most ts
    | none => return (add .ordinary (.oneOf false [.one c]), ts)

/-- Reads the tokens to their end. The first argument bounds the number of parts. -/
def readAll (size : Nat) : Nat → Progress → List Token → Except Failed Progress
  | 0, p, _ => .ok p
  | fuel + 1, p, ts =>
    match ts with
    | [] => .ok p
    | t :: rest => do
      if t.symbol = .plain ')' && p.outer.isEmpty then .error (.unopenedGroup, t.position)
      let rest ← settle rest
      if p.current.verbose && isGap t then readAll size fuel p rest
      else if p.current.verbose && t.symbol = .plain '#' then
        readAll size fuel p ((← skipBeyond '\n' rest).getD [])
      else
        let (p, rest) ← readPart size p t rest
        readAll size fuel p rest

/-- Reads a source that has some flags in the end. -/
def readSource (source : String) (f : Flags) : Except Failed Expr := do
  let size := source.toList.length
  let ts ← settle (tokens 0 source.toList)
  let p ← readAll size (ts.length + 1) { current := { verbose := f.verbose } } ts
  match p.outer with
  | [] => return Piece.sequence p.current.content
  | _ => .error (.unterminatedGroup, p.current.opened)

/-- Reads a pattern with some flags. -/
def compile (source : String) (given : Flags) : Except Error Pattern :=
  let ts := tokens 0 source.toList
  let (flags, unicode) := headFlags (ts.length + 1) given false ts
  match readSource source flags with
  | .error (fault, position) => .error ⟨fault, source, position⟩
  | .ok e =>
    if flags.ascii && unicode then .error ⟨.clashingFlags, source, 0⟩
    else .ok { source, flags, isFoundIn := e.isFoundIn flags }

/-- Reads a pattern; with `fold`, it matches letters in either case whatever the source says. -/
def read (source : String) (fold : Bool) : Except Error Pattern :=
  compile source { fold }

/-! ## Dialects -/

/-- A way of reading patterns. -/
class Dialect where
  compile : String → Flags → Except Error Pattern

/-- Patterns are read as it is done here. -/
instance standard : Dialect where
  compile := compile

end Marginalia.Pattern
