import Marginalia.Binary64.Printer
import Marginalia.Text.Alphanumeric
import Marginalia.Text.Digits
import Marginalia.Text.Folding
import Marginalia.Text.Quoted

/-!
# Templates

Texts with places for values. A place begins with a percent sign and says how the value is written:
`%(name)-8s` is the value called `name` as a text, filled up to eight characters on the right, and
`%03d` the next value in turn as a whole number with zeros in front. A star in place of a number
takes the number from the values. Two percent signs stand for one. A template whose places do not
fit the values gives nothing.
-/

namespace Marginalia.Template

/-! ## Values -/

/-- A value for a place. -/
inductive Value
  | text (s : String)
  | whole (n : Int)
  | real (r : Binary64)
  /-- A value with a text of its own, and the whole number that it counts as, if any. -/
  | named (shown : String) (number : Option Int)
  /-- A value with a text of its own, and another one that tells it from other values. -/
  | described (shown literal : String)
  /-- A value whose text goes on behind the part that is known. -/
  | partly (known : String)
  deriving DecidableEq, Repr

namespace Value

/-- The value as a text, as far as that is known. -/
def shown : Value → String
  | .text s => s
  | .whole n => toString n
  | .real r => r.shown
  | .named shown _ => shown
  | .described shown _ => shown
  | .partly known => known

/-- The value as a text that can be told from other values. -/
def literal : Value → String
  | .text s => Text.quoted s
  | .described _ literal => literal
  | v => v.shown

/-- The whole text of the value is known. -/
def isKnown : Value → Bool
  | .partly _ => false
  | _ => true

/-- The whole number that the value is. -/
def whole? : Value → Option Int
  | .whole n => some n
  | .named _ n => n
  | _ => none

/-- The whole number that the value counts as; a fraction is cut off. -/
def number? : Value → Option Int
  | .real r => r.truncated?
  | v => v.whole?

/-- The binary number that the value counts as; a whole number may be too large for one. -/
def real? : Value → Option Binary64
  | .real r => some r
  | v => (v.whole?.map Binary64.ofInt).filter Binary64.isFinite

/-- The character that the value is: a text of one character, or the number of a character. -/
def character? : Value → Option Char
  | .text s =>
    match s.toList with
    | [c] => some c
    | _ => none
  | v => (v.whole?.filter fun n => 0 ≤ n && n < 0x110000).map fun n => Char.ofNat n.toNat

end Value

/-! ## Forms -/

/-- How a value is written. -/
structure Form where
  left : Bool := false
  zeros : Bool := false
  sign : Bool := false
  space : Bool := false
  alternate : Bool := false
  width : Nat := 0
  precision : Option Nat := none
  conversion : Char
  deriving DecidableEq, Repr

namespace Form

/-- Fills a text up to the width of the form. -/
def fill (f : Form) (s : String) : String :=
  let missing := String.ofList (List.replicate (f.width - s.length) ' ')
  if f.left then s ++ missing else missing ++ s

/-- Fills a number up: with zeros between sign and digits, or with spaces. -/
def fillNumber (f : Form) (negative : Bool) (mark digits : String) : String :=
  let lead := if negative then "-" else if f.sign then "+" else if f.space then " " else ""
  if f.zeros && !f.left then
    let zeros := f.width - (lead.length + mark.length + digits.length)
    lead ++ mark ++ String.ofList (List.replicate zeros '0') ++ digits
  else f.fill (lead ++ mark ++ digits)

/-- The digits of a number, as many as the precision asks for. -/
def digits (f : Form) (base : Nat) (n : Nat) : String :=
  let ds := Nat.toDigits base n
  String.ofList (List.replicate (f.precision.getD 0 - ds.length) '0' ++ ds)

/-- A whole number in some base. -/
def writeWhole (f : Form) (base : Nat) (mark : String) (n : Int) : String :=
  f.fillNumber (n < 0) (if f.alternate then mark else "") (f.digits base n.natAbs)

/-- A binary number, whose size is written as given when it is finite. -/
def writeReal (f : Form) (size : Nat → Nat → String) : Binary64 → String
  | .finite negative mantissa exponent =>
    let (n, d) := Binary64.ratio mantissa exponent
    f.fillNumber negative "" (size n d)
  | .infinite negative => f.fillNumber negative "" "inf"
  | .notANumber => f.fillNumber false "" "nan"

/-- The beginning of a text, as long as the precision allows. Of a text that is known in part, no
more can be had than that part. -/
def cut (f : Form) (known : Bool) (s : String) : Option String :=
  match f.precision with
  | some n => if known || n ≤ s.length then some (String.ofList (s.toList.take n)) else none
  | none => if known then some s else none

/-- The text in capitals where the conversion is a capital. -/
def cased (f : Form) (s : String) : String :=
  if f.conversion.isUpper then s.map Char.toUpper else s

/-- Writes a value; a conversion that does not fit the value gives nothing. -/
def write (f : Form) (v : Value) : Option String :=
  let decimals := f.precision.getD 6
  let real (size : Nat → Nat → String) := v.real?.map fun r => f.cased (f.writeReal size r)
  match f.conversion with
  | 's' => (f.cut v.isKnown v.shown).map f.fill
  | 'r' => (f.cut v.isKnown v.literal).map f.fill
  | 'a' => (f.cut v.isKnown (Text.asciiOnly v.literal)).map f.fill
  | 'c' => v.character?.map fun c => f.fill (String.singleton c)
  | 'd' | 'i' | 'u' => v.number?.map (f.writeWhole 10 "")
  | 'o' => v.whole?.map (f.writeWhole 8 "0o")
  | 'x' | 'X' => v.whole?.map fun n => f.cased (f.writeWhole 16 "0x" n)
  | 'e' | 'E' => real (Binary64.exponentialText f.alternate decimals)
  | 'f' | 'F' => real (Binary64.fixedText f.alternate decimals)
  | 'g' | 'G' => real (Binary64.generalText f.alternate decimals)
  | _ => none

end Form

/-! ## Places -/

/-- A place for a value. -/
structure Place where
  /-- The name of the value; the next value in turn has none. -/
  name : Option String := none
  form : Form
  /-- The width is the next value in turn. -/
  takesWidth : Bool := false
  /-- The precision is the next value in turn. -/
  takesPrecision : Bool := false
  deriving DecidableEq, Repr

/-- No width and no precision is greater than this. -/
def measureBound : Nat := 0x7fffffff

/-- A measure that is not too great. -/
def measure? (n : Nat) : Option Nat :=
  if n ≤ measureBound then some n else none

/-- Takes the width from the values where the place asks for it. One below zero stands for its
opposite and moves the value to the left. -/
def Place.takeWidth (p : Place) (values : List Value) : Option (Form × List Value) :=
  if p.takesWidth then
    match values with
    | [] => none
    | v :: rest => do
      let n ← v.whole?
      let width ← measure? n.natAbs
      return ({ p.form with width, left := p.form.left || n < 0 }, rest)
  else some (p.form, values)

/-- The form of the place, with the measures that it takes from the values, and the values left. One
below zero is no precision. -/
def Place.settle (p : Place) (values : List Value) : Option (Form × List Value) := do
  let (form, values) ← p.takeWidth values
  if p.takesPrecision then
    match values with
    | [] => none
    | v :: rest => do
      let precision ← measure? (← v.whole?).toNat
      return ({ form with precision := some precision }, rest)
  else return (form, values)

/-! ## Reading places -/

/-- A template, taken apart. -/
inductive Part
  | literal (c : Char)
  | place (p : Place)
  deriving DecidableEq, Repr

/-- The name between parentheses, with the rest behind it. Parentheses within it come in pairs; the
second argument counts the open ones. -/
def readName : List Char → Nat → List Char → Option (String × List Char)
  | [], _, _ => none
  | ')' :: rest, 0, name => some (String.ofList name.reverse, rest)
  | ')' :: rest, n + 1, name => readName rest n (')' :: name)
  | '(' :: rest, n, name => readName rest (n + 1) ('(' :: name)
  | c :: rest, n, name => readName rest n (c :: name)

/-- A character that says how a value is filled up or marked. -/
def isFlag (c : Char) : Bool :=
  c == '#' || c == '0' || c == '-' || c == ' ' || c == '+'

/-- A measure of a place. -/
inductive Measure
  | given (n : Nat)
  /-- The next value in turn. -/
  | taken
  deriving DecidableEq, Repr

/-- A measure at the front: a star, or a number, which is zero when there are no digits. -/
def readMeasure : List Char → Option (Measure × List Char)
  | '*' :: rest => some (.taken, rest)
  | cs => do
    let n ← measure? (Text.ofDigits (cs.takeWhile Char.isDigit))
    return (.given n, cs.dropWhile Char.isDigit)

/-- The measure that is given. -/
def Measure.given? : Measure → Option Nat
  | .given n => some n
  | .taken => none

/-- A length mark, which says nothing here. -/
def skipLength : List Char → List Char
  | c :: rest => if c == 'h' || c == 'l' || c == 'L' then rest else c :: rest
  | [] => []

/-- The precision at the front, if there is a point. -/
def readPrecision : List Char → Option (Option Measure × List Char)
  | '.' :: rest => (readMeasure rest).map fun p => (some p.1, p.2)
  | cs => some (none, cs)

/-- Reads a place behind its percent sign. -/
def readPlace (cs : List Char) : Option (Place × List Char) := do
  let (name, cs) ← match cs with
    | '(' :: rest => (readName rest 0 []).map fun p => (some p.1, p.2)
    | cs => some (none, cs)
  let flags := cs.takeWhile isFlag
  let (width, cs) ← readMeasure (cs.dropWhile isFlag)
  let (precision, cs) ← readPrecision cs
  let conversion :: rest := skipLength cs | none
  let form : Form := {
    left := flags.contains '-'
    zeros := flags.contains '0'
    sign := flags.contains '+'
    space := flags.contains ' '
    alternate := flags.contains '#'
    width := width.given?.getD 0
    precision := precision.bind Measure.given?
    conversion }
  return (⟨name, form, width = .taken, precision = some .taken⟩, rest)

/-- Takes a template apart. The first argument bounds the number of parts. -/
def readParts : Nat → List Char → Option (List Part)
  | 0, _ => some []
  | _ + 1, [] => some []
  | fuel + 1, '%' :: '%' :: cs => do
    return .literal '%' :: (← readParts fuel cs)
  | fuel + 1, '%' :: cs => do
    let (p, rest) ← readPlace cs
    return .place p :: (← readParts fuel rest)
  | fuel + 1, c :: cs => do
    return .literal c :: (← readParts fuel cs)

/-- The parts of a template. -/
def parts (template : String) : Option (List Part) :=
  readParts (template.length + 1) template.toList

/-! ## Filling in -/

/-- Fills in values by their names. The first place may be without a name: it stands for all of the
values together. No measure can be taken from such values. -/
def fillNamed (lookup : String → Option Value) : Option Value → List Part → Option String
  | _, [] => some ""
  | all, .literal c :: rest => (fillNamed lookup all rest).map (String.singleton c ++ ·)
  | all, .place p :: rest => do
    let v ← match p.name with
      | some name => lookup name
      | none => all
    let (form, _) ← p.settle []
    let s ← form.write v
    return s ++ (← fillNamed lookup none rest)

/-- Fills in values in turn; every value has to be used. -/
def fillInTurn (values : List Value) : List Part → Option String
  | [] => if values.isEmpty then some "" else none
  | .literal c :: rest => (fillInTurn values rest).map (String.singleton c ++ ·)
  | .place p :: rest => do
    if p.name.isSome then none
    let (form, v :: values) ← p.settle values | none
    let s ← form.write v
    return s ++ (← fillInTurn values rest)

/-- A template with values by name; `all` is the text of all of them together. -/
def render (template : String) (all : Value) (lookup : String → Option Value) : Option String := do
  fillNamed lookup (some all) (← parts template)

/-- A template with values in turn. -/
def apply (template : String) (values : List Value) : Option String := do
  fillInTurn values (← parts template)

/-! ## Templates with names -/

/-- A star or digits at the front are passed over. -/
def skipCount : List Char → List Char
  | '*' :: rest => rest
  | cs => cs.dropWhile Text.isDecimal

/-- A percent sign or a letter that can end a place, in either case. -/
def isConversion (c : Char) : Bool :=
  c == '%' || "diouxefgcrsa".toList.any (Text.sameLetter · c)

/-- A place with a name begins here. -/
def startsNamed (cs : List Char) : Bool :=
  match cs with
  | '%' :: '(' :: rest =>
    let name := rest.takeWhile Text.isWord
    match rest.dropWhile Text.isWord with
    | ')' :: rest =>
      let rest := skipCount (rest.dropWhile isFlag)
      let rest := match rest with
        | '.' :: more =>
          if more.head?.any fun c => c == '*' || Text.isDecimal c then skipCount more else rest
        | rest => rest
      !name.isEmpty && rest.head?.any isConversion
    | _ => false
  | _ => false

/-- A place with a name begins somewhere. -/
def hasNamed : List Char → Bool
  | [] => false
  | c :: rest => startsNamed (c :: rest) || hasNamed rest

end Marginalia.Template
