import Marginalia.Ignore
import Marginalia.Json.Reader
import Marginalia.Text.Blank

/-!
# Settings

The settings of the program and how they are read. A value comes from the caller, else from a
variable of the environment, else it is the default. Texts stand for numbers, switches and lists
where their form allows; `Settings.read` gives the settings or every fault in the values, in the
order of the fields.
-/

namespace Marginalia

/-- The settings of the program. -/
structure Settings where
  appName : String := "AI Comment Watcher"
  version : String := "1.0.0"
  environment : String := "development"
  logLevel : String := "INFO"
  logFormat : String := "%(asctime)s | %(levelname)-8s | %(name)s - %(message)s"
  /-- The directory to watch when none is given. -/
  watchPath : String := "."
  /-- The sources of the patterns of ignored paths. -/
  ignoredPatterns : List String := Ignore.defaultSources
  /-- Files that are there at the start are not scanned. -/
  ignoreInitial : Bool := true
  /-- How many milliseconds a file has to be quiet before it counts as changed. -/
  stabilityThreshold : Int := 500
  /-- How many milliseconds lie between two looks at the quiet files. -/
  pollInterval : Int := 50
  deriving DecidableEq, Repr

namespace Settings

/-! ## Fields and faults -/

/-- A field of the settings. -/
inductive Field
  | appName
  | version
  | environment
  | logLevel
  | logFormat
  | watchPath
  | ignoredPatterns
  | ignoreInitial
  | stabilityThreshold
  | pollInterval
  deriving DecidableEq, Repr

/-- The name under which a field is given. -/
def Field.name : Field → String
  | .appName => "APP_NAME"
  | .version => "VERSION"
  | .environment => "ENVIRONMENT"
  | .logLevel => "LOG_LEVEL"
  | .logFormat => "LOG_FORMAT"
  | .watchPath => "WATCH_PATH"
  | .ignoredPatterns => "IGNORED_PATTERNS"
  | .ignoreInitial => "IGNORE_INITIAL"
  | .stabilityThreshold => "STABILITY_THRESHOLD_MS"
  | .pollInterval => "POLL_INTERVAL_MS"

/-- What is wrong with a value. -/
inductive Mistake
  | notText
  | notList
  | notSwitch
  /-- The value could be a switch, but its text or number is none. -/
  | unreadableSwitch
  | notNumber
  | unreadableNumber
  | fractionalNumber
  | infiniteNumber
  /-- A number that is too large to be taken for a whole number. -/
  | hugeNumber
  /-- A list holds a whole number of too many digits. -/
  | longNumber
  deriving DecidableEq, Repr

/-- A mistake in a field, or in one item of its list. -/
structure Fault where
  field : Field
  item : Option Nat := none
  mistake : Mistake
  deriving DecidableEq, Repr

/-- Why settings cannot be read. -/
inductive Error
  /-- The environment's list of patterns is not written in JSON. -/
  | unreadableList
  /-- A list, or an object, in the list of patterns lies within too many others. -/
  | deepNesting (isList : Bool)
  | faults (all : List Fault)
  deriving DecidableEq, Repr

/-! ## Values -/

/-- A text. -/
def readText : Json → Except Mistake String
  | .text s => .ok s
  | _ => .error .notText

/-- The texts that switch something on. -/
def onWords : List String :=
  ["1", "true", "t", "yes", "y", "on"]

/-- The texts that switch something off. -/
def offWords : List String :=
  ["0", "false", "f", "no", "n", "off"]

/-- The text in small letters. -/
def smallLetters (s : String) : String :=
  String.ofList (s.toList.map Char.toLower)

/-- The numbers that a word of 64 bits holds lie below this bound and not below its opposite. -/
def wordBound : Int := 0x8000000000000000

/-- The switch that a whole number is. One that no word holds is none. -/
def switchOfNumber (n : Int) : Except Mistake Bool :=
  if n = 1 then .ok true
  else if n = 0 then .ok false
  else if -wordBound ≤ n && n < wordBound then .error .unreadableSwitch
  else .error .notSwitch

/-- The whole number that a binary number is taken for; one at the bounds is too large. -/
def wholeOfReal (r : Binary64) : Except Mistake Int :=
  if !r.isFinite then .error .infiniteNumber
  else match r.whole? with
    | none => .error .fractionalNumber
    | some n => if -wordBound < n && n < wordBound then .ok n else .error .hugeNumber

/-- A switch: a truth value, zero or one, or a word. -/
def readSwitch : Json → Except Mistake Bool
  | .bool b => .ok b
  | .whole n => switchOfNumber n
  | .real r =>
    match wholeOfReal r with
    | .ok n => switchOfNumber n
    | .error _ => .error .notSwitch
  | .text s =>
    if onWords.contains (smallLetters s) then .ok true
    else if offWords.contains (smallLetters s) then .ok false
    else .error .unreadableSwitch
  | _ => .error .notSwitch

/-! ### Texts of whole numbers -/

/-- A blank at the ends of a number; the information separators are none. -/
def isMargin (c : Char) : Bool :=
  Text.isBlank c && !(0x1c ≤ c.toNat && c.toNat ≤ 0x1f)

/-- The text without its blanks at both ends. -/
def withoutMargins (cs : List Char) : List Char :=
  ((cs.dropWhile isMargin).reverse.dropWhile isMargin).reverse

/-- What is left of a text behind a zero when further zeros are passed over, and low lines with
them: it begins with a digit or a minus sign, or it is the character before a point and what
follows, or the last character of all. The first argument is the character passed over last. -/
def behindZeros : Char → List Char → Option (List Char)
  | last, [] => some [last]
  | last, c :: rest =>
    if c == '0' || c == '_' then behindZeros c rest
    else if c.isDigit || c == '-' then some (c :: rest)
    else if c == '.' then some (last :: c :: rest)
    else none

/-- The text without the zeros at the front, so far as it begins like a number. A minus sign may
follow them; zeros behind it stay. -/
def withoutZeros : List Char → Option (List Char)
  | '0' :: rest => behindZeros '0' rest
  | c :: rest => if c.isDigit || c == '-' then some (c :: rest) else none
  | [] => none

/-- The text without a fraction that holds zeros only, of which there is at least one. -/
def withoutFraction (cs : List Char) : List Char :=
  match cs.dropWhile (· != '.') with
  | '.' :: zeros =>
    if !zeros.isEmpty && zeros.all (· == '0') then cs.takeWhile (· != '.') else cs
  | _ => cs

/-- Two low lines follow one another somewhere. -/
def hasLongLine : List Char → Bool
  | '_' :: '_' :: _ => true
  | _ :: rest => hasLongLine rest
  | [] => false

/-- The text without low lines, if each of them stands alone and none at an end. -/
def withoutLines (cs : List Char) : List Char :=
  if cs.head? == some '_' || cs.getLast? == some '_' || hasLongLine cs then cs
  else cs.filter (· != '_')

/-- Digits without a zero before others, as a number with the given sign. A minus sign counts as a
digit where too many digits make the number too large. -/
def readDigits (negative : Bool) (ds : List Char) : Except Mistake Int :=
  let sign := if negative then 1 else 0
  match ds with
  | [] => .error .unreadableNumber
  | ['0'] => .ok 0
  | d :: _ =>
    if !d.isDigit || d == '0' then .error .unreadableNumber
    else if Text.mostDigits < (ds.takeWhile Char.isDigit).length + sign then .error .hugeNumber
    else if ds.all Char.isDigit then
      .ok (if negative then -Text.ofDigits ds else Text.ofDigits ds)
    else .error .unreadableNumber

/-- The text of a number with nothing in it but what a bare number has. -/
def bareNumber (cs : List Char) : Option (List Char) :=
  (withoutZeros cs).map fun cs => withoutLines (withoutFraction cs)

/-- The number that a text without a sign at the front is; a minus sign may follow zeros. -/
def wholeWithoutSign (cs : List Char) : Except Mistake Int :=
  match bareNumber cs with
  | none => .error .unreadableNumber
  | some ('-' :: ds) => readDigits true ds
  | some ds => readDigits false ds

/-- The whole number that a text is, if it is one. There is one sign at most. -/
def wholeOfText (s : String) : Except Mistake Int :=
  match withoutMargins s.toList with
  | '+' :: '-' :: _ => .error .unreadableNumber
  | '+' :: rest => wholeWithoutSign rest
  | '-' :: rest =>
    match bareNumber rest with
    | none => .error .unreadableNumber
    | some ds => (readDigits false ds).map (-·)
  | cs => wholeWithoutSign cs

/-- A whole number: itself, a truth value, a binary number without fraction, or a text. -/
def readWhole : Json → Except Mistake Int
  | .whole n => .ok n
  | .bool b => .ok (if b then 1 else 0)
  | .real r => wholeOfReal r
  | .text s => wholeOfText s
  | _ => .error .notNumber

/-! ## Lists of patterns -/

/-- The items between the commas, without blanks around them and without empty ones. -/
def commaItems (s : String) : List String :=
  ((s.toList.splitOn ',').map Text.trim).filterMap fun item =>
    if item.isEmpty then none else some (String.ofList item)

/-- A text stands for the JSON value that it holds, or else for the items between its commas. JSON
that cannot be read stands for nothing. -/
def listOfText (v : Json) : Except Json.Fault Json :=
  match v with
  | .text s =>
    match Json.read s with
    | .error .malformed => .ok (.list ((commaItems s).map .text))
    | other => other
  | v => .ok v

/-- The faults of the items that are no texts, where the first item has the given number. -/
def itemFaults (field : Field) : Nat → List Json → List Fault
  | _, [] => []
  | n, .text _ :: rest => itemFaults field (n + 1) rest
  | n, _ :: rest => ⟨field, some n, .notText⟩ :: itemFaults field (n + 1) rest

/-- A list of texts. -/
def readList (field : Field) (v : Json) : Except (List Fault) (List String) :=
  match v with
  | .list items =>
    match itemFaults field 0 items with
    | [] => .ok (items.filterMap fun | .text s => some s | _ => none)
    | faults => .error faults
  | _ => .error [⟨field, none, .notList⟩]

/-! ## All fields -/

/-- Where values come from: the caller, and the variables of the environment. -/
structure Sources where
  given : List (String × Json) := []
  environment : List (String × String) := []

/-- The value given for a field, and last among equals. -/
def Sources.givenFor (src : Sources) (field : Field) : Option Json :=
  src.given.reverse.lookup field.name

/-- The environment's value for a field. -/
def Sources.environmentFor (src : Sources) (field : Field) : Option String :=
  src.environment.reverse.lookup field.name

/-- The value of a field, if it has one. -/
def Sources.valueFor (src : Sources) (field : Field) : Option Json :=
  (src.givenFor field).or ((src.environmentFor field).map .text)

/-- The environment's list of patterns has to be written in JSON, whoever else gives the list;
`null` gives none. -/
def Sources.environmentList (src : Sources) : Except Error (Option Json) :=
  match src.environmentFor .ignoredPatterns with
  | none => .ok none
  | some s =>
    match Json.read s with
    | .error (.deepNesting isList) => .error (.deepNesting isList)
    | .error _ => .error .unreadableList
    | .ok .null => .ok none
    | .ok v => .ok (some v)

/-- Reads the list of patterns. Nesting that is too deep leaves no room for other faults. -/
def Sources.readPatterns (src : Sources) (default : List String) :
    Except Error (Except (List Fault) (List String)) := do
  let listed ← src.environmentList
  match (src.givenFor .ignoredPatterns).or listed with
  | none => return .ok default
  | some v =>
    match listOfText v with
    | .ok v => return readList .ignoredPatterns v
    | .error (.deepNesting isList) => throw (.deepNesting isList)
    | .error _ => return .error [⟨.ignoredPatterns, none, .longNumber⟩]

/-- Reads a field whose value is not a list. -/
def Sources.readField {α : Type} (src : Sources) (field : Field) (default : α)
    (read : Json → Except Mistake α) : Except (List Fault) α :=
  match src.valueFor field with
  | none => .ok default
  | some v => (read v).mapError fun m => [⟨field, none, m⟩]

/-- The faults of a reading. -/
def faultsOf {α : Type} : Except (List Fault) α → List Fault
  | .ok _ => []
  | .error faults => faults

/-- What was read, or the default where there are faults. -/
def valueOr {α : Type} (default : α) : Except (List Fault) α → α
  | .ok a => a
  | .error _ => default

/-- Reads the settings. -/
def read (src : Sources) : Except Error Settings := do
  let defaults : Settings := {}
  let patterns ← src.readPatterns defaults.ignoredPatterns
  let appName := src.readField .appName defaults.appName readText
  let version := src.readField .version defaults.version readText
  let environment := src.readField .environment defaults.environment readText
  let logLevel := src.readField .logLevel defaults.logLevel readText
  let logFormat := src.readField .logFormat defaults.logFormat readText
  let watchPath := src.readField .watchPath defaults.watchPath readText
  let ignoreInitial := src.readField .ignoreInitial defaults.ignoreInitial readSwitch
  let threshold := src.readField .stabilityThreshold defaults.stabilityThreshold readWhole
  let interval := src.readField .pollInterval defaults.pollInterval readWhole
  let faults := [appName, version, environment, logLevel, logFormat, watchPath].flatMap faultsOf
    ++ faultsOf patterns ++ faultsOf ignoreInitial ++ faultsOf threshold ++ faultsOf interval
  if faults.isEmpty then
    return {
      appName := valueOr defaults.appName appName
      version := valueOr defaults.version version
      environment := valueOr defaults.environment environment
      logLevel := valueOr defaults.logLevel logLevel
      logFormat := valueOr defaults.logFormat logFormat
      watchPath := valueOr defaults.watchPath watchPath
      ignoredPatterns := valueOr defaults.ignoredPatterns patterns
      ignoreInitial := valueOr defaults.ignoreInitial ignoreInitial
      stabilityThreshold := valueOr defaults.stabilityThreshold threshold
      pollInterval := valueOr defaults.pollInterval interval }
  else .error (.faults faults)

end Settings

end Marginalia
