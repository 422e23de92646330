import Marginalia.Json.Printer
import Marginalia.Log.Arguments
import Marginalia.Log.Basic
import Marginalia.Log.Stamp
import Marginalia.Settings

/-!
# Writing the log

How the settings decide what is written to the log and in which form. In production an entry is a
JSON object on one line, otherwise the format of the settings is filled in. Entries of the library
that observes files are written from warnings on.
-/

namespace Marginalia.Log

/-- The form of an entry. -/
inductive Layout
  /-- A template with the parts of the entry. -/
  | template (format : String)
  /-- A JSON object. -/
  | json
  deriving DecidableEq, Repr

/-- Which entries are written, and how. -/
structure Setup where
  level : Level
  layout : Layout
  deriving DecidableEq, Repr

/-- Why a log cannot be set up. -/
inductive SetupError
  /-- The name of the level stands for a text. -/
  | levelIsText (text : String)
  /-- The format has no place for a part of an entry. -/
  | emptyFormat (format : String)
  deriving DecidableEq, Repr

/-- The reason, in words. -/
def SetupError.message : SetupError → String
  | .levelIsText text => "Unknown level: " ++ Text.quoted text
  | .emptyFormat format => "Invalid format '" ++ format ++ "' for '%' style"

namespace Setup

/-- A character in capitals. The two characters beyond ASCII whose capitals belong to it count. -/
def capital (c : Char) : Char :=
  if c = 'ı' then 'I' else if c = 'ſ' then 'S' else c.toUpper

/-- The level that a name stands for, in any case; an unknown name stands for information. One name
stands for the common format of entries, which is no level. -/
def levelNamed (name : String) : Except SetupError Level :=
  let capitals := String.ofList (name.toList.map capital)
  if capitals = "BASIC_FORMAT" then
    .error (.levelIsText "%(levelname)s:%(name)s:%(message)s")
  else .ok ((Level.ofName? capitals).getD Level.info)

/-- The format of entries; an empty one shows the text alone. -/
def formatOf (s : Settings) : String :=
  if s.logFormat = "" then "%(message)s" else s.logFormat

/-- The log that the settings ask for. -/
def ofSettings (s : Settings) : Except SetupError Setup := do
  let level ← levelNamed s.logLevel
  if s.environment = "production" then return ⟨level, .json⟩
  else if Template.hasNamed (formatOf s).toList then return ⟨level, .template (formatOf s)⟩
  else .error (.emptyFormat (formatOf s))

/-- The loggers of the library that observes files. -/
def isObserverLogger (name : String) : Bool :=
  name = "watchdog" || "watchdog.".toList.isPrefixOf name.toList

/-- The level of the loggers of the library that observes files. -/
def observerLevel : Level := Level.warning

/-- The entry is written. One without a level above zero is not. -/
def admits (setup : Setup) (e : Entry) : Bool :=
  (if isObserverLogger e.logger then observerLevel else setup.level) ≤ e.level
    && setup.level ≤ e.level && 0 < e.level

/-- The trace of an exception, as far as it is shown. -/
def traceLine : String := "<traceback>"

/-! ### The parts of an entry -/

/-- What stands for a part that is not there. -/
def nothing : Template.Value :=
  .named "None" none

/-- What stands for a part that nobody here knows. -/
def unknown : Template.Value :=
  .partly ""

/-- The parts of an entry, in their order. The place in a program that an entry comes from is not
known, and neither is which process it was. -/
def partsOf (e : Entry) (time : Option Stamp) : List (String × Template.Value) :=
  let placed (v : Template.Value) : Template.Value := if e.placeless then v else unknown
  [("name", .text e.source),
    ("msg", .text e.template),
    ("args", .named (tupleText e.arguments) none),
    ("levelname", .text e.level.name),
    ("levelno", .whole e.level),
    ("pathname", placed (.text "")),
    ("filename", placed (.text "")),
    ("module", placed (.text "")),
    ("exc_info", if e.traced then .partly "(<class '" else nothing),
    ("exc_text", nothing),
    ("stack_info", nothing),
    ("lineno", placed (.whole 0)),
    ("funcName", placed nothing),
    ("created", (time.map fun t => .real t.created).getD unknown),
    ("msecs", (time.map fun t => .whole t.millisecond).getD unknown),
    ("relativeCreated", unknown),
    ("thread", unknown),
    ("threadName", .text "MainThread"),
    ("processName", .text "MainProcess"),
    ("process", unknown),
    ("message", .text e.text),
    ("asctime", (time.map fun t => (t.plain?.map .text).getD nothing).getD unknown)]

/-- Named values one after the other, up to the first that is not known. -/
def fieldsText : List (String × Template.Value) → String
  | [] => ""
  | (name, v) :: rest =>
    let field := Text.quoted name ++ ": " ++ v.literal
    if v.isKnown && !rest.isEmpty then field ++ ", " ++ fieldsText rest else field

/-- All parts of an entry together. -/
def wholeOf (e : Entry) (time : Option Stamp) : Template.Value :=
  .partly ("\x7b" ++ fieldsText (partsOf e time))

/-! ### The line of an entry -/

/-- The format asks for the time. -/
def asksForTime : List Char → Bool
  | [] => false
  | c :: rest => "%(asctime)".toList.isPrefixOf (c :: rest) || asksForTime rest

/-- The format filled in with the parts of an entry. One that asks for the time anywhere, be it in
no place, needs a time that can be shown. -/
def fill (format : String) (e : Entry) (time : Option Stamp) : Option String :=
  if asksForTime format.toList && time.any (·.plain?.isNone) then none
  else Template.render format (wholeOf e time) fun name => (partsOf e time).lookup name

/-- The line of an entry that is written at the given time, in milliseconds since the beginning of
1970, if it is known; nothing when the format does not fit or the time cannot be shown. -/
def line (setup : Setup) (ms : Option Int) (e : Entry) : Option String := do
  let time := ms.map Stamp.ofMilliseconds
  match setup.layout with
  | .template format =>
    let s ← fill format e time
    return s ++ (if e.traced then "\n" ++ traceLine else "") ++ "\n"
  | .json =>
    let time ← time
    let plain ← time.plain?
    let iso ← time.iso?
    let fields := [("asctime", plain ++ "," ++ Text.padded 3 time.millisecond), ("name", e.source),
      ("levelname", e.level.name), ("message", e.text)]
      ++ (if e.traced then [("exc_info", traceLine)] else []) ++ [("timestamp", iso)]
    return Json.writeObject fields ++ "\n"

/-- What an entry adds to the log. -/
def written (setup : Setup) (ms : Option Int) (e : Entry) : String :=
  if setup.admits e && e.isReadable then (setup.line ms e).getD "" else ""

end Setup

end Marginalia.Log
