import Marginalia.Template

/-!
# Log entries

An entry of the log: the name of the logger that writes it, how grave it is, and its text. Levels
are numbers, six of which have names. A text that holds values is made of phrases, so that the entry
keeps the values apart from the words around them.
-/

namespace Marginalia.Log

/-- How grave an entry is. -/
abbrev Level := Int

namespace Level

/-- The level below all others. -/
def notSet : Level := 0

/-- Details of the work. -/
def debug : Level := 10

/-- What is worth knowing. -/
def info : Level := 20

/-- What may be wrong. -/
def warning : Level := 30

/-- What has gone wrong. -/
def error : Level := 40

/-- What cannot be mended. -/
def critical : Level := 50

/-- The name of a level; a number without a name is written out. -/
def name (level : Level) : String :=
  if level = 50 then "CRITICAL"
  else if level = 40 then "ERROR"
  else if level = 30 then "WARNING"
  else if level = 20 then "INFO"
  else if level = 10 then "DEBUG"
  else if level = 0 then "NOTSET"
  else "Level " ++ toString level

/-- The level of a name in capitals; two levels have a second name. -/
def ofName? (name : String) : Option Level :=
  [("CRITICAL", critical), ("FATAL", critical), ("ERROR", error), ("WARNING", warning),
    ("WARN", warning), ("INFO", info), ("DEBUG", debug), ("NOTSET", notSet)].lookup name

end Level

/-- An entry of the log. -/
structure Entry where
  logger : String
  level : Level
  text : String
  /-- The entry reports an exception, whose trace is written below it. -/
  traced : Bool := false
  /-- What the text was before its arguments were filled in. -/
  template : String := text
  arguments : List Template.Value := []
  /-- The entry does not come from a place in a program. Otherwise the place is not known. -/
  placeless : Bool := false
  deriving DecidableEq, Repr

/-- The name of the logger as it is shown; the nameless one is the root of all. -/
def Entry.source (e : Entry) : String :=
  if e.logger = "" then "root" else e.logger

/-- The whole text of the entry can be had. -/
def Entry.isReadable (e : Entry) : Bool :=
  e.arguments.all (·.isKnown)

/-! ## Phrases -/

/-- A phrase of the text of an entry. -/
inductive Phrase
  | words (s : String)
  | value (v : Template.Value)
  deriving DecidableEq, Repr

namespace Phrase

/-- A text as a value. -/
def text (s : String) : Phrase :=
  .value (.text s)

/-- A number as a value. -/
def number (n : Int) : Phrase :=
  .value (.whole n)

/-- The phrase as it is read. -/
def shown : Phrase → String
  | .words s => s
  | .value v => v.shown

/-- The phrase in a template; a value leaves a place for it. -/
def place : Phrase → String
  | .words s => s
  | .value _ => "%s"

/-- The value of a phrase. -/
def value? : Phrase → Option Template.Value
  | .words _ => none
  | .value v => some v

end Phrase

/-- An entry whose text is made of phrases. -/
def Entry.ofPhrases (logger : String) (level : Level) (phrases : List Phrase) : Entry :=
  { logger, level
    text := String.join (phrases.map Phrase.shown)
    template := String.join (phrases.map Phrase.place)
    arguments := phrases.filterMap Phrase.value? }

/-! ## Loggers -/

/-- The logger of the watcher. -/
def watcherLogger : String := "aiwatch.watcher"

/-- The logger of the notifier. -/
def notifierLogger : String := "aiwatch.notifier.watchdog"

/-- The logger of the session, unless it is given another. -/
def sessionLogger : String := "aiwatch.session"

/-- The logger of the command line. -/
def programLogger : String := "aiwatch"

end Marginalia.Log
