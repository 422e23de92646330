import Marginalia.Assembly
import Marginalia.CommandLine
import Marginalia.Log.Setup

/-!
# The program

The program is a host without an agent: it starts a session in one directory, shows what the session
delivers, and sleeps until a signal or the keyboard asks it to stop. `ofArguments` says what a call
of the program comes to; each function of its course says what is logged at one point and what comes
next.
-/

namespace Marginalia

/-- The program as it is called. -/
structure Program where
  settings : Settings
  /-- The directory to watch. -/
  path : String

namespace Program

/-! ## The call of the program -/

/-- What a call of the program comes to. -/
inductive Calling
  /-- The help is shown. -/
  | help
  /-- The arguments are refused. -/
  | refused (reason : String)
  /-- The log cannot be set up. -/
  | mute (e : Log.SetupError)
  /-- The program can begin, with its log. -/
  | ready (p : Program) (setup : Log.Setup)

/-- What a call with some arguments comes to. The arguments are looked at before the log. -/
def ofArguments (s : Settings) (args : List String) : Calling :=
  match CommandLine.parse s.watchPath args with
  | .help => .help
  | .refuse reason => .refused reason
  | .watch path =>
    match Log.Setup.ofSettings s with
    | .error e => .mute e
    | .ok setup => .ready ⟨s, path⟩ setup

/-- The session of the program; the log is informed in place of an agent's host. -/
def session (p : Program) (home : String) : Session :=
  { settings := p.settings, home, notifies := false }

/-- What comes next. -/
inductive Next
  /-- Start the session. -/
  | start
  /-- Sleep for a moment. -/
  | sleep
  /-- Shut the session down. -/
  | shutdown
  /-- Nothing. -/
  | nothing
  /-- Exit with a code. -/
  | exit (code : Nat)
  deriving DecidableEq, Repr

/-- The signals that ask the program to stop, in the order in which they are prepared for. -/
def signals : List Int :=
  [15, 2]

/-- How long a sleep takes, in milliseconds. -/
def nap : Nat := 500

/-! ## Texts -/

/-- An entry of the program's log. -/
def entry (text : String) : Log.Entry :=
  { logger := Log.programLogger, level := Log.Level.info, text }

/-- A line that sets texts apart. -/
def rule : Log.Entry :=
  entry (String.ofList (List.replicate 60 '='))

/-- The word for yes or no. -/
def answer (b : Bool) : String :=
  if b then "True" else "False"

/-- What is logged when the program begins. -/
def opening (p : Program) : List Log.Entry :=
  let s := p.settings
  [rule, entry (s.appName ++ " v" ++ s.version ++ " Starting"), rule,
    entry ("Watched path: " ++ p.path),
    entry ("Ignored patterns: " ++ Text.quotedList s.ignoredPatterns),
    entry ("Ignore initial files: " ++ answer s.ignoreInitial),
    entry ("Stability threshold: " ++ toString s.stabilityThreshold ++ "ms, poll: "
      ++ toString s.pollInterval ++ "ms"), rule]

/-- What is logged when the program has done its work. -/
def closing (p : Program) : List Log.Entry :=
  [rule, entry (p.settings.appName ++ " Stopped"), rule]

/-- What is logged when a signal arrives. -/
def signalled (number : Int) : Log.Entry :=
  entry ("Received signal " ++ toString number ++ ", initiating graceful shutdown...")

/-- What is logged when the keyboard interrupts a sleep. -/
def interrupted : Log.Entry :=
  entry "Received keyboard interrupt"

/-- What is logged when the session cannot be started, with the report of the failure. -/
def unstarted (p : Program) (report : String) : Log.Entry :=
  { logger := Log.programLogger, level := Log.Level.error
    text := "❌ Failed to start watching " ++ p.path ++ ": " ++ report, traced := true }

/-! ## The course of the program -/

/-- The program begins. -/
def begin (p : Program) : List Log.Entry × Next :=
  (p.opening, .start)

/-- The program is awake; it goes to sleep again unless it has been asked to stop. -/
def awake (stopping : Bool) : List Log.Entry × Next :=
  ([], if stopping then .shutdown else .sleep)

/-- The start of the session has ended. A failure that cannot be reported goes unlogged. -/
def started (p : Program) (failure : Option Failure) (stopping : Bool) : List Log.Entry × Next :=
  match failure with
  | some why =>
    match why.report with
    | .ok report => ([p.unstarted report], .exit 1)
    | .error _ => ([], .exit 1)
  | none => awake stopping

/-- A sleep has ended. -/
def slept (byKeyboard stopping : Bool) : List Log.Entry × Next :=
  if byKeyboard then ([interrupted], .shutdown) else awake stopping

/-- The session has been shut down. -/
def ended (p : Program) : List Log.Entry × Next :=
  (p.closing, .nothing)

/-- What is shown of a note at the given time, if it is known: the log as it is set up, and messages
as they are. -/
def shown (setup : Log.Setup) (ms : Option Int) : Assembly.Note → String
  | .log e => setup.written ms e
  | .asked (.deliver message) => message ++ "\n"
  | _ => ""

end Program

end Marginalia
