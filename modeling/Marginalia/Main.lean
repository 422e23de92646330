import Marginalia.Files
import Marginalia.Program
import Std.Async.Signal
import Std.Time.DateTime.Timestamp

/-!
# The program on the command line

The outer layer of the program. It reads the environment, the clock and the files, looks again and
again for files that have been written, waits, and prints. What follows from all this is decided by
`Program` and `Assembly`.
-/

namespace Marginalia.Main

/-! ## The world around -/

/-- The present time in milliseconds. -/
def now : IO Int := do
  return (← Std.Time.Timestamp.now).toMillisecondsSinceUnixEpoch.val

/-- What is wrong when a path cannot be used. -/
def failureOf (path : String) : IO.Error → Failure
  | .noFileOrDirectory .. => Failure.noSuchFile path
  | .permissionDenied .. => Failure.permissionDenied path
  | .inappropriateType .. => Failure.isADirectory path
  | e => .plain .system (toString e)

/-- The text of the file at a path. -/
def readText (path : String) : IO (Except Failure String) := do
  try
    let bytes ← IO.FS.readBinFile ((← IO.currentDir) / path)
    return Files.textOf bytes.toList
  catch e => return .error (failureOf path e)

/-- What there is in a directory. -/
partial def treeAt (path : String) : IO Tree := do
  try
    let mut files := []
    let mut directories := []
    for entry in ← ((← IO.currentDir) / path).readDir do
      let name := entry.fileName
      if (← entry.path.symlinkMetadata).type == .dir then
        directories := (name, ← treeAt (Path.join path name)) :: directories
      else files := name :: files
    return .listed files.reverse directories.reverse
  catch e => return .unlistable (failureOf path e)

/-- The files of a directory, each with the time at which it was last written. -/
abbrev Look := List (String × Int × UInt32)

/-- Looks at the files in a directory. -/
def lookAt (keeps : String → Bool) (path : String) : IO Look := do
  let mut seen := []
  for found in (← treeAt path).walk keeps path do
    if let .file place := found then
      try
        let time := (← ((← IO.currentDir) / place).metadata).modified
        seen := (place, time.sec, time.nsec) :: seen
      catch _ => pure ()
  return seen.reverse

/-- What has happened to the files between two looks. -/
def changes (before after : Look) : List Notifier.Raw :=
  after.filterMap fun (path, time) =>
    match before.lookup path with
    | none => some ⟨.created path, false⟩
    | some earlier => if earlier = time then none else some ⟨.modified path, false⟩

/-! ## The host -/

/-- Shows what an assembly does, and waits when it waits. -/
def display (setup : Log.Setup) (n : Assembly.Note) : IO Unit := do
  let text := Program.shown setup (some (← now)) n
  unless text.isEmpty do
    IO.print text
    (← IO.getStdout).flush
  if let .observer (.waited ms) := n then
    IO.sleep ms.toNat.toUInt32

/-- Answers a question. -/
def answer : Assembly.Question → IO Outcome
  | .read path => do
    match ← readText path with
    | .ok content => return .text content
    | .error why => return .raised why
  | _ => return .returned

/-- Lets the parts of an assembly go on until a call has ended. -/
partial def settle (setup : Log.Setup) (a : Assembly) (last : Outcome) :
    IO (Assembly × Outcome) := do
  if a.isHostsTurn then return (a, last)
  let (a, notes) := a.step .proceed
  notes.forM (display setup)
  match notes.getLast? with
  | some (.asked q) => settle setup (a.step (.answer (← answer q))).1 last
  | some (.ended o) => settle setup a o
  | _ => settle setup a last

/-- Calls a part of an assembly. -/
def call (setup : Log.Setup) (a : Assembly) (c : Assembly.Call) : IO (Assembly × Outcome) :=
  settle setup (a.step (.call c)).1 .returned

/-- Writes some entries of the log. -/
def logAll (setup : Log.Setup) (entries : List Log.Entry) : IO Unit :=
  entries.forM fun e => display setup (.log e)

/-! ## Sleeping -/

/-- Gives the dispatcher of a subscription turns until it has waited for so long. -/
partial def doze (setup : Log.Setup) (a : Assembly) (id : Nat) (ms : Int) : IO Assembly := do
  if ms ≤ 0 then return a
  let (b, _) ← call setup a (.subscription id .turn)
  doze setup b id (ms - (b.now - a.now))

/-- Sleeps and looks at the files in turns until a signal arrives. -/
partial def sleepOn (setup : Log.Setup) (arrivals : List (Int × Std.Async.AsyncTask Int))
    (root : String) (before : Look) (a : Assembly) : IO Assembly := do
  let mut a := a
  let mut seen := before
  match a.channels.head? with
  | some (.observed s) =>
    seen ← lookAt (fun path => !s.ignores path) root
    for raw in changes before seen do
      a := (← call setup a (.subscription 0 (.raw raw))).1
    a ← doze setup a 0 Program.nap
  | _ => IO.sleep Program.nap.toUInt32
  let arrived ← arrivals.filterM fun (_, arrival) => (IO.hasFinished arrival : BaseIO Bool)
  logAll setup (arrived.map fun (number, _) => Program.signalled number)
  let (entries, next) := Program.slept false (!arrived.isEmpty)
  logAll setup entries
  if next = .sleep then sleepOn setup arrivals root seen a else return a

/-- Waits for a signal. -/
def prepare (number : Int) : IO (Int × Std.Async.AsyncTask Int) := do
  let waiter ← Std.Async.Signal.Waiter.mk (if number = 15 then .sigterm else .sigint) false
  return (number, ← waiter.wait)

/-! ## The course of the program -/

/-- What a subscription meets when it opens in a directory. -/
def surroundings (home root : String) : IO Notifier.Surroundings := do
  let place := (← IO.currentDir) / root
  let there ← place.pathExists
  let real ← if there then pure (← IO.FS.realPath place).toString else pure root
  let tree ← treeAt root
  return {
    home
    realPath := fun path => if path = root then real else Path.absoluteText home path
    startFailure? := if there then none else some (Failure.noSuchFile root)
    tree := fun path => if path = root then tree else .listed [] [] }

/-- Runs the program; the code that it exits with is returned. -/
def run (p : Program) (setup : Log.Setup) : IO UInt32 := do
  let home := (← IO.currentDir).toString
  let session := p.session home
  let arrivals ← Program.signals.mapM prepare
  logAll setup p.begin.1
  let root := session.startDirectory (some p.path)
  let around ← surroundings home root
  let (a, o) ← call setup { surroundings := around, session := some session }
    (.session (.start (some p.path)))
  let (entries, next) := p.started o.failure? false
  logAll setup entries
  match next with
  | .exit code => return code.toUInt32
  | _ =>
    let keeps (path : String) : Bool :=
      match a.channels.head? with
      | some (.observed s) => !s.ignores path
      | _ => true
    let a ← sleepOn setup arrivals root (← lookAt keeps root) a
    let _ ← call setup a (.session .shutdown)
    logAll setup p.ended.1
    return 0

/-- The variables of the environment that settings are read from. -/
def environment : IO (List (String × String)) := do
  let fields : List Settings.Field := [.appName, .version, .environment, .logLevel, .logFormat,
    .watchPath, .ignoredPatterns, .ignoreInitial, .stabilityThreshold, .pollInterval]
  fields.filterMapM fun field => do
    return (← IO.getEnv field.name).map fun value => (field.name, value)

/-- What is said when the settings cannot be read. -/
def settingsText : Settings.Error → String
  | .unreadableList | .deepNesting _ => "IGNORED_PATTERNS cannot be read"
  | .faults all => ", ".intercalate (all.map fun fault => fault.field.name) ++ " cannot be read"

end Marginalia.Main

open Marginalia in
/-- The program. -/
def main (args : List String) : IO UInt32 := do
  match Settings.read { given := [], environment := ← Main.environment } with
  | .error e =>
    IO.eprintln ("aiwatch: error: " ++ Main.settingsText e)
    return 1
  | .ok settings =>
    match Program.ofArguments settings args with
    | .help =>
      IO.print CommandLine.helpText
      return 0
    | .refused reason =>
      IO.eprint (CommandLine.refusalText reason)
      return 2
    | .mute e =>
      IO.eprintln ("aiwatch: error: " ++ e.message)
      return 1
    | .ready p setup => Main.run p setup
