import Marginalia.Call
import Marginalia.Ignore
import Marginalia.Log.Basic
import Marginalia.Pending
import Marginalia.Watcher.Options

/-!
# Watchers

A watcher turns the events of a notifier into calls of the host's callbacks. It reads each file that
has changed, keeps the comment blocks of files without a trigger until one comes, tells the host of
each new block, and on a trigger hands over everything that it has kept.

At most one subscription is open. Each `watch` begins a new generation; events carry the generation
of their subscription, and those of another one than the present are refused when they arrive.

`step` is the whole machine. Every call of the host, and every question to the notifier, is a place
where other inputs may come in between, so what remains to be done is kept as a `Task`.
-/

namespace Marginalia

open Notifier (Event EventKind)

namespace Watcher

/-! ## Questions and tasks -/

/-- What a watcher asks the notifier or the host to do. -/
inductive Question
  /-- Attach the listener of a generation to the events of a kind. -/
  | attach (subscription : Nat) (kind : EventKind) (generation : Nat)
  /-- Read a file. -/
  | read (path : String)
  /-- Take note of a new block and of all that wait. -/
  | comment (block : Block) (all : List Block)
  /-- Take over the blocks of a trigger. -/
  | trigger (blocks : List Block)
  /-- Take note that observation has begun. -/
  | ready
  /-- Take note of a failure of the notifier. -/
  | error (why : Failure)
  deriving DecidableEq, Repr

/-- What remains to be done once a question is answered. -/
inductive Task
  /-- The listeners of some kinds have still to be attached. -/
  | attaching (subscription generation : Nat) (rest : List EventKind)
  /-- The blocks of the file have to be found. -/
  | reading (path : String)
  /-- The new ones among some blocks have still to be reported. -/
  | reporting (path : String) (known : List String) (all rest : List Block)
  /-- Nothing. -/
  | calling
  deriving DecidableEq, Repr

/-- What a watcher does by the way. -/
inductive Note
  | log (entry : Log.Entry)
  /-- A subscription has been closed. -/
  | unsubscribed (subscription : Nat)
  /-- A subscription for a root is being opened. -/
  | subscribing (root : String)
  deriving DecidableEq, Repr

/-- An input of a watcher. -/
inductive Input
  /-- Watch a directory; with it comes what opening the subscription led to. -/
  | watch (root : String) (opened : Except Failure Nat)
  | close
  | pause
  | resume
  /-- Forget what waits. -/
  | clear
  /-- An event of the subscription of a generation. -/
  | event (generation : Nat) (e : Event)
  /-- The answer to the latest question that has none. -/
  | answer (o : Outcome)

/-- What a watcher is doing, as seen from outside. -/
inductive Status
  | idle
  | watching
  | paused
  | closed
  deriving DecidableEq, Repr

end Watcher

/-! ## The state -/

/-- A watcher. -/
structure Watcher where
  options : Watcher.Options
  callbacks : Watcher.Callbacks
  /-- The patterns of ignored paths. -/
  patterns : List Pattern
  /-- The current directory. -/
  home : String
  pending : Pending := {}
  /-- The open subscription. -/
  subscription : Option Nat := none
  /-- The directory that is watched. -/
  root : Option String := none
  /-- How many times watching began or ended. -/
  generation : Nat := 0
  /-- The generation in which the host was last told that observation has begun. -/
  readyGeneration : Nat := 0
  paused : Bool := false
  closed : Bool := false
  /-- What remains to be done, the latest task first. -/
  tasks : List Watcher.Task := []

namespace Watcher

/-- The outcome of a step of a watcher. -/
abbrev Result := Step Watcher Note Question

/-- A watcher that has not begun to watch; its patterns have to be readable. -/
def make [Pattern.Dialect] (options : Options) (callbacks : Callbacks) (home : String) :
    Except Pattern.Error Watcher := do
  let patterns ← Ignore.readAll options.ignored
  return { options, callbacks, patterns, home }

/-- What the watcher is doing. -/
def status (w : Watcher) : Status :=
  if w.closed then .closed
  else if w.subscription.isNone then .idle
  else if w.paused then .paused
  else .watching

/-- The generation is the one of the open subscription. -/
def isCurrent (w : Watcher) (generation : Nat) : Bool :=
  generation = w.generation && w.subscription.isSome

/-- The path is ignored. -/
def ignores (w : Watcher) (path : String) : Bool :=
  Ignore.isIgnoredBy w.patterns w.home path w.root

/-! ## Log -/

/-- An entry of the watcher's log. -/
def entry (level : Log.Level) (phrases : List Log.Phrase) : Note :=
  .log (.ofPhrases Log.watcherLogger level phrases)

/-! ## Ends and questions -/

/-- Ends the call. -/
def finish (w : Watcher) (notes : List Note) (o : Outcome := .returned) : Result :=
  ⟨w, notes, .ends o⟩

/-- Asks, and keeps what remains to be done. -/
def ask (w : Watcher) (notes : List Note) (q : Question) (t : Task) : Result :=
  ⟨{ w with tasks := t :: w.tasks }, notes, .asks q⟩

/-- Calls the host if it has the callback. -/
def callHost (w : Watcher) (there : Bool) (notes : List Note) (q : Question) (t : Task) : Result :=
  if there then w.ask notes q t else w.finish notes

/-! ## Opening and closing -/

/-- Closes the open subscription. -/
def closeSubscription (w : Watcher) : Watcher × List Note :=
  match w.subscription with
  | some id => ({ w with subscription := none }, [.unsubscribed id])
  | none => (w, [])

/-- Attaches the listeners of the kinds that are left. -/
def attach (w : Watcher) (notes : List Note) (id generation : Nat) : List EventKind → Result
  | [] => w.finish notes
  | kind :: rest => w.ask notes (.attach id kind generation) (.attaching id generation rest)

/-- The directory that the patterns are relative to. -/
def rootOf (o : Options) (root : String) : String :=
  match o.cwd with
  | some cwd => if cwd = "" then root else Path.join cwd root
  | none => root

/-- Begins a generation: the open subscription is closed, and the new one takes its place. -/
def watch (w : Watcher) (root : String) (opened : Except Failure Nat) : Result :=
  let (w, closing) := w.closeSubscription
  let w := { w with
    generation := w.generation + 1, closed := false, root := some (rootOf w.options root) }
  let notes := closing ++ [.subscribing root]
  match opened with
  | .error why => w.finish notes (.raised why)
  | .ok id =>
    let started := entry Log.Level.info [.words "👀 Watching ", .text root,
      .words " for AI comments (generation=", .number w.generation, .words ")"]
    { w with subscription := some id }.attach (notes ++ [started]) id w.generation
      [.ready, .change, .error]

/-- Ends the generation. -/
def close (w : Watcher) : Result :=
  let (w, closing) := w.closeSubscription
  { w with generation := w.generation + 1, closed := true }.finish
    (closing ++ [entry Log.Level.info [.words "🛑 Comment watcher closed"]])

/-- Stops taking notice of changes. -/
def pause (w : Watcher) : Result :=
  { w with paused := true }.finish
    (if w.paused then [] else [entry Log.Level.debug [.words "⏸️ Comment watcher paused"]])

/-- Takes notice of changes again. -/
def resume (w : Watcher) : Result :=
  { w with paused := false }.finish
    (if w.paused then [entry Log.Level.debug [.words "▶️ Comment watcher resumed"]] else [])

/-- Forgets what waits. -/
def clear (w : Watcher) : Result :=
  { w with pending := .empty }.finish []

/-! ## Events -/

/-- Tells the host, once a generation, that observation has begun. -/
def onReady (w : Watcher) (generation : Nat) : Result :=
  if !w.isCurrent generation || w.readyGeneration = generation then w.finish []
  else { w with readyGeneration := generation }.callHost w.callbacks.ready
    [entry Log.Level.info [.words "✅ Comment watcher ready"]] .ready .calling

/-- Tells the host of a failure of the notifier. -/
def onError (w : Watcher) (generation : Nat) (why : Failure) : Result :=
  if !w.isCurrent generation then w.finish []
  else w.callHost w.callbacks.error
    [entry Log.Level.warning [.words "⚠️ Notifier error: ", .value why.value]] (.error why) .calling

/-- Reads a file that has changed, unless it is of no interest. -/
def onChange (w : Watcher) (generation : Nat) (path : String) : Result :=
  if !w.isCurrent generation then
    w.finish [entry Log.Level.debug
      [.words "Discarding change from superseded subscription | path=", .text path]]
  else if w.paused || w.ignores path then w.finish []
  else w.ask [] (.read path) (.reading path)

/-- Reports the first new block among those that are left; every new block is logged. -/
def report (w : Watcher) (notes : List Note) (path : String) (known : List String)
    (all : List Block) : List Block → Result
  | [] => w.finish notes
  | b :: rest =>
    if known.contains b.key then w.report notes path known all rest
    else
      let notes := notes ++ [entry Log.Level.debug
        [.words "AI comment collected | path=", .text path, .words " line=", .number b.line]]
      if w.callbacks.comment then
        w.ask notes (.comment b all) (.reporting path known all rest)
      else w.report notes path known all rest

/-- Keeps the blocks of a file in the place of its former ones and reports the new ones. -/
def store (w : Watcher) (notes : List Note) (path : String) (blocks : List Block) : Result :=
  let previous := w.pending.get path
  let w := { w with pending := w.pending.replace path blocks }
  if blocks.isEmpty then
    w.finish (notes ++ if previous.isEmpty then [] else
      [entry Log.Level.debug [.words "AI-комментарии удалены из файла | path=", .text path]])
  else w.report notes path (previous.map (·.key)) w.pending.snapshot blocks

/-- Hands over what waits for other files and the blocks of the file with the trigger. -/
def dispatch (w : Watcher) (notes : List Note) (path : String) (blocks : List Block) : Result :=
  let comments := w.pending.others path ++ blocks
  { w with pending := .empty }.callHost w.callbacks.trigger
    (notes ++ [entry Log.Level.info [.words "🚀 AI! trigger in ", .text path,
      .words " | sending ", .number comments.length, .words " comment(s)"]])
    (.trigger comments) .calling

/-- Takes in the content of a file. -/
def scan (w : Watcher) (path content : String) : Result :=
  let blocks := Block.ofContent path content
  let notes := [entry Log.Level.debug [.words "Файл просканирован | path=", .text path,
    .words " blocks=", .number blocks.length]]
  if Block.anyTrigger blocks then w.dispatch notes path blocks else w.store notes path blocks

/-- A file could not be read: an expected failure is logged, any other leaves the watcher. -/
def unread (w : Watcher) (path : String) (why : Failure) : Result :=
  if why.isReadFailure then
    w.finish [entry Log.Level.warning [.words "Не удалось прочитать файл | path=", .text path,
      .words " error=", .value why.value]]
  else w.finish [] (.raised why)

/-! ## The machine -/

/-- Goes on with a task whose question has been answered. -/
def proceed (w : Watcher) (o : Outcome) : Task → Result
  | .attaching id generation rest =>
    match o with
    | .raised why => w.finish [] (.raised why)
    | _ => w.attach [] id generation rest
  | .reading path =>
    match o with
    | .raised why => w.unread path why
    | .text content => w.scan path content
    | _ => w.scan path ""
  | .reporting path known all rest =>
    match o with
    | .raised why => w.finish [] (.raised why)
    | _ => w.report [] path known all rest
  | .calling =>
    match o with
    | .raised why => w.finish [] (.raised why)
    | _ => w.finish []

/-- One step of the watcher. -/
def step (w : Watcher) : Input → Result
  | .watch root opened => w.watch root opened
  | .close => w.close
  | .pause => w.pause
  | .resume => w.resume
  | .clear => w.clear
  | .event generation .ready => w.onReady generation
  | .event generation (.change path) => w.onChange generation path
  | .event generation (.error why) => w.onError generation why
  | .answer o =>
    match w.tasks with
    | [] => w.finish []
    | t :: rest => { w with tasks := rest }.proceed o t

/-- The state after some inputs. -/
def run (w : Watcher) (inputs : List Input) : Watcher :=
  inputs.foldl (fun w i => (w.step i).state) w

end Watcher

end Marginalia
