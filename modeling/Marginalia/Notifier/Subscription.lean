import Marginalia.Call
import Marginalia.Entries
import Marginalia.Ignore
import Marginalia.Log.Basic
import Marginalia.Notifier.Event

/-!
# Subscriptions

A subscription observes some directories and tells its listeners what happens there. Raw events of
one path are gathered: the path is dirty until it has been quiet for a while, and then one change is
told. What is to be told waits in a queue, which the turns of a dispatcher empty one event at a
time. An event of a kind that nobody listens to waits for the first listener of its kind.

The present time comes with every input, in milliseconds. `step` is the whole machine; `ℓ` stands
for whatever a listener is known by. A turn that ends with a failure is the last one: whoever gives
the dispatcher its turns gives it no more of them.
-/

namespace Marginalia.Notifier

/-! ## Tasks -/

/-- What follows when an event has been told. -/
inductive Sequel
  /-- The quiet paths have to be looked for. -/
  | collect
  /-- The changes of some paths have still to be told. -/
  | changes (paths : List String)
  deriving DecidableEq, Repr

/-- What remains to be done once a listener has heard an event. -/
inductive Task (ℓ : Type)
  /-- The listener has still to hear events that waited for it. -/
  | replaying (listener : ℓ) (kind : EventKind) (rest : List Event)
  /-- The event has still to be told to some listeners. -/
  | telling (e : Event) (rest : List ℓ) (sequel : Sequel)
  deriving Repr

/-- The kind of the event that a listener is hearing. -/
def Task.kind {ℓ : Type} : Task ℓ → EventKind
  | .replaying _ kind _ => kind
  | .telling e _ _ => e.kind

/-- What a subscription asks: that a listener hear an event. -/
structure Telling (ℓ : Type) where
  listener : ℓ
  event : Event
  deriving Repr

/-- What a subscription does by the way. -/
inductive Note
  | log (entry : Log.Entry)
  /-- The observer is set on a directory. -/
  | scheduled (path : String)
  /-- The observer begins. -/
  | started
  /-- The observer is told to end. -/
  | stopped
  /-- The observer has ended. -/
  | joined
  /-- The dispatcher has waited in vain. -/
  | waited (ms : Int)
  deriving DecidableEq, Repr

/-- An input of a subscription. -/
inductive Input (ℓ : Type)
  /-- Let a listener hear the events of a kind from now on. -/
  | attach (kind : EventKind) (listener : ℓ)
  | close
  /-- Take note that a path was touched. -/
  | record (path : String)
  /-- A raw event of the observer. -/
  | raw (r : Raw)
  /-- A turn of the dispatcher. -/
  | turn
  /-- The answer to the latest question that has none. -/
  | answer (o : Outcome)

/-! ## The state -/

/-- A subscription. -/
structure Subscription (ℓ : Type) where
  /-- The directories that are observed. -/
  paths : List String
  /-- The same directories as absolute paths, also those that links lead to. -/
  roots : List String
  /-- The patterns of ignored paths. -/
  patterns : List Pattern
  options : Options
  /-- The current directory. -/
  home : String
  /-- The observer is set on some directory. -/
  observes : Bool := true
  /-- The observer has begun. -/
  started : Bool := true
  /-- The listeners, in the order in which they were attached. -/
  listeners : List (EventKind × ℓ) := []
  /-- The events that wait for the first listener of their kind. -/
  backlog : List Event := []
  /-- The events that wait for the dispatcher. -/
  queue : List Event := []
  /-- The dirty paths with the time of the last raw event of each. -/
  dirty : List (String × Int) := []
  closed : Bool := false
  /-- What remains to be done, the latest task first. -/
  tasks : List (Task ℓ) := []

namespace Subscription

variable {ℓ : Type}

/-- The outcome of a step of a subscription. -/
abbrev Result (ℓ : Type) := Step (Subscription ℓ) Note (Telling ℓ)

/-- The path is ignored. Patterns see the part of a path inside the first root that holds it. -/
def ignores (s : Subscription ℓ) (path : String) : Bool :=
  let absolute := Path.absoluteText s.home path
  match s.roots.find? fun root => (Path.insideRoot? s.home absolute root).isSome with
  | some root => Ignore.isIgnoredBy s.patterns s.home absolute (some root)
  | none => Ignore.isIgnoredBy s.patterns s.home path none

/-- The listeners of a kind. -/
def listenersOf (s : Subscription ℓ) (kind : EventKind) : List ℓ :=
  (s.listeners.filter (·.1 = kind)).map (·.2)

/-- How long the dispatcher waits for an event. -/
def patience (s : Subscription ℓ) : Int :=
  max s.options.pollInterval 1

/-! ## Ends and questions -/

/-- Ends the call. -/
def finish (s : Subscription ℓ) (notes : List Note) : Result ℓ :=
  ⟨s, notes, .ends .returned⟩

/-- Ends the call with a failure. -/
def fail (s : Subscription ℓ) (why : Failure) : Result ℓ :=
  ⟨s, [], .ends (.raised why)⟩

/-- Lets a listener hear an event, and keeps what remains to be done. -/
def ask (s : Subscription ℓ) (notes : List Note) (listener : ℓ) (e : Event) (t : Task ℓ) :
    Result ℓ :=
  ⟨{ s with tasks := t :: s.tasks }, notes, .asks ⟨listener, e⟩⟩

/-- The entry about a listener that failed, with the report of its failure. -/
def complaint (kind : EventKind) (report : String) : Note :=
  .log {
    logger := Log.notifierLogger, level := Log.Level.error
    text := "❌ Listener for '" ++ kind.name ++ "' failed: " ++ report, traced := true }

/-- A listener that fails is logged, and nobody else takes notice, if its failure can be
reported. -/
def complaints (kind : EventKind) (o : Outcome) : Except Failure (List Note) :=
  match o.failure? with
  | none => .ok []
  | some why => why.report.map fun report => [complaint kind report]

/-! ## Raw events -/

/-- A path was touched; it is dirty from now on, unless it is ignored. -/
def record (s : Subscription ℓ) (now : Int) (path : String) : Subscription ℓ :=
  if s.closed || s.ignores path then s else { s with dirty := Entries.put path now s.dirty }

/-- Takes in a raw event. -/
def observe (s : Subscription ℓ) (now : Int) (r : Raw) : Subscription ℓ :=
  match r.touched? with
  | some path => if s.observes then s.record now path else s
  | none => s

/-! ## Telling -/

/-- The dirty path has been quiet for long enough. -/
def isQuiet (s : Subscription ℓ) (now : Int) (entry : String × Int) : Bool :=
  s.options.stabilityThreshold ≤ now - entry.2

/-- Tells the changes of some paths, one after the other. -/
def tellChanges (s : Subscription ℓ) (notes : List Note) : List String → Result ℓ
  | [] => s.finish notes
  | path :: rest =>
    if s.closed then s.finish notes
    else match s.listenersOf .change with
      | [] => { s with backlog := s.backlog ++ [Event.change path] }.tellChanges notes rest
      | listener :: others =>
        s.ask notes listener (.change path) (.telling (.change path) others (.changes rest))

/-- Tells the changes of the dirty paths that are quiet; they are clean from now on. -/
def collect (s : Subscription ℓ) (now : Int) (notes : List Note) : Result ℓ :=
  let quiet := s.dirty.filter (s.isQuiet now)
  let restless := s.dirty.filter fun entry => !s.isQuiet now entry
  { s with dirty := restless }.tellChanges notes (quiet.map Prod.fst)

/-- Goes on after an event. -/
def goOn (s : Subscription ℓ) (now : Int) (notes : List Note) : Sequel → Result ℓ
  | .collect => s.collect now notes
  | .changes paths => s.tellChanges notes paths

/-- A turn of the dispatcher: the first event of the queue is told, then the changes of the quiet
paths. An empty queue is waited for. -/
def turn (s : Subscription ℓ) (now : Int) : Result ℓ :=
  if s.closed then s.finish []
  else match s.queue with
    | [] => s.collect (now + s.patience) [.waited s.patience]
    | e :: queue =>
      let s := { s with queue := queue }
      match s.listenersOf e.kind with
      | [] => { s with backlog := s.backlog ++ [e] }.collect now []
      | listener :: others => s.ask [] listener e (.telling e others .collect)

/-! ## Listeners -/

/-- Lets a listener hear the events that waited for it. -/
def replay (s : Subscription ℓ) (notes : List Note) (listener : ℓ) (kind : EventKind) :
    List Event → Result ℓ
  | [] => s.finish notes
  | e :: rest =>
    if s.closed then s.finish notes
    else s.ask notes listener e (.replaying listener kind rest)

/-- Attaches a listener. -/
def attach (s : Subscription ℓ) (kind : EventKind) (listener : ℓ) : Result ℓ :=
  let (waiting, others) := s.backlog.partition (·.kind = kind)
  { s with listeners := s.listeners ++ [(kind, listener)], backlog := others }.replay []
    listener kind waiting

/-! ## Closing -/

/-- Closes the subscription, once. -/
def close (s : Subscription ℓ) : Subscription ℓ × List Note :=
  if s.closed then (s, [])
  else ({ s with closed := true, dirty := [] },
    .stopped :: (if s.started then [.joined] else []) ++
      [.log (.ofPhrases Log.notifierLogger Log.Level.debug
        [.words "Watchdog subscription closed | paths=",
          .value (.named (Text.quotedList s.paths) none)])])

/-! ## The machine -/

/-- Goes on with a task, when there is something to note about the listener that has heard the
event. -/
def resume (s : Subscription ℓ) (now : Int) (notes : List Note) : Task ℓ → Result ℓ
  | .replaying listener kind rest => s.replay notes listener kind rest
  | .telling _ [] sequel => s.goOn now notes sequel
  | .telling e (listener :: others) sequel => s.ask notes listener e (.telling e others sequel)

/-- Goes on with a task whose listener has heard the event. A failure that cannot be reported ends
the call, and what remained of the task is lost with it. -/
def proceed (s : Subscription ℓ) (now : Int) (o : Outcome) (t : Task ℓ) : Result ℓ :=
  match complaints t.kind o with
  | .ok notes => s.resume now notes t
  | .error why => s.fail why

/-- One step of the subscription at the given time. -/
def step (s : Subscription ℓ) (now : Int) : Input ℓ → Result ℓ
  | .attach kind listener => s.attach kind listener
  | .close => s.close.1.finish s.close.2
  | .record path => (s.record now path).finish []
  | .raw r => (s.observe now r).finish []
  | .turn => s.turn now
  | .answer o =>
    match s.tasks with
    | [] => s.finish []
    | t :: rest => { s with tasks := rest }.proceed now o t

/-- The state after some inputs, each with its time. -/
def run (s : Subscription ℓ) (inputs : List (Int × Input ℓ)) : Subscription ℓ :=
  inputs.foldl (fun s i => (s.step i.1 i.2).state) s

end Subscription

end Marginalia.Notifier
