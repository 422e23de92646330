import Marginalia.Program
import Marginalia.Rehearsal.Act

/-!
# Rehearsals

A rehearsal plays an assembly with a host whose acts are written down beforehand: the acts of each
scene, and for each cue the acts of the host's reactions, one list for the first time, one for the
second, and so on. Files are held in memory and time passes only when it is told to.

The host keeps a stack of what it is in the middle of. `step` lets the parts of the assembly go on
as long as they have something to do, and else takes the next thing from the stack.
-/

namespace Marginalia

namespace Rehearsal

/-- A relayed subscription, which the host runs: events that wait for the first listener of their
kind, and the listeners, each a watcher in one of its generations. -/
structure Relay where
  waiting : List Notifier.Event := []
  listeners : List (Notifier.EventKind × Nat × Nat) := []

/-- Something that the host is in the middle of. -/
inductive Frame
  /-- A scene. -/
  | scene (rest : List Act)
  /-- The reaction to a question; at its end a delivery may fail. -/
  | reaction (rest : List Act) (delivers : Bool)
  /-- A question is answered when a watcher has heard some events. -/
  | hearing (watcher generation : Nat) (rest : List Notifier.Event)
  /-- An event is told to some listeners. -/
  | emitting (e : Notifier.Event) (rest : List (Nat × Nat))
  /-- The dispatcher of a subscription has some turns left. -/
  | turning (n : Nat) (subscription : Nat)

end Rehearsal

/-- A rehearsal. -/
structure Rehearsal where
  assembly : Assembly
  files : Files := {}
  /-- The reactions that are left. -/
  reactions : List (Rehearsal.Cue × List (List Rehearsal.Act)) := []
  /-- Why deliveries fail. -/
  hindrance : Option Failure := none
  /-- The events that wait in the next relayed subscription. -/
  waiting : List Notifier.Event := []
  relays : List Rehearsal.Relay := []
  frames : List Rehearsal.Frame := []
  /-- What has been seen. -/
  seen : List Rehearsal.Sight := []
  /-- The failure that ended the present scene. -/
  failure : Option Failure := none
  /-- The program has been asked to stop. -/
  stopping : Bool := false
  /-- The keyboard has interrupted the present scene. -/
  interrupted : Bool := false

namespace Rehearsal

/-! ## Moves of the host -/

/-- Takes note of what an assembly shows. -/
def see (r : Rehearsal) (n : Assembly.Note) : Rehearsal :=
  { r with seen := r.seen ++ [.part n] }

/-- Makes a move of which nothing is seen. -/
def move (r : Rehearsal) (i : Assembly.Input) : Rehearsal :=
  { r with assembly := (r.assembly.step i).1 }

/-- Calls a part. -/
def call (r : Rehearsal) (c : Assembly.Call) : Rehearsal :=
  r.move (.call c)

/-- Answers a question. -/
def answer (r : Rehearsal) (o : Outcome) : Rehearsal :=
  r.move (.answer o)

/-- Fails: what the host is in the middle of ends. A reaction passes the failure on to the part that
asked, a scene keeps it. -/
def fail (r : Rehearsal) (why : Failure) : List Frame → Rehearsal
  | [] => { r with frames := [], failure := some why }
  | .scene _ :: rest => { r with frames := rest, failure := some why }
  | .reaction .. :: rest | .hearing .. :: rest => { r with frames := rest }.answer (.raised why)
  | .emitting .. :: rest | .turning .. :: rest => r.fail why rest

/-- Ends a reaction; a delivery may be hindered. -/
def reacted (r : Rehearsal) (delivers : Bool) : Rehearsal :=
  r.answer <| match r.hindrance, delivers with
    | some why, true => .raised why
    | _, _ => .returned

/-! ## Questions -/

/-- Takes the next reaction to a cue out of those that are left. -/
def takeReaction (c : Cue) :
    List (Cue × List (List Act)) → List Act × List (Cue × List (List Act))
  | [] => ([], [])
  | (d, times) :: rest =>
    if c = d then
      match times with
      | [] => ([], (d, []) :: rest)
      | acts :: later => (acts, (d, later) :: rest)
    else
      let (acts, others) := takeReaction c rest
      (acts, (d, times) :: others)

/-- Attaches a watcher to a relayed subscription; it hears at once what waited for it. -/
def attach (r : Rehearsal) (id : Nat) (kind : Notifier.EventKind) (watcher generation : Nat) :
    Rehearsal :=
  match r.relays[id]? with
  | none => r.answer .returned
  | some relay =>
    let (waiting, others) := relay.waiting.partition (·.kind = kind)
    let listeners := relay.listeners ++ [(kind, watcher, generation)]
    { r with
      relays := r.relays.set id ⟨others, listeners⟩
      frames := .hearing watcher generation waiting :: r.frames }

/-- Answers a question, or begins to. -/
def react (r : Rehearsal) (q : Assembly.Question) : Rehearsal :=
  match q with
  | .attach id kind watcher generation => r.attach id kind watcher generation
  | .read path =>
    match r.files.readText path with
    | .ok content => r.answer (.text content)
    | .error why => r.answer (.raised why)
  | q =>
    match cue? q with
    | none => r.answer .returned
    | some c =>
      let (acts, left) := takeReaction c r.reactions
      { r with reactions := left, frames := .reaction acts (c = .deliver) :: r.frames }

/-- Takes in what an assembly shows. Nothing is seen of a dispatcher that waits. -/
def take (r : Rehearsal) (n : Assembly.Note) : Rehearsal :=
  match n with
  | .observer (.waited _) => r
  | .ended o =>
    match o.failure? with
    | some why => r.fail why r.frames
    | none => r
  | .asked q => (r.see n).react q
  | .subscribed .. => { r.see n with relays := r.relays ++ [⟨r.waiting, []⟩] }
  | n => r.see n

/-! ## Acts -/

/-- The watcher of the session, or else the first one. -/
def watcher? (r : Rehearsal) : Option Nat :=
  match r.assembly.session with
  | some s => s.watcher
  | none => some 0

/-- Calls the watcher. -/
def callWatcher (r : Rehearsal) (c : Nat → Assembly.Call) : Rehearsal :=
  match r.watcher? with
  | some id => r.call (c id)
  | none => r

/-- The subscription that a number stands for. -/
def subscription? (r : Rehearsal) (n : Int) : Option Nat :=
  let count := r.assembly.channels.length
  let place := if n < 0 then count + n else n
  if 0 ≤ place && place < count then some place.toNat else none

/-- Calls a subscription. -/
def callSubscription (r : Rehearsal) (n : Int) (i : Notifier.Input Assembly.Listener) : Rehearsal :=
  match r.subscription? n with
  | some id => r.call (.subscription id i)
  | none => r

/-- Begins to tell the listeners of a relayed subscription an event. -/
def emit (r : Rehearsal) (e : Notifier.Event) (n : Int) : Rehearsal :=
  match (r.subscription? n).bind (r.relays[·]?) with
  | some relay =>
    let listeners := (relay.listeners.filter (·.1 = e.kind)).map (·.2)
    { r with frames := .emitting e listeners :: r.frames }
  | none => r

/-- Changes the files, also for subscriptions that will be opened. -/
def setFiles (r : Rehearsal) (fs : Files) : Rehearsal :=
  let around := { r.assembly.surroundings with tree := fs.tree }
  { r with files := fs, assembly := { r.assembly with surroundings := around } }

/-- Does an act. -/
def perform (r : Rehearsal) : Act → Rehearsal
  | .watch root waiting refusal =>
    ({ r with waiting := waiting }.move (.refuse refusal)).callWatcher (.watch · root)
  | .close => r.callWatcher (.watcher · .close)
  | .pause => r.callWatcher (.watcher · .pause)
  | .resume => r.callWatcher (.watcher · .resume)
  | .clear => r.callWatcher (.watcher · .clear)
  | .start cwd refusal =>
    ({ r with waiting := [] }.move (.refuse refusal)).call (.session (.start cwd))
  | .agentStart => r.call (.session .agentStart)
  | .agentEnd => r.call (.session .agentEnd)
  | .shutdown => r.call (.session .shutdown)
  | .hinder why => { r with hindrance := why }
  | .handOver blocks => r.call (.session (.trigger blocks))
  | .emit e n => r.emit e n
  | .subscribe paths options => r.call (.subscribe paths options)
  | .listen kind name n =>
    match Notifier.EventKind.ofName? kind with
    | some kind => r.callSubscription n (.attach kind (.host name))
    | none => r.fail (Notifier.EventKind.unknown kind) r.frames
  | .closeSubscription n => r.callSubscription n .close
  | .record path n => r.callSubscription n (.record path)
  | .raw raw n => r.callSubscription n (.raw raw)
  | .turns n subscription =>
    match r.subscription? subscription with
    | some id => { r with frames := .turning n id :: r.frames }
    | none => r
  | .wait ms => r.move (.wait ms)
  | .write path c => r.setFiles (r.files.set path c)
  | .erase path => r.setFiles (r.files.remove path)
  | .fail why => r.fail why r.frames
  | .signal number => { r.see (.log (Program.signalled number)) with stopping := true }
  | .interrupt => { r with frames := [], interrupted := true }

/-! ## Playing -/

/-- The subscription takes no more turns. -/
def isOver (r : Rehearsal) (id : Nat) : Bool :=
  match r.assembly.channels[id]? with
  | some (.observed s) => s.closed
  | _ => true

/-- Takes the next thing from the stack. -/
def act (r : Rehearsal) : Rehearsal :=
  match r.frames with
  | [] => r
  | .scene [] :: rest => { r with frames := rest }
  | .scene (a :: acts) :: rest => { r with frames := .scene acts :: rest }.perform a
  | .reaction [] delivers :: rest => { r with frames := rest }.reacted delivers
  | .reaction (a :: acts) delivers :: rest =>
    { r with frames := .reaction acts delivers :: rest }.perform a
  | .hearing _ _ [] :: rest => { r with frames := rest }.answer .returned
  | .hearing watcher generation (e :: events) :: rest =>
    { r with frames := .hearing watcher generation events :: rest }.call
      (.watcher watcher (.event generation e))
  | .emitting _ [] :: rest => { r with frames := rest }
  | .emitting e ((watcher, generation) :: listeners) :: rest =>
    { r with frames := .emitting e listeners :: rest }.call (.watcher watcher (.event generation e))
  | .turning 0 _ :: rest => { r with frames := rest }
  | .turning (n + 1) id :: rest =>
    if r.isOver id then { r with frames := rest }
    else { r with frames := .turning n id :: rest }.call (.subscription id .turn)

/-- One step of the rehearsal. -/
def step (r : Rehearsal) : Rehearsal :=
  if r.assembly.isHostsTurn then r.act
  else
    let (assembly, notes) := r.assembly.step .proceed
    notes.foldl take { r with assembly := assembly }

/-- Plays until the host is in the middle of nothing, in at most so many steps. -/
def play : Nat → Rehearsal → Rehearsal
  | 0, r => r
  | steps + 1, r => if r.frames.isEmpty then r else play steps r.step

/-- The host begins a scene. -/
def enter (acts : List Act) (r : Rehearsal) : Rehearsal :=
  { r with frames := [.scene acts], failure := none, interrupted := false }

/-- Plays a scene in at most so many steps; what was seen before is forgotten. -/
def playScene (steps : Nat) (acts : List Act) (r : Rehearsal) : Rehearsal :=
  play steps (enter acts { r with seen := [] })

end Rehearsal

end Marginalia
