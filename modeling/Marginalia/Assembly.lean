import Marginalia.Notifier.Opening
import Marginalia.Session
import Marginalia.Watcher.Basic

/-!
# Assemblies

An assembly puts the parts together: a session if there is one, watchers, and the subscriptions of
their notifier. What one part asks another is passed on inside; what remains are the calls of the
host and the questions to it. The host may call while it is asked, and so on to any depth: the
callers that wait for their callee to end are kept as a stack.

A subscription is either observed, and then part of the assembly, or relayed, and then a matter of
the host, which is told of its opening and closing and brings its events.

`step` does one thing at a time. It does not loop: as long as a part has something to do the host
has to say `Input.proceed`.
-/

namespace Marginalia

namespace Assembly

/-- Who listens to an observed subscription. -/
inductive Listener
  /-- A watcher in one of its generations. -/
  | watcher (id generation : Nat)
  /-- The host, under a name. -/
  | host (name : String)
  deriving DecidableEq, Repr

/-- A subscription. -/
inductive Channel
  | relayed
  | observed (s : Notifier.Subscription Listener)

/-- A call of a part. -/
inductive Call
  | session (i : Session.Input)
  /-- Let a watcher watch a directory. -/
  | watch (watcher : Nat) (root : String)
  | watcher (id : Nat) (i : Watcher.Input)
  | subscription (id : Nat) (i : Notifier.Input Listener)
  /-- Open an observed subscription. -/
  | subscribe (paths : List String) (options : Notifier.Options)

/-- Who waits for the end of a call. -/
inductive Caller
  | host
  | session
  | watcher (id : Nat)
  | subscription (id : Nat)
  deriving DecidableEq, Repr

/-- What the host is asked. -/
inductive Question
  /-- Let a watcher hear the events of a kind of a relayed subscription. -/
  | attach (subscription : Nat) (kind : Notifier.EventKind) (watcher generation : Nat)
  /-- Read a file. -/
  | read (path : String)
  /-- Take note of a new block and of all that wait. -/
  | comment (block : Block) (all : List Block)
  /-- Take over the blocks of a trigger. -/
  | trigger (blocks : List Block)
  | ready
  | error (why : Failure)
  /-- Hand a message to the agent. -/
  | deliver (message : String)
  | notify (message : String) (gravity : Session.Gravity)
  /-- Hear an event that was listened to under a name. -/
  | hear (name : String) (e : Notifier.Event)
  deriving Repr

/-- What is seen of an assembly. -/
inductive Note
  | log (entry : Log.Entry)
  /-- A relayed subscription has been opened. -/
  | subscribed (root : String) (options : Notifier.Options)
  /-- A relayed subscription has been closed. -/
  | unsubscribed (id : Nat)
  /-- What an observer does, and how its dispatcher spends the time. -/
  | observer (n : Notifier.Note)
  /-- The host is asked. -/
  | asked (q : Question)
  /-- A call of the host has ended. -/
  | ended (o : Outcome)

/-- An input of the host. -/
inductive Input
  | call (c : Call)
  /-- The answer to the latest question that has none. -/
  | answer (o : Outcome)
  /-- Let the parts go on. -/
  | proceed
  /-- Time goes by. -/
  | wait (ms : Int)
  /-- From now on relayed subscriptions cannot be opened for the reason given, if one is. -/
  | refuse (why : Option Failure)

end Assembly

/-! ## The state -/

/-- An assembly. -/
structure Assembly where
  /-- What observed subscriptions meet when they open. -/
  surroundings : Notifier.Surroundings
  /-- The subscriptions of watchers are relayed. -/
  relays : Bool := false
  /-- Why relayed subscriptions cannot be opened. -/
  refusal : Option Failure := none
  session : Option Session := none
  watchers : List Watcher := []
  channels : List Assembly.Channel := []
  /-- The present time in milliseconds. -/
  now : Int := 0
  /-- Those that wait for the end of a call, the latest first. -/
  callers : List Assembly.Caller := []
  /-- The call of a part that is to be done; when there is none, it is the host's turn. -/
  work : Option Assembly.Call := none

namespace Assembly

/-- The outcome of a step: the new state and what is seen. -/
abbrev Result := Assembly × List Note

/-- Puts what was seen before in front of a result. -/
def Result.after (notes : List Note) (r : Result) : Result :=
  (r.1, notes ++ r.2)

/-- The host can act. -/
def isHostsTurn (a : Assembly) : Bool :=
  a.work.isNone

/-! ## Calls and answers -/

/-- Hands a call to its callee, for which the caller waits. -/
def call (a : Assembly) (caller : Caller) (c : Call) : Result :=
  ({ a with callers := caller :: a.callers, work := some c }, [])

/-- Asks the host, for which the caller waits. -/
def askHost (a : Assembly) (caller : Caller) (q : Question) : Result :=
  ({ a with callers := caller :: a.callers, work := none }, [.asked q])

/-- Ends a call: its caller goes on. -/
def settle (a : Assembly) (o : Outcome) : Result :=
  match a.callers with
  | [] => ({ a with work := none }, [])
  | .host :: rest => ({ a with callers := rest, work := none }, [.ended o])
  | .session :: rest => ({ a with callers := rest, work := some (.session (.answer o)) }, [])
  | .watcher id :: rest => ({ a with callers := rest, work := some (.watcher id (.answer o)) }, [])
  | .subscription id :: rest =>
    ({ a with callers := rest, work := some (.subscription id (.answer o)) }, [])

/-! ## Subscriptions -/

/-- What is seen of a subscription. -/
def noteOf (n : Notifier.Note) : Note :=
  match n with
  | .log entry => .log entry
  | n => .observer n

/-- The time that is spent in waiting. -/
def waited (notes : List Notifier.Note) : Int :=
  notes.foldl (fun total n => match n with | .waited ms => total + ms | _ => total) 0

/-- Closes a subscription. -/
def closeChannel (a : Assembly) (id : Nat) : Result :=
  match a.channels[id]? with
  | some (.observed s) =>
    ({ a with channels := a.channels.set id (.observed s.close.1) }, s.close.2.map noteOf)
  | _ => (a, [.unsubscribed id])

/-- Opens an observed subscription. -/
def openObserved (a : Assembly) (paths : List String) (o : Notifier.Options) :
    Assembly × List Note × Except Failure Nat :=
  match Notifier.Subscription.start Listener a.surroundings paths o with
  | (notes, .ok s) =>
    ({ a with channels := a.channels ++ [.observed s] }, notes.map noteOf, .ok a.channels.length)
  | (notes, .error why) => (a, notes.map noteOf, .error why)

/-- Opens a relayed subscription. -/
def openRelayed (a : Assembly) (root : String) (o : Notifier.Options) :
    Assembly × List Note × Except Failure Nat :=
  match a.refusal with
  | some why => (a, [], .error why)
  | none =>
    ({ a with channels := a.channels ++ [.relayed] }, [.subscribed root o], .ok a.channels.length)

/-- Opens a subscription for a watcher. -/
def openChannel (a : Assembly) (root : String) (o : Notifier.Options) :
    Assembly × List Note × Except Failure Nat :=
  if a.relays then a.openRelayed root o else a.openObserved [root] o

/-- One step of a subscription. -/
def stepSubscription (a : Assembly) (id : Nat) (i : Notifier.Input Listener) : Result :=
  match a.channels[id]? with
  | some (.observed s) =>
    let r := s.step a.now i
    let a := { a with
      channels := a.channels.set id (.observed r.state), now := a.now + waited r.notes }
    Result.after (r.notes.map noteOf) <| match r.turn with
      | .ends o => a.settle o
      | .asks q =>
        match q.listener with
        | .watcher w generation =>
          a.call (.subscription id) (.watcher w (.event generation q.event))
        | .host name => a.askHost (.subscription id) (.hear name q.event)
  | _ => a.settle .returned

/-! ## Watchers -/

/-- Passes on what a watcher asks. A watcher of a session calls back the session, any other the
host. -/
def watcherAsks (a : Assembly) (id : Nat) : Watcher.Question → Result
  | .attach channel kind generation =>
    match a.channels[channel]? with
    | some (.observed _) =>
      a.call (.watcher id) (.subscription channel (.attach kind (.watcher id generation)))
    | _ => a.askHost (.watcher id) (.attach channel kind id generation)
  | .read path => a.askHost (.watcher id) (.read path)
  | .comment block all =>
    if a.session.isSome then a.call (.watcher id) (.session (.comment block all))
    else a.askHost (.watcher id) (.comment block all)
  | .trigger blocks =>
    if a.session.isSome then a.call (.watcher id) (.session (.trigger blocks))
    else a.askHost (.watcher id) (.trigger blocks)
  | .ready =>
    if a.session.isSome then a.call (.watcher id) (.session .ready)
    else a.askHost (.watcher id) .ready
  | .error why =>
    if a.session.isSome then a.call (.watcher id) (.session (.error why))
    else a.askHost (.watcher id) (.error why)

/-- Does what a watcher notes: subscriptions are closed, and the opening of one is seen where it
took place. -/
def absorb (opening : List Note) (a : Assembly) : List Watcher.Note → Result
  | [] => (a, [])
  | .log entry :: rest => Result.after [.log entry] (absorb opening a rest)
  | .unsubscribed id :: rest =>
    let closed := a.closeChannel id
    Result.after closed.2 (absorb opening closed.1 rest)
  | .subscribing _ :: rest => Result.after opening (absorb opening a rest)

/-- One step of a watcher. -/
def stepWatcher (a : Assembly) (id : Nat) (opening : List Note) (i : Watcher.Input) : Result :=
  match a.watchers[id]? with
  | none => a.settle .returned
  | some w =>
    let r := w.step i
    let done := absorb opening { a with watchers := a.watchers.set id r.state } r.notes
    Result.after done.2 <| match r.turn with
      | .ends o => done.1.settle o
      | .asks q => done.1.watcherAsks id q

/-- Lets a watcher watch a directory by way of a new subscription. -/
def watch (a : Assembly) (id : Nat) (root : String) : Result :=
  match a.watchers[id]? with
  | none => a.settle .returned
  | some w =>
    let (a, opening, opened) := a.openChannel root w.options.forNotifier
    a.stepWatcher id opening (.watch root opened)

/-! ## The session -/

/-- Makes a watcher for the session. -/
def makeWatcher (a : Assembly) (o : Watcher.Options) : Result :=
  match Watcher.make o {} a.surroundings.home with
  | .ok w =>
    ({ a with
      watchers := a.watchers ++ [w]
      work := some (.session (.answer (.made a.watchers.length))) }, [])
  | .error e => ({ a with work := some (.session (.answer (.raised (.pattern e)))) }, [])

/-- Passes on what the session asks. -/
def sessionAsks (a : Assembly) : Session.Question → Result
  | .make options => a.makeWatcher options
  | .watch id root => a.call .session (.watch id root)
  | .close id => a.call .session (.watcher id .close)
  | .pause id => a.call .session (.watcher id .pause)
  | .resume id => a.call .session (.watcher id .resume)
  | .deliver message => a.askHost .session (.deliver message)
  | .notify message gravity => a.askHost .session (.notify message gravity)

/-- One step of the session. -/
def stepSession (a : Assembly) (i : Session.Input) : Result :=
  match a.session with
  | none => a.settle .returned
  | some s =>
    let r := s.step i
    let a := { a with session := some r.state }
    Result.after (r.notes.map .log) <| match r.turn with
      | .ends o => a.settle o
      | .asks q => a.sessionAsks q

/-! ## The machine -/

/-- Opens an observed subscription for the host. -/
def subscribe (a : Assembly) (paths : List String) (o : Notifier.Options) : Result :=
  match a.openObserved paths o with
  | (a, notes, .ok id) => Result.after notes (a.settle (.made id))
  | (a, notes, .error why) => Result.after notes (a.settle (.raised why))

/-- Does a call of a part. -/
def perform (a : Assembly) : Call → Result
  | .session i => a.stepSession i
  | .watch id root => a.watch id root
  | .watcher id i => a.stepWatcher id [] i
  | .subscription id i => a.stepSubscription id i
  | .subscribe paths options => a.subscribe paths options

/-- One step of the assembly. The host is heard only when it is its turn. -/
def step (a : Assembly) (i : Input) : Result :=
  match a.work, i with
  | some c, .proceed => a.perform c
  | none, .call c => a.call .host c
  | none, .answer o => a.settle o
  | none, .wait ms => ({ a with now := a.now + ms }, [])
  | none, .refuse why => ({ a with refusal := why }, [])
  | _, _ => (a, [])

end Assembly

end Marginalia
