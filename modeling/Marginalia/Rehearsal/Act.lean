import Marginalia.Assembly
import Marginalia.Files

/-!
# Acts

What the host of a rehearsal does, one act at a time, and the cues that it reacts to. Subscriptions
are named by number; a negative number counts from the latest one backwards.
-/

namespace Marginalia.Rehearsal

/-- An act. -/
inductive Act
  /-- Let the watcher watch a directory. The notifier refuses, or its first listeners find some
  events waiting. -/
  | watch (root : String) (waiting : List Notifier.Event) (refusal : Option Failure)
  | close
  | pause
  | resume
  /-- Let the watcher forget what waits. -/
  | clear
  /-- Start the session; the notifier may refuse. -/
  | start (cwd : Option String) (refusal : Option Failure)
  | agentStart
  | agentEnd
  | shutdown
  /-- Let deliveries fail from now on, or succeed again. -/
  | hinder (why : Option Failure)
  /-- Hand some blocks to the session as if a watcher had done so. -/
  | handOver (blocks : List Block)
  /-- Tell the listeners of a relayed subscription an event. -/
  | emit (e : Notifier.Event) (subscription : Int)
  /-- Open an observed subscription. -/
  | subscribe (paths : List String) (options : Notifier.Options)
  /-- Listen to the events of a kind, which is given by name. -/
  | listen (kind name : String) (subscription : Int)
  | closeSubscription (subscription : Int)
  | record (path : String) (subscription : Int)
  | raw (r : Notifier.Raw) (subscription : Int)
  /-- Give the dispatcher some turns. -/
  | turns (n : Nat) (subscription : Int)
  /-- Let time go by. -/
  | wait (ms : Int)
  | write (path : String) (c : Content)
  | erase (path : String)
  /-- Fail. -/
  | fail (why : Failure)
  /-- Send the program a signal. -/
  | signal (number : Int)
  /-- Interrupt the program's sleep by the keyboard. -/
  | interrupt

/-- What the host reacts to. -/
inductive Cue
  | comment
  | trigger
  | ready
  | error
  | deliver
  | notify
  /-- An event heard under a name. -/
  | heard (name : String)
  deriving DecidableEq, Repr

/-- The cue that a question gives. -/
def cue? : Assembly.Question → Option Cue
  | .attach .. | .read _ => none
  | .comment .. => some .comment
  | .trigger _ => some .trigger
  | .ready => some .ready
  | .error _ => some .error
  | .deliver _ => some .deliver
  | .notify .. => some .notify
  | .hear name _ => some (.heard name)

/-- What is seen in a rehearsal. -/
inductive Sight
  /-- Something of the assembly. -/
  | part (n : Assembly.Note)
  /-- The program prepares for a signal. -/
  | prepared (signal : Int)
  /-- The program goes to sleep. -/
  | asleep

end Marginalia.Rehearsal
