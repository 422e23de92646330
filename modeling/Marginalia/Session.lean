import Marginalia.Call
import Marginalia.Log.Basic
import Marginalia.Message
import Marginalia.Path
import Marginalia.Watcher.Options

/-!
# Sessions

A session owns a watcher for as long as an agent works with the host. It tells the watcher to pause
while the agent works, so that the agent's own edits do not start it again, turns what the watcher
hands over into a message for the host, and keeps the host informed.

Watchers are known to a session by number. `step` is the whole machine; what a session asks of its
watcher, and of the host, is a question.
-/

namespace Marginalia

namespace Session

/-- How grave a notification is. -/
inductive Gravity
  | info
  | error
  deriving DecidableEq, Repr

/-- The word for a gravity. -/
def Gravity.name : Gravity → String
  | .info => "info"
  | .error => "error"

/-! ## Questions and tasks -/

/-- What a session asks a watcher or the host to do. -/
inductive Question
  /-- Make a watcher that calls back the session. -/
  | make (options : Watcher.Options)
  | watch (watcher : Nat) (root : String)
  | close (watcher : Nat)
  | pause (watcher : Nat)
  | resume (watcher : Nat)
  /-- Hand a message to the agent. -/
  | deliver (message : String)
  /-- Inform the host. -/
  | notify (message : String) (gravity : Gravity)
  deriving Repr

/-- What remains to be done once a question is answered. -/
inductive Task
  /-- The session has still to begin, once the former watcher is closed. -/
  | beginning (cwd : Option String)
  /-- The new watcher has still to watch. -/
  | making (root : String)
  /-- The session ends once its watcher is closed. -/
  | ending
  /-- The host has still to be informed that the watcher goes on. -/
  | resuming
  /-- The host has still to be informed about a delivery of blocks. -/
  | delivering (blocks : List Block)
  /-- Nothing. -/
  | waiting
  deriving DecidableEq, Repr

/-- An input of a session. -/
inductive Input
  /-- Begin in a directory; without one, in that of the settings. -/
  | start (cwd : Option String)
  /-- The agent begins to work. -/
  | agentStart
  /-- The agent has done its work. -/
  | agentEnd
  | shutdown
  /-- A watcher has found a new block among all that wait. -/
  | comment (block : Block) (all : List Block)
  /-- A watcher hands over the blocks of a trigger. -/
  | trigger (blocks : List Block)
  /-- A watcher says that observation has begun. -/
  | ready
  /-- A watcher passes on a failure of the notifier. -/
  | error (why : Failure)
  /-- The answer to the latest question that has none. -/
  | answer (o : Outcome)

end Session

/-! ## The state -/

/-- A session. -/
structure Session where
  settings : Settings
  /-- The current directory of the host. -/
  home : String
  /-- The host wants to be informed; if not, the log is. -/
  notifies : Bool := true
  /-- The logger of the session. -/
  logger : String := Log.sessionLogger
  /-- The present watcher. -/
  watcher : Option Nat := none
  /-- The directory of the session. -/
  cwd : Option String := none
  /-- What remains to be done, the latest task first. -/
  tasks : List Session.Task := []

namespace Session

/-- The outcome of a step of a session; on the way it only writes to the log. -/
abbrev Result := Step Session Log.Entry Question

/-! ## Texts -/

/-- A number of things. -/
def counted (n : Nat) (word : String) : String :=
  toString n ++ " " ++ word ++ (if n = 1 then "" else "s")

/-- The number of files that hold some blocks. -/
def fileCount (blocks : List Block) : Nat :=
  (Message.filesOf blocks).length

/-- Some blocks wait. -/
def collectedText (all : List Block) : String :=
  counted all.length "AI comment" ++ " collected from " ++ counted (fileCount all) "file" ++ "."

/-- Some blocks have been sent. -/
def sentText (blocks : List Block) : String :=
  "AI! comment found (sending " ++ counted blocks.length "comment" ++ " from "
    ++ counted (fileCount blocks) "file" ++ ")"

/-- The session watches. -/
def watchingText (s : Session) : String :=
  "Watching " ++ s.cwd.getD "None" ++ " for AI comments..."

/-! ## Ends and questions -/

/-- Ends the call. -/
def finish (s : Session) (notes : List Log.Entry) (o : Outcome := .returned) : Result :=
  ⟨s, notes, .ends o⟩

/-- Asks, and keeps what remains to be done. -/
def ask (s : Session) (notes : List Log.Entry) (q : Question) (t : Task) : Result :=
  ⟨{ s with tasks := t :: s.tasks }, notes, .asks q⟩

/-- Informs the host, or the log in its place. -/
def inform (s : Session) (notes : List Log.Entry) (text : String) (gravity : Gravity) : Result :=
  if s.notifies then s.ask notes (.notify text gravity) .waiting
  else
    let level := match gravity with
      | .info => Log.Level.info
      | .error => Log.Level.error
    s.finish (notes ++ [{ logger := s.logger, level, text }])

/-! ## The calls of the host -/

/-- The directory of a session that is started in `cwd`. -/
def startDirectory (s : Session) (cwd : Option String) : String :=
  let chosen := cwd.getD ""
  Path.absoluteText s.home (if chosen = "" then s.settings.watchPath else chosen)

/-- Begins in a directory, with a watcher of its own. -/
def begin (s : Session) (cwd : Option String) : Result :=
  let root := s.startDirectory cwd
  { s with cwd := some root }.ask [] (.make (Watcher.Options.ofSettings s.settings (some root)))
    (.making root)

/-- Begins in a directory; the former watcher is closed first. -/
def start (s : Session) (cwd : Option String) : Result :=
  match s.watcher with
  | some id => s.ask [] (.close id) (.beginning cwd)
  | none => s.begin cwd

/-- Pauses the watcher while the agent works. -/
def agentStart (s : Session) : Result :=
  match s.watcher with
  | some id => s.ask [] (.pause id) .waiting
  | none => s.finish []

/-- Lets the watcher go on and informs the host. -/
def agentEnd (s : Session) : Result :=
  match s.watcher with
  | some id => s.ask [] (.resume id) .resuming
  | none => s.finish []

/-- Ends the session. -/
def shutdown (s : Session) : Result :=
  match s.watcher with
  | some id => s.ask [] (.close id) .ending
  | none => { s with cwd := none }.finish []

/-! ## The calls of the watcher -/

/-- Delivers the message about the blocks of a trigger. -/
def deliver (s : Session) (blocks : List Block) : Result :=
  if blocks.isEmpty then s.finish []
  else s.ask [] (.deliver (Message.ofBlocks s.home s.cwd blocks)) (.delivering blocks)

/-- Informs the host about a delivery; a failure of it stays here if it can be reported. -/
def delivered (s : Session) (blocks : List Block) (o : Outcome) : Result :=
  match o.failure? with
  | some why =>
    match why.report with
    | .ok report =>
      let entry : Log.Entry :=
        { logger := s.logger, level := Log.Level.error
          text := "❌ Failed to deliver AI message: " ++ report, traced := true }
      s.inform [entry] ("Error sending message: " ++ report) .error
    | .error worse => s.finish [] (.raised worse)
  | none => s.inform [] (sentText blocks) .info

/-- Informs the host about a failure of the notifier, which has to be put into words. -/
def passOn (s : Session) (why : Failure) : Result :=
  match why.words with
  | .ok text => s.inform [] ("Watcher error: " ++ text) .error
  | .error worse => s.finish [] (.raised worse)

/-! ## The machine -/

/-- Goes on with a task whose question has been answered. A failure ends the call, unless it was
met in delivering a message. -/
def proceed (s : Session) (o : Outcome) : Task → Result
  | .delivering blocks => s.delivered blocks o
  | t =>
    match o, t with
    | .raised why, _ => s.finish [] (.raised why)
    | _, .beginning cwd => s.begin cwd
    | .made id, .making root => { s with watcher := some id }.ask [] (.watch id root) .waiting
    | _, .ending => { s with watcher := none, cwd := none }.finish []
    | _, .resuming => s.inform [] s.watchingText .info
    | _, _ => s.finish []

/-- One step of the session. -/
def step (s : Session) : Input → Result
  | .start cwd => s.start cwd
  | .agentStart => s.agentStart
  | .agentEnd => s.agentEnd
  | .shutdown => s.shutdown
  | .comment _ all => s.inform [] (collectedText all) .info
  | .trigger blocks => s.deliver blocks
  | .ready => s.inform [] s.watchingText .info
  | .error why => s.passOn why
  | .answer o =>
    match s.tasks with
    | [] => s.finish []
    | t :: rest => { s with tasks := rest }.proceed o t

/-- The state after some inputs. -/
def run (s : Session) (inputs : List Input) : Session :=
  inputs.foldl (fun s i => (s.step i).state) s

end Session

end Marginalia
