import Marginalia.Failure

/-!
# Events of a notifier

What an observer of the file system tells a notifier, what the notifier tells its listeners, and the
options that a subscription is opened with.
-/

namespace Marginalia.Notifier

/-- The kinds of events; a listener listens to one kind. -/
inductive EventKind
  | ready
  | change
  | error
  deriving DecidableEq, Repr

namespace EventKind

/-- The name of a kind. -/
def name : EventKind → String
  | .ready => "ready"
  | .change => "change"
  | .error => "error"

/-- The kind of a name. -/
def ofName? (name : String) : Option EventKind :=
  [EventKind.ready, .change, .error].find? (·.name = name)

/-- The failure to listen to something that is no event. -/
def unknown (name : String) : Failure :=
  .plain .value (Text.quoted name ++ " is not a valid NotifierEvent")

end EventKind

/-- An event. -/
inductive Event
  /-- Observation has begun. -/
  | ready
  /-- The file at the path has changed. -/
  | change (path : String)
  /-- Something went wrong. -/
  | error (why : Failure)
  deriving DecidableEq, Repr

/-- The kind of an event. -/
def Event.kind : Event → EventKind
  | .ready => .ready
  | .change _ => .change
  | .error _ => .error

/-! ## Raw events -/

/-- What can happen to a path. -/
inductive Happening
  | created (path : String)
  | modified (path : String)
  | moved (path destination : String)
  /-- Anything that leaves no new content behind. -/
  | other
  deriving DecidableEq, Repr

/-- The path at which something that happens leaves new content. -/
def Happening.place? : Happening → Option String
  | .created path | .modified path => some path
  | .moved _ destination => some destination
  | .other => none

/-- What an observer of the file system sees. -/
structure Raw where
  happening : Happening
  /-- It happens to a directory. -/
  directory : Bool := false
  deriving DecidableEq, Repr

/-- The path of the file that a raw event leaves with new content. -/
def Raw.touched? (r : Raw) : Option String :=
  if r.directory then none else r.happening.place?

/-! ## Options -/

/-- The options of a subscription. -/
structure Options where
  /-- The sources of the patterns of ignored paths. -/
  ignored : List String := []
  /-- No events for the files that are there at the start. -/
  ignoreInitial : Bool := true
  /-- How many milliseconds without raw events make a change. -/
  stabilityThreshold : Int := 500
  /-- How many milliseconds lie between two looks at the quiet files. -/
  pollInterval : Int := 50
  /-- The directory from which the watched paths are followed. -/
  cwd : Option String := none
  deriving DecidableEq, Repr

end Marginalia.Notifier
