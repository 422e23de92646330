import Marginalia.Notifier.Event
import Marginalia.Settings

/-!
# Options of a watcher

What a watcher is told at its making: which paths to ignore, how to open subscriptions, and which
callbacks of the host there are.
-/

namespace Marginalia.Watcher

/-- The options of a watcher. -/
structure Options where
  /-- The patterns of ignored paths. -/
  ignored : List Ignore.Given := Ignore.defaultSources.map .source
  /-- The directory from which the watched directory is followed. -/
  cwd : Option String := none
  ignoreInitial : Bool := true
  stabilityThreshold : Int := 500
  pollInterval : Int := 50
  deriving Repr

namespace Options

/-- The options that the settings give. -/
def ofSettings (s : Settings) (cwd : Option String) : Options where
  ignored := s.ignoredPatterns.map .source
  cwd := cwd
  ignoreInitial := s.ignoreInitial
  stabilityThreshold := s.stabilityThreshold
  pollInterval := s.pollInterval

/-- The options for the notifier, which takes patterns by their sources. -/
def forNotifier (o : Options) : Notifier.Options where
  ignored := o.ignored.map (·.text)
  ignoreInitial := o.ignoreInitial
  stabilityThreshold := o.stabilityThreshold
  pollInterval := o.pollInterval
  cwd := o.cwd

end Options

/-- Which callbacks the host has. -/
structure Callbacks where
  comment : Bool := true
  trigger : Bool := true
  ready : Bool := true
  error : Bool := true
  deriving DecidableEq, Repr

end Marginalia.Watcher
