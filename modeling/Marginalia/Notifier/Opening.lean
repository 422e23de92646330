import Marginalia.Notifier.Subscription
import Marginalia.Tree

/-!
# Opening a subscription

A subscription opens in three parts: the observer is set on each directory; unless the files that
are there are to be left alone, each of them is told as a change; and the observer begins. A failure
of the system in one part is queued for the listeners and does not hinder the others. Any other
failure ends the opening.
-/

namespace Marginalia.Notifier

/-- What a subscription meets when it opens. -/
structure Surroundings where
  /-- The current directory. -/
  home : String
  /-- Where the links of a path lead. -/
  realPath : String → String
  /-- Why the observer cannot be set on a directory. -/
  refusal? : String → Option Failure := fun _ => none
  /-- Why the observer cannot begin. -/
  startFailure? : Option Failure := none
  /-- What there is in a directory. -/
  tree : String → Tree := fun _ => .listed [] []

namespace Opening

/-- How far an opening has come. -/
structure Progress where
  notes : List Note := []
  /-- The events for the listeners. -/
  queue : List Event := []
  /-- The failure that ends the opening. -/
  failure : Option Failure := none

namespace Progress

/-- Meets a failure, which the text introduces. -/
def meet (p : Progress) (text : String) (why : Failure) : Progress :=
  if why.isSystem then
    { p with
      notes := p.notes ++ [.log {
        logger := Log.notifierLogger, level := Log.Level.error, text := text ++ why.message }]
      queue := p.queue ++ [.error why] }
  else { p with failure := some why }

/-- Does the next part, unless the opening has ended. -/
def next (p : Progress) (part : Progress → Progress) : Progress :=
  if p.failure.isSome then p else part p

end Progress

/-- Sets the observer on a directory. -/
def schedule (around : Surroundings) (path : String) (p : Progress) : Progress :=
  match around.refusal? path with
  | some why => p.meet ("❌ Cannot watch " ++ path ++ ": ") why
  | none => { p with notes := p.notes ++ [.scheduled path] }

/-- The event that tells what a walk has found. -/
def ofFound : Found → Event
  | .file path => .change path
  | .failure why => .error why

/-- Tells the files in a directory that are not ignored, and where it cannot be listed. -/
def list {ℓ : Type} (s : Subscription ℓ) (around : Surroundings) (path : String) (p : Progress) :
    Progress :=
  { p with
    queue := p.queue ++
      ((around.tree path).walk (fun place => !s.ignores place) path).map ofFound }

/-- Lets the observer begin. -/
def begin (around : Surroundings) (p : Progress) : Progress :=
  match around.startFailure? with
  | some why => p.meet "❌ Observer failed to start: " why
  | none => { p with notes := p.notes ++ [.started], queue := p.queue ++ [.ready] }

/-- All parts of the opening of a subscription. -/
def perform {ℓ : Type} (s : Subscription ℓ) (around : Surroundings) : Progress :=
  let scheduled := s.paths.foldl (fun (p : Progress) path => p.next (schedule around path)) {}
  let listed : Progress :=
    if s.options.ignoreInitial then scheduled
    else s.paths.foldl (fun (p : Progress) path => p.next (list s around path)) scheduled
  listed.next (begin around)

end Opening

namespace Subscription

/-- The absolute paths of some directories, each followed by where its links lead. -/
def rootsOf (around : Surroundings) (paths : List String) : List String :=
  (paths.flatMap fun path =>
    [Path.absoluteText around.home path, around.realPath path]).eraseDups

/-- The paths as they are followed from the directory of the options. -/
def locate (o : Options) (paths : List String) : List String :=
  match o.cwd with
  | some cwd => if cwd = "" then paths else paths.map (Path.join cwd)
  | none => paths

/-- A subscription for some directories; its patterns have to be readable. -/
def make (ℓ : Type) [Pattern.Dialect] (around : Surroundings) (paths : List String) (o : Options) :
    Except Pattern.Error (Subscription ℓ) := do
  let paths := locate o paths
  let patterns ← Ignore.readAll (o.ignored.map .source)
  return {
    paths, patterns
    roots := rootsOf around paths
    options := o
    home := around.home
    observes := paths.any fun path => (around.refusal? path).isNone
    started := around.startFailure?.isNone }

/-- Opens a subscription. What is done on the way comes with a failure, too. -/
def start (ℓ : Type) [Pattern.Dialect] (around : Surroundings) (paths : List String)
    (o : Options) : List Note × Except Failure (Subscription ℓ) :=
  match make ℓ around paths o with
  | .error e => ([], .error (.pattern e))
  | .ok s =>
    let p := Opening.perform s around
    match p.failure with
    | some why => (p.notes, .error why)
    | none => (p.notes, .ok { s with queue := p.queue })

end Subscription

end Marginalia.Notifier
