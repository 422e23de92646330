import Marginalia.Assembly
import Marginalia.Proofs.Notifier.Opening
import Marginalia.Proofs.Notifier.Dispatch
import Marginalia.Proofs.Watcher.History

/-!
# A watcher on the lookout

A `Lookout` is a watcher over one observed directory, with the files that it reads and a host that
answers every question without calling back.  What happens around it are its moves: a file is
written, the observer sees something, time goes by, the dispatcher begins a turn, and the parts go
on by one step.  A turn takes many such steps, and files are written and raw events come in between.

The `marks` record, latest first, which files were written, which paths the observer saw, and what
the host was handed.

`start` is the lookout once the watcher has begun to watch; `Setting` says of what it was made, and
`start_eq` that the watcher is then idle with its listeners attached.
-/

namespace Marginalia

open Assembly (Caller Call Listener)
open Notifier (EventKind Raw Subscription Surroundings)
open Watcher (Callbacks Options)

namespace Lookout

/-- What has happened. -/
inductive Mark
  /-- A file was written. -/
  | wrote (path : String)
  /-- The observer saw that a file has new content. -/
  | touched (path : String)
  /-- The host was handed some blocks by the trigger. -/
  | handed (blocks : List Block)
  deriving DecidableEq, Repr

/-- What comes of reading a file. -/
def outcomeOf : Except Failure String → Outcome
  | .ok content => .text content
  | .error why => .raised why

/-- What reading a file gives: its text, or a failure that can be put into words. -/
def Reading : Type :=
  { r : Except Failure String // (outcomeOf r).isContained = true }

/-- What happens next. -/
inductive Move
  /-- A file is written; from now on reading it gives something else. -/
  | write (path : String) (reading : Reading)
  /-- The observer sees something. -/
  | raw (r : Raw)
  /-- Time goes by. -/
  | wait (ms : Nat)
  /-- The dispatcher begins a turn. -/
  | turn
  /-- The parts do their next step, or the host answers. -/
  | go

end Lookout

/-- A watcher over an observed directory, and its host. -/
structure Lookout where
  assembly : Assembly
  /-- What reading a file gives. -/
  files : String → Lookout.Reading
  /-- What the host has been asked and has not answered. -/
  question : Option Assembly.Question := none
  /-- What has happened, the latest first. -/
  marks : List Lookout.Mark := []

namespace Lookout

/-! ## Moves -/

/-- The question that a note puts. -/
def questionOf? : Assembly.Note → Option Assembly.Question
  | .asked q => some q
  | _ => none

/-- What a question leaves on record. -/
def markOf? : Assembly.Question → Option Mark
  | .trigger blocks => some (.handed blocks)
  | _ => none

/-- Takes in what the assembly shows. -/
def take (l : Lookout) (n : Assembly.Note) : Lookout :=
  match questionOf? n with
  | some q => { l with question := some q, marks := (markOf? q).toList ++ l.marks }
  | none => l

/-- Gives the assembly an input. -/
def put (l : Lookout) (i : Assembly.Input) : Lookout :=
  (l.assembly.step i).2.foldl take { l with assembly := (l.assembly.step i).1 }

/-- The answer of the host: the file if it is asked to read one, and else that it has taken note. -/
def answerTo (l : Lookout) : Assembly.Question → Outcome
  | .read path => outcomeOf (l.files path).val
  | _ => .returned

/-- No call is under way. -/
def isIdle (l : Lookout) : Bool :=
  l.assembly.isHostsTurn && l.assembly.callers.isEmpty

/-- Lets something happen while the parts stand still. -/
def meanwhile (l : Lookout) (f : Lookout → Lookout) : Lookout :=
  let l' := f { l with assembly := { l.assembly with work := none } }
  { l' with assembly := { l'.assembly with work := l.assembly.work } }

/-- One move.  Files are written, raw events come in and time goes by between any two steps of the
parts.  A turn is begun when no call is under way, and else put off. -/
def move (l : Lookout) : Move → Lookout
  | .write path reading =>
    { l with
      files := fun q => if q = path then reading else l.files q
      marks := .wrote path :: l.marks }
  | .raw r =>
    let l := l.meanwhile fun l => (l.put (.call (.subscription 0 (.raw r)))).put .proceed
    { l with marks := (r.touched?.map Mark.touched).toList ++ l.marks }
  | .wait ms => l.meanwhile fun l => l.put (.wait ms)
  | .turn => if l.isIdle then l.put (.call (.subscription 0 .turn)) else l
  | .go =>
    if l.assembly.isHostsTurn then
      match l.question with
      | some q => { l with question := none }.put (.answer (l.answerTo q))
      | none => l
    else l.put .proceed

/-- The lookout after some moves. -/
def run (l : Lookout) (moves : List Move) : Lookout :=
  moves.foldl move l

/-! ## What can be seen of it -/

def watcher? (l : Lookout) : Option Watcher :=
  l.assembly.watchers.head?

def subscription? (l : Lookout) : Option (Subscription Listener) :=
  match l.assembly.channels.head? with
  | some (.observed s) => some s
  | _ => none

/-- The present turn has taken up the change of the path and is not done with it: it is still to be
told, or the watcher is to hear it, or the watcher is reading the file. -/
def Carries (l : Lookout) (path : String) : Prop :=
  (∃ s e listeners paths, l.subscription? = some s ∧
      .telling e listeners (.changes paths) ∈ s.tasks ∧ path ∈ paths) ∨
    l.assembly.work = some (.watcher 0 (.event 1 (.change path))) ∨
    ∃ w, l.watcher? = some w ∧ .reading path ∈ w.tasks

/-- What has happened since a file was last written. -/
def sinceWrite (path : String) (marks : List Mark) : List Mark :=
  marks.takeWhile (· ≠ .wrote path)

/-- The observer has seen the file since it was last written. -/
def Seen (path : String) (marks : List Mark) : Prop :=
  .touched path ∈ sinceWrite path marks

/-- The blocks that were handed over. -/
def Mark.blocks : Mark → List Block
  | .handed blocks => blocks
  | _ => []

/-- The host was handed the block since the file was last written. -/
def Handed (path : String) (b : Block) (marks : List Mark) : Prop :=
  ∃ m ∈ sinceWrite path marks, b ∈ m.blocks

instance (path : String) (marks : List Mark) : Decidable (Seen path marks) :=
  inferInstanceAs (Decidable (_ ∈ _))

instance (path : String) (b : Block) (marks : List Mark) : Decidable (Handed path b marks) :=
  inferInstanceAs (Decidable (∃ m ∈ _, _))

/-! ## Notes that ask nothing -/

/-- None of the notes puts a question. -/
def Quiet (notes : List Assembly.Note) : Prop :=
  ∀ n ∈ notes, questionOf? n = none

lemma Quiet.append {notes more : List Assembly.Note} (h : Quiet notes) (k : Quiet more) :
    Quiet (notes ++ more) :=
  List.forall_mem_append.2 ⟨h, k⟩

/-- A subscription asks the host nothing. -/
lemma quiet_map_noteOf (notes : List Notifier.Note) : Quiet (notes.map Assembly.noteOf) := by
  intro n hn
  obtain ⟨note, -, rfl⟩ := List.mem_map.1 hn
  cases note <;> rfl

lemma foldl_take_of_quiet {notes : List Assembly.Note} (h : Quiet notes) (l : Lookout) :
    notes.foldl take l = l := by
  induction notes with
  | nil => rfl
  | cons n notes ih =>
      have hn : l.take n = l := by
        unfold take
        rw [h n (List.mem_cons_self ..)]
      rw [List.foldl_cons, hn, ih fun m hm => h m (List.mem_cons_of_mem _ hm)]

/-! ## The start -/

/-- A watcher with a trigger, made with patterns that are texts, can watch the root: the root is not
empty, no link leads away from it, and the observer can be set on it and begins. -/
structure Setting (o : Options) (c : Callbacks) (around : Surroundings) (root : String)
    (w : Watcher) : Prop where
  made : Watcher.make o c around.home = .ok w
  trigger : c.trigger
  sources : ∃ texts : List String, o.ignored = texts.map .source
  root_ne_empty : root ≠ ""
  home : Path.isAbsolute around.home
  noLink : around.realPath (Watcher.rootOf o root) =
    Path.absoluteText around.home (Watcher.rootOf o root)
  observed : around.refusal? (Watcher.rootOf o root) = none
  begins : around.startFailure? = none

/-- The watcher has begun to watch the root.  Seven steps after the call the subscription is open,
the three listeners are attached, and the call has returned. -/
def start (around : Surroundings) (w : Watcher) (root : String)
    (files : String → Reading) : Lookout :=
  ({ assembly := { surroundings := around, watchers := [w] }, files := files : Lookout }.put
    (.call (.watch 0 root))).run (List.replicate 7 .go)

variable {o : Options} {c : Callbacks} {around : Surroundings} {root : String} {w : Watcher}

lemma watcher_of_make {home : String} (h : Watcher.make o c home = .ok w) :
    ∃ patterns, Ignore.readAll o.ignored = .ok patterns ∧
      w = { options := o, callbacks := c, patterns, home } := by
  unfold Watcher.make at h
  cases hp : Ignore.readAll o.ignored with
  | error e => rw [hp] at h; cases h
  | ok patterns =>
      rw [hp] at h
      cases h
      exact ⟨patterns, rfl, rfl⟩

lemma rootOf_ne_empty (h : root ≠ "") : Watcher.rootOf o root ≠ "" := by
  unfold Watcher.rootOf
  split
  · split
    · exact h
    · exact Path.join_ne_empty h _
  · exact h

/-- The directory is followed for the notifier as it is for the patterns. -/
lemma locate_forNotifier (o : Options) (root : String) :
    Subscription.locate o.forNotifier [root] = [Watcher.rootOf o root] := by
  unfold Subscription.locate Watcher.rootOf Options.forNotifier
  cases o.cwd with
  | none => rfl
  | some cwd => by_cases hcwd : cwd = "" <;> simp [hcwd]

/-- Patterns that are texts are read by the notifier as by the watcher. -/
lemma readAll_forNotifier (h : ∃ texts : List String, o.ignored = texts.map .source) :
    Ignore.readAll (o.forNotifier.ignored.map .source) = Ignore.readAll o.ignored := by
  obtain ⟨texts, htexts⟩ := h
  simp [Options.forNotifier, htexts, Ignore.Given.text, Function.comp_def]

lemma rootsOf_eq (h : Setting o c around root w) :
    Subscription.rootsOf around [Watcher.rootOf o root] =
      [Path.absoluteText around.home (Watcher.rootOf o root)] := by
  simp [Subscription.rootsOf, h.noLink, List.eraseDups_cons]

/-- Nothing hinders the opening. -/
lemma perform_failure (h : Setting o c around root w) {s : Subscription Listener}
    (hs : s.paths = [Watcher.rootOf o root]) :
    (Notifier.Opening.perform s around).failure = none := by
  apply Notifier.Opening.failure_perform
  · intro path hpath why hwhy
    rw [hs, List.mem_singleton] at hpath
    rw [hpath, h.observed] at hwhy
    cases hwhy
  · intro why hwhy
    rw [h.begins] at hwhy
    cases hwhy

/-- **The subscription opens** with a queue and nothing else to tell. -/
lemma subscription_start_ok (h : Setting o c around root w) :
    ∃ notes queue, Subscription.start Listener around [root] o.forNotifier =
      (notes, .ok {
        paths := [Watcher.rootOf o root]
        roots := [Path.absoluteText around.home (Watcher.rootOf o root)]
        patterns := w.patterns
        options := o.forNotifier
        home := around.home
        queue := queue }) := by
  obtain ⟨patterns, hpatterns, rfl⟩ := watcher_of_make h.made
  have hmake : Subscription.make Listener around [root] o.forNotifier = .ok {
      paths := [Watcher.rootOf o root]
      roots := [Path.absoluteText around.home (Watcher.rootOf o root)]
      patterns := patterns
      options := o.forNotifier
      home := around.home } := by
    unfold Subscription.make
    rw [readAll_forNotifier h.sources, hpatterns, locate_forNotifier]
    simp only [rootsOf_eq h, h.begins]
    simp [h.observed]
  unfold Subscription.start
  rw [hmake]
  dsimp only
  rw [perform_failure h]
  · exact ⟨_, _, rfl⟩
  · rfl

/-! ### The call step by step -/

/-- A lookout in the middle of the call. -/
def opening (around : Surroundings) (files : String → Reading) (w : Watcher)
    (s : Subscription Listener) (callers : List Caller) (work : Option Call) : Lookout where
  assembly := { surroundings := around, watchers := [w], channels := [.observed s], callers, work }
  files := files

/-- The watcher that watches the root. -/
def watching (w : Watcher) (root : String) : Watcher :=
  { w with generation := 1, subscription := some 0, root := some (Watcher.rootOf w.options root) }

/-- The subscription that the watcher listens to. -/
def observing (around : Surroundings) (w : Watcher) (root : String)
    (queue : List Notifier.Event) : Subscription Listener where
  paths := [Watcher.rootOf w.options root]
  roots := [Path.absoluteText around.home (Watcher.rootOf w.options root)]
  patterns := w.patterns
  options := w.options.forNotifier
  home := around.home
  queue := queue
  listeners := [(.ready, .watcher 0 1), (.change, .watcher 0 1), (.error, .watcher 0 1)]

variable {files : String → Reading} {s : Subscription Listener}

lemma go_attach (hs : s.backlog = []) (kind : EventKind) (listener : Listener) :
    (opening around files w s [.watcher 0, .host]
      (some (.subscription 0 (.attach kind listener)))).move .go =
      opening around files w { s with listeners := s.listeners ++ [(kind, listener)] } [.host]
        (some (.watcher 0 (.answer .returned))) := by
  have hattach : s.attach kind listener =
      { s with listeners := s.listeners ++ [(kind, listener)] }.finish [] := by
    obtain ⟨⟩ := s
    simp only at hs
    subst hs
    rfl
  have hgo : (opening around files w s [.watcher 0, .host]
      (some (.subscription 0 (.attach kind listener)))).move .go =
      (opening around files w s [.watcher 0, .host]
        (some (.subscription 0 (.attach kind listener)))).put .proceed := rfl
  rw [hgo]
  simp only [put, opening, Assembly.step, Assembly.perform, Assembly.stepSubscription,
    List.getElem?_cons_zero, Subscription.step, hattach]
  rfl

lemma go_attached (g : Nat) (kind : EventKind) (rest : List EventKind) :
    (opening around files { w with tasks := [.attaching 0 g (kind :: rest)] } s [.host]
      (some (.watcher 0 (.answer .returned)))).move .go =
      opening around files { w with tasks := [.attaching 0 g rest] } s [.watcher 0, .host]
        (some (.subscription 0 (.attach kind (.watcher 0 g)))) :=
  rfl

lemma go_attached_last (g : Nat) :
    (opening around files { w with tasks := [.attaching 0 g []] } s [.host]
      (some (.watcher 0 (.answer .returned)))).move .go =
      opening around files { w with tasks := [] } s [] none :=
  rfl

/-- The watcher opens the subscription, and asks for its first listener to be attached. -/
lemma go_watch (h : Setting o c around root w) (files : String → Reading) :
    ∃ queue, (({ assembly := { surroundings := around, watchers := [w] }, files := files }
        : Lookout).put (.call (.watch 0 root))).move .go =
      opening around files
        { watching w root with tasks := [.attaching 0 1 [.change, .error]] }
        { observing around w root queue with listeners := [] } [.watcher 0, .host]
        (some (.subscription 0 (.attach .ready (.watcher 0 1)))) := by
  obtain ⟨notes, queue, hstart⟩ := subscription_start_ok h
  obtain ⟨patterns, hpatterns, rfl⟩ := watcher_of_make h.made
  let w : Watcher := { options := o, callbacks := c, patterns, home := around.home }
  let a : Assembly := {
    surroundings := around, watchers := [w], callers := [.host], work := some (.watch 0 root) }
  let s : Subscription Listener := { observing around w root queue with listeners := [] }
  have hopen : a.openChannel root o.forNotifier =
      ({ a with channels := [.observed s] }, notes.map Assembly.noteOf, .ok 0) := by
    unfold Assembly.openChannel Assembly.openObserved
    simp only [a, Bool.false_eq_true, if_false]
    rw [hstart]
    rfl
  have hwatch : a.watch 0 root =
      { a with channels := [.observed s] }.stepWatcher 0 (notes.map Assembly.noteOf)
        (.watch root (.ok 0)) := by
    unfold Assembly.watch
    simp only [a, List.getElem?_cons_zero]
    rw [hopen]
  have hstep : ∃ started, a.step .proceed =
      ({ a with
        watchers := [{ watching w root with tasks := [.attaching 0 1 [.change, .error]] }]
        channels := [.observed s]
        callers := [.watcher 0, .host]
        work := some (.subscription 0 (.attach .ready (.watcher 0 1))) },
        notes.map Assembly.noteOf ++ [.log started]) :=
    ⟨_, hwatch.trans (Prod.ext rfl (List.append_nil _))⟩
  obtain ⟨started, hstep⟩ := hstep
  have hquiet : Quiet (notes.map Assembly.noteOf ++ [.log started]) :=
    (quiet_map_noteOf notes).append fun n hn => by rw [List.mem_singleton.1 hn]; rfl
  have hgo : (({ assembly := { surroundings := around, watchers := [w] }, files := files }
      : Lookout).put (.call (.watch 0 root))).move .go =
      ({ assembly := a, files := files } : Lookout).put .proceed := rfl
  refine ⟨queue, hgo.trans ?_⟩
  rw [put, hstep, foldl_take_of_quiet hquiet]
  rfl

/-- **At the start** the watcher is idle, and its listeners are attached. -/
theorem start_eq (h : Setting o c around root w) (files : String → Reading) :
    ∃ queue, start around w root files =
      opening around files (watching w root) (observing around w root queue) [] none := by
  obtain ⟨queue, hwatch⟩ := go_watch h files
  have htasks : (watching w root).tasks = [] := by
    obtain ⟨patterns, -, rfl⟩ := watcher_of_make h.made
    rfl
  refine ⟨queue, ?_⟩
  simp only [start, run, List.replicate, List.foldl_cons, List.foldl_nil, hwatch]
  rw [go_attach rfl, go_attached, go_attach rfl, go_attached, go_attach rfl, go_attached_last]
  have hidle : { watching w root with tasks := [] } = watching w root := by rw [← htasks]
  rw [hidle]
  rfl

end Lookout

end Marginalia
