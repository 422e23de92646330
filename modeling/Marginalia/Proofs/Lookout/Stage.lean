import Marginalia.Proofs.Lookout.Basic
import Marginalia.Proofs.Watcher.Step

/-!
# The stages of a turn

Between the moves of a lookout its parts are at one of a few stages: a turn of the dispatcher has
been begun, an event is being told to the watcher, the host is being asked, it has answered, or the
watcher is done with the event.  A `Stage` holds what tells one such state from another, and `Shape`
says that a lookout is at a stage with a given watcher and subscription.

For each part there is a lemma that says what its next step makes of the lookout
(`put_subscription_asks`, `put_watcher_ends` and so on).
-/

namespace Marginalia.Lookout

open Assembly (Caller Call Listener)
open Notifier (Event Raw Sequel Subscription)

/-! ## Stages -/

/-- The question that the host hears when a watcher asks it something. -/
def toHost? : Watcher.Question → Option Assembly.Question
  | .attach .. => none
  | .read path => some (.read path)
  | .comment block all => some (.comment block all)
  | .trigger blocks => some (.trigger blocks)
  | .ready => some .ready
  | .error why => some (.error why)

/-- How far the present turn has come. -/
inductive Stage
  | idle
  /-- The dispatcher has been called. -/
  | turning
  /-- The watcher is to hear an event. -/
  | telling (e : Event) (sequel : Sequel)
  /-- The host is asked. -/
  | asking (q : Watcher.Question) (t : Watcher.Task) (e : Event) (sequel : Sequel)
  /-- The watcher is to hear the answer. -/
  | answering (o : Outcome) (t : Watcher.Task) (e : Event) (sequel : Sequel)
  /-- The watcher is done with the event. -/
  | told (o : Outcome) (e : Event) (sequel : Sequel)

namespace Stage

def callers : Stage → List Caller
  | .idle => []
  | .turning | .told .. => [.host]
  | .telling .. | .answering .. => [.subscription 0, .host]
  | .asking .. => [.watcher 0, .subscription 0, .host]

def work : Stage → Option Call
  | .idle | .asking .. => none
  | .turning => some (.subscription 0 .turn)
  | .telling e _ => some (.watcher 0 (.event 1 e))
  | .answering o .. => some (.watcher 0 (.answer o))
  | .told o .. => some (.subscription 0 (.answer o))

def question : Stage → Option Assembly.Question
  | .asking q .. => toHost? q
  | _ => none

def watcherTasks : Stage → List Watcher.Task
  | .asking _ t .. | .answering _ t .. => [t]
  | _ => []

def tasks : Stage → List (Notifier.Task Listener)
  | .idle | .turning => []
  | .telling e sequel | .asking _ _ e sequel | .answering _ _ e sequel | .told _ e sequel =>
    [.telling e [] sequel]

end Stage

/-- The watcher listens: it has a trigger, its first subscription is open, there is no pause, and it
ignores what the subscription ignores. -/
structure Listens (w : Watcher) (s : Subscription Listener) : Prop where
  trigger : w.callbacks.trigger
  current : w.isCurrent 1
  running : w.paused = false
  tidy : w.pending.Tidy
  observes : s.observes
  heard : s.HeardBy (.watcher 0 1)
  agree : ∀ path, path ≠ "" → s.ignores path = w.ignores path

/-- The lookout is at a stage, with a watcher and a subscription. -/
structure Shape (l : Lookout) (st : Stage) (w : Watcher) (s : Subscription Listener) : Prop where
  watchers : l.assembly.watchers = [w]
  channels : l.assembly.channels = [.observed s]
  session : l.assembly.session = none
  callers : l.assembly.callers = st.callers
  work : l.assembly.work = st.work
  question : l.question = st.question
  watcherTasks : w.tasks = st.watcherTasks
  tasks : s.tasks = st.tasks

/-! ## What the parts do -/

variable {l : Lookout} {w : Watcher} {s : Subscription Listener}

lemma put_proceed {c : Call} (hwork : l.assembly.work = some c) :
    l.put .proceed =
      (l.assembly.perform c).2.foldl take { l with assembly := (l.assembly.perform c).1 } := by
  simp only [put, Assembly.step, hwork]

lemma put_call (hwork : l.assembly.work = none) (c : Call) :
    l.put (.call c) =
      { l with assembly := { l.assembly with
          callers := .host :: l.assembly.callers, work := some c } } := by
  simp only [put, Assembly.step, hwork]
  rfl

/-- A step of which nothing is asked changes the assembly alone. -/
lemma put_proceed_of_quiet {c : Call} (hwork : l.assembly.work = some c) {a : Assembly}
    {notes : List Assembly.Note} (hperform : l.assembly.perform c = (a, notes))
    (hquiet : Quiet notes) : l.put .proceed = { l with assembly := a } := by
  rw [put_proceed hwork, hperform, foldl_take_of_quiet hquiet]

/-- A subscription that ends a call of the host gives the turn back to it. -/
lemma put_subscription_ends (hch : l.assembly.channels = [.observed s])
    {i : Notifier.Input Listener} (hwork : l.assembly.work = some (.subscription 0 i))
    {rest : List Caller} (hcallers : l.assembly.callers = .host :: rest) {o : Outcome}
    (hturn : (s.step l.assembly.now i).turn = .ends o) :
    ∃ now, l.put .proceed =
      { l with assembly := { l.assembly with
          channels := [.observed (s.step l.assembly.now i).state]
          now := now, callers := rest, work := none } } := by
  have hperform : ∃ now, l.assembly.perform (.subscription 0 i) =
      ({ l.assembly with
          channels := [.observed (s.step l.assembly.now i).state]
          now := now, callers := rest, work := none },
        (s.step l.assembly.now i).notes.map Assembly.noteOf ++ [.ended o]) := by
    simp only [Assembly.perform, Assembly.stepSubscription, hch, List.getElem?_cons_zero, hturn,
      Assembly.settle, hcallers, Assembly.Result.after]
    exact ⟨_, rfl⟩
  obtain ⟨now, hperform⟩ := hperform
  have hended : Quiet [.ended o] := fun n hn => by rw [List.mem_singleton.1 hn]; rfl
  exact ⟨now, put_proceed_of_quiet hwork hperform ((quiet_map_noteOf _).append hended)⟩

/-- A subscription that tells an event calls the watcher. -/
lemma put_subscription_asks (hch : l.assembly.channels = [.observed s])
    {i : Notifier.Input Listener} (hwork : l.assembly.work = some (.subscription 0 i))
    {e : Event} (hturn : (s.step l.assembly.now i).turn = .asks ⟨.watcher 0 1, e⟩) :
    ∃ now, l.put .proceed =
      { l with assembly := { l.assembly with
          channels := [.observed (s.step l.assembly.now i).state]
          now := now
          callers := .subscription 0 :: l.assembly.callers
          work := some (.watcher 0 (.event 1 e)) } } := by
  have hperform : ∃ now, l.assembly.perform (.subscription 0 i) =
      ({ l.assembly with
          channels := [.observed (s.step l.assembly.now i).state]
          now := now
          callers := .subscription 0 :: l.assembly.callers
          work := some (.watcher 0 (.event 1 e)) },
        (s.step l.assembly.now i).notes.map Assembly.noteOf ++ []) := by
    simp only [Assembly.perform, Assembly.stepSubscription, hch, List.getElem?_cons_zero, hturn,
      Assembly.call, Assembly.Result.after]
    exact ⟨_, rfl⟩
  obtain ⟨now, hperform⟩ := hperform
  rw [List.append_nil] at hperform
  exact ⟨now, put_proceed_of_quiet hwork hperform (quiet_map_noteOf _)⟩

/-- The log of a watcher is shown and nothing else is done about it. -/
lemma absorb_of_logs {notes : List Watcher.Note} (h : Watcher.Logs notes)
    (opening : List Assembly.Note) (a : Assembly) :
    ∃ shown, Quiet shown ∧ Assembly.absorb opening a notes = (a, shown) := by
  obtain ⟨entries, rfl⟩ := h
  induction entries with
  | nil => exact ⟨[], fun n hn => absurd hn List.not_mem_nil, rfl⟩
  | cons entry entries ih =>
      obtain ⟨shown, hquiet, habsorb⟩ := ih
      have hentry : Quiet [.log entry] := fun n hn => by rw [List.mem_singleton.1 hn]; rfl
      refine ⟨[.log entry] ++ shown, hentry.append hquiet, ?_⟩
      rw [List.map_cons, Assembly.absorb, habsorb]
      rfl

/-- A watcher that is done with a call of its subscription gives the turn back to it. -/
lemma put_watcher_ends (hw : l.assembly.watchers = [w]) {i : Watcher.Input}
    (hwork : l.assembly.work = some (.watcher 0 i)) (hlogs : Watcher.Logs (w.step i).notes)
    {rest : List Caller} (hcallers : l.assembly.callers = .subscription 0 :: rest) {o : Outcome}
    (hturn : (w.step i).turn = .ends o) :
    l.put .proceed =
      { l with assembly := { l.assembly with
          watchers := [(w.step i).state]
          callers := rest
          work := some (.subscription 0 (.answer o)) } } := by
  obtain ⟨shown, hquiet, habsorb⟩ := absorb_of_logs hlogs []
    { l.assembly with watchers := [(w.step i).state] }
  have hperform : l.assembly.perform (.watcher 0 i) =
      ({ l.assembly with
          watchers := [(w.step i).state]
          callers := rest
          work := some (.subscription 0 (.answer o)) }, shown ++ []) := by
    simp only [Assembly.perform, Assembly.stepWatcher, hw, List.getElem?_cons_zero, List.set,
      hturn, habsorb, Assembly.Result.after]
    simp only [Assembly.settle, hcallers]
  rw [List.append_nil] at hperform
  exact put_proceed_of_quiet hwork hperform hquiet

/-- Without a session, a watcher asks the host. -/
lemma watcherAsks_eq {q : Watcher.Question} {question : Assembly.Question}
    (hq : toHost? q = some question) {a : Assembly} (hsession : a.session = none) :
    a.watcherAsks 0 q = a.askHost (.watcher 0) question := by
  cases q <;> simp_all [toHost?, Assembly.watcherAsks]

/-- A watcher that asks the host leaves a mark if it hands over. -/
lemma put_watcher_asks (hw : l.assembly.watchers = [w]) (hsession : l.assembly.session = none)
    {i : Watcher.Input} (hwork : l.assembly.work = some (.watcher 0 i))
    (hlogs : Watcher.Logs (w.step i).notes) {q : Watcher.Question} {question : Assembly.Question}
    (hq : toHost? q = some question) (hturn : (w.step i).turn = .asks q) :
    l.put .proceed =
      { l with
        assembly := { l.assembly with
          watchers := [(w.step i).state]
          callers := .watcher 0 :: l.assembly.callers
          work := none }
        question := some question
        marks := (markOf? question).toList ++ l.marks } := by
  obtain ⟨shown, hquiet, habsorb⟩ := absorb_of_logs hlogs []
    { l.assembly with watchers := [(w.step i).state] }
  have hasks : { l.assembly with watchers := [(w.step i).state] }.watcherAsks 0 q =
      { l.assembly with watchers := [(w.step i).state] }.askHost (.watcher 0) question :=
    watcherAsks_eq hq hsession
  have hperform : l.assembly.perform (.watcher 0 i) =
      ({ l.assembly with
          watchers := [(w.step i).state]
          callers := .watcher 0 :: l.assembly.callers
          work := none }, shown ++ [.asked question]) := by
    simp only [Assembly.perform, Assembly.stepWatcher, hw, List.getElem?_cons_zero, List.set,
      hturn, habsorb, Assembly.Result.after]
    rw [hasks]
    rfl
  rw [put_proceed hwork, hperform, List.foldl_append, foldl_take_of_quiet hquiet]
  rfl

end Marginalia.Lookout
