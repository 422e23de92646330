import Marginalia.Watcher.Basic
import Mathlib

/-!
# One step of a watcher

What a step of a watcher can do, said once for all invariants.  The fields of a watcher fall into
those that only `watch`, `close`, `pause` and `resume` change (`SameCourse` says that two watchers
agree on them), the pending set, and the stack of tasks.

`Continues w p r` describes a result `r` that was reached from `w` without a change of course: it
leaves the pending set `p`, and one task more than `w` has exactly when it asks, a task that fits
the question (`Question.Leaves`).  Every function of the machine below `watch` and `close` has a
lemma of this form.  `step_pending` reads off from them that the pending set changes in two ways
only, by `clear` and by the answer to a `read`.

The remaining lemmas say which steps ask which question: `questionUpon?` is the question that an
input leads to, and `step_asks_iff` says that a step asks this one and no other.
-/

namespace Marginalia.Watcher

open Notifier (Event EventKind)

/-! ## The course of a watcher -/

/-- The watchers agree on all that only `watch`, `close`, `pause` and `resume` change. -/
structure SameCourse (w v : Watcher) : Prop where
  options : v.options = w.options
  callbacks : v.callbacks = w.callbacks
  patterns : v.patterns = w.patterns
  home : v.home = w.home
  subscription : v.subscription = w.subscription
  root : v.root = w.root
  generation : v.generation = w.generation
  paused : v.paused = w.paused
  closed : v.closed = w.closed

/-- All other fields are free. -/
lemma sameCourse_with (w : Watcher) (p : Pending) (r : Nat) (ts : List Task) :
    SameCourse w { w with pending := p, readyGeneration := r, tasks := ts } :=
  ⟨rfl, rfl, rfl, rfl, rfl, rfl, rfl, rfl, rfl⟩

namespace SameCourse

variable {u w v : Watcher}

lemma trans (h : SameCourse u w) (k : SameCourse w v) : SameCourse u v :=
  ⟨k.options.trans h.options, k.callbacks.trans h.callbacks, k.patterns.trans h.patterns,
    k.home.trans h.home, k.subscription.trans h.subscription, k.root.trans h.root,
    k.generation.trans h.generation, k.paused.trans h.paused, k.closed.trans h.closed⟩

lemma isCurrent (h : SameCourse w v) (g : Nat) : v.isCurrent g = w.isCurrent g := by
  simp only [Watcher.isCurrent, h.generation, h.subscription]

end SameCourse

/-! ## Notes -/

/-- The notes are entries of the log. -/
def Logs (notes : List Note) : Prop :=
  ∃ entries : List Log.Entry, notes = entries.map Note.log

lemma logs_nil : Logs [] := ⟨[], rfl⟩

lemma logs_entry (level : Log.Level) (phrases : List Log.Phrase) : Logs [entry level phrases] :=
  ⟨[.ofPhrases Log.watcherLogger level phrases], rfl⟩

lemma Logs.append {notes more : List Note} (h : Logs notes) (k : Logs more) :
    Logs (notes ++ more) := by
  obtain ⟨entries, rfl⟩ := h
  obtain ⟨others, rfl⟩ := k
  exact ⟨entries ++ others, (List.map_append ..).symm⟩

/-! ## Results that keep the course -/

/-- The task that a question leaves behind. -/
def Question.Leaves : Question → Task → Prop
  | .attach id _ g, t => ∃ rest, t = .attaching id g rest
  | .read path, t => t = .reading path
  | .comment _ all, t => ∃ path known rest, t = .reporting path known all rest
  | .trigger _, t | .ready, t | .error _, t => t = .calling

/-- The result keeps the course of `w`, leaves the pending set `p` and notes nothing but entries of
the log; it leaves one task more than `w` has when it asks, and none when it ends the call. -/
structure Continues (w : Watcher) (p : Pending) (r : Result) : Prop where
  course : SameCourse w r.state
  pending : r.state.pending = p
  logs : Logs r.notes
  tasks : match r.turn with
    | .ends _ => r.state.tasks = w.tasks
    | .asks q => ∃ t, q.Leaves t ∧ r.state.tasks = t :: w.tasks

variable (w : Watcher)

lemma continues_finish {notes : List Note} (hn : Logs notes) (o : Outcome) :
    Continues w w.pending (w.finish notes o) :=
  ⟨sameCourse_with w _ _ _, rfl, hn, rfl⟩

lemma continues_ask {notes : List Note} (hn : Logs notes) {q : Question} {t : Task}
    (h : q.Leaves t) : Continues w w.pending (w.ask notes q t) :=
  ⟨sameCourse_with w _ _ _, rfl, hn, t, h, rfl⟩

lemma continues_callHost (there : Bool) {notes : List Note} (hn : Logs notes) {q : Question}
    {t : Task} (h : q.Leaves t) : Continues w w.pending (w.callHost there notes q t) := by
  unfold callHost
  split
  · exact continues_ask w hn h
  · exact continues_finish w hn _

lemma continues_attach {notes : List Note} (hn : Logs notes) (id g : Nat)
    (kinds : List EventKind) : Continues w w.pending (w.attach notes id g kinds) := by
  cases kinds with
  | nil => exact continues_finish w hn _
  | cons kind rest => exact continues_ask w hn ⟨rest, rfl⟩

lemma continues_onReady (g : Nat) : Continues w w.pending (w.onReady g) := by
  unfold onReady
  split
  · exact continues_finish w logs_nil _
  · have h := continues_callHost { w with readyGeneration := g } w.callbacks.ready
      (logs_entry Log.Level.info [.words "✅ Comment watcher ready"]) (q := .ready)
      (t := .calling) rfl
    exact ⟨(sameCourse_with w w.pending g w.tasks).trans h.course, h.pending, h.logs, h.tasks⟩

lemma continues_onError (g : Nat) (why : Failure) :
    Continues w w.pending (w.onError g why) := by
  unfold onError
  split
  · exact continues_finish w logs_nil _
  · exact continues_callHost w _ (logs_entry _ _) rfl

lemma continues_onChange (g : Nat) (path : String) :
    Continues w w.pending (w.onChange g path) := by
  unfold onChange
  split
  · exact continues_finish w (logs_entry _ _) _
  · split
    · exact continues_finish w logs_nil _
    · exact continues_ask w logs_nil rfl

/-! ### Reports -/

/-- The blocks that are left once those whose keys are known at the front are passed over. -/
def unreported (known : List String) (rest : List Block) : List Block :=
  rest.dropWhile fun b => known.contains b.key

lemma unreported_of_known {known : List String} {b : Block} (rest : List Block)
    (h : known.contains b.key) : unreported known (b :: rest) = unreported known rest :=
  List.dropWhile_cons_of_pos (p := fun b : Block => known.contains b.key) h

lemma unreported_of_new {known : List String} {b : Block} (rest : List Block)
    (h : ¬ known.contains b.key) : unreported known (b :: rest) = b :: rest :=
  List.dropWhile_cons_of_neg (p := fun b : Block => known.contains b.key) h

/-- A report asks about the first new block, if the host has the callback, and ends otherwise. -/
lemma report_eq (notes : List Note) (path : String) (known : List String)
    (all rest : List Block) :
    ∃ notes', (Logs notes → Logs notes') ∧ w.report notes path known all rest =
      match if w.callbacks.comment then unreported known rest else [] with
      | [] => w.finish notes'
      | b :: later => w.ask notes' (.comment b all) (.reporting path known all later) := by
  induction rest generalizing notes with
  | nil => exact ⟨notes, id, by simp [report, unreported]⟩
  | cons b rest ih =>
      rw [report]
      by_cases hb : known.contains b.key
      · obtain ⟨notes', hlogs, h⟩ := ih notes
        refine ⟨notes', hlogs, ?_⟩
        rw [if_pos hb, h, unreported_of_known rest hb]
      · rw [if_neg hb]
        have hentry := logs_entry Log.Level.debug [.words "AI comment collected | path=",
          .text path, .words " line=", .number b.line]
        by_cases hc : w.callbacks.comment
        · refine ⟨_, fun hn => hn.append hentry, ?_⟩
          rw [if_pos hc, if_pos hc, unreported_of_new rest hb]
        · obtain ⟨notes', hlogs, h⟩ := ih (notes ++ [entry Log.Level.debug
            [.words "AI comment collected | path=", .text path, .words " line=", .number b.line]])
          refine ⟨notes', fun hn => hlogs (hn.append hentry), ?_⟩
          rw [if_neg hc] at h
          rw [if_neg hc, if_neg hc]
          exact h

lemma continues_report {notes : List Note} (hn : Logs notes) (path : String)
    (known : List String) (all rest : List Block) :
    Continues w w.pending (w.report notes path known all rest) := by
  obtain ⟨notes', hlogs, h⟩ := report_eq w notes path known all rest
  rw [h]
  split
  · exact continues_finish w (hlogs hn) _
  · exact continues_ask w (hlogs hn) ⟨path, known, _, rfl⟩

/-! ### Contents -/

/-- The text that an answer brings to one who reads a file, if it brings any. -/
def contentOf? : Outcome → Option String
  | .text content => some content
  | .raised _ => none
  | .returned | .made _ => some ""

/-- The pending set once the content of a file has been taken in. -/
def takingIn (p : Pending) (path content : String) : Pending :=
  if Block.anyTrigger (Block.ofContent path content) then .empty
  else p.replace path (Block.ofContent path content)

lemma continues_dispatch {notes : List Note} (hn : Logs notes) (path : String)
    (blocks : List Block) : Continues w .empty (w.dispatch notes path blocks) := by
  have h := continues_callHost { w with pending := .empty } w.callbacks.trigger
    (hn.append (logs_entry Log.Level.info [.words "🚀 AI! trigger in ", .text path,
      .words " | sending ", .number (w.pending.others path ++ blocks).length,
      .words " comment(s)"]))
    (q := .trigger (w.pending.others path ++ blocks)) (t := .calling) rfl
  exact ⟨(sameCourse_with w .empty w.readyGeneration w.tasks).trans h.course, h.pending, h.logs,
    h.tasks⟩

lemma continues_store {notes : List Note} (hn : Logs notes) (path : String)
    (blocks : List Block) :
    Continues w (w.pending.replace path blocks) (w.store notes path blocks) := by
  have hcourse := sameCourse_with w (w.pending.replace path blocks) w.readyGeneration w.tasks
  unfold store
  split
  · refine ⟨hcourse, rfl, hn.append ?_, rfl⟩
    split
    · exact logs_nil
    · exact logs_entry _ _
  · have h := continues_report { w with pending := w.pending.replace path blocks } hn path
      ((w.pending.get path).map (·.key)) (w.pending.replace path blocks).snapshot blocks
    exact ⟨hcourse.trans h.course, h.pending, h.logs, h.tasks⟩

/-- The content of a file with a trigger is handed over. -/
lemma scan_of_anyTrigger {path content : String}
    (h : Block.anyTrigger (Block.ofContent path content)) :
    ∃ notes, Logs notes ∧
      w.scan path content = w.dispatch notes path (Block.ofContent path content) :=
  ⟨_, logs_entry _ _, if_pos h⟩

/-- The content of a file without one is kept. -/
lemma scan_of_not_anyTrigger {path content : String}
    (h : ¬ Block.anyTrigger (Block.ofContent path content)) :
    ∃ notes, Logs notes ∧
      w.scan path content = w.store notes path (Block.ofContent path content) :=
  ⟨_, logs_entry _ _, if_neg h⟩

lemma continues_scan (path content : String) :
    Continues w (takingIn w.pending path content) (w.scan path content) := by
  by_cases h : Block.anyTrigger (Block.ofContent path content)
  · obtain ⟨notes, hn, hs⟩ := scan_of_anyTrigger w h
    rw [hs, takingIn, if_pos h]
    exact continues_dispatch w hn path _
  · obtain ⟨notes, hn, hs⟩ := scan_of_not_anyTrigger w h
    rw [hs, takingIn, if_neg h]
    exact continues_store w hn path _

lemma continues_unread (path : String) (why : Failure) :
    Continues w w.pending (w.unread path why) := by
  unfold unread
  split
  · exact continues_finish w (logs_entry _ _) _
  · exact continues_finish w logs_nil _

/-! ### Answers -/

/-- The pending set once a task has been answered. -/
def pendingAfter (p : Pending) (o : Outcome) : Task → Pending
  | .reading path => ((contentOf? o).map (takingIn p path)).getD p
  | _ => p

lemma continues_proceed (o : Outcome) (t : Task) :
    Continues w (pendingAfter w.pending o t) (w.proceed o t) := by
  cases t with
  | attaching id g rest =>
      cases o with
      | raised why => exact continues_finish w logs_nil _
      | _ => exact continues_attach w logs_nil id g rest
  | reading path =>
      cases o with
      | raised why => exact continues_unread w path why
      | text content => exact continues_scan w path content
      | returned | made => exact continues_scan w path ""
  | reporting path known all rest =>
      cases o with
      | raised why => exact continues_finish w logs_nil _
      | _ => exact continues_report w logs_nil path known all rest
  | calling => cases o <;> exact continues_finish w logs_nil _

/-! ## Steps -/

/-- What closing leaves of a watcher, and what is noted on the way. -/
lemma closeSubscription_eq :
    w.closeSubscription =
      ({ w with subscription := none }, w.subscription.toList.map Note.unsubscribed) := by
  unfold closeSubscription
  cases h : w.subscription with
  | none =>
      have hw : w = { w with subscription := none } := by rw [← h]
      exact Prod.ext hw rfl
  | some id => rfl

/-- A watch that succeeds begins a generation and asks for its first listener. -/
lemma watch_ok (root : String) (id : Nat) :
    ∃ notes, w.watch root (.ok id) =
      { w with
        subscription := some id, generation := w.generation + 1, closed := false
        root := some (rootOf w.options root) }.ask notes (.attach id .ready (w.generation + 1))
          (.attaching id (w.generation + 1) [.change, .error]) := by
  unfold watch
  rw [closeSubscription_eq]
  exact ⟨_, rfl⟩

/-- A watch that fails begins a generation without a subscription. -/
lemma watch_error (root : String) (why : Failure) :
    ∃ notes, w.watch root (.error why) =
      { w with
        subscription := none, generation := w.generation + 1, closed := false
        root := some (rootOf w.options root) }.finish notes (.raised why) := by
  unfold watch
  rw [closeSubscription_eq]
  exact ⟨_, rfl⟩

/-- A close begins a generation without a subscription, too. -/
lemma close_eq :
    ∃ notes, w.close =
      { w with subscription := none, generation := w.generation + 1, closed := true }.finish
        notes := by
  unfold close
  rw [closeSubscription_eq]
  exact ⟨_, rfl⟩

lemma continues_event (g : Nat) (e : Event) :
    Continues w w.pending (w.step (.event g e)) := by
  cases e with
  | ready => exact continues_onReady w g
  | change path => exact continues_onChange w g path
  | error why => exact continues_onError w g why

lemma continues_answer {t : Task} {ts : List Task} (h : w.tasks = t :: ts) (o : Outcome) :
    Continues { w with tasks := ts } (pendingAfter w.pending o t) (w.step (.answer o)) := by
  simp only [step, h]
  exact continues_proceed { w with tasks := ts } o t

lemma step_answer_of_nil (h : w.tasks = []) (o : Outcome) :
    w.step (.answer o) = w.finish [] := by
  simp only [step, h]

/-- The course that a watcher takes upon an input. -/
def courseUpon : Input → Watcher
  | .watch root opened =>
    { w with
      subscription := opened.toOption, generation := w.generation + 1, closed := false
      root := some (rootOf w.options root) }
  | .close => { w with subscription := none, generation := w.generation + 1, closed := true }
  | .pause => { w with paused := true }
  | .resume => { w with paused := false }
  | .clear | .event .. | .answer _ => w

/-- **The course after a step** depends on the calls of the host alone. -/
theorem sameCourse_step (i : Input) : SameCourse (w.courseUpon i) (w.step i).state := by
  cases i with
  | watch root opened =>
      cases opened with
      | ok id =>
          obtain ⟨notes, h⟩ := watch_ok w root id
          simp only [step, h]
          exact sameCourse_with _ _ _ _
      | error why =>
          obtain ⟨notes, h⟩ := watch_error w root why
          simp only [step, h]
          exact sameCourse_with _ _ _ _
  | close =>
      obtain ⟨notes, h⟩ := close_eq w
      simp only [step, h]
      exact sameCourse_with _ _ _ _
  | pause | resume | clear => exact sameCourse_with _ _ _ _
  | event g e => exact (continues_event w g e).course
  | answer o =>
      cases h : w.tasks with
      | nil => rw [step_answer_of_nil w h]; exact sameCourse_with _ _ _ _
      | cons t ts =>
          exact (sameCourse_with w w.pending w.readyGeneration ts).trans
            (continues_answer w h o).course

/-- A closed watcher holds no subscription. -/
lemma subscription_of_closed (hw : w.closed → w.subscription = none) (i : Input) :
    (w.step i).state.closed → (w.step i).state.subscription = none := by
  have hcourse := sameCourse_step w i
  rw [hcourse.closed, hcourse.subscription]
  cases i with
  | watch => exact fun h => absurd h Bool.false_ne_true
  | close => exact fun _ => rfl
  | _ => exact hw

/-- A watcher is watching or paused as long as it holds a subscription. -/
lemma status_of_open (hw : w.closed → w.subscription = none) :
    (w.status = .watching ∨ w.status = .paused) ↔ w.subscription.isSome := by
  unfold status
  cases hs : w.subscription with
  | none => by_cases hc : w.closed <;> simp [hc]
  | some id =>
      have hc : w.closed = false := by
        rw [Bool.eq_false_iff]
        intro hc
        cases (hw hc).symm.trans hs
      by_cases hp : w.paused <;> simp [hc, hp]

/-- The pending set that an input leaves. -/
def pendingUpon : Input → Pending
  | .clear => .empty
  | .answer o => (w.tasks.head?.map (pendingAfter w.pending o)).getD w.pending
  | _ => w.pending

/-- **The pending set after a step** is another one after `clear` and the answer to a `read`
only. -/
theorem step_pending (i : Input) : (w.step i).state.pending = w.pendingUpon i := by
  cases i with
  | watch root opened =>
      cases opened with
      | ok id => obtain ⟨notes, h⟩ := watch_ok w root id; simp only [step, h]; rfl
      | error why => obtain ⟨notes, h⟩ := watch_error w root why; simp only [step, h]; rfl
  | close => obtain ⟨notes, h⟩ := close_eq w; simp only [step, h]; rfl
  | pause | resume | clear => rfl
  | event g e => exact (continues_event w g e).pending
  | answer o =>
      cases h : w.tasks with
      | nil => rw [step_answer_of_nil w h]; simp [pendingUpon, h, finish]
      | cons t ts => rw [(continues_answer w h o).pending]; simp [pendingUpon, h]

/-- The tasks that an input finds once its own has been taken off. -/
def tasksUpon : Input → List Task
  | .answer _ => w.tasks.tail
  | _ => w.tasks

/-- **The tasks after a step**: one more exactly when it asks, and that one fits the question. -/
theorem step_tasks (i : Input) :
    match (w.step i).turn with
    | .ends _ => (w.step i).state.tasks = w.tasksUpon i
    | .asks q => ∃ t, q.Leaves t ∧ (w.step i).state.tasks = t :: w.tasksUpon i := by
  cases i with
  | watch root opened =>
      cases opened with
      | ok id =>
          obtain ⟨notes, h⟩ := watch_ok w root id
          simp only [step, h]
          exact ⟨_, ⟨_, rfl⟩, rfl⟩
      | error why => obtain ⟨notes, h⟩ := watch_error w root why; simp only [step, h]; rfl
  | close => obtain ⟨notes, h⟩ := close_eq w; simp only [step, h]; rfl
  | pause | resume | clear => rfl
  | event g e => exact (continues_event w g e).tasks
  | answer o =>
      cases h : w.tasks with
      | nil => rw [step_answer_of_nil w h]; simp [tasksUpon, h, finish]
      | cons t ts => simpa [tasksUpon, h] using (continues_answer w h o).tasks

/-! ### What tasks hold -/

/-- What a failure drops of things that tasks hold: those of the task that it answers. -/
def dropped {α : Type} (held : Task → List α) : Input → List α
  | .answer (.raised _) => (w.tasks.head?.map held).getD []
  | _ => []

/-- A step that asks for nothing of a kind leaves the tasks what they hold of it. -/
lemma flatMap_tasks_of_quiet {α : Type} {held : Task → List α} {shown : Turn Question → List α}
    (hends : ∀ o, shown (.ends o) = []) {i : Input}
    (hquiet : ∀ q t, (w.step i).turn = .asks q → q.Leaves t →
      shown (.asks q) = [] ∧ held t = []) :
    (w.tasksUpon i).flatMap held =
      shown (w.step i).turn ++ (w.step i).state.tasks.flatMap held := by
  have hstep := step_tasks w i
  cases hturn : (w.step i).turn with
  | ends o =>
      rw [hturn] at hstep
      rw [hstep, hends]
      rfl
  | asks q =>
      rw [hturn] at hstep
      obtain ⟨t, hleaves, htasks⟩ := hstep
      obtain ⟨hshown, hheld⟩ := hquiet q t hturn hleaves
      rw [htasks, hshown, List.flatMap_cons, hheld]
      rfl

/-! ## Which step asks what -/

@[simp] lemma finish_turn (notes : List Note) (o : Outcome) :
    (w.finish notes o).turn = .ends o := rfl

@[simp] lemma ask_turn (notes : List Note) (q : Question) (t : Task) :
    (w.ask notes q t).turn = .asks q := rfl

@[simp] lemma callHost_turn (there : Bool) (notes : List Note) (q : Question) (t : Task) :
    (w.callHost there notes q t).turn = if there then .asks q else .ends .returned := by
  cases there <;> rfl

/-- The first block that a report would tell the host of. -/
def news? (known : List String) (rest : List Block) : Option Block :=
  if w.callbacks.comment then (unreported known rest).head? else none

@[simp] lemma report_turn (notes : List Note) (path : String) (known : List String)
    (all rest : List Block) :
    (w.report notes path known all rest).turn =
      match w.news? known rest with
      | some b => .asks (.comment b all)
      | none => .ends .returned := by
  obtain ⟨notes', -, h⟩ := report_eq w notes path known all rest
  rw [h, news?]
  by_cases hc : w.callbacks.comment
  · rw [if_pos hc, if_pos hc]
    cases unreported known rest <;> rfl
  · rw [if_neg hc, if_neg hc]
    rfl

@[simp] lemma attach_turn (notes : List Note) (id g : Nat) (kinds : List EventKind) :
    (w.attach notes id g kinds).turn =
      match kinds.head? with
      | some kind => .asks (.attach id kind g)
      | none => .ends .returned := by
  cases kinds <;> rfl

@[simp] lemma unread_turn (path : String) (why : Failure) :
    (w.unread path why).turn = .ends (if why.isReadFailure then .returned else .raised why) := by
  unfold unread
  split <;> rfl

/-- The question that the content of a file leads to. -/
def questionOfContent? (path content : String) : Option Question :=
  let blocks := Block.ofContent path content
  if Block.anyTrigger blocks then
    if w.callbacks.trigger then some (.trigger (w.pending.others path ++ blocks)) else none
  else
    (w.news? ((w.pending.get path).map (·.key)) blocks).map
      (.comment · (w.pending.replace path blocks).snapshot)

/-- The turn that a question makes, if there is one. -/
def turnOf (question? : Option Question) (o : Outcome := .returned) : Turn Question :=
  match question? with
  | some q => .asks q
  | none => .ends o

lemma turnOf_eq_asks_iff {question? : Option Question} {o : Outcome} {q : Question} :
    turnOf question? o = .asks q ↔ question? = some q := by
  cases question? <;> simp [turnOf]

lemma store_turn (notes : List Note) (path : String) (blocks : List Block) :
    (w.store notes path blocks).turn =
      turnOf ((w.news? ((w.pending.get path).map (·.key)) blocks).map
        (.comment · (w.pending.replace path blocks).snapshot)) := by
  unfold store
  split
  · rename_i hb
    rw [List.isEmpty_iff.1 hb]
    simp [news?, unreported, turnOf]
  · rw [report_turn]
    have hnews : { w with pending := w.pending.replace path blocks }.news?
        ((w.pending.get path).map Block.key) blocks =
          w.news? ((w.pending.get path).map Block.key) blocks := rfl
    rw [hnews]
    cases w.news? ((w.pending.get path).map Block.key) blocks <;> rfl

lemma scan_turn (path content : String) :
    (w.scan path content).turn = turnOf (w.questionOfContent? path content) := by
  by_cases h : Block.anyTrigger (Block.ofContent path content)
  · obtain ⟨notes, -, hs⟩ := scan_of_anyTrigger w h
    rw [hs, dispatch, callHost_turn, questionOfContent?, if_pos h]
    by_cases hc : w.callbacks.trigger <;> simp [hc, turnOf]
  · obtain ⟨notes, -, hs⟩ := scan_of_not_anyTrigger w h
    rw [hs, store_turn, questionOfContent?, if_neg h]

/-- The question that a task leads to once it has been answered. -/
def questionAfter? (o : Outcome) : Task → Option Question
  | .attaching id g rest => if o.failure?.isSome then none else rest.head?.map (.attach id · g)
  | .reading path => (contentOf? o).bind (w.questionOfContent? path)
  | .reporting _ known all rest =>
    if o.failure?.isSome then none else (w.news? known rest).map (.comment · all)
  | .calling => none

lemma questionOfContent?_cases {path content : String} {q : Question}
    (h : w.questionOfContent? path content = some q) :
    (∃ blocks, q = .trigger blocks) ∨ ∃ b all, q = .comment b all := by
  by_cases htrigger : Block.anyTrigger (Block.ofContent path content)
  · rw [questionOfContent?, if_pos htrigger] at h
    split at h
    · cases h
      exact Or.inl ⟨_, rfl⟩
    · cases h
  · rw [questionOfContent?, if_neg htrigger] at h
    obtain ⟨b, -, rfl⟩ := Option.map_eq_some_iff.1 h
    exact Or.inr ⟨b, _, rfl⟩

/-- **What an answer leads to**: the next listener of a subscription, the trigger, or a block. -/
lemma questionAfter?_cases {o : Outcome} {t : Task} {q : Question}
    (h : w.questionAfter? o t = some q) :
    (∃ id g rest kind, t = .attaching id g rest ∧ q = .attach id kind g) ∨
      (∃ blocks, q = .trigger blocks) ∨ ∃ b all, q = .comment b all := by
  cases t with
  | attaching id g rest =>
      rw [questionAfter?] at h
      split at h
      · cases h
      · obtain ⟨kind, -, rfl⟩ := Option.map_eq_some_iff.1 h
        exact Or.inl ⟨id, g, rest, kind, rfl, rfl⟩
  | reading path =>
      obtain ⟨content, -, hc⟩ := Option.bind_eq_some_iff.1 h
      exact Or.inr (questionOfContent?_cases w hc)
  | reporting path known all rest =>
      rw [questionAfter?] at h
      split at h
      · cases h
      · obtain ⟨b, -, rfl⟩ := Option.map_eq_some_iff.1 h
        exact Or.inr (Or.inr ⟨b, all, rfl⟩)
  | calling => cases h

/-- A task that asks nothing more lets the call return, or end with what it was answered. -/
lemma proceed_turn (o : Outcome) (t : Task) :
    ∃ o', (o' = .returned ∨ o' = o) ∧
      (w.proceed o t).turn = turnOf (w.questionAfter? o t) o' := by
  cases t with
  | attaching id g rest =>
      cases o with
      | raised why => exact ⟨.raised why, Or.inr rfl, rfl⟩
      | _ => exact ⟨.returned, Or.inl rfl, by cases rest <;> rfl⟩
  | reading path =>
      cases o with
      | raised why => exact ⟨_, ite_eq_or_eq .., unread_turn w path why⟩
      | text content => exact ⟨.returned, Or.inl rfl, scan_turn w path content⟩
      | returned | made => exact ⟨.returned, Or.inl rfl, scan_turn w path ""⟩
  | reporting path known all rest =>
      cases o with
      | raised why => exact ⟨.raised why, Or.inr rfl, rfl⟩
      | _ =>
          refine ⟨.returned, Or.inl rfl, ?_⟩
          simp only [proceed, report_turn, questionAfter?, Outcome.failure?]
          cases w.news? known rest <;> rfl
  | calling =>
      cases o with
      | raised why => exact ⟨.raised why, Or.inr rfl, rfl⟩
      | _ => exact ⟨.returned, Or.inl rfl, rfl⟩

lemma step_answer_cons {t : Task} {ts : List Task} (h : w.tasks = t :: ts) (o : Outcome) :
    w.step (.answer o) = { w with tasks := ts }.proceed o t := by
  simp only [step, h]

/-- A call that an answer ends returns, or ends with the answer. -/
lemma ends_of_answer {o o' : Outcome} (h : (w.step (.answer o)).turn = .ends o') :
    o' = .returned ∨ o' = o := by
  cases htasks : w.tasks with
  | nil =>
      rw [step_answer_of_nil w htasks] at h
      exact Or.inl (Turn.ends.inj h).symm
  | cons t ts =>
      obtain ⟨o₁, ho, hturn⟩ := proceed_turn { w with tasks := ts } o t
      rw [step_answer_cons w htasks, hturn] at h
      unfold turnOf at h
      split at h
      · cases h
      · rwa [← Turn.ends.inj h]

/-- An answer asks what its task leads to. -/
lemma step_answer_asks_iff (o : Outcome) (q : Question) :
    (w.step (.answer o)).turn = .asks q ↔ w.tasks.head?.bind (w.questionAfter? o) = some q := by
  cases h : w.tasks with
  | nil => simp [step_answer_of_nil w h]
  | cons t ts =>
      obtain ⟨o', -, ht⟩ := proceed_turn { w with tasks := ts } o t
      have hq : { w with tasks := ts }.questionAfter? o t = w.questionAfter? o t := by
        cases t <;> rfl
      rw [step_answer_cons w h, ht, turnOf_eq_asks_iff, hq]
      rfl

/-- The question that an event of the open subscription leads to. -/
def questionOfEvent? (g : Nat) : Event → Option Question
  | .ready => if w.readyGeneration ≠ g ∧ w.callbacks.ready then some .ready else none
  | .change path => if w.paused ∨ w.ignores path then none else some (.read path)
  | .error why => if w.callbacks.error then some (.error why) else none

/-- An event asks only if it is one of the open subscription. -/
lemma step_event_asks_iff (g : Nat) (e : Event) (q : Question) :
    (w.step (.event g e)).turn = .asks q ↔
      w.isCurrent g ∧ w.questionOfEvent? g e = some q := by
  cases e with
  | ready =>
      simp only [step, onReady, questionOfEvent?]
      by_cases hg : w.isCurrent g <;> by_cases hr : w.readyGeneration = g <;>
        by_cases hc : w.callbacks.ready <;> simp [hg, hr, hc]
  | change path =>
      simp only [step, onChange, questionOfEvent?]
      by_cases hg : w.isCurrent g <;> by_cases hp : w.paused || w.ignores path <;>
        simp_all
  | error why =>
      simp only [step, onError, questionOfEvent?]
      by_cases hg : w.isCurrent g <;> by_cases hc : w.callbacks.error <;> simp [hg, hc]

/-- A call that an event ends returns. -/
lemma ends_of_event {g : Nat} {e : Event} {o : Outcome}
    (h : (w.step (.event g e)).turn = .ends o) : o = .returned := by
  cases e with
  | ready =>
      rw [step, onReady] at h
      split at h
      · exact (Turn.ends.inj h).symm
      · rw [callHost_turn] at h
        split at h <;> cases h
        rfl
  | change path =>
      rw [step, onChange] at h
      split at h
      · exact (Turn.ends.inj h).symm
      · split at h <;> cases h
        rfl
  | error why =>
      rw [step, onError] at h
      split at h
      · exact (Turn.ends.inj h).symm
      · rw [callHost_turn] at h
        split at h <;> cases h
        rfl

/-- The question that an input leads to. -/
def questionUpon? : Input → Option Question
  | .watch _ (.ok id) => some (.attach id .ready (w.generation + 1))
  | .watch _ (.error _) | .close | .pause | .resume | .clear => none
  | .event g e => if w.isCurrent g then w.questionOfEvent? g e else none
  | .answer o => w.tasks.head?.bind (w.questionAfter? o)

/-- **A step asks** the question that its input leads to, and no other. -/
theorem step_asks_iff (i : Input) (q : Question) :
    (w.step i).turn = .asks q ↔ w.questionUpon? i = some q := by
  cases i with
  | watch root opened =>
      cases opened with
      | ok id => obtain ⟨notes, h⟩ := watch_ok w root id; simp [step, h, questionUpon?]
      | error why => obtain ⟨notes, h⟩ := watch_error w root why; simp [step, h, questionUpon?]
  | close => obtain ⟨notes, h⟩ := close_eq w; simp [step, h, questionUpon?]
  | pause | resume | clear => simp [step, pause, resume, clear, questionUpon?]
  | event g e => rw [step_event_asks_iff, questionUpon?]; split <;> simp_all
  | answer o => exact step_answer_asks_iff w o q

end Marginalia.Watcher
