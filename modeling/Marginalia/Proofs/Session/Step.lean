import Marginalia.Session
import Mathlib

/-!
# One step of a session

What a step of a session can do to its watcher.  A session lets go of a watcher and takes another
one in three tasks only, `beginning`, `making` and `ending`, which wait for a watcher to be closed
or made; they are the tasks that turn over.

`step_of_steady` lists what a session does in which nothing is turned over: it stays with its
watcher and asks for something by the way, or a turnover begins.  `step_of_turningOver` lists how
one goes on.
-/

namespace Marginalia.Session

/-- Once the task is done the session has another watcher, or none. -/
def Task.turnsOver : Task → Bool
  | .beginning _ | .making _ | .ending => true
  | .resuming | .delivering _ | .waiting => false

/-- None of the tasks turns over. -/
def IsSteady (ts : List Task) : Prop :=
  ∀ t ∈ ts, t.turnsOver = false

lemma IsSteady.cons {t : Task} {ts : List Task} (ht : t.turnsOver = false) (hts : IsSteady ts) :
    IsSteady (t :: ts) :=
  List.forall_mem_cons.2 ⟨ht, hts⟩

/-- The question concerns neither the making of watchers nor their subscriptions. -/
def Question.isPlain : Question → Bool
  | .pause _ | .resume _ | .deliver _ | .notify .. => true
  | .make _ | .watch .. | .close _ => false

/-- The tasks that an input finds once its own has been taken off. -/
def tasksUpon (s : Session) : Input → List Task
  | .answer _ => s.tasks.tail
  | _ => s.tasks

section Results

variable (s : Session) (ts : List Task) (r : Result)

/-- The session stays with its watcher: the call ends, or there is something to be asked. -/
def Stays : Prop :=
  r.state.watcher = s.watcher ∧
    ((∃ o, r.turn = .ends o ∧ r.state.tasks = ts) ∨
      ∃ q t, r.turn = .asks q ∧ q.isPlain ∧ r.state.tasks = t :: ts ∧ t.turnsOver = false)

/-- The session wants its watcher to be closed. -/
def Closes : Prop :=
  r.state.watcher = s.watcher ∧
    ∃ id t, s.watcher = some id ∧ r.turn = .asks (.close id) ∧ r.state.tasks = t :: ts ∧ t.turnsOver

/-- The session wants another watcher to be made. -/
def Makes : Prop :=
  r.state.watcher = s.watcher ∧
    ∃ options root, r.turn = .asks (.make options) ∧ r.state.tasks = .making root :: ts

/-- The session takes the watcher that was made. -/
def Takes : Prop :=
  ∃ id root, r.state.watcher = some id ∧ r.turn = .asks (.watch id root) ∧
    r.state.tasks = .waiting :: ts

/-- The session is left without a watcher. -/
def Leaves : Prop :=
  r.state.watcher = none ∧ ∃ o, r.turn = .ends o ∧ r.state.tasks = ts

end Results

variable (s : Session)

lemma stays_finish (notes : List Log.Entry) (o : Outcome) :
    Stays s s.tasks (s.finish notes o) :=
  ⟨rfl, Or.inl ⟨o, rfl, rfl⟩⟩

lemma stays_ask (notes : List Log.Entry) {q : Question} {t : Task} (hq : q.isPlain)
    (ht : t.turnsOver = false) : Stays s s.tasks (s.ask notes q t) :=
  ⟨rfl, Or.inr ⟨q, t, rfl, hq, rfl, ht⟩⟩

lemma stays_inform (notes : List Log.Entry) (text : String) (gravity : Gravity) :
    Stays s s.tasks (s.inform notes text gravity) := by
  unfold inform
  split
  · exact stays_ask s notes rfl rfl
  · exact stays_finish s _ _

lemma stays_deliver (blocks : List Block) : Stays s s.tasks (s.deliver blocks) := by
  unfold deliver
  split
  · exact stays_finish s _ _
  · exact stays_ask s _ rfl rfl

lemma stays_delivered (blocks : List Block) (o : Outcome) :
    Stays s s.tasks (s.delivered blocks o) := by
  unfold delivered
  split
  · split
    · exact stays_inform s _ _ _
    · exact stays_finish s _ _
  · exact stays_inform s _ _ _

lemma stays_passOn (why : Failure) : Stays s s.tasks (s.passOn why) := by
  unfold passOn
  split
  · exact stays_inform s _ _ _
  · exact stays_finish s _ _

lemma stays_agentStart : Stays s s.tasks s.agentStart := by
  unfold agentStart
  split
  · exact stays_ask s _ rfl rfl
  · exact stays_finish s _ _

lemma stays_agentEnd : Stays s s.tasks s.agentEnd := by
  unfold agentEnd
  split
  · exact stays_ask s _ rfl rfl
  · exact stays_finish s _ _

lemma makes_begin (cwd : Option String) : Makes s s.tasks (s.begin cwd) :=
  ⟨rfl, _, _, rfl, rfl⟩

lemma start_cases (cwd : Option String) :
    (s.watcher = none ∧ Makes s s.tasks (s.start cwd)) ∨ Closes s s.tasks (s.start cwd) := by
  cases h : s.watcher with
  | none =>
      refine Or.inl ⟨rfl, ?_⟩
      rw [start, h]
      exact makes_begin s cwd
  | some id =>
      refine Or.inr ?_
      rw [start, h]
      exact ⟨rfl, id, .beginning cwd, h, rfl, rfl, rfl⟩

lemma shutdown_cases : Stays s s.tasks s.shutdown ∨ Closes s s.tasks s.shutdown := by
  cases h : s.watcher with
  | none =>
      refine Or.inl ?_
      rw [shutdown, h]
      exact ⟨h.symm, Or.inl ⟨.returned, rfl, rfl⟩⟩
  | some id =>
      refine Or.inr ?_
      rw [shutdown, h]
      exact ⟨rfl, id, .ending, h, rfl, rfl, rfl⟩

/-- A task that does not turn over leaves the session with its watcher. -/
lemma stays_proceed (o : Outcome) {t : Task} (ht : t.turnsOver = false) :
    Stays s s.tasks (s.proceed o t) := by
  cases t with
  | delivering blocks => exact stays_delivered s blocks o
  | resuming =>
      cases o with
      | raised why => exact stays_finish s _ _
      | returned | text | made => exact stays_inform s _ _ _
  | waiting => cases o <;> exact stays_finish s _ _
  | beginning | making | ending => cases ht

/-- **A steady session** stays with its watcher, or begins to turn over. -/
theorem step_of_steady (hs : IsSteady s.tasks) (i : Input) :
    Stays s (s.tasksUpon i) (s.step i) ∨
      (s.watcher = none ∧ Makes s (s.tasksUpon i) (s.step i)) ∨
      Closes s (s.tasksUpon i) (s.step i) := by
  cases i with
  | start cwd => exact Or.inr (start_cases s cwd)
  | shutdown => exact (shutdown_cases s).imp_right Or.inr
  | agentStart => exact Or.inl (stays_agentStart s)
  | agentEnd => exact Or.inl (stays_agentEnd s)
  | trigger blocks => exact Or.inl (stays_deliver s blocks)
  | comment | ready => exact Or.inl (stays_inform s _ _ _)
  | error why => exact Or.inl (stays_passOn s why)
  | answer o =>
      refine Or.inl ?_
      cases h : s.tasks with
      | nil =>
          simp only [step, tasksUpon, h, List.tail_nil]
          exact ⟨rfl, Or.inl ⟨.returned, rfl, h⟩⟩
      | cons t ts =>
          have ht : t.turnsOver = false := hs t (by rw [h]; exact List.mem_cons_self ..)
          simp only [step, tasksUpon, h, List.tail_cons]
          exact stays_proceed { s with tasks := ts } o ht

/-- **A turnover goes on** with the answer to its task, or a failure breaks it off. -/
theorem step_of_turningOver {t : Task} {ts : List Task} (htasks : s.tasks = t :: ts)
    (ht : t.turnsOver) (o : Outcome) :
    Stays s ts (s.step (.answer o)) ∨ Makes s ts (s.step (.answer o)) ∨
      Takes ts (s.step (.answer o)) ∨ Leaves ts (s.step (.answer o)) := by
  simp only [step, htasks]
  cases t with
  | beginning cwd =>
      cases o with
      | raised why => exact Or.inl (stays_finish { s with tasks := ts } _ _)
      | returned | text | made => exact Or.inr (Or.inl (makes_begin { s with tasks := ts } cwd))
  | making root =>
      cases o with
      | made id => exact Or.inr (Or.inr (Or.inl ⟨id, root, rfl, rfl, rfl⟩))
      | raised | returned | text => exact Or.inl (stays_finish { s with tasks := ts } _ _)
  | ending =>
      cases o with
      | raised why => exact Or.inl (stays_finish { s with tasks := ts } _ _)
      | returned | text | made => exact Or.inr (Or.inr (Or.inr ⟨rfl, .returned, rfl, rfl⟩))
  | resuming | delivering | waiting => cases ht

end Marginalia.Session
