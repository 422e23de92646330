import Marginalia.Proofs.Notifier.Dispatch
import Marginalia.Proofs.Notifier.Opening
import Marginalia.Proofs.Notifier.Step

/-!
# The chronicle of a subscription

A `History` is what has been put into a subscription so far, each input with its time and the latest
first; `after` is the subscription that it leads to.  The `chronicle` says what came of it: which
paths were recorded, when the quiet paths were looked for and which were picked, which events were
emitted, and who was attached.  An event is emitted when its first listener is asked, or when it is
laid aside because nobody listens.  What the listeners were asked is kept apart, in `calls`.

`step_cases` is the inversion of the steps of an open subscription.  A step attaches a listener; or
it is `Silent`: it takes note of a path, makes a call that was owed, or gives up a task because a
listener has failed in a way that cannot be reported; or it is a step of the dispatcher,
`Dispatching`, and emits the events that the chronicle says.  `Emits` describes what comes of that.
-/

namespace Marginalia.Notifier

variable {ℓ : Type}

deriving instance DecidableEq for Telling

/-! ## Deeds -/

/-- What a subscription does. -/
inductive Deed (ℓ : Type)
  /-- A path was touched that is not ignored. -/
  | recorded (path : String) (time : Int)
  /-- The quiet ones of the dirty paths were picked. -/
  | picked (paths : List String) (time : Int)
  /-- The first event of the queue was emitted. -/
  | dequeued (e : Event)
  /-- The change of a picked path was emitted. -/
  | announced (path : String)
  /-- A listener was attached. -/
  | attached (kind : EventKind) (listener : ℓ)
  deriving DecidableEq, Repr

/-- The event that a deed emits. -/
def Deed.emitted? : Deed ℓ → Option Event
  | .dequeued e => some e
  | .announced path => some (.change path)
  | _ => none

/-- The event that a deed takes out of the queue. -/
def Deed.dequeued? : Deed ℓ → Option Event
  | .dequeued e => some e
  | _ => none

/-- A listener that an input attaches. -/
def Input.attachment? : Input ℓ → Option (EventKind × ℓ)
  | .attach kind listener => some (kind, listener)
  | _ => none

/-- The input is a turn of the dispatcher. -/
def Input.isTurn : Input ℓ → Bool
  | .turn => true
  | _ => false

/-- Whoever takes care of failures can take care of the input, if it is an answer. -/
def Input.isContained : Input ℓ → Bool
  | .answer o => o.isContained
  | _ => true

/-- What a turn asks. -/
def askedBy : Turn (Telling ℓ) → Option (Telling ℓ)
  | .asks q => some q
  | .ends _ => none

namespace Subscription

/-! ## What a step does -/

section Step

variable (s : Subscription ℓ)

/-- The path is dirty once it has been touched. -/
def takes (path : String) : Bool :=
  !s.closed && !s.ignores path

/-- The path that an input makes dirty. -/
def recorded? : Input ℓ → Option String
  | .record path => if s.takes path then some path else none
  | .raw r => r.touched?.filter fun path => s.observes && s.takes path
  | _ => none

/-- The event that an input takes out of the queue. -/
def dequeued? : Input ℓ → Option Event
  | .turn => if s.closed then none else s.queue.head?
  | _ => none

/-- When the step looks for quiet paths, if it does. -/
def looksAt? (now : Int) : Input ℓ → Option Int
  | .turn =>
    if s.closed then none
    else match s.queue with
      | [] => some (now + s.patience)
      | e :: _ => if (s.listenersOf e.kind).isEmpty then some now else none
  | .answer o =>
    match s.tasks with
    | .telling _ [] .collect :: _ => if o.isContained then some now else none
    | _ => none
  | _ => none

/-- The dirty paths that have been quiet for long enough at a time. -/
def quietAt (time : Int) : List String :=
  (s.dirty.filter (s.isQuiet time)).map Prod.fst

/-- The dirty paths once the input has been taken note of. -/
def noted (now : Int) (i : Input ℓ) : List (String × Int) :=
  match s.recorded? i with
  | some path => Entries.put path now s.dirty
  | none => s.dirty

/-- The dirty paths after the step: it takes note of a path, or cleans the quiet ones. -/
def dirtyAfter (now : Int) (i : Input ℓ) : List (String × Int) :=
  match s.looksAt? now i with
  | some time => s.dirty.filter fun entry => !s.isQuiet time entry
  | none => s.noted now i

/-- The paths that the step picks. -/
def picked (now : Int) (i : Input ℓ) : List String :=
  ((s.looksAt? now i).map s.quietAt).getD []

/-- The paths that were picked before and that the step goes on with. -/
def remaining : Input ℓ → List String
  | .answer o =>
    match s.tasks with
    | .telling _ [] sequel :: _ => if o.isContained then sequel.paths else []
    | _ => []
  | _ => []

/-- The paths whose changes the step has to announce. -/
def agenda (now : Int) (i : Input ℓ) : List String :=
  s.remaining i ++ s.picked now i

/-- How far a step comes with some picked paths.  When nobody listens it comes to the end, and else
the first change has to be heard before the next is emitted. -/
def announces (paths : List String) : List String :=
  if (s.listenersOf .change).isEmpty then paths else paths.take 1

/-- What follows once the event has been heard that the step asks for. -/
def follows (now : Int) (i : Input ℓ) : Sequel :=
  if i.isTurn && (s.looksAt? now i).isNone then .collect
  else .changes ((s.agenda now i).drop (s.announces (s.agenda now i)).length)

/-- What the step does, the latest first. -/
def deeds (now : Int) (i : Input ℓ) : List (Deed ℓ) :=
  ((s.announces (s.agenda now i)).reverse.map .announced ++
      (s.looksAt? now i).toList.map (fun time => .picked (s.quietAt time) time) ++
        (s.dequeued? i).toList.map .dequeued) ++
    ((s.recorded? i).toList.map (.recorded · now) ++
      i.attachment?.toList.map fun a => .attached a.1 a.2)

/-- The events that the step emits, in order. -/
def emits (now : Int) (i : Input ℓ) : List Event :=
  (s.dequeued? i).toList ++ (s.announces (s.agenda now i)).map .change

end Step

/-! ## Histories -/

/-- The inputs of a subscription so far, the latest first. -/
abbrev History (ℓ : Type) := List (Int × Input ℓ)

/-- The subscription that a history leads to. -/
def after (s : Subscription ℓ) (h : History ℓ) : Subscription ℓ :=
  s.run h.reverse

@[simp] lemma after_nil (s : Subscription ℓ) : s.after [] = s := rfl

@[simp] lemma after_cons (s : Subscription ℓ) (i : Int × Input ℓ) (h : History ℓ) :
    s.after (i :: h) = ((s.after h).step i.1 i.2).state := by
  simp [after, run, List.foldl_append]

/-- What was done, the latest first. -/
def chronicle (s : Subscription ℓ) : History ℓ → List (Deed ℓ)
  | [] => []
  | i :: h => (s.after h).deeds i.1 i.2 ++ s.chronicle h

/-- What the listeners were asked to hear, in order. -/
def calls (s : Subscription ℓ) : History ℓ → List (Telling ℓ)
  | [] => []
  | i :: h => s.calls h ++ (askedBy ((s.after h).step i.1 i.2).turn).toList

/-- All answers of the listeners are contained: where one fails, the failure can be reported. -/
def Contained (h : History ℓ) : Prop :=
  ∀ i ∈ h, i.2.isContained = true

instance (h : History ℓ) : Decidable (Contained h) :=
  inferInstanceAs (Decidable (∀ i ∈ h, i.2.isContained = true))

lemma Contained.tail {i : Int × Input ℓ} {h : History ℓ} (hcontained : Contained (i :: h)) :
    Contained h :=
  fun j hj => hcontained j (List.mem_cons_of_mem _ hj)

lemma Contained.head {i : Int × Input ℓ} {h : History ℓ} (hcontained : Contained (i :: h)) :
    i.2.isContained = true :=
  hcontained i (List.mem_cons_self ..)

/-- The dispatcher begins a turn only when no listener is being called. -/
def Orderly (s : Subscription ℓ) : History ℓ → Prop
  | [] => True
  | i :: h => (i.2.isTurn → (s.after h).tasks = []) ∧ s.Orderly h

instance decidableOrderly (s : Subscription ℓ) : (h : History ℓ) → Decidable (s.Orderly h)
  | [] => inferInstanceAs (Decidable True)
  | i :: h =>
    have := decidableOrderly s h
    inferInstanceAs (Decidable ((i.2.isTurn → (s.after h).tasks = []) ∧ s.Orderly h))

/-- A subscription that is open after a step was open before it. -/
lemma open_of_step {s : Subscription ℓ} {now : Int} {i : Input ℓ}
    (hopen : (s.step now i).state.closed = false) : s.closed = false := by
  rw [Bool.eq_false_iff] at hopen ⊢
  intro hclosed
  exact hopen ((kept_lasts.step s now i).closed hclosed)

lemma closed_step_close (s : Subscription ℓ) (now : Int) :
    (s.step now .close).state.closed = true := by
  by_cases hclosed : s.closed <;> simp [step, close, finish, hclosed]

/-- A subscription that is open has been open all along. -/
lemma open_of_cons {s : Subscription ℓ} {i : Int × Input ℓ} {h : History ℓ}
    (hopen : (s.after (i :: h)).closed = false) : (s.after h).closed = false := by
  rw [after_cons] at hopen
  exact open_of_step hopen

/-- The events that were emitted, in order. -/
def emittedIn (c : List (Deed ℓ)) : List Event :=
  (c.filterMap Deed.emitted?).reverse

/-- The events that were taken out of the queue, in order. -/
def dequeuedIn (c : List (Deed ℓ)) : List Event :=
  (c.filterMap Deed.dequeued?).reverse

lemma emittedIn_cons (d : Deed ℓ) (c : List (Deed ℓ)) :
    emittedIn (d :: c) = emittedIn c ++ d.emitted?.toList := by
  unfold emittedIn
  cases hd : d.emitted? <;> simp [hd]

lemma dequeuedIn_cons (d : Deed ℓ) (c : List (Deed ℓ)) :
    dequeuedIn (d :: c) = dequeuedIn c ++ d.dequeued?.toList := by
  unfold dequeuedIn
  cases hd : d.dequeued? <;> simp [hd]

lemma emittedIn_append (c d : List (Deed ℓ)) : emittedIn (c ++ d) = emittedIn d ++ emittedIn c := by
  simp [emittedIn]

lemma dequeuedIn_append (c d : List (Deed ℓ)) :
    dequeuedIn (c ++ d) = dequeuedIn d ++ dequeuedIn c := by
  simp [dequeuedIn]

lemma emittedIn_deeds (s : Subscription ℓ) (now : Int) (i : Input ℓ) :
    emittedIn (s.deeds now i) = s.emits now i := by
  unfold emittedIn deeds emits
  cases s.dequeued? i <;> simp [List.filterMap_map, Function.comp_def, Deed.emitted?]

lemma dequeuedIn_deeds (s : Subscription ℓ) (now : Int) (i : Input ℓ) :
    dequeuedIn (s.deeds now i) = (s.dequeued? i).toList := by
  unfold dequeuedIn deeds
  cases s.dequeued? i <;> simp [List.filterMap_map, Function.comp_def, Deed.dequeued?]

lemma emits_eq_nil {s : Subscription ℓ} {now : Int} {i : Input ℓ} (hqueue : s.dequeued? i = none)
    (hagenda : s.agenda now i = []) : s.emits now i = [] := by
  simp [emits, hqueue, hagenda, announces]

/-! ## Touching a path -/

/-- A raw event changes the dirty paths only. -/
lemma observe_eq (s : Subscription ℓ) (now : Int) (r : Raw) :
    s.observe now r = { s with dirty := (s.observe now r).dirty } := by
  unfold observe record
  split
  · split
    · split <;> rfl
    · rfl
  · rfl

lemma record_eq (s : Subscription ℓ) (now : Int) (path : String) :
    s.record now path = { s with dirty := (s.record now path).dirty } := by
  unfold record
  split <;> rfl

/-! ## Emitting -/

/-- The result comes of emitting the events in the state `s`.  Those that nobody listens to are laid
aside, and at the first one that somebody listens to the listener is asked; when all have heard it,
`sequel` follows. -/
structure Emits (s : Subscription ℓ) (events : List Event) (sequel : Sequel) (r : Result ℓ) :
    Prop where
  state : r.state = { s with backlog := r.state.backlog, tasks := r.state.tasks }
  turn :
    (r.turn = .ends .returned ∧ r.state.tasks = s.tasks ∧ r.state.backlog = s.backlog ++ events ∧
        (∀ e ∈ events, s.listenersOf e.kind = []) ∧ sequel = .changes []) ∨
      ∃ laid e listener others, events = laid ++ [e] ∧
        (∀ e ∈ laid, s.listenersOf e.kind = []) ∧ s.listenersOf e.kind = listener :: others ∧
        r.turn = .asks ⟨listener, e⟩ ∧ r.state.tasks = .telling e others sequel :: s.tasks ∧
        r.state.backlog = s.backlog ++ laid

section Emitting

variable {s : Subscription ℓ}

/-- Changes that nobody listens to are laid aside, all of them. -/
lemma tellChanges_of_unheard (hopen : s.closed = false) (hnone : s.listenersOf .change = [])
    (notes : List Note) (paths : List String) :
    s.tellChanges notes paths =
      finish { s with backlog := s.backlog ++ paths.map .change } notes := by
  induction paths generalizing s with
  | nil => simp [tellChanges]
  | cons path paths ih =>
      have hlaid := ih (s := { s with backlog := s.backlog ++ [Event.change path] }) hopen hnone
      rw [tellChanges, if_neg (by simp [hopen]), hnone]
      simpa using hlaid

lemma emits_tellChanges (hopen : s.closed = false) (notes : List Note) (paths : List String) :
    Emits s ((s.announces paths).map .change)
      (.changes (paths.drop (s.announces paths).length)) (s.tellChanges notes paths) := by
  unfold announces
  cases hlisteners : s.listenersOf .change with
  | nil =>
      have htell := tellChanges_of_unheard hopen hlisteners notes paths
      rw [htell]
      refine ⟨rfl, Or.inl ⟨rfl, rfl, rfl, ?_, by simp⟩⟩
      intro e he
      obtain ⟨path, -, rfl⟩ := List.mem_map.1 he
      exact hlisteners
  | cons listener others =>
      cases paths with
      | nil => exact ⟨rfl, Or.inl ⟨rfl, rfl, by simp [tellChanges, finish], by simp, rfl⟩⟩
      | cons path rest =>
          have htell : s.tellChanges notes (path :: rest) =
              s.ask notes listener (.change path)
                (.telling (.change path) others (.changes rest)) := by
            rw [tellChanges, if_neg (by simp [hopen]), hlisteners]
          rw [htell]
          exact ⟨rfl, Or.inr ⟨[], .change path, listener, others, rfl, by simp, hlisteners, rfl,
            rfl, by simp [ask]⟩⟩

/-- Looking for the quiet paths cleans and emits them. -/
lemma emits_collect (hopen : s.closed = false) (now : Int) (notes : List Note) :
    Emits { s with dirty := s.dirty.filter fun entry => !s.isQuiet now entry }
      ((s.announces (s.quietAt now)).map .change)
      (.changes ((s.quietAt now).drop (s.announces (s.quietAt now)).length))
      (s.collect now notes) :=
  emits_tellChanges (s := { s with dirty := s.dirty.filter fun entry => !s.isQuiet now entry })
    hopen notes (s.quietAt now)

/-- An event that nobody listens to may be emitted first. -/
lemma Emits.cons {e : Event} {events : List Event} {sequel : Sequel} {r : Result ℓ}
    (hnone : s.listenersOf e.kind = [])
    (h : Emits { s with backlog := s.backlog ++ [e] } events sequel r) :
    Emits s (e :: events) sequel r := by
  refine ⟨h.state, ?_⟩
  rcases h.turn with ⟨hturn, htasks, hbacklog, hlaid, hsequel⟩ |
    ⟨laid, f, listener, others, hevents, hlaid, hlisteners, hturn, htasks, hbacklog⟩
  · refine Or.inl ⟨hturn, htasks, ?_, ?_, hsequel⟩
    · rw [hbacklog, List.append_assoc]
      rfl
    · exact List.forall_mem_cons.2 ⟨hnone, hlaid⟩
  · refine Or.inr ⟨e :: laid, f, listener, others, ?_, ?_, hlisteners, hturn, htasks, ?_⟩
    · rw [hevents]
      rfl
    · exact List.forall_mem_cons.2 ⟨hnone, hlaid⟩
    · rw [hbacklog, List.append_assoc]
      rfl

lemma Emits.dirty {events : List Event} {sequel : Sequel} {r : Result ℓ}
    (h : Emits s events sequel r) : r.state.dirty = s.dirty := by
  rw [h.state]

/-- A turn with an event in the queue. -/
lemma turn_cons (hopen : s.closed = false) {e : Event} {queue : List Event}
    (hqueue : s.queue = e :: queue) (now : Int) :
    s.turn now =
      match s.listenersOf e.kind with
      | [] => { s with queue := queue, backlog := s.backlog ++ [e] }.collect now []
      | listener :: others =>
        { s with queue := queue }.ask [] listener e (.telling e others .collect) := by
  unfold Subscription.turn
  rw [if_neg (by simp [hopen]), hqueue]
  rfl

/-- **A turn** emits the first event of the queue, and unless it is heard the changes of the quiet
paths. -/
lemma emits_turn (hopen : s.closed = false) (now : Int) :
    Emits { s with queue := s.queue.tail, dirty := s.dirtyAfter now .turn }
      (s.emits now .turn) (s.follows now .turn) (s.step now .turn) := by
  cases hqueue : s.queue with
  | nil =>
      have hstep : s.step now .turn = s.collect (now + s.patience) [.waited s.patience] := by
        simp [step, Subscription.turn, hopen, hqueue]
      have hlooks : s.looksAt? now .turn = some (now + s.patience) := by
        simp [looksAt?, hopen, hqueue]
      have hagenda : s.agenda now .turn = s.quietAt (now + s.patience) := by
        simp [agenda, remaining, picked, hlooks]
      have hevents : s.emits now .turn =
          (s.announces (s.quietAt (now + s.patience))).map .change := by
        simp [emits, dequeued?, hopen, hqueue, hagenda]
      have hfollows : s.follows now .turn = .changes ((s.quietAt (now + s.patience)).drop
          (s.announces (s.quietAt (now + s.patience))).length) := by
        simp [follows, hlooks, hagenda]
      have hcollect := emits_collect hopen (now + s.patience) [.waited s.patience]
      rw [hstep, hfollows, hevents, dirtyAfter, hlooks, List.tail_nil, ← hqueue]
      exact hcollect
  | cons e queue =>
      cases hlisteners : s.listenersOf e.kind with
      | nil =>
          let laid : Subscription ℓ := { s with queue := queue, backlog := s.backlog ++ [e] }
          have hstep : s.step now .turn = laid.collect now [] := by
            rw [step, turn_cons hopen hqueue, hlisteners]
          have hlooks : s.looksAt? now .turn = some now := by
            simp [looksAt?, hopen, hqueue, hlisteners]
          have hagenda : s.agenda now .turn = s.quietAt now := by
            simp [agenda, remaining, picked, hlooks]
          have hevents : s.emits now .turn =
              e :: (s.announces (s.quietAt now)).map .change := by
            simp [emits, dequeued?, hopen, hqueue, hagenda]
          have hfollows : s.follows now .turn =
              .changes ((s.quietAt now).drop (s.announces (s.quietAt now)).length) := by
            simp [follows, hlooks, hagenda]
          have hcollect : Emits
              { laid with dirty := s.dirty.filter fun entry => !s.isQuiet now entry }
              ((s.announces (s.quietAt now)).map .change)
              (.changes ((s.quietAt now).drop (s.announces (s.quietAt now)).length))
              (laid.collect now []) := emits_collect (s := laid) hopen now []
          rw [hstep, hfollows, hevents, dirtyAfter, hlooks, List.tail_cons]
          exact Emits.cons hlisteners hcollect
      | cons listener others =>
          have hstep : s.step now .turn =
              { s with queue := queue }.ask [] listener e (.telling e others .collect) := by
            rw [step, turn_cons hopen hqueue, hlisteners]
          have hlooks : s.looksAt? now .turn = none := by
            simp [looksAt?, hopen, hqueue, hlisteners]
          have hagenda : s.agenda now .turn = [] := by
            simp [agenda, remaining, picked, hlooks]
          have hevents : s.emits now .turn = [e] := by
            simp [emits, dequeued?, hopen, hqueue, hagenda, announces]
          have hfollows : s.follows now .turn = .collect := by
            simp [follows, hlooks, Input.isTurn]
          rw [hstep, hfollows, hevents, dirtyAfter, hlooks, List.tail_cons]
          exact ⟨rfl, Or.inr ⟨[], e, listener, others, rfl, by simp, hlisteners, rfl, rfl,
            by simp [ask]⟩⟩

/-- **When all listeners have heard an event** the picked paths are gone on with. -/
lemma emits_answer (hopen : s.closed = false) (now : Int) {o : Outcome}
    (hcontained : o.isContained = true) {e : Event} {sequel : Sequel} {ts : List (Task ℓ)}
    (htasks : s.tasks = .telling e [] sequel :: ts) :
    Emits { s with tasks := ts, dirty := s.dirtyAfter now (.answer o) }
      (s.emits now (.answer o)) (s.follows now (.answer o)) (s.step now (.answer o)) := by
  let left : Subscription ℓ := { s with tasks := ts }
  obtain ⟨notes, hgoes⟩ := left.proceed_of_isContained now hcontained (.telling e [] sequel)
  have hstep : s.step now (.answer o) = left.goOn now notes sequel :=
    (step_answer_cons htasks now o).trans hgoes
  have hevents : s.emits now (.answer o) =
      (s.announces (s.agenda now (.answer o))).map .change := rfl
  have hfollows : s.follows now (.answer o) =
      .changes ((s.agenda now (.answer o)).drop
        (s.announces (s.agenda now (.answer o))).length) := rfl
  rw [hstep, hevents, hfollows]
  cases sequel with
  | collect =>
      have hlooks : s.looksAt? now (.answer o) = some now := by
        simp [looksAt?, htasks, hcontained]
      have hagenda : s.agenda now (.answer o) = s.quietAt now := by
        simp [agenda, remaining, picked, hlooks, htasks, Sequel.paths]
      rw [hagenda, dirtyAfter, hlooks]
      exact emits_collect (s := left) hopen now notes
  | changes paths =>
      have hlooks : s.looksAt? now (.answer o) = none := by
        simp [looksAt?, htasks]
      have hagenda : s.agenda now (.answer o) = paths := by
        simp [agenda, remaining, picked, hlooks, htasks, Sequel.paths, hcontained]
      rw [hagenda, dirtyAfter, hlooks]
      exact emits_tellChanges (s := left) hopen notes paths

end Emitting

/-! ## What a step can do -/

/-- A call may have been made, and the task that it belongs to is taken up.  Nothing is emitted.  An
answer that is not contained ends the latest task, if there is one. -/
inductive Resumes : Bool → List (Task ℓ) → Option (Telling ℓ) → List (Task ℓ) → Prop
  | idle (ts : List (Task ℓ)) : Resumes true ts none ts
  | replayed (listener : ℓ) (kind : EventKind) (ts : List (Task ℓ)) :
    Resumes true (.replaying listener kind [] :: ts) none ts
  | replaying (listener : ℓ) (kind : EventKind) (e : Event) (rest : List Event)
    (ts : List (Task ℓ)) :
    Resumes true (.replaying listener kind (e :: rest) :: ts) (some ⟨listener, e⟩)
      (.replaying listener kind rest :: ts)
  | telling (e : Event) (listener : ℓ) (others : List ℓ) (sequel : Sequel)
    (ts : List (Task ℓ)) :
    Resumes true (.telling e (listener :: others) sequel :: ts) (some ⟨listener, e⟩)
      (.telling e others sequel :: ts)
  | unasked : Resumes false [] none []
  | givenUp (t : Task ℓ) (ts : List (Task ℓ)) : Resumes false (t :: ts) none ts

/-- A step that neither attaches a listener nor emits an event. -/
structure Silent (s : Subscription ℓ) (now : Int) (i : Input ℓ) (r : Result ℓ) : Prop where
  attachment : i.attachment? = none
  noTurn : i.isTurn = false
  dequeued : s.dequeued? i = none
  looks : s.looksAt? now i = none
  remaining : s.remaining i = []
  state : r.state = { s with dirty := s.noted now i, tasks := r.state.tasks }
  tasks : Resumes i.isContained s.tasks (askedBy r.turn) r.state.tasks

/-- A step of the dispatcher: it begins a turn, or goes on with the latest one, and leaves the tasks
`ts` alone. -/
structure Dispatching (s : Subscription ℓ) (now : Int) (i : Input ℓ) (ts : List (Task ℓ))
    (r : Result ℓ) : Prop where
  tasks : (i = .turn ∧ s.tasks = ts) ∨
    ∃ o e sequel, i = .answer o ∧ o.isContained = true ∧ s.tasks = .telling e [] sequel :: ts
  queue : ∃ queue, s.queue = (s.dequeued? i).toList ++ queue ∧
    Emits { s with queue := queue, dirty := s.dirtyAfter now i, tasks := ts } (s.emits now i)
      (s.follows now i) r

section Cases

variable {s : Subscription ℓ}

/-- A touched path is taken note of, and nothing else. -/
lemma silent_record (hopen : s.closed = false) (now : Int) (path : String) :
    Silent s now (.record path) (s.step now (.record path)) := by
  have hdirty : (s.record now path).dirty = s.noted now (.record path) := by
    by_cases hign : s.ignores path <;> simp [record, noted, recorded?, takes, hopen, hign]
  have hstep : s.step now (.record path) =
      finish { s with dirty := s.noted now (.record path) } [] := by
    rw [step, record_eq, hdirty]
  rw [hstep]
  exact ⟨rfl, rfl, rfl, rfl, rfl, rfl, .idle _⟩

lemma silent_raw (hopen : s.closed = false) (now : Int) (r : Raw) :
    Silent s now (.raw r) (s.step now (.raw r)) := by
  have hdirty : (s.observe now r).dirty = s.noted now (.raw r) := by
    cases htouched : r.touched? with
    | none => simp [observe, noted, recorded?, htouched]
    | some path =>
        by_cases hobserves : s.observes <;> by_cases hign : s.ignores path <;>
          simp [observe, record, noted, recorded?, takes, htouched, hopen, hobserves, hign,
            Option.filter]
  have hstep : s.step now (.raw r) = finish { s with dirty := s.noted now (.raw r) } [] := by
    rw [step, observe_eq, hdirty]
  rw [hstep]
  exact ⟨rfl, rfl, rfl, rfl, rfl, rfl, .idle _⟩

lemma dispatching_turn (hopen : s.closed = false) (now : Int) :
    Dispatching s now .turn s.tasks (s.step now .turn) := by
  have hqueue : s.queue = (s.dequeued? .turn).toList ++ s.queue.tail := by
    rw [dequeued?, if_neg (by simp [hopen])]
    cases s.queue <;> rfl
  exact ⟨Or.inl ⟨rfl, rfl⟩, _, hqueue, emits_turn hopen now⟩

/-- **Replaying** some events to a listener takes up a task that owes them. -/
lemma replay_resumes (hopen : s.closed = false) (notes : List Note) (listener : ℓ)
    (kind : EventKind) (events : List Event) :
    askedBy (s.replay notes listener kind events).turn = events.head?.map (⟨listener, ·⟩) ∧
      Resumes true (.replaying listener kind events :: s.tasks)
        (askedBy (s.replay notes listener kind events).turn)
        (s.replay notes listener kind events).state.tasks ∧
      (s.replay notes listener kind events).state =
        { s with tasks := (s.replay notes listener kind events).state.tasks } := by
  cases events with
  | nil => exact ⟨rfl, .replayed listener kind s.tasks, rfl⟩
  | cons e rest =>
      rw [replay, if_neg (by simp [hopen])]
      exact ⟨rfl, .replaying listener kind e rest s.tasks, rfl⟩

/-- An answer that is not contained makes the call fail, and the task that it belongs to is given
up. -/
lemma silent_of_not_contained (now : Int) {o : Outcome} (hfails : o.isContained = false)
    {t : Task ℓ} {ts : List (Task ℓ)} (htasks : s.tasks = t :: ts) {why : Failure}
    (hfail : { s with tasks := ts }.proceed now o t = { s with tasks := ts }.fail why) :
    Silent s now (.answer o) (s.step now (.answer o)) := by
  have hlooks : s.looksAt? now (.answer o) = none := by
    simp only [looksAt?, hfails]
    split <;> rfl
  have hremaining : s.remaining (.answer o) = [] := by
    simp only [remaining, hfails]
    split <;> rfl
  rw [step_answer_cons htasks, hfail]
  refine ⟨rfl, rfl, rfl, hlooks, hremaining, rfl, ?_⟩
  rw [Input.isContained, hfails, htasks]
  exact .givenUp t ts

/-- An answer lets the latest task go on, or ends it. -/
lemma silent_or_dispatching_answer (hopen : s.closed = false) (now : Int) (o : Outcome) :
    Silent s now (.answer o) (s.step now (.answer o)) ∨
      ∃ ts, Dispatching s now (.answer o) ts (s.step now (.answer o)) := by
  cases htasks : s.tasks with
  | nil =>
      have hstep : s.step now (.answer o) = s.finish [] := by rw [step, htasks]
      have hlooks : s.looksAt? now (.answer o) = none := by simp [looksAt?, htasks]
      have hremaining : s.remaining (.answer o) = [] := by simp [remaining, htasks]
      rw [hstep]
      refine Or.inl ⟨rfl, rfl, rfl, hlooks, hremaining, rfl, ?_⟩
      show Resumes o.isContained s.tasks none s.tasks
      rw [htasks]
      cases o.isContained
      · exact .unasked
      · exact .idle []
  | cons t ts =>
      rcases { s with tasks := ts }.proceed_cases now o t with
        ⟨hcontained, notes, hgoes⟩ | ⟨hfails, why, hfail⟩
      · cases t with
        | replaying listener kind rest =>
            have hlooks : s.looksAt? now (.answer o) = none := by simp [looksAt?, htasks]
            have hremaining : s.remaining (.answer o) = [] := by simp [remaining, htasks]
            have hproceed : s.step now (.answer o) =
                { s with tasks := ts }.replay notes listener kind rest :=
              (step_answer_cons htasks now o).trans hgoes
            obtain ⟨-, hresumes, hstate⟩ := replay_resumes (s := { s with tasks := ts }) hopen
              notes listener kind rest
            left
            rw [hproceed]
            refine ⟨rfl, rfl, rfl, hlooks, hremaining, hstate, ?_⟩
            rw [Input.isContained, hcontained, htasks]
            exact hresumes
        | telling e others sequel =>
            cases others with
            | nil =>
                exact Or.inr ⟨ts, Or.inr ⟨o, e, sequel, rfl, hcontained, htasks⟩, s.queue, rfl,
                  emits_answer hopen now hcontained htasks⟩
            | cons listener others =>
                have hlooks : s.looksAt? now (.answer o) = none := by simp [looksAt?, htasks]
                have hremaining : s.remaining (.answer o) = [] := by simp [remaining, htasks]
                have hproceed : s.step now (.answer o) =
                    { s with tasks := ts }.ask notes listener e (.telling e others sequel) :=
                  (step_answer_cons htasks now o).trans hgoes
                left
                rw [hproceed]
                refine ⟨rfl, rfl, rfl, hlooks, hremaining, rfl, ?_⟩
                rw [Input.isContained, hcontained, htasks]
                exact .telling e listener others sequel ts
      · exact Or.inl (silent_of_not_contained now hfails htasks hfail)

/-- **Whatever a step does**: it attaches a listener, or it emits nothing, or it is a step of the
dispatcher. -/
theorem step_cases (now : Int) (i : Input ℓ) (hopen : (s.step now i).state.closed = false) :
    (∃ kind listener, i = .attach kind listener) ∨ Silent s now i (s.step now i) ∨
      ∃ ts, Dispatching s now i ts (s.step now i) := by
  have hbefore := open_of_step hopen
  cases i with
  | attach kind listener => exact Or.inl ⟨kind, listener, rfl⟩
  | close =>
      rw [closed_step_close] at hopen
      cases hopen
  | record path => exact Or.inr (Or.inl (silent_record hbefore now path))
  | raw r => exact Or.inr (Or.inl (silent_raw hbefore now r))
  | turn => exact Or.inr (Or.inr ⟨_, dispatching_turn hbefore now⟩)
  | answer o => exact Or.inr (silent_or_dispatching_answer hbefore now o)

end Cases

end Subscription

end Marginalia.Notifier
