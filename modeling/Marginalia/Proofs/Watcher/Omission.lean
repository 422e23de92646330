import Marginalia.Proofs.Watcher.History

/-!
# Runs with inputs left out

Two runs of a watcher are compared: one of a history, and one of what is left of it when some
inputs are left out.  A `Choice` says which calls and events are left out; an answer is left out
together with the input that led to its question, so that `without` never leaves an answer without
a question. `marks` keeps book of this: for each task it says whether the task belongs to something
left out.

The comparison rests on a frame law, `step_eq_onTopOf`: a step looks at its own task only, and
leaves what lies below it in place.  From it `after_without` and `trace_without` follow by
induction on the history: where every step that is left out is `Harmless`, all other steps have the
same outcome in both runs, and the two watchers differ at most in what is under way.
-/

namespace Marginalia.Watcher

open Notifier (Event EventKind)

/-! ## The frame of a step -/

/-- The watcher with nothing under way. -/
def bare (w : Watcher) : Watcher := { w with tasks := [] }

/-- The result with further tasks below its own. -/
def onTopOf (ts : List Task) (r : Result) : Result :=
  { r with state := { r.state with tasks := r.state.tasks ++ ts } }

/-- What an input takes off a list that is kept beside the tasks. -/
def Input.own {α : Type} : Input → List α → List α
  | .answer _, xs => xs.take 1
  | _, _ => []

/-- What an input leaves of such a list. -/
def Input.below {α : Type} : Input → List α → List α
  | .answer _, xs => xs.tail
  | _, xs => xs

lemma below_own {α : Type} (i : Input) (xs : List α) : i.below (i.own xs) = [] := by
  cases i with
  | answer o => cases xs <;> rfl
  | _ => rfl

lemma tasksUpon_eq_below (w : Watcher) (i : Input) : w.tasksUpon i = i.below w.tasks := by
  cases i <;> rfl

lemma tasks_of_ends {w : Watcher} {i : Input} {o : Outcome} (h : (w.step i).turn = .ends o) :
    (w.step i).state.tasks = i.below w.tasks := by
  have hstep := w.step_tasks i
  rwa [h, tasksUpon_eq_below] at hstep

lemma tasks_of_asks {w : Watcher} {i : Input} {q : Question} (h : (w.step i).turn = .asks q) :
    ∃ t, q.Leaves t ∧ (w.step i).state.tasks = t :: i.below w.tasks := by
  have hstep := w.step_tasks i
  rwa [h, tasksUpon_eq_below] at hstep

lemma with_tasks_eq_of_bare {u v : Watcher} (h : u.bare = v.bare) (ts : List Task) :
    { u with tasks := ts } = { v with tasks := ts } :=
  congrArg (fun x : Watcher => { x with tasks := ts }) h

lemma eq_of_bare {u v : Watcher} (h : u.bare = v.bare) (ht : u.tasks = v.tasks) : u = v := by
  calc u = { u.bare with tasks := u.tasks } := rfl
    _ = { v.bare with tasks := v.tasks } := by rw [h, ht]
    _ = v := rfl

section Frame

variable (w : Watcher)

lemma onTopOf_callHost (there : Bool) (notes : List Note) (q : Question) (t : Task) :
    onTopOf w.tasks (w.bare.callHost there notes q t) = w.callHost there notes q t := by
  cases there <;> rfl

lemma onTopOf_attach (notes : List Note) (id g : Nat) (kinds : List EventKind) :
    onTopOf w.tasks (w.bare.attach notes id g kinds) = w.attach notes id g kinds := by
  cases kinds <;> rfl

lemma onTopOf_watch (root : String) (opened : Except Failure Nat) :
    onTopOf w.tasks (w.bare.watch root opened) = w.watch root opened := by
  simp only [watch, closeSubscription_eq]
  cases opened <;> rfl

lemma onTopOf_close : onTopOf w.tasks w.bare.close = w.close := by
  simp only [close, closeSubscription_eq]
  rfl

lemma onTopOf_onReady (g : Nat) : onTopOf w.tasks (w.bare.onReady g) = w.onReady g := by
  have hsame : (!w.bare.isCurrent g || w.bare.readyGeneration = g) =
      (!w.isCurrent g || w.readyGeneration = g) := rfl
  unfold onReady
  rw [hsame]
  split
  · rfl
  · exact onTopOf_callHost { w with readyGeneration := g } _ _ _ _

lemma onTopOf_onError (g : Nat) (why : Failure) :
    onTopOf w.tasks (w.bare.onError g why) = w.onError g why := by
  have hsame : w.bare.isCurrent g = w.isCurrent g := rfl
  unfold onError
  rw [hsame]
  split
  · rfl
  · exact onTopOf_callHost w _ _ _ _

lemma onTopOf_onChange (g : Nat) (path : String) :
    onTopOf w.tasks (w.bare.onChange g path) = w.onChange g path := by
  have hcurrent : w.bare.isCurrent g = w.isCurrent g := rfl
  have hrefused : (w.bare.paused || w.bare.ignores path) = (w.paused || w.ignores path) := rfl
  unfold onChange
  rw [hcurrent, hrefused]
  split
  · rfl
  · split <;> rfl

lemma onTopOf_event (g : Nat) (e : Event) :
    onTopOf w.tasks (w.bare.step (.event g e)) = w.step (.event g e) := by
  cases e with
  | ready => exact onTopOf_onReady w g
  | change path => exact onTopOf_onChange w g path
  | error why => exact onTopOf_onError w g why

lemma onTopOf_report (notes : List Note) (path : String) (known : List String)
    (all rest : List Block) :
    onTopOf w.tasks (w.bare.report notes path known all rest) =
      w.report notes path known all rest := by
  induction rest generalizing notes with
  | nil => rfl
  | cons b rest ih =>
      have hsame : w.bare.callbacks.comment = w.callbacks.comment := rfl
      rw [report, report, hsame]
      split
      · exact ih notes
      · split
        · rfl
        · exact ih _

lemma onTopOf_store (notes : List Note) (path : String) (blocks : List Block) :
    onTopOf w.tasks (w.bare.store notes path blocks) = w.store notes path blocks := by
  unfold store
  split
  · rfl
  · exact onTopOf_report { w with pending := w.pending.replace path blocks } _ _ _ _ _

lemma onTopOf_dispatch (notes : List Note) (path : String) (blocks : List Block) :
    onTopOf w.tasks (w.bare.dispatch notes path blocks) = w.dispatch notes path blocks :=
  onTopOf_callHost { w with pending := .empty } _ _ _ _

lemma onTopOf_scan (path content : String) :
    onTopOf w.tasks (w.bare.scan path content) = w.scan path content := by
  by_cases h : Block.anyTrigger (Block.ofContent path content)
  · simp only [scan, h, if_true]
    exact onTopOf_dispatch w _ _ _
  · simp only [scan, h]
    exact onTopOf_store w _ _ _

lemma onTopOf_unread (path : String) (why : Failure) :
    onTopOf w.tasks (w.bare.unread path why) = w.unread path why := by
  unfold unread
  split <;> rfl

lemma onTopOf_proceed (o : Outcome) (t : Task) :
    onTopOf w.tasks (w.bare.proceed o t) = w.proceed o t := by
  cases t with
  | attaching id g rest =>
      cases o with
      | raised why => rfl
      | _ => exact onTopOf_attach w [] id g rest
  | reading path =>
      cases o with
      | raised why => exact onTopOf_unread w path why
      | text content => exact onTopOf_scan w path content
      | returned | made => exact onTopOf_scan w path ""
  | reporting path known all rest =>
      cases o with
      | raised why => rfl
      | _ => exact onTopOf_report w [] path known all rest
  | calling => cases o <;> rfl

/-- **The frame of a step**: it looks at its own task only, and what lies below stays in place. -/
theorem step_eq_onTopOf (i : Input) :
    w.step i = onTopOf (i.below w.tasks) ({ w with tasks := i.own w.tasks }.step i) := by
  cases i with
  | watch root opened => exact (onTopOf_watch w root opened).symm
  | close => exact (onTopOf_close w).symm
  | pause | resume | clear => rfl
  | event g e => exact (onTopOf_event w g e).symm
  | answer o =>
      cases h : w.tasks with
      | nil =>
          have hself : { w with tasks := [] } = w := by rw [← h]
          simp only [Input.own, Input.below, List.take_nil, List.tail_nil, hself]
          rw [step_answer_of_nil w h, onTopOf, finish, h]
          exact (congrArg (fun v => (⟨v, [], .ends .returned⟩ : Result)) hself).symm
      | cons t ts =>
          simp only [step, h, Input.own, Input.below, List.take_succ_cons, List.take_zero,
            List.tail_cons]
          exact (onTopOf_proceed { w with tasks := ts } o t).symm

end Frame

/-! ## Leaving out -/

/-- Which inputs are to be left out, each seen with the history before it. -/
abbrev Choice := History → Input → Bool

/-- An answer is left out with the input that it is for. -/
def Input.isLeftOut (chosen : Bool) : Input → List Bool → Bool
  | .answer _, marks => marks.headD false
  | _, _ => chosen

/-- For each task, whether it belongs to an input that is left out. -/
def marks (w : Watcher) (c : Choice) : History → List Bool
  | [] => []
  | i :: h =>
    match ((w.after h).step i).turn with
    | .asks _ => i.isLeftOut (c h i) (marks w c h) :: i.below (marks w c h)
    | .ends _ => i.below (marks w c h)

/-- The input is left out. -/
def leavesOut (w : Watcher) (c : Choice) (h : History) (i : Input) : Bool :=
  i.isLeftOut (c h i) (w.marks c h)

/-- What is left of a history. -/
def without (w : Watcher) (c : Choice) : History → History
  | [] => []
  | i :: h => if w.leavesOut c h i then without w c h else i :: without w c h

/-- What a step comes to, but for what is under way. -/
def outline (r : Result) : Result := { r with state := r.state.bare }

/-- What the steps of a run come to: notes, turns and states, the latest first. -/
def trace (w : Watcher) : History → List Result
  | [] => []
  | i :: h => outline ((w.after h).step i) :: trace w h

/-- The same of the steps that are not left out, in the run where all of them are taken. -/
def traceWithout (w : Watcher) (c : Choice) : History → List Result
  | [] => []
  | i :: h =>
    if w.leavesOut c h i then traceWithout w c h
    else outline ((w.after h).step i) :: traceWithout w c h

/-- Every step that is left out changes nothing but what is under way. -/
def Harmless (w : Watcher) (c : Choice) (h : History) : Prop :=
  ∀ i k, i :: k <:+ h → w.leavesOut c k i → ((w.after k).step i).state.bare = (w.after k).bare

/-- The tasks that are not marked. -/
def unmarked : List Task → List Bool → List Task
  | t :: ts, m :: ms => if m then unmarked ts ms else t :: unmarked ts ms
  | ts, _ => ts

variable {w : Watcher} {c : Choice}

lemma Harmless.of_cons {i : Input} {h : History} (hc : w.Harmless c (i :: h)) :
    w.Harmless c h :=
  fun j k hk => hc j k (hk.trans (List.suffix_cons i h))

lemma marks_of_ends {h : History} {i : Input} {o : Outcome}
    (hturn : ((w.after h).step i).turn = .ends o) :
    w.marks c (i :: h) = i.below (w.marks c h) := by
  rw [marks, hturn]

lemma marks_of_asks {h : History} {i : Input} {q : Question}
    (hturn : ((w.after h).step i).turn = .asks q) :
    w.marks c (i :: h) = w.leavesOut c h i :: i.below (w.marks c h) := by
  rw [marks, hturn, leavesOut]

lemma length_marks (hw : w.Unused) (c : Choice) (h : History) :
    (w.marks c h).length = (w.after h).tasks.length := by
  induction h with
  | nil => rw [after_nil, hw.tasks]; rfl
  | cons i h ih =>
      have hbelow : (i.below (w.marks c h)).length = (i.below (w.after h).tasks).length := by
        cases i with
        | answer o => simp only [Input.below, List.length_tail, ih]
        | _ => exact ih
      rw [after_cons]
      cases hturn : ((w.after h).step i).turn with
      | ends o => rw [marks_of_ends hturn, tasks_of_ends hturn, hbelow]
      | asks q =>
          obtain ⟨t, -, ht⟩ := tasks_of_asks hturn
          rw [marks_of_asks hturn, ht, List.length_cons, List.length_cons, hbelow]

lemma not_leavesOut_answer {h : History} (hms : ∀ m ∈ w.marks c h, m = false) (o : Outcome) :
    w.leavesOut c h (.answer o) = false := by
  rw [leavesOut]
  cases hmarks : w.marks c h with
  | nil => rfl
  | cons m ms => exact hms m (by rw [hmarks]; exact List.mem_cons_self ..)

/-- Where the inputs to be left out never ask, nothing that is under way belongs to them. -/
lemma eq_false_of_mem_marks
    (hends : ∀ k i, c k i → ∃ o, ((w.after k).step i).turn = .ends o) {h : History} :
    ∀ m ∈ w.marks c h, m = false := by
  induction h with
  | nil => exact fun m hm => absurd hm List.not_mem_nil
  | cons i h ih =>
      have hbelow : ∀ m ∈ i.below (w.marks c h), m = false := by
        intro m hm
        cases i with
        | answer o => exact ih m (List.mem_of_mem_tail hm)
        | _ => exact ih m hm
      cases hturn : ((w.after h).step i).turn with
      | ends o => rwa [marks_of_ends hturn]
      | asks q =>
          have hkept : w.leavesOut c h i = false := by
            cases i with
            | answer o => exact not_leavesOut_answer ih o
            | _ =>
                rw [Bool.eq_false_iff]
                intro hleft
                obtain ⟨o, hends⟩ := hends h _ hleft
                cases hends.symm.trans hturn
          rw [marks_of_asks hturn, List.forall_mem_cons]
          exact ⟨hkept, hbelow⟩

/-! ### Marked tasks -/

lemma unmarked_below_of_leftOut {i : Input} {chosen : Bool} {ts : List Task} {ms : List Bool}
    (hlen : ms.length = ts.length) (h : i.isLeftOut chosen ms) :
    unmarked (i.below ts) (i.below ms) = unmarked ts ms := by
  cases i with
  | answer o =>
      cases ms with
      | nil => exact absurd h Bool.false_ne_true
      | cons m ms =>
          cases ts with
          | nil => cases hlen
          | cons t ts =>
              have hm : m = true := h
              rw [unmarked, hm]
              rfl
  | _ => rfl

lemma unmarked_of_not_leftOut {i : Input} {chosen : Bool} {ts : List Task} {ms : List Bool}
    (hlen : ms.length = ts.length) (h : ¬ i.isLeftOut chosen ms) :
    i.own (unmarked ts ms) = i.own ts ∧
      i.below (unmarked ts ms) = unmarked (i.below ts) (i.below ms) := by
  cases i with
  | answer o =>
      cases ms with
      | nil =>
          obtain rfl := List.length_eq_zero_iff.1 hlen.symm
          exact ⟨rfl, rfl⟩
      | cons m ms =>
          cases ts with
          | nil => cases hlen
          | cons t ts =>
              have hm : m = false := by simpa [Input.isLeftOut] using h
              rw [unmarked, hm]
              exact ⟨rfl, rfl⟩
  | _ => exact ⟨rfl, rfl⟩

lemma unmarked_of_forall_eq_false {ts : List Task} {ms : List Bool}
    (h : ∀ m ∈ ms, m = false) : unmarked ts ms = ts := by
  induction ms generalizing ts with
  | nil => cases ts <;> rfl
  | cons m ms ih =>
      cases ts with
      | nil => rfl
      | cons t ts =>
          rw [List.forall_mem_cons] at h
          rw [unmarked, h.1, ih h.2]
          rfl

/-! ## The two runs -/

/-- A step that is not left out is the same in both runs, but for the tasks below its own. -/
lemma step_of_not_leftOut {u v : Watcher} {i : Input} {chosen : Bool} {ms : List Bool}
    (hbare : u.bare = v.bare) (htasks : u.tasks = unmarked v.tasks ms)
    (hlen : ms.length = v.tasks.length) (hkept : ¬ i.isLeftOut chosen ms) :
    ∃ r, v.step i = onTopOf (i.below v.tasks) r ∧
      u.step i = onTopOf (unmarked (i.below v.tasks) (i.below ms)) r ∧
      ((∃ o, r.turn = .ends o ∧ r.state.tasks = []) ∨
        ∃ q t, r.turn = .asks q ∧ r.state.tasks = [t]) := by
  obtain ⟨hown, hbelow⟩ := unmarked_of_not_leftOut hlen hkept
  have hsmall : { u with tasks := i.own u.tasks } = { v with tasks := i.own v.tasks } := by
    rw [htasks, hown]
    exact with_tasks_eq_of_bare hbare _
  refine ⟨{ v with tasks := i.own v.tasks }.step i, step_eq_onTopOf v i, ?_, ?_⟩
  · rw [step_eq_onTopOf u i, hsmall, htasks, hbelow]
  · have hempty := below_own i v.tasks
    cases hturn : ({ v with tasks := i.own v.tasks }.step i).turn with
    | ends o => exact Or.inl ⟨o, rfl, (tasks_of_ends hturn).trans hempty⟩
    | asks q =>
        obtain ⟨t, -, ht⟩ := tasks_of_asks hturn
        exact Or.inr ⟨q, t, rfl, ht.trans (congrArg _ hempty)⟩

/-- **The states agree**: without the inputs that are left out the watcher is the same, and what is
under way is what is not marked. -/
theorem after_without (hw : w.Unused) {h : History} (hc : w.Harmless c h) :
    (w.after (w.without c h)).bare = (w.after h).bare ∧
      (w.after (w.without c h)).tasks = unmarked (w.after h).tasks (w.marks c h) := by
  induction h with
  | nil => exact ⟨rfl, by rw [without, after_nil, hw.tasks]; rfl⟩
  | cons i h ih =>
      obtain ⟨hbare, htasks⟩ := ih hc.of_cons
      have hlen := length_marks hw c h
      by_cases hleft : w.leavesOut c h i
      · -- Only the full run takes the step, and a task that it leaves is marked.
        rw [without, if_pos hleft, after_cons]
        refine ⟨hbare.trans (hc i h (List.suffix_refl _) hleft).symm, ?_⟩
        rw [htasks, ← unmarked_below_of_leftOut hlen hleft]
        cases hturn : ((w.after h).step i).turn with
        | ends o => rw [tasks_of_ends hturn, marks_of_ends hturn]
        | asks q =>
            obtain ⟨t, -, ht⟩ := tasks_of_asks hturn
            rw [ht, marks_of_asks hturn, hleft, unmarked, if_pos rfl]
      · -- Both runs take the step, each on top of its own tasks.
        rw [without, if_neg hleft, after_cons, after_cons]
        obtain ⟨r, hv, hu, hr⟩ := step_of_not_leftOut hbare htasks hlen hleft
        refine ⟨by rw [hu, hv]; rfl, ?_⟩
        rcases hr with ⟨o, hturn, ht⟩ | ⟨q, t, hturn, ht⟩
        · have hends : ((w.after h).step i).turn = .ends o := by rw [hv]; exact hturn
          rw [hu, hv, marks_of_ends hends, onTopOf, onTopOf]
          simp only [ht, List.nil_append]
        · have hasks : ((w.after h).step i).turn = .asks q := by rw [hv]; exact hturn
          have hfalse : w.leavesOut c h i = false := by simpa using hleft
          rw [hu, hv, marks_of_asks hasks, hfalse, onTopOf, onTopOf]
          simp only [ht, List.singleton_append, unmarked, Bool.false_eq_true, if_false]

/-- **The steps agree**: those that are not left out come to the same in both runs. -/
theorem trace_without (hw : w.Unused) {h : History} (hc : w.Harmless c h) :
    w.trace (w.without c h) = w.traceWithout c h := by
  induction h with
  | nil => rfl
  | cons i h ih =>
      rw [without, traceWithout]
      by_cases hleft : w.leavesOut c h i
      · rw [if_pos hleft, if_pos hleft]
        exact ih hc.of_cons
      · obtain ⟨hbare, htasks⟩ := after_without hw hc.of_cons
        obtain ⟨r, hv, hu, -⟩ := step_of_not_leftOut hbare htasks (length_marks hw c h) hleft
        rw [if_neg hleft, if_neg hleft, trace, ih hc.of_cons, hu, hv]
        rfl

/-- Where nothing that is left out is still under way, both runs lead to the same watcher. -/
lemma after_without_of_settled (hw : w.Unused) {h : History} (hc : w.Harmless c h)
    (hms : ∀ m ∈ w.marks c h, m = false) : w.after (w.without c h) = w.after h := by
  obtain ⟨hbare, htasks⟩ := after_without hw hc
  rw [unmarked_of_forall_eq_false hms] at htasks
  exact eq_of_bare hbare htasks

end Marginalia.Watcher
