import Marginalia.Proofs.Notifier.Stains

/-!
# A closed subscription

A subscription may be closed at any moment: between two turns of the dispatcher, by a listener that
hears an event, or by one that hears what has waited for it.  From then on it comes to rest.  The
event that is being told, if there is one, is still heard by the listeners that are left, unless one
of them fails in a way that cannot be reported; that is all that anybody hears.  What waited for a
listener is dropped, picked paths are not announced, no path becomes dirty, and the queue stays as
it is.

`untold` are the calls that such an event has still to make, and `Winds` says how the tasks of a
closed subscription come to their end.  `rests_step` is the inversion of its steps, and
`atRest_of_close` what follows from it for whole runs.
-/

namespace Marginalia.Notifier.Subscription

variable {ℓ : Type}

/-! ## Winding down -/

/-- The calls that some tasks have still to make about an event that is being told. -/
def untold (tasks : List (Task ℓ)) : List (Telling ℓ) :=
  (tasks.filter (·.sequel?.isSome)).flatMap owedBy

/-- How the tasks of a closed subscription come to their end.  What waited for a listener is
dropped; an event that is being told is heard by the listeners that are left, and nothing follows
it.  An answer that is not contained ends the latest task, if there is one. -/
inductive Winds : Bool → List (Task ℓ) → Option (Telling ℓ) → List (Task ℓ) → Prop
  | idle (ts : List (Task ℓ)) : Winds true ts none ts
  | dropped (listener : ℓ) (kind : EventKind) (rest : List Event) (ts : List (Task ℓ)) :
    Winds true (.replaying listener kind rest :: ts) none ts
  | told (e : Event) (sequel : Sequel) (ts : List (Task ℓ)) :
    Winds true (.telling e [] sequel :: ts) none ts
  | telling (e : Event) (listener : ℓ) (others : List ℓ) (sequel : Sequel)
    (ts : List (Task ℓ)) :
    Winds true (.telling e (listener :: others) sequel :: ts) (some ⟨listener, e⟩)
      (.telling e others sequel :: ts)
  | unasked : Winds false [] none []
  | givenUp (t : Task ℓ) (ts : List (Task ℓ)) : Winds false (t :: ts) none ts

section Tasks

variable {contained : Bool} {ts us : List (Task ℓ)} {call : Option (Telling ℓ)}

/-- The calls that are made are those that were still to be made by the tasks that last. -/
lemma Winds.untold (h : Winds contained ts call us) :
    call.toList ++ untold us = untold (if contained then ts else ts.tail) := by
  cases h <;> simp [Subscription.untold, Task.sequel?, owedBy]

lemma untold_sublist (h : us.Sublist ts) : (untold us).Sublist (untold ts) :=
  (h.filter _).flatMap owedBy

/-- No event begins to be told. -/
lemma Winds.unfinished (h : Winds contained ts call us) :
    (unfinished us).Sublist (unfinished ts) := by
  cases h with
  | idle | dropped | telling | unasked => exact List.Sublist.refl _
  | told => exact List.sublist_cons_self _ _
  | givenUp t => exact (List.sublist_cons_self t us).filterMap _

/-- Where a single event is being told, the calls that are left are about it. -/
lemma untold_of_unfinished (h : (unfinished ts).length ≤ 1) :
    untold ts = [] ∨ ∃ e listeners sequel, .telling e listeners sequel ∈ ts ∧
      untold ts = listeners.map fun listener => ⟨listener, e⟩ := by
  induction ts with
  | nil => exact Or.inl rfl
  | cons t ts ih =>
      cases t with
      | replaying listener kind rest =>
          refine (ih h).imp id ?_
          rintro ⟨e, listeners, sequel, hmem, hleft⟩
          exact ⟨e, listeners, sequel, List.mem_cons_of_mem _ hmem, hleft⟩
      | telling e listeners sequel =>
          rw [unfinished_telling, List.length_cons] at h
          have hidle : unfinished ts = [] := List.eq_nil_of_length_eq_zero (by omega)
          have hnone : ts.filter (·.sequel?.isSome) = [] := by
            apply List.filter_eq_nil_iff.2
            intro t ht hsome
            rw [List.filterMap_eq_nil_iff.1 hidle t ht] at hsome
            cases hsome
          refine Or.inr ⟨e, listeners, sequel, List.mem_cons_self .., ?_⟩
          rw [untold, List.filter_cons_of_pos rfl, hnone]
          exact List.flatMap_singleton ..

end Tasks

/-! ## One step -/

/-- The result leaves a closed subscription closed and its tasks winding down.  There may be more
listeners, and less that waits for them. -/
structure Rests (s : Subscription ℓ) (i : Input ℓ) (r : Result ℓ) : Prop where
  state : r.state =
    { s with listeners := r.state.listeners, backlog := r.state.backlog, tasks := r.state.tasks }
  listeners : s.listeners ⊆ r.state.listeners
  tasks : Winds i.isContained s.tasks (askedBy r.turn) r.state.tasks

section Step

variable {s : Subscription ℓ} (hclosed : s.closed = true)

include hclosed

lemma tellChanges_of_closed (notes : List Note) (paths : List String) :
    s.tellChanges notes paths = s.finish notes := by
  cases paths with
  | nil => rfl
  | cons path rest => rw [tellChanges, if_pos hclosed]

lemma replay_of_closed (notes : List Note) (listener : ℓ) (kind : EventKind)
    (events : List Event) : s.replay notes listener kind events = s.finish notes := by
  cases events with
  | nil => rfl
  | cons e rest => rw [replay, if_pos hclosed]

/-- **A listener that is attached late** hears nothing of what has waited. -/
lemma attach_of_closed (kind : EventKind) (listener : ℓ) :
    s.attach kind listener = (s.joined kind listener).finish [] := by
  rw [attach_eq]
  exact replay_of_closed (s := s.joined kind listener) hclosed _ _ _ _

lemma close_of_closed : s.close = (s, []) := by
  rw [close, if_pos hclosed]

lemma record_of_closed (now : Int) (path : String) : s.record now path = s := by
  rw [record, if_pos]
  simp [hclosed]

lemma observe_of_closed (now : Int) (r : Raw) : s.observe now r = s := by
  unfold observe
  split
  · split
    · exact record_of_closed hclosed now _
    · rfl
  · rfl

lemma turn_of_closed (now : Int) : s.turn now = s.finish [] := by
  rw [turn, if_pos hclosed]

/-- No picked path is announced, and where nothing is dirty none is picked. -/
lemma goOn_of_closed (hclean : s.dirty = []) (now : Int) (notes : List Note)
    (sequel : Sequel) : s.goOn now notes sequel = s.finish notes := by
  cases sequel with
  | collect =>
      have hsame : { s with dirty := s.dirty.filter fun entry => !s.isQuiet now entry } = s := by
        rw [hclean, List.filter_nil, ← hclean]
      show s.collect now notes = s.finish notes
      rw [collect, hsame]
      exact tellChanges_of_closed hclosed notes _
  | changes paths => exact tellChanges_of_closed hclosed notes paths

/-- **A step of a closed subscription**, whatever it is put in. -/
theorem rests_step (hclean : s.dirty = []) (now : Int) (i : Input ℓ) :
    Rests s i (s.step now i) := by
  cases i with
  | attach kind listener =>
      rw [step, attach_of_closed hclosed]
      exact ⟨rfl, List.subset_append_left _ _, .idle _⟩
  | close =>
      rw [step, close_of_closed hclosed]
      exact ⟨rfl, List.Subset.refl _, .idle _⟩
  | record path =>
      rw [step, record_of_closed hclosed]
      exact ⟨rfl, List.Subset.refl _, .idle _⟩
  | raw r =>
      rw [step, observe_of_closed hclosed]
      exact ⟨rfl, List.Subset.refl _, .idle _⟩
  | turn =>
      rw [step, turn_of_closed hclosed]
      exact ⟨rfl, List.Subset.refl _, .idle _⟩
  | answer o =>
      cases htasks : s.tasks with
      | nil =>
          have hstep : s.step now (.answer o) = s.finish [] := by rw [step, htasks]
          rw [hstep]
          refine ⟨rfl, List.Subset.refl _, ?_⟩
          show Winds o.isContained s.tasks none s.tasks
          rw [htasks]
          cases o.isContained
          · exact .unasked
          · exact .idle []
      | cons t ts =>
          rw [step_answer_cons htasks]
          rcases { s with tasks := ts }.proceed_cases now o t with
            ⟨hcontained, notes, hgoes⟩ | ⟨hfails, why, hfail⟩
          · rw [hgoes]
            cases t with
            | replaying listener kind rest =>
                rw [resume, replay_of_closed (s := { s with tasks := ts }) hclosed]
                refine ⟨rfl, List.Subset.refl _, ?_⟩
                rw [Input.isContained, hcontained, htasks]
                exact .dropped listener kind rest ts
            | telling e listeners sequel =>
                cases listeners with
                | nil =>
                    rw [resume, goOn_of_closed (s := { s with tasks := ts }) hclosed hclean]
                    refine ⟨rfl, List.Subset.refl _, ?_⟩
                    rw [Input.isContained, hcontained, htasks]
                    exact .told e sequel ts
                | cons listener others =>
                    refine ⟨rfl, List.Subset.refl _, ?_⟩
                    rw [Input.isContained, hcontained, htasks]
                    exact .telling e listener others sequel ts
          · rw [hfail]
            refine ⟨rfl, List.Subset.refl _, ?_⟩
            rw [Input.isContained, hfails, htasks]
            exact .givenUp t ts

end Step

/-! ## Before the close -/

section Runs

variable {s : Subscription ℓ} {earlier later h : History ℓ}

/-- Nothing is dirty in a subscription that is closed. -/
def CleanIfClosed (s : Subscription ℓ) : Prop :=
  s.closed = true → s.dirty = []

lemma kept_cleanIfClosed :
    Kept (fun s t : Subscription ℓ => s.CleanIfClosed → t.CleanIfClosed) where
  refl _ := id
  trans h k := k ∘ h
  change s listeners backlog queue dirty tasks hsub h hclosed := by
    rw [h hclosed] at hsub
    exact List.subset_nil.1 hsub
  record s now path h hclosed := by
    have hbefore : s.closed = true := by
      rw [record_eq] at hclosed
      exact hclosed
    rw [record_of_closed hbefore]
    exact h hbefore
  close s h hclosed := by
    by_cases hbefore : s.closed = true
    · rw [close_of_closed hbefore]
      exact h hbefore
    · rw [close, if_neg hbefore]

lemma cleanIfClosed_after (hnew : s.IsNew) (h : History ℓ) : (s.after h).CleanIfClosed :=
  kept_cleanIfClosed.run s h.reverse fun _ => hnew.dirty

/-- **A step of an open subscription** closes it or attaches a listener; or it emits nothing, or it
is a step of the dispatcher. -/
lemma step_cases_of_open (hopen : s.closed = false) (now : Int) (i : Input ℓ) :
    i = .close ∨ (∃ kind listener, i = .attach kind listener) ∨ Silent s now i (s.step now i) ∨
      ∃ ts, Dispatching s now i ts (s.step now i) := by
  cases i with
  | attach kind listener => exact Or.inr (Or.inl ⟨kind, listener, rfl⟩)
  | close => exact Or.inl rfl
  | record path => exact Or.inr (Or.inr (Or.inl (silent_record hopen now path)))
  | raw r => exact Or.inr (Or.inr (Or.inl (silent_raw hopen now r)))
  | turn => exact Or.inr (Or.inr (Or.inr ⟨_, dispatching_turn hopen now⟩))
  | answer o => exact Or.inr (Or.inr (silent_or_dispatching_answer hopen now o))

/-- Only a close closes. -/
lemma open_of_ne_close (hopen : s.closed = false) (now : Int) {i : Input ℓ} (hi : i ≠ .close) :
    (s.step now i).state.closed = false := by
  rcases step_cases_of_open hopen now i with hclose | ⟨kind, listener, rfl⟩ | hsilent |
    ⟨ts, hdispatching⟩
  · exact absurd hclose hi
  · obtain ⟨-, -, hstate⟩ :=
      replay_resumes (s := s.joined kind listener) hopen [] listener kind (ofKind kind s.backlog)
    rw [step, attach_eq, hstate]
    exact hopen
  · rw [hsilent.state]
    exact hopen
  · obtain ⟨queue, -, hemits⟩ := hdispatching.queue
    rw [hemits.state]
    exact hopen

/-- **At most one event is being told** when the dispatcher takes its turns one after the other. -/
lemma length_unfinished_le (hnew : s.IsNew) (hturns : s.TurnByTurn h) :
    (unfinished (s.after h).tasks).length ≤ 1 := by
  induction h with
  | nil =>
      rw [after_nil, hnew.tasks]
      exact Nat.zero_le 1
  | cons i h ih =>
      have hbefore := ih hturns.2
      rw [after_cons]
      by_cases hclosed : (s.after h).closed = true
      · have hrests := rests_step hclosed (cleanIfClosed_after hnew h hclosed) i.1 i.2
        exact hrests.tasks.unfinished.length_le.trans hbefore
      · have hopen : (s.after h).closed = false := Bool.eq_false_iff.2 hclosed
        by_cases hi : i.2 = .close
        · rw [hi, step, close, if_neg hclosed]
          exact hbefore
        · exact (announcing_step hbefore hturns.1 (open_of_ne_close hopen i.1 hi)).1

/-! ### What is being told -/

/-- What is told in the tasks `us` was told in the tasks `ts`, to these listeners and maybe more. -/
def TellsOn (ts us : List (Task ℓ)) : Prop :=
  ∀ e listeners sequel, .telling e listeners sequel ∈ us →
    ∃ all sequel', .telling e all sequel' ∈ ts ∧ listeners ⊆ all

lemma tellsOn_of_subset {ts us : List (Task ℓ)} (h : us ⊆ ts) : TellsOn ts us :=
  fun _ listeners sequel hmem => ⟨listeners, sequel, h hmem, List.Subset.refl _⟩

lemma tellsOn_telling (e : Event) (listener : ℓ) (others : List ℓ) (sequel : Sequel)
    (ts : List (Task ℓ)) :
    TellsOn (.telling e (listener :: others) sequel :: ts) (.telling e others sequel :: ts) := by
  intro f listeners sequel' hmem
  rcases List.mem_cons.1 hmem with hfirst | hrest
  · cases hfirst
    exact ⟨_, _, List.mem_cons_self .., List.subset_cons_self _ _⟩
  · exact ⟨_, _, List.mem_cons_of_mem _ hrest, List.Subset.refl _⟩

lemma TellsOn.trans {ts us vs : List (Task ℓ)} (h : TellsOn ts us) (k : TellsOn us vs) :
    TellsOn ts vs := by
  intro e listeners sequel hmem
  obtain ⟨some, sequel', hsome, hsub⟩ := k e listeners sequel hmem
  obtain ⟨all, sequel'', hall, hsup⟩ := h e some sequel' hsome
  exact ⟨all, sequel'', hall, List.Subset.trans hsub hsup⟩

/-- To replay events is not to tell them. -/
lemma tellsOn_replaying (listener : ℓ) (kind : EventKind) (rest : List Event)
    (ts : List (Task ℓ)) : TellsOn ts (.replaying listener kind rest :: ts) := by
  intro e listeners sequel hmem
  rcases List.mem_cons.1 hmem with hfirst | hrest
  · cases hfirst
  · exact ⟨_, _, hrest, List.Subset.refl _⟩

lemma Winds.tellsOn {contained : Bool} {ts us : List (Task ℓ)} {call : Option (Telling ℓ)}
    (h : Winds contained ts call us) : TellsOn ts us := by
  cases h with
  | idle | unasked => exact tellsOn_of_subset (List.Subset.refl _)
  | dropped | told | givenUp => exact tellsOn_of_subset (List.subset_cons_self _ _)
  | telling e listener others sequel us => exact tellsOn_telling e listener others sequel us

lemma Resumes.tellsOn {contained : Bool} {ts us : List (Task ℓ)} {call : Option (Telling ℓ)}
    (h : Resumes contained ts call us) : TellsOn ts us := by
  cases h with
  | idle | unasked => exact tellsOn_of_subset (List.Subset.refl _)
  | replayed | givenUp => exact tellsOn_of_subset (List.subset_cons_self _ _)
  | replaying listener kind e rest us =>
      exact (tellsOn_of_subset (List.subset_cons_self _ _)).trans
        (tellsOn_replaying listener kind rest us)
  | telling e listener others sequel us => exact tellsOn_telling e listener others sequel us

/-- Every event that is being told has been heard by one of its listeners, and the others listen to
events of its kind. -/
def HasBegun (s : Subscription ℓ) (calls : List (Telling ℓ)) : Prop :=
  ∀ e listeners sequel, .telling e listeners sequel ∈ s.tasks →
    (∃ listener, ⟨listener, e⟩ ∈ calls) ∧ ∀ listener ∈ listeners, (e.kind, listener) ∈ s.listeners

lemma mem_listenersOf_iff {kind : EventKind} {listener : ℓ} :
    listener ∈ s.listenersOf kind ↔ (kind, listener) ∈ s.listeners := by
  simp [listenersOf]

/-- Nothing has to be looked at again where events are told on and listeners stay. -/
lemma HasBegun.of_tellsOn {t : Subscription ℓ} {calls : List (Telling ℓ)}
    (hbegun : s.HasBegun calls) (htells : TellsOn s.tasks t.tasks)
    (hlisteners : s.listeners ⊆ t.listeners) (more : List (Telling ℓ)) :
    t.HasBegun (calls ++ more) := by
  intro e listeners sequel hmem
  obtain ⟨all, sequel', hall, hsub⟩ := htells e listeners sequel hmem
  obtain ⟨⟨listener, hheard⟩, hlisten⟩ := hbegun e all sequel' hall
  exact ⟨⟨listener, List.mem_append_left _ hheard⟩,
    fun listener hlistener => hlisteners (hlisten listener (hsub hlistener))⟩

/-- The dispatcher tells what it has just begun to tell, and what was being told before. -/
lemma HasBegun.of_dispatching {calls : List (Telling ℓ)} {now : Int} {i : Input ℓ}
    {ts : List (Task ℓ)} {r : Result ℓ} (hbegun : s.HasBegun calls)
    (h : Dispatching s now i ts r) : r.state.HasBegun (calls ++ (askedBy r.turn).toList) := by
  have hsub : ts ⊆ s.tasks := by
    rcases h.tasks with ⟨-, htasks⟩ | ⟨o, e, sequel, -, -, htasks⟩
    · rw [htasks]
      exact List.Subset.refl _
    · rw [htasks]
      exact List.subset_cons_self _ _
  obtain ⟨queue, -, hemits⟩ := h.queue
  have hlisteners : r.state.listeners = s.listeners := by
    rw [hemits.state]
  rcases hemits.turn with ⟨-, htasks, -⟩ | ⟨_, e, listener, others, -, -, hall, hturn, htasks, -⟩
  · apply hbegun.of_tellsOn
    · rw [htasks]
      exact tellsOn_of_subset hsub
    · rw [hlisteners]
      exact List.Subset.refl _
  · intro f listeners sequel hmem
    rw [htasks] at hmem
    rw [hlisteners]
    rcases List.mem_cons.1 hmem with hfirst | hrest
    · cases hfirst
      refine ⟨⟨listener, ?_⟩, fun other hother => ?_⟩
      · rw [hturn]
        exact List.mem_append_right _ (List.mem_singleton_self _)
      · apply mem_listenersOf_iff.1
        show other ∈ s.listenersOf e.kind
        have hsame : s.listenersOf e.kind = listener :: others := hall
        rw [hsame]
        exact List.mem_cons_of_mem _ hother
    · obtain ⟨⟨other, hheard⟩, hlisten⟩ := hbegun f listeners sequel (hsub hrest)
      exact ⟨⟨other, List.mem_append_left _ hheard⟩, hlisten⟩

lemma HasBegun.step {calls : List (Telling ℓ)} (hclean : s.CleanIfClosed)
    (hbegun : s.HasBegun calls) (now : Int) (i : Input ℓ) :
    (s.step now i).state.HasBegun (calls ++ (askedBy (s.step now i).turn).toList) := by
  by_cases hclosed : s.closed = true
  · have hrests := rests_step hclosed (hclean hclosed) now i
    exact hbegun.of_tellsOn hrests.tasks.tellsOn hrests.listeners _
  · have hopen : s.closed = false := Bool.eq_false_iff.2 hclosed
    rcases step_cases_of_open hopen now i with rfl | ⟨kind, listener, rfl⟩ | hsilent |
      ⟨ts, hdispatching⟩
    · rw [Subscription.step, close, if_neg hclosed]
      exact hbegun.of_tellsOn (t := { s with closed := true, dirty := [] })
        (tellsOn_of_subset (List.Subset.refl _)) (List.Subset.refl _) _
    · obtain ⟨-, hresumes, hstate⟩ := replay_resumes (s := s.joined kind listener) hopen []
        listener kind (ofKind kind s.backlog)
      rw [Subscription.step, attach_eq]
      refine hbegun.of_tellsOn ?_ ?_ _
      · exact (tellsOn_replaying listener kind _ s.tasks).trans hresumes.tellsOn
      · rw [hstate]
        exact List.subset_append_left _ _
    · refine hbegun.of_tellsOn hsilent.tasks.tellsOn ?_ _
      rw [hsilent.state]
      exact List.Subset.refl _
    · exact hbegun.of_dispatching hdispatching

lemma hasBegun_after (hnew : s.IsNew) (h : History ℓ) : (s.after h).HasBegun (s.calls h) := by
  induction h with
  | nil =>
      intro e listeners sequel hmem
      rw [after_nil, hnew.tasks] at hmem
      cases hmem
  | cons i h ih =>
      rw [after_cons]
      exact ih.step (cleanIfClosed_after hnew h) i.1 i.2

/-! ## After the close -/

/-- The subscription is closed and at rest, and of the calls that `earlier` left to be made about
an event, some are made or still to be made: all of them if every answer that has come `later` is
contained. -/
structure Resting (s : Subscription ℓ) (later : History ℓ) (time : Int) (earlier : History ℓ) :
    Prop where
  closed : (s.after (later ++ (time, .close) :: earlier)).closed = true
  clean : (s.after (later ++ (time, .close) :: earlier)).dirty = []
  queue : (s.after (later ++ (time, .close) :: earlier)).queue = (s.after earlier).queue
  calls : ∃ made, s.calls (later ++ (time, .close) :: earlier) = s.calls earlier ++ made ∧
    (made ++ untold (s.after (later ++ (time, .close) :: earlier)).tasks).Sublist
        (untold (s.after earlier).tasks) ∧
      (Contained later → made ++ untold (s.after (later ++ (time, .close) :: earlier)).tasks =
        untold (s.after earlier).tasks)

/-- Closing leaves a subscription at rest. -/
lemma resting_close (hnew : s.IsNew) (time : Int) (earlier : History ℓ) :
    s.Resting [] time earlier := by
  have hcalls : s.calls ((time, .close) :: earlier) = s.calls earlier ++ [] := rfl
  by_cases hclosed : (s.after earlier).closed = true
  · have hsame : s.after ([] ++ (time, .close) :: earlier) = s.after earlier := by
      rw [List.nil_append, after_cons, step, close_of_closed hclosed]
      rfl
    constructor
    · rw [hsame]
      exact hclosed
    · rw [hsame]
      exact cleanIfClosed_after hnew earlier hclosed
    · rw [hsame]
    · rw [hsame]
      exact ⟨[], hcalls, List.Sublist.refl _, fun _ => rfl⟩
  · have hafter : s.after ([] ++ (time, .close) :: earlier) =
        { s.after earlier with closed := true, dirty := [] } := by
      rw [List.nil_append, after_cons, step, close, if_neg hclosed]
      rfl
    constructor
    · rw [hafter]
    · rw [hafter]
    · rw [hafter]
    · rw [hafter]
      exact ⟨[], hcalls, List.Sublist.refl _, fun _ => rfl⟩

/-- **Whatever comes then** leaves it at rest. -/
lemma resting_append (hnew : s.IsNew) (time : Int) (earlier later : History ℓ) :
    s.Resting later time earlier := by
  induction later with
  | nil => exact resting_close hnew time earlier
  | cons i later ih =>
      have hrests := rests_step ih.closed ih.clean i.1 i.2
      have hstate := hrests.state
      constructor
      · rw [List.cons_append, after_cons, hstate]
        exact ih.closed
      · rw [List.cons_append, after_cons, hstate]
        exact ih.clean
      · rw [List.cons_append, after_cons, hstate]
        exact ih.queue
      · obtain ⟨made, hmade, hsome, hall⟩ := ih.calls
        have hcall := hrests.tasks.untold
        have hlast := untold_sublist
          ((s.after (later ++ (time, .close) :: earlier)).lasting_sublist i.2)
        rw [List.cons_append, after_cons, Subscription.calls, hmade, List.append_assoc]
        refine ⟨_, rfl, ?_, fun hcontained => ?_⟩
        · rw [List.append_assoc, hcall]
          exact ((List.Sublist.refl made).append hlast).trans hsome
        · rw [List.append_assoc, hcall, if_pos hcontained.head]
          exact hall hcontained.tail

/-- How a subscription is at rest that was closed after the history `earlier`, whatever came
`later`. -/
structure AtRest (s : Subscription ℓ) (later : History ℓ) (time : Int) (earlier : History ℓ) :
    Prop where
  /-- The calls that were made since, and those that are still to be made, are among those that were
  left to be made about an event that was being told, in order; and they are all of them unless a
  listener has failed since in a way that cannot be reported. -/
  calls : ∃ made, s.calls (later ++ (time, .close) :: earlier) = s.calls earlier ++ made ∧
    (made ++ untold (s.after (later ++ (time, .close) :: earlier)).tasks).Sublist
        (untold (s.after earlier).tasks) ∧
      (Contained later → made ++ untold (s.after (later ++ (time, .close) :: earlier)).tasks =
        untold (s.after earlier).tasks)
  /-- They are about one event, which one of its listeners had heard by then or was hearing, and the
  others are those that it was left to be told to. -/
  single : untold (s.after earlier).tasks = [] ∨ ∃ e listeners sequel,
    .telling e listeners sequel ∈ (s.after earlier).tasks ∧
      untold (s.after earlier).tasks = listeners.map (fun listener => ⟨listener, e⟩) ∧
      (∃ listener, ⟨listener, e⟩ ∈ s.calls earlier) ∧
      ∀ listener ∈ listeners, listener ∈ (s.after earlier).listenersOf e.kind
  /-- Who is attached now hears nothing of what has waited. -/
  attach : ∀ now kind listener,
    let r := (s.after (later ++ (time, .close) :: earlier)).step now (.attach kind listener)
    r.turn = .ends .returned ∧ r.state.tasks = (s.after (later ++ (time, .close) :: earlier)).tasks
  /-- Nothing is dirty, and nothing becomes dirty. -/
  dirty : (s.after (later ++ (time, .close) :: earlier)).dirty = []
  /-- The dispatcher has taken nothing out of the queue since. -/
  queue : (s.after (later ++ (time, .close) :: earlier)).queue = (s.after earlier).queue
  /-- Neither a turn of the dispatcher nor another close does anything. -/
  idle : ∀ now,
    (s.after (later ++ (time, .close) :: earlier)).step now .turn =
        (s.after (later ++ (time, .close) :: earlier)).finish [] ∧
      (s.after (later ++ (time, .close) :: earlier)).step now .close =
        (s.after (later ++ (time, .close) :: earlier)).finish []

/-- **A closed subscription comes to rest.** Take a subscription that was opened, and any history in
which the dispatcher had taken its turns one after the other when the subscription was closed, be it
in the middle of one or by a listener.

Nobody is called any more but those that the event was left to be told to that was being told.  Who
is attached later hears nothing, nothing is dirty whatever the observer sees, the queue stays as it
was, and neither a turn nor another close does anything. -/
theorem atRest_of_close {around : Surroundings} {paths : List String} {o : Options}
    {notes : List Note} (hstart : start ℓ around paths o = (notes, .ok s)) {time : Int}
    (hturns : s.TurnByTurn earlier) (later : History ℓ) : s.AtRest later time earlier := by
  have hnew := isNew_of_start hstart
  have hresting := resting_append hnew time earlier later
  constructor
  · exact hresting.calls
  · refine (untold_of_unfinished (length_unfinished_le hnew hturns)).imp id ?_
    rintro ⟨e, listeners, sequel, hmem, hleft⟩
    obtain ⟨hheard, hlisten⟩ := hasBegun_after hnew earlier e listeners sequel hmem
    exact ⟨e, listeners, sequel, hmem, hleft, hheard,
      fun listener hlistener => mem_listenersOf_iff.2 (hlisten listener hlistener)⟩
  · intro now kind listener
    rw [step, attach_of_closed hresting.closed]
    exact ⟨rfl, rfl⟩
  · exact hresting.clean
  · exact hresting.queue
  · intro now
    rw [step, step, turn_of_closed hresting.closed, close_of_closed hresting.closed]
    exact ⟨rfl, rfl⟩

end Runs

/-- The first of two listeners of `ready` closes the subscription, while changes wait for somebody
to listen to them.  The second one still hears of it; who comes later hears nothing, and a file that
is touched does not become dirty. -/
theorem atRest_of_close_of_listener :
    let earlier : History Nat :=
      [(60, .turn), (50, .record "/w/c.py"), (40, .attach .ready 1), (30, .attach .ready 0),
        (20, .turn), (10, .turn)]
    let later : History Nat :=
      [(100, .turn), (95, .answer .returned), (90, .answer .returned), (80, .record "/w/c.py"),
        (75, .attach .change 2)]
    ∃ notes s, start Nat workshop ["/w"] { ignoreInitial := false } = (notes, .ok s) ∧
      s.TurnByTurn earlier ∧
      (s.after earlier).backlog = [.change "/w/a.py", .change "/w/build/b.py"] ∧
      s.calls earlier = [⟨0, .ready⟩] ∧ untold (s.after earlier).tasks = [⟨1, .ready⟩] ∧
      (s.after earlier).dirty.map Prod.fst = ["/w/c.py"] ∧
      s.AtRest later 70 earlier ∧
      s.calls (later ++ (70, .close) :: earlier) = [⟨0, .ready⟩, ⟨1, .ready⟩] := by
  intro earlier later
  obtain ⟨notes, s, hstart, hturns, hwaits, hcalls, hleft, hdirty, hdone⟩ :
      ∃ notes s, start Nat workshop ["/w"] { ignoreInitial := false } = (notes, .ok s) ∧
        s.TurnByTurn earlier ∧
        (s.after earlier).backlog = [.change "/w/a.py", .change "/w/build/b.py"] ∧
        s.calls earlier = [⟨0, .ready⟩] ∧ untold (s.after earlier).tasks = [⟨1, .ready⟩] ∧
        (s.after earlier).dirty.map Prod.fst = ["/w/c.py"] ∧
        untold (s.after (later ++ (70, .close) :: earlier)).tasks = [] :=
    exists_start (by decide +kernel)
  have hrest : s.AtRest later 70 earlier := atRest_of_close hstart hturns later
  obtain ⟨made, hmade, -, hall⟩ := hrest.calls
  have hcontained : Contained later := by decide
  have hleftOver := hall hcontained
  rw [hdone, hleft, List.append_nil] at hleftOver
  rw [hcalls, hleftOver] at hmade
  exact ⟨notes, s, hstart, hturns, hwaits, hcalls, hleft, hdirty, hrest, hmade⟩

end Marginalia.Notifier.Subscription
