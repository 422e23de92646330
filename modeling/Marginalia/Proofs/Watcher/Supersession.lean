import Marginalia.Proofs.Pending
import Marginalia.Proofs.Watcher.History

/-!
# Superseded subscriptions

A watch or a close supersedes the subscription that was open.  Its later events are refused, but an
event that is being handled when the call comes is not looked at again: the handler goes on where it
was interrupted.

`underway` is the stack of tasks, each with the input that it is done for, and `cause` is the input
that a step is taken for.  A task is `Idle` when no answer to it can do anything any more; what is
not idle is a file that is being read, and a report with a new block left.

`effects_of_superseded` is the exact condition: if nothing but idle tasks of a subscription are
under way when it is superseded, then no step for it ever takes effect again, in whatever order the
rest comes; and if another one is, then one can take effect after the call has returned.  The second
case does occur, `comment_after_close`.
-/

namespace Marginalia.Watcher

open Notifier (Event EventKind)

/-! ## What is under way -/

/-- The subscription that an input comes from. -/
def Input.generation? : Input → Option Nat
  | .event g _ => some g
  | _ => none

/-- What an input finds under way once it has taken up its own task. -/
def Input.takeUp : Input → List (Task × Input) → List (Task × Input)
  | .answer _, us => us.tail
  | _, us => us

/-- What an input is put in for: an answer for the sake of the task that it answers. -/
def Input.cause : Input → List (Task × Input) → Input
  | .answer _, (_, j) :: _ => j
  | i, _ => i

/-- The tasks, the latest first, with the inputs that they are done for. -/
def underway (w : Watcher) : History → List (Task × Input)
  | [] => []
  | i :: h =>
    match ((w.after h).step i).turn, ((w.after h).step i).state.tasks with
    | .asks _, t :: _ => (t, i.cause (underway w h)) :: i.takeUp (underway w h)
    | _, _ => i.takeUp (underway w h)

/-- The input that a step is taken for. -/
def cause (w : Watcher) (h : History) (i : Input) : Input :=
  i.cause (w.underway h)

/-- The step asks something of the host, or changes what waits. -/
def TakesEffect (w : Watcher) (h : History) (i : Input) : Prop :=
  (∃ q, ((w.after h).step i).turn = .asks q) ∨
    ((w.after h).step i).state.pending ≠ (w.after h).pending

/-- No answer to the task can do anything. -/
def Idle (w : Watcher) : Task → Prop
  | .attaching _ _ rest => rest = []
  | .reading _ => False
  | .reporting _ known _ rest => w.news? known rest = none
  | .calling => True

instance (w : Watcher) : (t : Task) → Decidable (w.Idle t)
  | .attaching _ _ rest => inferInstanceAs (Decidable (rest = []))
  | .reading _ => inferInstanceAs (Decidable False)
  | .reporting _ known _ rest => inferInstanceAs (Decidable (w.news? known rest = none))
  | .calling => .isTrue trivial

/-- Nothing but idle tasks is under way for a subscription. -/
def Settled (w : Watcher) (h : History) (g : Nat) : Prop :=
  ∀ u ∈ w.underway h, u.2.generation? = some g → w.Idle u.1

instance (w : Watcher) (h : History) (g : Nat) : Decidable (w.Settled h g) :=
  inferInstanceAs (Decidable (∀ u ∈ w.underway h, u.2.generation? = some g → w.Idle u.1))

/-- The answers upon which a call of the host returns. -/
def Input.returns : Input → History
  | .watch _ (.ok _) => [.answer .returned, .answer .returned, .answer .returned]
  | _ => []

variable {w : Watcher}

lemma underway_of_ends {h : History} {i : Input} {o : Outcome}
    (hturn : ((w.after h).step i).turn = .ends o) :
    w.underway (i :: h) = i.takeUp (w.underway h) := by
  rw [underway, hturn]

lemma underway_of_asks {h : History} {i : Input} {q : Question} {t : Task} {ts : List Task}
    (hturn : ((w.after h).step i).turn = .asks q)
    (htasks : ((w.after h).step i).state.tasks = t :: ts) :
    w.underway (i :: h) = (t, w.cause h i) :: i.takeUp (w.underway h) := by
  rw [underway, hturn, htasks, cause]

/-- What is under way are the tasks. -/
lemma map_fst_underway (hw : w.Unused) (h : History) :
    (w.underway h).map Prod.fst = (w.after h).tasks := by
  induction h with
  | nil => rw [after_nil, hw.tasks]; rfl
  | cons i h ih =>
      have htakeUp : (i.takeUp (w.underway h)).map Prod.fst = (w.after h).tasksUpon i := by
        cases i with
        | answer o => simp only [Input.takeUp, tasksUpon, ← ih, List.map_tail]
        | _ => exact ih
      have hstep := step_tasks (w.after h) i
      rw [after_cons]
      cases hturn : ((w.after h).step i).turn with
      | ends o =>
          rw [hturn] at hstep
          rw [underway_of_ends hturn, htakeUp, hstep]
      | asks q =>
          rw [hturn] at hstep
          obtain ⟨t, -, htasks⟩ := hstep
          rw [underway_of_asks hturn htasks, List.map_cons, htakeUp, htasks]

lemma tasks_of_underway (hw : w.Unused) {h : History} {t : Task} {j : Input}
    {us : List (Task × Input)} (hu : w.underway h = (t, j) :: us) :
    (w.after h).tasks = t :: us.map Prod.fst := by
  rw [← map_fst_underway hw, hu, List.map_cons]

lemma mem_of_mem_takeUp {i : Input} {us : List (Task × Input)} {u : Task × Input}
    (hu : u ∈ i.takeUp us) : u ∈ us := by
  cases i with
  | answer o => exact List.mem_of_mem_tail hu
  | _ => exact hu

/-! ## Idle tasks -/

lemma questionAfter?_of_idle {v : Watcher} {t : Task} (h : v.Idle t) (o : Outcome) :
    v.questionAfter? o t = none := by
  cases t with
  | attaching id g rest =>
      have hrest : rest = [] := h
      simp [questionAfter?, hrest]
  | reading path => exact absurd h id
  | reporting path known all rest =>
      have hnews : v.news? known rest = none := h
      simp [questionAfter?, hnews]
  | calling => rfl

lemma pendingAfter_of_idle {v : Watcher} {t : Task} (h : v.Idle t) (p : Pending)
    (o : Outcome) : pendingAfter p o t = p := by
  cases t with
  | reading path => exact absurd h id
  | _ => rfl

lemma idle_after_iff (h : History) (t : Task) : (w.after h).Idle t ↔ w.Idle t := by
  cases t <;> simp only [Idle, news?, after_callbacks]

/-- Answering an idle task does nothing. -/
lemma not_takesEffect_of_idle (hw : w.Unused) {h : History} {t : Task} {j : Input}
    {us : List (Task × Input)} (hu : w.underway h = (t, j) :: us) (hidle : w.Idle t)
    (o : Outcome) : ¬ w.TakesEffect h (.answer o) := by
  have htasks := tasks_of_underway hw hu
  have hidle' := (idle_after_iff h t).2 hidle
  rintro (⟨q, hq⟩ | hne)
  · rw [step_asks_iff, questionUpon?, htasks, List.head?_cons, Option.bind_some,
      questionAfter?_of_idle hidle'] at hq
    cases hq
  · apply hne
    rw [step_pending, pendingUpon, htasks, List.head?_cons, Option.map_some,
      Option.getD_some, pendingAfter_of_idle hidle']

/-! ## Once nothing but idle tasks is left -/

/-- A subscription that was superseded is never open again. -/
lemma openGeneration_ne_of_superseded {h : History} {x : Input} {g : Nat}
    (hx : x.turnsOver) (hg : g ≤ generationOf h) (k : History) :
    openGeneration (k ++ x :: h) ≠ some g := by
  intro hopen
  have hlast := generationOf_of_open hopen
  have hcons : generationOf (x :: h) = generationOf h + 1 :=
    List.countP_cons_of_pos hx
  rw [generationOf_append, hcons] at hlast
  omega

/-- An event of a subscription that is not open does nothing. -/
lemma not_takesEffect_of_closed (hw : w.Unused) {h : History} {g : Nat}
    (hclosed : openGeneration h ≠ some g) (e : Event) : ¬ w.TakesEffect h (.event g e) := by
  rintro (⟨q, hq⟩ | hne)
  · rw [step_event_asks_iff, after_isCurrent hw] at hq
    exact hclosed hq.1
  · exact hne (step_pending (w.after h) (.event g e))

/-- Where a subscription is settled and not open, no step for it takes effect. -/
lemma not_takesEffect_of_settled (hw : w.Unused) {h : History} {g : Nat}
    (hsettled : w.Settled h g) (hclosed : openGeneration h ≠ some g) {i : Input}
    (hcause : (w.cause h i).generation? = some g) : ¬ w.TakesEffect h i := by
  have hself (hi : i.generation? = some g) : ¬ w.TakesEffect h i := by
    cases i with
    | event g' e =>
        obtain rfl : g' = g := Option.some.inj hi
        exact not_takesEffect_of_closed hw hclosed e
    | _ => cases hi
  cases i with
  | answer o =>
      cases hu : w.underway h with
      | nil =>
          rw [cause, hu] at hcause
          exact hself hcause
      | cons u us =>
          rw [cause, hu] at hcause
          have hidle : w.Idle u.1 := hsettled u (by rw [hu]; exact List.mem_cons_self ..) hcause
          exact not_takesEffect_of_idle hw hu hidle o
  | _ => exact hself hcause

/-- **Settled for good**: nothing new is begun for a subscription that is settled and not open. -/
lemma settled_cons {h : History} {g : Nat} (hsettled : w.Settled h g)
    {i : Input} (hquiet : (w.cause h i).generation? = some g → ¬ w.TakesEffect h i) :
    w.Settled (i :: h) g := by
  intro u hu hg
  have hstep := step_tasks (w.after h) i
  cases hturn : ((w.after h).step i).turn with
  | ends o =>
      rw [underway_of_ends hturn] at hu
      exact hsettled u (mem_of_mem_takeUp hu) hg
  | asks q =>
      rw [hturn] at hstep
      obtain ⟨t, -, htasks⟩ := hstep
      rw [underway_of_asks hturn htasks] at hu
      rcases List.mem_cons.1 hu with rfl | hu
      · exact absurd (Or.inl ⟨q, hturn⟩) (hquiet hg)
      · exact hsettled u (mem_of_mem_takeUp hu) hg

lemma settled_of_superseded (hw : w.Unused) {h : History} {x : Input} {g : Nat}
    (hx : x.turnsOver) (hg : g ≤ generationOf h) (hsettled : w.Settled h g) (k : History) :
    w.Settled (k ++ x :: h) g := by
  induction k with
  | nil =>
      refine settled_cons hsettled fun hcause => ?_
      cases x with
      | watch | close => cases hcause
      | _ => cases hx
  | cons i k ih =>
      exact settled_cons ih fun hcause => not_takesEffect_of_settled hw ih
        (openGeneration_ne_of_superseded hx hg k) hcause

/-! ## While another task is left -/

lemma questionAfter?_raised (v : Watcher) (why : Failure) (t : Task) :
    v.questionAfter? (.raised why) t = none := by
  cases t <;> rfl

/-- A failure ends the latest task. -/
lemma underway_raised (h : History) (why : Failure) :
    w.underway (.answer (.raised why) :: h) = (w.underway h).tail := by
  cases hturn : ((w.after h).step (.answer (.raised why))).turn with
  | ends o => rw [underway_of_ends hturn, Input.takeUp]
  | asks q =>
      rw [step_asks_iff, questionUpon?] at hturn
      obtain ⟨t, -, hq⟩ := Option.bind_eq_some_iff.1 hturn
      rw [questionAfter?_raised] at hq
      cases hq

lemma underway_raised_many (h : History) (why : Failure) (n : Nat) :
    w.underway (List.replicate n (.answer (.raised why)) ++ h) = (w.underway h).drop n := by
  induction n with
  | zero => rfl
  | succ n ih => rw [List.replicate_succ, List.cons_append, underway_raised, ih, List.tail_drop]

lemma step_attached (hw : w.Unused) {h : History} {id g : Nat} {rest : List EventKind}
    {j : Input} {us : List (Task × Input)}
    (hu : w.underway h = (.attaching id g rest, j) :: us) :
    (w.after h).step (.answer .returned) =
      { w.after h with tasks := us.map Prod.fst }.attach [] id g rest := by
  simp only [step, tasks_of_underway hw hu, proceed]

/-- An attachment that is answered goes on with the next one. -/
lemma underway_attached (hw : w.Unused) {h : History} {id g : Nat} {kind : EventKind}
    {rest : List EventKind} {j : Input} {us : List (Task × Input)}
    (hu : w.underway h = (.attaching id g (kind :: rest), j) :: us) :
    w.underway (.answer .returned :: h) = (.attaching id g rest, j) :: us := by
  have hstep := step_attached hw hu
  have hturn : ((w.after h).step (.answer .returned)).turn = .asks (.attach id kind g) := by
    rw [hstep]
    rfl
  have htasks : ((w.after h).step (.answer .returned)).state.tasks =
      .attaching id g rest :: us.map Prod.fst := by
    rw [hstep]
    rfl
  rw [underway_of_asks hturn htasks, cause, hu]
  rfl

lemma underway_attached_last (hw : w.Unused) {h : History} {id g : Nat} {j : Input}
    {us : List (Task × Input)} (hu : w.underway h = (.attaching id g [], j) :: us) :
    w.underway (.answer .returned :: h) = us := by
  have hturn : ((w.after h).step (.answer .returned)).turn = .ends .returned := by
    rw [step_attached hw hu]
    rfl
  rw [underway_of_ends hturn, hu]
  rfl

/-- When a call that supersedes a subscription has returned, nothing of the call is left. -/
lemma underway_returns (hw : w.Unused) {x : Input} (hx : x.turnsOver) (h : History) :
    w.underway (x.returns ++ x :: h) = w.underway h := by
  cases x with
  | watch root opened =>
      cases opened with
      | ok id =>
          obtain ⟨notes, hstep⟩ := watch_ok (w.after h) root id
          have hbegun : w.underway (.watch root (.ok id) :: h) =
              (.attaching id ((w.after h).generation + 1) [.change, .error],
                .watch root (.ok id)) :: w.underway h := by
            have hturn : ((w.after h).step (.watch root (.ok id))).turn =
                .asks (.attach id .ready ((w.after h).generation + 1)) := by
              rw [step, hstep]
              rfl
            have htasks : ((w.after h).step (.watch root (.ok id))).state.tasks =
                .attaching id ((w.after h).generation + 1) [.change, .error] ::
                  (w.after h).tasks := by
              rw [step, hstep]
              rfl
            exact underway_of_asks hturn htasks
          exact underway_attached_last hw (underway_attached hw (underway_attached hw hbegun))
      | error why =>
          obtain ⟨notes, hstep⟩ := watch_error (w.after h) root why
          refine underway_of_ends (o := .raised why) ?_
          rw [step, hstep]
          rfl
  | close =>
      obtain ⟨notes, hstep⟩ := close_eq (w.after h)
      refine underway_of_ends (o := .returned) ?_
      rw [step, hstep]
      rfl
  | _ => cases hx

/-- Some content changes what waits, whatever waits. -/
lemma exists_takingIn_ne (p : Pending) (path : String) :
    ∃ content, takingIn p path content ≠ p := by
  by_cases hp : p.get path = []
  · refine ⟨"# AI here", fun h => ?_⟩
    have htake : takingIn p path "# AI here" =
        p.replace path [⟨path, 1, ["# AI here"], false⟩] := rfl
    have hget := congrArg (Pending.get · path) (htake.symm.trans h)
    simp [Pending.get_replace, hp] at hget
  · refine ⟨"", fun h => hp ?_⟩
    have htake : takingIn p path "" = p.replace path [] := rfl
    have hget := congrArg (Pending.get · path) (htake.symm.trans h)
    simpa [Pending.get_replace] using hget.symm

/-- A task that is not idle can be answered to some effect. -/
lemma exists_effect (hw : w.Unused) {h : History} {t : Task} {j : Input}
    {us : List (Task × Input)} (hu : w.underway h = (t, j) :: us) (hbusy : ¬ w.Idle t) :
    ∃ o, w.TakesEffect h (.answer o) := by
  have htasks := tasks_of_underway hw hu
  have hasks (o : Outcome) (q : Question) (hq : (w.after h).questionAfter? o t = some q) :
      w.TakesEffect h (.answer o) := by
    refine Or.inl ⟨q, ?_⟩
    rw [step_asks_iff, questionUpon?, htasks, List.head?_cons, Option.bind_some, hq]
  rw [← idle_after_iff h t] at hbusy
  cases t with
  | attaching id g rest =>
      cases rest with
      | nil => exact absurd rfl hbusy
      | cons kind rest => exact ⟨.returned, hasks _ (.attach id kind g) rfl⟩
  | reading path =>
      obtain ⟨content, hne⟩ := exists_takingIn_ne (w.after h).pending path
      refine ⟨.text content, Or.inr ?_⟩
      rw [step_pending, pendingUpon, htasks]
      exact hne
  | reporting path known all rest =>
      obtain ⟨b, hb⟩ := Option.ne_none_iff_exists'.1 hbusy
      refine ⟨.returned, hasks _ (.comment b all) ?_⟩
      simp only [questionAfter?, hb]
      rfl
  | calling => exact absurd trivial hbusy

/-! ## The exact condition -/

/-- **What is left of a superseded subscription**: a call of `watch` or `close` leaves none of its
events with any further effect exactly if nothing but idle tasks was under way for it.  In that case
no step for it takes effect from the call on; otherwise one can even after the call has returned. -/
theorem effects_of_superseded {o : Options} {c : Callbacks} {home : String}
    (made : make o c home = .ok w) {h : History} {x : Input} (hx : x.turnsOver) {g : Nat}
    (hg : g ≤ generationOf h) :
    (w.Settled h g → ∀ (k : History) (i : Input),
        (w.cause (k ++ x :: h) i).generation? = some g → ¬ w.TakesEffect (k ++ x :: h) i) ∧
      (¬ w.Settled h g → ∃ (k : History) (i : Input),
        (w.cause (k ++ x.returns ++ x :: h) i).generation? = some g ∧
          w.TakesEffect (k ++ x.returns ++ x :: h) i) := by
  have hw := unused_of_make made
  constructor
  · intro hsettled k i hcause
    exact not_takesEffect_of_settled hw (settled_of_superseded hw hx hg hsettled k)
      (openGeneration_ne_of_superseded hx hg k) hcause
  · intro hbusy
    simp only [Settled, not_forall] at hbusy
    obtain ⟨⟨t, j⟩, hu, hj, hbusy⟩ := hbusy
    obtain ⟨above, below, hsplit⟩ := List.append_of_mem hu
    -- The tasks above the busy one are ended by failures, and then it is answered.
    let why : Failure := .plain .runtime ""
    refine ⟨List.replicate above.length (.answer (.raised why)), ?_⟩
    have hleft : w.underway (List.replicate above.length (.answer (.raised why)) ++
        x.returns ++ x :: h) = (t, j) :: below := by
      rw [List.append_assoc, underway_raised_many, underway_returns hw hx, hsplit,
        List.drop_left]
    obtain ⟨o, heffect⟩ := exists_effect hw hleft hbusy
    exact ⟨.answer o, by rw [cause, hleft]; exact hj, heffect⟩

/-- A close from the trigger leaves nothing behind; a close from the first of two reports does. -/
theorem effects_of_superseded_by_close :
    let h := saved "/w/a.py" "# now AI!" ++ watching
    let h' := saved "/w/a.py" "# one AI\n\n# two AI" ++ watching
    make { ignored := [] } {} "/w" = .ok plain ∧ Input.turnsOver .close ∧
      1 ≤ generationOf h ∧ 1 ≤ generationOf h' ∧
      (∀ (k : History) (i : Input), (plain.cause (k ++ .close :: h) i).generation? = some 1 →
        ¬ plain.TakesEffect (k ++ .close :: h) i) ∧
      (∃ (k : History) (i : Input),
        (plain.cause (k ++ Input.close.returns ++ .close :: h') i).generation? = some 1 ∧
          plain.TakesEffect (k ++ Input.close.returns ++ .close :: h') i) := by
  intro h h'
  have hg : 1 ≤ generationOf h := by decide
  have hg' : 1 ≤ generationOf h' := by decide
  exact ⟨make_plain, rfl, hg, hg', (effects_of_superseded make_plain rfl hg).1 (by decide),
    (effects_of_superseded make_plain rfl hg').2 (by decide)⟩

/-- **A close does not stop the event that is being handled**: the second of two new blocks is
reported after the callback of the first has closed the watcher, and content is kept although the
watcher was closed while it was read. -/
theorem comment_after_close :
    let h := saved "/w/a.py" "# one AI\n\n# two AI" ++ watching
    let h' := .event 1 (.change "/w/a.py") :: watching
    (((plain.after h).step .close).turn = .ends .returned ∧
        openGeneration (.close :: h) = none ∧
        (plain.cause (.close :: h) (.answer .returned)).generation? = some 1 ∧
        ((plain.after (.close :: h)).step (.answer .returned)).turn =
          .asks (.comment ⟨"/w/a.py", 3, ["# two AI"], false⟩
            [⟨"/w/a.py", 1, ["# one AI"], false⟩, ⟨"/w/a.py", 3, ["# two AI"], false⟩])) ∧
      (((plain.after h').step .close).turn = .ends .returned ∧
        openGeneration (.close :: h') = none ∧
        (plain.cause (.close :: h') (.answer (.text "# one AI"))).generation? = some 1 ∧
        (plain.after (.answer (.text "# one AI") :: .close :: h')).pending.get "/w/a.py" =
          [⟨"/w/a.py", 1, ["# one AI"], false⟩]) := by
  intro h h'
  exact ⟨⟨rfl, by decide, by decide, rfl⟩, ⟨rfl, by decide, by decide, by decide⟩⟩

end Marginalia.Watcher
