import Marginalia.Proofs.Notifier.Chronicle

/-!
# Listeners that fail

A listener that fails is a matter of the log alone, if its failure can be put into words.  Two
histories are compared that differ in what the listeners answer, and in nothing else (`Alike`): some
of them fail in the one and not in the other, while they hear an event of the dispatcher or one that
has waited for them.

`step_answer` says what a failure does, whatever is under way: a complaint is logged, and the rest
of the step is that of any other answer.  `step_answer_fail` is about a failure that nobody can
complain about: the call fails in its turn, and what it had still to do is lost.  `ends_or_asks`
says that an answer ends the call that it belongs to or takes it on, and that what can still be
asked for, its `burden`, becomes less.  `undisturbed_of_alike` is what follows for whole runs.
Nothing is assumed of the state in which they begin, nor of what else happens while a listener is
being called.

That the failures can be reported is needed: `wordless_failure_disturbs`.
-/

namespace Marginalia.Notifier

variable {ℓ : Type}

namespace Subscription

/-! ## What a failure does -/

section Answers

variable (s : Subscription ℓ)

lemma ask_eq_after (notes : List Note) (listener : ℓ) (e : Event) (t : Task ℓ) :
    s.ask notes listener e t = (s.ask [] listener e t).after notes := by
  simp [ask, Step.after]

lemma finish_eq_after (notes : List Note) : s.finish notes = (s.finish []).after notes := by
  simp [finish, Step.after]

lemma tellChanges_eq_after (notes : List Note) (paths : List String) :
    s.tellChanges notes paths = (s.tellChanges [] paths).after notes := by
  induction paths generalizing s with
  | nil => exact s.finish_eq_after notes
  | cons path rest ih =>
      rw [tellChanges, tellChanges]
      split
      · exact s.finish_eq_after notes
      · split
        · exact ih _
        · exact s.ask_eq_after notes _ _ _

lemma goOn_eq_after (now : Int) (notes : List Note) (sequel : Sequel) :
    s.goOn now notes sequel = (s.goOn now [] sequel).after notes := by
  cases sequel with
  | collect => exact tellChanges_eq_after _ notes _
  | changes paths => exact s.tellChanges_eq_after notes paths

lemma replay_eq_after (notes : List Note) (listener : ℓ) (kind : EventKind)
    (events : List Event) :
    s.replay notes listener kind events = (s.replay [] listener kind events).after notes := by
  cases events with
  | nil => exact s.finish_eq_after notes
  | cons e rest =>
      rw [replay, replay]
      split
      · exact s.finish_eq_after notes
      · exact s.ask_eq_after notes _ _ _

lemma resume_eq_after (now : Int) (notes : List Note) (t : Task ℓ) :
    s.resume now notes t = (s.resume now [] t).after notes := by
  cases t with
  | replaying listener kind rest => exact s.replay_eq_after _ listener kind rest
  | telling e listeners sequel =>
      cases listeners with
      | nil => exact s.goOn_eq_after now _ sequel
      | cons listener others => exact s.ask_eq_after _ listener e _

/-- What is logged of an answer, a complaint if it is a failure and some listener was called; or the
failure that comes of it. -/
def reaction (o : Outcome) : Except Failure (List Note) :=
  match s.tasks with
  | [] => .ok []
  | t :: _ => complaints t.kind o

lemma exists_reaction {o : Outcome} (hcontained : o.isContained = true) :
    ∃ notes, s.reaction o = .ok notes := by
  unfold reaction
  split
  · exact ⟨[], rfl⟩
  · rename_i t _ _
    rcases complaints_cases t.kind o with ⟨-, hnotes⟩ | ⟨hfails, -⟩
    · exact hnotes
    · rw [hcontained] at hfails
      cases hfails

variable {s}

lemma reaction_cons {t : Task ℓ} {ts : List (Task ℓ)} (htasks : s.tasks = t :: ts) (o : Outcome) :
    s.reaction o = complaints t.kind o := by
  rw [reaction, htasks]

/-- **A failure** that is complained about puts the complaint before what any other answer does. -/
lemma step_answer (now : Int) {o : Outcome} {notes : List Note} (h : s.reaction o = .ok notes) :
    s.step now (.answer o) = (s.step now (.answer .returned)).after notes := by
  cases htasks : s.tasks with
  | nil =>
      rw [reaction, htasks] at h
      rw [← Except.ok.inj h]
      simp [step, htasks, finish, Step.after]
  | cons t rest =>
      rw [reaction_cons htasks] at h
      have hgoes : { s with tasks := rest }.proceed now o t =
          { s with tasks := rest }.resume now notes t := by rw [proceed, h]
      rw [step_answer_cons htasks, step_answer_cons htasks, hgoes]
      exact resume_eq_after _ now notes t

/-- **A failure that cannot be reported** makes the call fail, and its task is lost. -/
lemma step_answer_fail (now : Int) {o : Outcome} {why : Failure} (h : s.reaction o = .error why) :
    s.step now (.answer o) = { s with tasks := s.tasks.tail }.fail why := by
  cases htasks : s.tasks with
  | nil =>
      rw [reaction, htasks] at h
      cases h
  | cons t rest =>
      rw [reaction_cons htasks] at h
      rw [step_answer_cons htasks, proceed, h]
      rfl

end Answers

/-! ## The end of a call -/

section Ends

variable {s : Subscription ℓ}

/-- Telling some changes ends, or somebody hears the first of them. -/
lemma tellChanges_cases (s : Subscription ℓ) (notes : List Note) (paths : List String) :
    ((s.tellChanges notes paths).turn = .ends .returned ∧
        (s.tellChanges notes paths).state.tasks = s.tasks) ∨
      ∃ path rest listener others, paths = path :: rest ∧
        s.listenersOf .change = listener :: others ∧
        s.tellChanges notes paths =
          s.ask notes listener (.change path) (.telling (.change path) others (.changes rest)) := by
  cases hlisteners : s.listenersOf .change with
  | nil =>
      left
      induction paths generalizing s with
      | nil => exact ⟨rfl, rfl⟩
      | cons path rest ih =>
          rw [tellChanges, hlisteners]
          split
          · exact ⟨rfl, rfl⟩
          · exact ih { s with backlog := s.backlog ++ [Event.change path] } hlisteners
  | cons listener others =>
      cases paths with
      | nil => exact Or.inl ⟨rfl, rfl⟩
      | cons path rest =>
          rw [tellChanges, hlisteners]
          split
          · exact Or.inl ⟨rfl, rfl⟩
          · exact Or.inr ⟨path, rest, listener, others, rfl, rfl, rfl⟩

/-- At most so many paths are told of when an event has been heard. -/
def prospects (s : Subscription ℓ) : Sequel → Nat
  | .collect => s.dirty.length
  | .changes paths => paths.length

/-- At most so many listeners are still called before a task is done, as long as nobody is attached
and no path touched. -/
def burden (s : Subscription ℓ) : Task ℓ → Nat
  | .replaying _ _ rest => rest.length
  | .telling _ rest sequel => rest.length + s.prospects sequel * (s.listenersOf .change).length

/-- Where a call stands after an answer: it has ended and left the tasks `ts`, or a listener is
called, and less than `bound` is left to be done. -/
def EndsOrAsks (r : Result ℓ) (ts : List (Task ℓ)) (bound : Nat) : Prop :=
  (r.turn = .ends .returned ∧ r.state.tasks = ts) ∨
    ∃ q t, r.turn = .asks q ∧ r.state.tasks = t :: ts ∧ r.state.burden t < bound

/-- Of the paths whose changes are told the first one is done with. -/
lemma tellChanges_endsOrAsks (s : Subscription ℓ) (notes : List Note) (paths : List String)
    {bound : Nat} (hbound : paths.length * (s.listenersOf .change).length ≤ bound) :
    EndsOrAsks (s.tellChanges notes paths) s.tasks bound := by
  rcases s.tellChanges_cases notes paths with hends |
    ⟨path, rest, listener, others, hpaths, hall, htell⟩
  · exact Or.inl hends
  · have hlighter : others.length + rest.length * (s.listenersOf .change).length < bound := by
      rw [hpaths, List.length_cons, Nat.succ_mul] at hbound
      have hmore : others.length < (s.listenersOf .change).length := by
        rw [hall, List.length_cons]
        exact Nat.lt_succ_self _
      omega
    rw [htell]
    exact Or.inr ⟨_, _, rfl, rfl, hlighter⟩

/-- Going on with a task ends the call that it belongs to, or takes it on. -/
lemma resume_endsOrAsks (s : Subscription ℓ) (now : Int) (notes : List Note) (t : Task ℓ) :
    EndsOrAsks (s.resume now notes t) s.tasks (s.burden t) := by
  cases t with
  | replaying listener kind rest =>
      cases rest with
      | nil => exact Or.inl ⟨rfl, rfl⟩
      | cons e rest =>
          rw [resume, replay]
          split
          · exact Or.inl ⟨rfl, rfl⟩
          · exact Or.inr ⟨_, _, rfl, rfl, Nat.lt_succ_self rest.length⟩
  | telling e listeners sequel =>
      cases listeners with
      | cons listener others =>
          refine Or.inr ⟨_, _, rfl, rfl, ?_⟩
          exact Nat.add_lt_add_right (Nat.lt_succ_self others.length) _
      | nil =>
          rw [burden, List.length_nil, Nat.zero_add]
          cases sequel with
          | collect =>
              refine tellChanges_endsOrAsks _ _ _ (Nat.mul_le_mul_right _ ?_)
              rw [List.length_map]
              exact List.length_filter_le ..
          | changes paths => exact tellChanges_endsOrAsks _ _ paths (Nat.le_refl _)

/-- **An answer** ends the call that it belongs to, or takes it on. -/
lemma ends_or_asks {t : Task ℓ} {ts : List (Task ℓ)} (htasks : s.tasks = t :: ts) (now : Int)
    (o : Outcome) :
    EndsOrAsks (s.step now (.answer o)) ts (s.burden t) ∨
      ∃ why, s.reaction o = .error why ∧ (s.step now (.answer o)).turn = .ends (.raised why) ∧
        (s.step now (.answer o)).state.tasks = ts := by
  cases hreaction : s.reaction o with
  | ok notes =>
      rw [reaction_cons htasks] at hreaction
      rw [step_answer_cons htasks, proceed, hreaction]
      exact Or.inl (resume_endsOrAsks _ now notes t)
  | error why =>
      rw [step_answer_fail now hreaction, htasks]
      exact Or.inr ⟨why, rfl, rfl, rfl⟩

/-- A history in which the listeners answer, one after the other. -/
def answering (answer : Nat → Int × Outcome) : Nat → History ℓ
  | 0 => []
  | n + 1 => ((answer n).1, .answer (answer n).2) :: answering answer n

lemma answering_succ (answer : Nat → Int × Outcome) (n : Nat) (h : History ℓ) :
    answering answer (n + 1) ++ h =
      answering (fun m => answer (m + 1)) n ++ ((answer 0).1, .answer (answer 0).2) :: h := by
  induction n with
  | zero => rfl
  | succ n ih =>
      rw [answering, List.cons_append, ih]
      rfl

/-- **Every call ends** when the listeners have answered, whatever they answer. -/
lemma exists_end {h : History ℓ} {t : Task ℓ} {ts : List (Task ℓ)}
    (htasks : (s.after h).tasks = t :: ts) (answer : Nat → Int × Outcome) :
    ∃ n o, let r := (s.after (answering answer n ++ h)).step (answer n).1 (.answer (answer n).2)
      r.turn = .ends o ∧ r.state.tasks = ts := by
  induction hburden : (s.after h).burden t using Nat.strong_induction_on
    generalizing h t answer with
  | _ burden ih =>
      rcases ends_or_asks htasks (answer 0).1 (answer 0).2 with
        (hends | ⟨q, u, -, hleft, hless⟩) | ⟨why, -, hfails⟩
      · exact ⟨0, .returned, hends⟩
      · rw [hburden] at hless
        rw [← after_cons s ((answer 0).1, .answer (answer 0).2)] at hleft hless
        obtain ⟨n, o, hn⟩ := ih _ hless hleft (fun m => answer (m + 1)) rfl
        refine ⟨n + 1, o, ?_⟩
        rw [answering_succ]
        exact hn
      · exact ⟨0, .raised why, hfails⟩

/-- If the result is the end of a call, the call has returned. -/
def EndsWell (r : Result ℓ) : Prop :=
  ∀ o, r.turn = .ends o → o = .returned

lemma endsWell_of_returned {r : Result ℓ} (h : r.turn = .ends .returned) : EndsWell r := by
  intro o ho
  rw [h] at ho
  exact (Turn.ends.inj ho).symm

lemma endsWell_of_asks {r : Result ℓ} {q : Telling ℓ} (h : r.turn = .asks q) : EndsWell r := by
  intro o ho
  rw [h] at ho
  cases ho

lemma EndsOrAsks.endsWell {r : Result ℓ} {ts : List (Task ℓ)} {bound : Nat}
    (h : EndsOrAsks r ts bound) : EndsWell r := by
  rcases h with ⟨hends, -⟩ | ⟨q, t, hasks, -, -⟩
  · exact endsWell_of_returned hends
  · exact endsWell_of_asks hasks

lemma endsWell_replay (s : Subscription ℓ) (notes : List Note) (listener : ℓ) (kind : EventKind)
    (events : List Event) : EndsWell (s.replay notes listener kind events) := by
  cases events with
  | nil => exact endsWell_of_returned rfl
  | cons e rest =>
      rw [replay]
      split
      · exact endsWell_of_returned rfl
      · exact endsWell_of_asks rfl

lemma endsWell_collect (s : Subscription ℓ) (now : Int) (notes : List Note) :
    EndsWell (s.collect now notes) :=
  (tellChanges_endsOrAsks _ _ _ (Nat.le_refl _)).endsWell

lemma endsWell_turn (s : Subscription ℓ) (now : Int) : EndsWell (s.turn now) := by
  unfold turn
  split
  · exact endsWell_of_returned rfl
  · split
    · exact endsWell_collect _ _ _
    · dsimp only
      split
      · exact endsWell_collect _ _ _
      · exact endsWell_of_asks rfl

/-- **No failure leaves** a call of a subscription, except one that cannot be reported. -/
lemma endsWell_step (s : Subscription ℓ) (now : Int) (i : Input ℓ) :
    EndsWell (s.step now i) ∨
      ∃ o why, i = .answer o ∧ s.reaction o = .error why ∧
        (s.step now i).turn = .ends (.raised why) := by
  cases i with
  | attach kind listener => exact Or.inl (endsWell_replay _ _ _ _ _)
  | close | record | raw => exact Or.inl (endsWell_of_returned rfl)
  | turn => exact Or.inl (endsWell_turn s now)
  | answer o =>
      cases htasks : s.tasks with
      | nil =>
          simp only [step, htasks]
          exact Or.inl (endsWell_of_returned rfl)
      | cons t ts =>
          rcases ends_or_asks htasks now o with hends | ⟨why, hreaction, hturn, -⟩
          · exact Or.inl hends.endsWell
          · exact Or.inr ⟨o, why, rfl, hreaction, hturn⟩

end Ends

/-! ## Two runs -/

section Runs

variable {s : Subscription ℓ} {h k : History ℓ}

/-- The same is put into a subscription at the same times, except that the listeners may answer
something else, as long as it is contained. -/
inductive Alike : History ℓ → History ℓ → Prop
  | nil : Alike [] []
  | same {h k : History ℓ} (i : Int × Input ℓ) (halike : Alike h k) : Alike (i :: h) (i :: k)
  | answered {h k : History ℓ} (now : Int) {o o' : Outcome} (ho : o.isContained = true)
      (ho' : o'.isContained = true) (halike : Alike h k) :
      Alike ((now, .answer o) :: h) ((now, .answer o') :: k)

/-- What becomes of a subscription in the history `h`, compared with the history `k`. -/
structure Undisturbed (s : Subscription ℓ) (h k : History ℓ) : Prop where
  /-- The same listeners are called for the same events, in the same order. -/
  calls : s.calls h = s.calls k
  /-- Listeners, backlog, queue, dirty paths and all else are the same. -/
  state : s.after h = s.after k
  /-- What the listener answers that is being called makes a difference only to the log, if it is
  contained. -/
  answer : ∀ now o, o.isContained = true → ∃ notes, (s.after h).reaction o = .ok notes ∧
    (s.after h).step now (.answer o) = ((s.after h).step now (.answer .returned)).after notes
  /-- If it is not, the call that it belongs to fails, and what this call had still to do is
  lost. -/
  fails : ∀ now o why, (s.after h).reaction o = .error why →
    (s.after h).step now (.answer o) =
      { s.after h with tasks := (s.after h).tasks.tail }.fail why
  /-- Whatever is put in next, no failure but such a one leaves the call that it ends. -/
  returns : ∀ now i o, ((s.after h).step now i).turn = .ends o →
    o = .returned ∨
      ∃ answer why, i = .answer answer ∧ (s.after h).reaction answer = .error why ∧
        o = .raised why
  /-- Whatever the listeners answer, the latest call that has not ended ends some time, and leaves
  those that were under way before it. -/
  ends : ∀ t ts, (s.after h).tasks = t :: ts → ∀ answer : Nat → Int × Outcome, ∃ n o,
    let r := (s.after (answering answer n ++ h)).step (answer n).1 (.answer (answer n).2)
    r.turn = .ends o ∧ r.state.tasks = ts

/-- Two runs that are alike are in the same state and have made the same calls. -/
lemma Alike.level (halike : Alike h k) : s.after h = s.after k ∧ s.calls h = s.calls k := by
  induction halike with
  | nil => exact ⟨rfl, rfl⟩
  | same i _ ih =>
      rw [after_cons, after_cons, calls, calls, ih.1, ih.2]
      exact ⟨rfl, rfl⟩
  | answered now ho ho' _ ih =>
      rename_i k _ _ _
      obtain ⟨notes, hnotes⟩ := (s.after k).exists_reaction ho
      obtain ⟨notes', hnotes'⟩ := (s.after k).exists_reaction ho'
      rw [after_cons, after_cons, calls, calls, ih.1, ih.2, step_answer now hnotes,
        step_answer now hnotes']
      exact ⟨rfl, rfl⟩

/-- **Listeners do not disturb each other**, as long as their failures can be put into words. Take
any two runs of a subscription that are alike but for such failures of the listeners.

All listeners are called for the same events in the same order, and the subscription is in the same
state; a failure is logged and does nothing else.  It leaves neither the attaching of a listener nor
a turn of the dispatcher: both return when the listeners have answered.  A failure that cannot be
reported does leave them, and is the only one: it ends the call, and nobody hears what this call had
still to tell. -/
theorem undisturbed_of_alike (s : Subscription ℓ) (halike : Alike h k) : s.Undisturbed h k := by
  obtain ⟨hstate, hcalls⟩ := halike.level (s := s)
  refine ⟨hcalls, hstate, fun now o hcontained => ?_, fun now o why => step_answer_fail now,
    fun now i o hends => ?_, fun _ _ htasks answer => exists_end htasks answer⟩
  · obtain ⟨notes, hnotes⟩ := (s.after h).exists_reaction hcontained
    exact ⟨notes, hnotes, step_answer now hnotes⟩
  · rcases (s.after h).endsWell_step now i with hwell | ⟨answer, why, hi, hreaction, hturn⟩
    · exact Or.inl (hwell o hends)
    · rw [hturn] at hends
      exact Or.inr ⟨answer, why, hi, hreaction, (Turn.ends.inj hends).symm⟩

end Runs

/-- The first listener of changes hears what has waited for it, and while it does a file is touched;
then it hears of that file together with a second listener.  In one run it fails at the first event
and at the last, in the other at the second event only. -/
theorem undisturbed_of_alike_of_two_listeners :
    let why : Outcome := .raised (.plain .value "no")
    let run (o₁ o₂ o₃ : Outcome) : History Nat :=
      [(620, .answer .returned), (610, .answer o₃), (600, .turn), (50, .attach .change 1),
        (40, .answer o₂), (30, .answer o₁), (25, .record "/w/c.py"), (20, .attach .change 0),
        (10, .turn), (0, .turn)]
    let h := run why .returned why
    let k := run .returned why .returned
    ∃ notes s, start Nat workshop ["/w"] { ignoreInitial := false } = (notes, .ok s) ∧
      Alike h k ∧ s.Undisturbed h k ∧
      s.calls h = [⟨0, .change "/w/a.py"⟩, ⟨0, .change "/w/build/b.py"⟩, ⟨0, .change "/w/c.py"⟩,
        ⟨1, .change "/w/c.py"⟩] ∧
      s.calls k = s.calls h ∧ (s.after k).tasks = [] := by
  intro why run h k
  obtain ⟨notes, s, hstart, hcalls, hdone⟩ :
      ∃ notes s, start Nat workshop ["/w"] { ignoreInitial := false } = (notes, .ok s) ∧
        s.calls h = [⟨0, .change "/w/a.py"⟩, ⟨0, .change "/w/build/b.py"⟩,
          ⟨0, .change "/w/c.py"⟩, ⟨1, .change "/w/c.py"⟩] ∧
        (s.after h).tasks = [] :=
    exists_start (by decide +kernel)
  have halike : Alike h k :=
    .same _ <| .answered 610 rfl rfl <| .same _ <| .same _ <| .answered 40 rfl rfl <|
      .answered 30 rfl rfl <| .same _ <| .same _ <| .same _ <| .same _ .nil
  have hundisturbed := undisturbed_of_alike s halike
  refine ⟨notes, s, hstart, halike, hundisturbed, hcalls, hundisturbed.calls.symm, ?_⟩
  rw [← hundisturbed.state]
  exact hdone

/-- **A listener that another one disturbs.** Two listeners wait for changes, and one comes.  In one
run both hear of it and the turn returns; in the other the first fails, the attempt to report it
meets another failure, with which the turn ends, and the second listener hears nothing. -/
theorem wordless_failure_disturbs :
    let worse : Failure := .plain .runtime "no words"
    let mute : Outcome := .raised (.wordless "Mute" worse)
    let before : History Nat :=
      [(5, .turn), (2, .attach .change 1), (1, .attach .change 0)]
    ∃ notes s, start Nat workshop ["/w"] { ignoreInitial := false } = (notes, .ok s) ∧
      s.calls ((7, .answer .returned) :: (6, .answer .returned) :: before) =
        [⟨0, .change "/w/a.py"⟩, ⟨1, .change "/w/a.py"⟩] ∧
      s.calls ((7, .answer .returned) :: (6, .answer mute) :: before) =
        [⟨0, .change "/w/a.py"⟩] ∧
      ((s.after before).step 6 (.answer mute)).turn = .ends (.raised worse) ∧
      (s.after ((6, .answer mute) :: before)).tasks = [] := by
  intro worse mute before
  exact exists_start (by decide +kernel)

end Subscription

end Marginalia.Notifier
