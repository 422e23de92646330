import Marginalia.Notifier.Subscription
import Marginalia.Proofs.Pending

/-!
# One step of a subscription

What a step of a subscription leaves alone, whoever listens to it.  A step changes the listeners,
the backlog, the queue, the dirty paths and the tasks; it records a path, or closes the
subscription.  `Kept.step` says that a relation which all this keeps is kept by every step, and
`Kept.run` that it is kept by a run.

`proceed_cases` says what an answer does to a task: the task is gone on with if the answer is
contained, and else it is given up and the call fails.

`GoesOn s t` says that `t` has the roots and the patterns of `s`, and that what has become dirty
since is not ignored.  It follows that nothing ignored is ever dirty, `ignores_of_dirty`.  `Lasts s
t` says that `t` has the options and the observer of `s` and is not open if `s` is closed.
-/

namespace Marginalia.Notifier.Subscription

variable {ℓ : Type}

/-! ## Answers -/

/-- Complaints are made about answers that are contained, and about no others. -/
lemma complaints_cases (kind : EventKind) (o : Outcome) :
    (o.isContained = true ∧ ∃ notes, complaints kind o = .ok notes) ∨
      (o.isContained = false ∧ ∃ why, complaints kind o = .error why) := by
  unfold Outcome.isContained complaints
  cases o.failure? with
  | none => exact Or.inl ⟨rfl, [], rfl⟩
  | some why =>
      dsimp only [Option.all_some]
      cases why.report with
      | ok report => exact Or.inl ⟨rfl, [complaint kind report], rfl⟩
      | error worse => exact Or.inr ⟨rfl, worse, rfl⟩

/-- **An answer** lets a task go on, or makes the call fail that the task belongs to. -/
lemma proceed_cases (s : Subscription ℓ) (now : Int) (o : Outcome) (t : Task ℓ) :
    (o.isContained = true ∧ ∃ notes, s.proceed now o t = s.resume now notes t) ∨
      (o.isContained = false ∧ ∃ why, s.proceed now o t = s.fail why) := by
  unfold proceed
  rcases complaints_cases t.kind o with ⟨hcontained, notes, hnotes⟩ | ⟨hfails, why, hwhy⟩
  · exact Or.inl ⟨hcontained, notes, by rw [hnotes]⟩
  · exact Or.inr ⟨hfails, why, by rw [hwhy]⟩

lemma proceed_of_isContained (s : Subscription ℓ) (now : Int) {o : Outcome}
    (h : o.isContained = true) (t : Task ℓ) :
    ∃ notes, s.proceed now o t = s.resume now notes t := by
  rcases s.proceed_cases now o t with ⟨-, hgoes⟩ | ⟨hfails, -⟩
  · exact hgoes
  · rw [h] at hfails
    cases hfails

lemma step_answer_cons {s : Subscription ℓ} {t : Task ℓ} {ts : List (Task ℓ)}
    (htasks : s.tasks = t :: ts) (now : Int) (o : Outcome) :
    s.step now (.answer o) = { s with tasks := ts }.proceed now o t := by
  simp only [step, htasks]

/-! ## What all steps keep -/

/-- Whatever a subscription does by the way keeps the relation. -/
structure Kept (R : Subscription ℓ → Subscription ℓ → Prop) : Prop where
  refl : ∀ s, R s s
  trans : ∀ {s t u}, R s t → R t u → R s u
  /-- Fewer paths may be dirty, and what concerns listeners is free. -/
  change : ∀ s listeners backlog queue dirty tasks, dirty ⊆ s.dirty →
    R s { s with listeners, backlog, queue, dirty, tasks }
  record : ∀ s now path, R s (s.record now path)
  close : ∀ s, R s s.close.1

namespace Kept

variable {R : Subscription ℓ → Subscription ℓ → Prop} (h : Kept R) (s : Subscription ℓ)

include h

/-- The dirty paths stay. -/
lemma free (listeners : List (EventKind × ℓ)) (backlog queue : List Event)
    (tasks : List (Task ℓ)) : R s { s with listeners, backlog, queue, tasks } :=
  h.change s listeners backlog queue s.dirty tasks (List.Subset.refl _)

lemma ask (notes : List Note) (listener : ℓ) (e : Event) (t : Task ℓ) :
    R s (s.ask notes listener e t).state :=
  h.free s s.listeners s.backlog s.queue (t :: s.tasks)

lemma observe (now : Int) (r : Raw) : R s (s.observe now r) := by
  unfold Subscription.observe
  split
  · split
    · exact h.record s now _
    · exact h.refl s
  · exact h.refl s

lemma tellChanges (notes : List Note) (paths : List String) :
    R s (s.tellChanges notes paths).state := by
  induction paths generalizing s with
  | nil => exact h.refl s
  | cons path rest ih =>
      rw [Subscription.tellChanges]
      split
      · exact h.refl s
      · split
        · have hlaid := h.free s s.listeners (s.backlog ++ [Event.change path]) s.queue s.tasks
          exact h.trans hlaid (ih _)
        · exact h.ask s _ _ _ _

lemma collect (now : Int) (notes : List Note) : R s (s.collect now notes).state := by
  have hcleaned := h.change s s.listeners s.backlog s.queue
    (s.dirty.filter fun entry => !s.isQuiet now entry) s.tasks List.filter_sublist.subset
  exact h.trans hcleaned (h.tellChanges _ _ _)

lemma goOn (now : Int) (notes : List Note) (sequel : Sequel) :
    R s (s.goOn now notes sequel).state := by
  cases sequel with
  | collect => exact h.collect s now notes
  | changes paths => exact h.tellChanges s notes paths

lemma turn (now : Int) : R s (s.turn now).state := by
  unfold Subscription.turn
  split
  · exact h.refl s
  · split
    · exact h.collect s _ _
    · rename_i e queue hqueue
      dsimp only
      split
      · have hlaid := h.free s s.listeners (s.backlog ++ [e]) queue s.tasks
        exact h.trans hlaid (h.collect _ now [])
      · have htaken := h.free s s.listeners s.backlog queue s.tasks
        exact h.trans htaken (h.ask _ _ _ _ _)

lemma replay (notes : List Note) (listener : ℓ) (kind : EventKind) (events : List Event) :
    R s (s.replay notes listener kind events).state := by
  cases events with
  | nil => exact h.refl s
  | cons e rest =>
      rw [Subscription.replay]
      split
      · exact h.refl s
      · exact h.ask s _ _ _ _

lemma attach (kind : EventKind) (listener : ℓ) : R s (s.attach kind listener).state := by
  have hattached := h.free s (s.listeners ++ [(kind, listener)])
    (s.backlog.partition (·.kind = kind)).2 s.queue s.tasks
  exact h.trans hattached (h.replay _ _ _ _ _)

lemma resume (now : Int) (notes : List Note) (t : Task ℓ) : R s (s.resume now notes t).state := by
  cases t with
  | replaying listener kind rest => exact h.replay s _ _ _ _
  | telling e listeners sequel =>
      cases listeners with
      | nil => exact h.goOn s _ _ _
      | cons listener others => exact h.ask s _ _ _ _

lemma proceed (now : Int) (o : Outcome) (t : Task ℓ) : R s (s.proceed now o t).state := by
  rcases s.proceed_cases now o t with ⟨-, notes, hgoes⟩ | ⟨-, why, hfails⟩
  · rw [hgoes]
    exact h.resume s now notes t
  · rw [hfails]
    exact h.refl s

/-- **A step** keeps the relation. -/
theorem step (now : Int) (i : Input ℓ) : R s (s.step now i).state := by
  cases i with
  | attach kind listener => exact h.attach s kind listener
  | close => exact h.close s
  | record path => exact h.record s now path
  | raw r => exact h.observe s now r
  | turn => exact h.turn s now
  | answer o =>
      simp only [Subscription.step]
      split
      · exact h.refl s
      · rename_i t rest htasks
        have htaken := h.free s s.listeners s.backlog s.queue rest
        exact h.trans htaken (h.proceed _ now o t)

/-- **A run** keeps it, too. -/
theorem run (inputs : List (Int × Input ℓ)) : R s (s.run inputs) := by
  induction inputs generalizing s with
  | nil => exact h.refl s
  | cons i inputs ih => exact h.trans (h.step s i.1 i.2) (ih (s.step i.1 i.2).state)

end Kept

/-! ## Roots, patterns and dirty paths -/

/-- The subscription `t` was reached from `s`: it ignores the same paths, and those that have become
dirty are not among them. -/
structure GoesOn (s t : Subscription ℓ) : Prop where
  roots : t.roots = s.roots
  patterns : t.patterns = s.patterns
  home : t.home = s.home
  dirty : ∀ path ∈ t.dirty.map Prod.fst, path ∈ s.dirty.map Prod.fst ∨ s.ignores path = false

namespace GoesOn

variable {s t u : Subscription ℓ}

lemma ignores (h : GoesOn s t) (path : String) : t.ignores path = s.ignores path := by
  simp only [Subscription.ignores, h.roots, h.patterns, h.home]

lemma refl (s : Subscription ℓ) : GoesOn s s :=
  ⟨rfl, rfl, rfl, fun _ => Or.inl⟩

lemma trans (h : GoesOn s t) (k : GoesOn t u) : GoesOn s u where
  roots := k.roots.trans h.roots
  patterns := k.patterns.trans h.patterns
  home := k.home.trans h.home
  dirty path hpath := by
    rcases k.dirty path hpath with hdirty | hkept
    · exact h.dirty path hdirty
    · rw [h.ignores] at hkept
      exact Or.inr hkept

end GoesOn

variable (s : Subscription ℓ)

/-- A path that is recorded becomes dirty unless it is ignored. -/
lemma goesOn_record (now : Int) (path : String) : GoesOn s (s.record now path) := by
  unfold record
  split
  · exact .refl s
  · rename_i h
    have hkept : s.ignores path = false := by
      rw [Bool.or_eq_true, not_or] at h
      exact Bool.eq_false_iff.2 h.2
    refine ⟨rfl, rfl, rfl, fun other hother => ?_⟩
    rcases Entries.mem_map_fst_put.1 hother with rfl | hdirty
    · exact Or.inr hkept
    · exact Or.inl hdirty

lemma kept_goesOn : Kept (GoesOn (ℓ := ℓ)) where
  refl := .refl
  trans := .trans
  change _ _ _ _ _ _ h := ⟨rfl, rfl, rfl, fun _ hpath => Or.inl (List.map_subset _ h hpath)⟩
  record := goesOn_record
  close s := by
    unfold close
    split
    · exact .refl s
    · exact ⟨rfl, rfl, rfl, fun _ hpath => absurd hpath List.not_mem_nil⟩

/-- **A run** changes neither the roots nor the patterns, and makes no ignored path dirty. -/
theorem goesOn_run (inputs : List (Int × Input ℓ)) : GoesOn s (s.run inputs) :=
  kept_goesOn.run s inputs

/-- **Nothing ignored is dirty** in a subscription that began with nothing dirty. -/
lemma ignores_of_dirty {s t : Subscription ℓ} (hclean : s.dirty = []) (h : GoesOn s t)
    {path : String} (hpath : path ∈ t.dirty.map Prod.fst) : t.ignores path = false := by
  have hnone : path ∉ s.dirty.map Prod.fst := by
    rw [hclean]
    exact List.not_mem_nil
  rw [h.ignores]
  exact (h.dirty path hpath).resolve_left hnone

/-- **A path is accepted** unless it is ignored or the subscription is closed. -/
theorem mem_dirty_record_iff {s t : Subscription ℓ} (hclean : s.dirty = []) (h : GoesOn s t)
    (hopen : t.closed = false) (now : Int) (path : String) :
    path ∈ (t.record now path).dirty.map Prod.fst ↔ s.ignores path = false := by
  rw [← h.ignores]
  constructor
  · intro hpath
    have hafter := h.trans (goesOn_record t now path)
    rw [← ignores_of_dirty hclean hafter hpath]
    exact ((goesOn_record t now path).ignores path).symm
  · intro hkept
    have hrecord : t.record now path = { t with dirty := Entries.put path now t.dirty } := by
      rw [record, hopen, hkept]
      rfl
    rw [hrecord]
    exact Entries.mem_map_fst_put.2 (Or.inl rfl)

/-! ## Options and the end -/

/-- The subscription `t` was reached from `s`: it has the same options and the same observer, and a
closed one stays closed. -/
structure Lasts (s t : Subscription ℓ) : Prop where
  options : t.options = s.options
  observes : t.observes = s.observes
  closed : s.closed = true → t.closed = true

lemma kept_lasts : Kept (Lasts (ℓ := ℓ)) where
  refl _ := ⟨rfl, rfl, id⟩
  trans h k := ⟨k.options.trans h.options, k.observes.trans h.observes,
    fun hs => k.closed (h.closed hs)⟩
  change _ _ _ _ _ _ _ := ⟨rfl, rfl, id⟩
  record s now path := by
    unfold record
    split
    · exact ⟨rfl, rfl, id⟩
    · exact ⟨rfl, rfl, id⟩
  close s := by
    unfold close
    split
    · exact ⟨rfl, rfl, id⟩
    · exact ⟨rfl, rfl, fun _ => rfl⟩

end Marginalia.Notifier.Subscription
