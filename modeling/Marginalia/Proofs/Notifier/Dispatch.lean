import Marginalia.Proofs.Notifier.Step
import Marginalia.Proofs.Path

/-!
# What a dispatcher owes

A subscription owes a change of every dirty path and of every path whose change is queued, and a
dispatcher in the middle of a turn owes the changes that it still has to tell.  This module shows
that no dispatcher forgets what it owes: `Dispatches` describes a result that was reached from a
subscription with one listener for every kind of event, and there is a lemma of this form for each
function that a turn goes through.

`observe_owes` says that a raw event makes the subscription owe a change of its path, and
`ignores_eq_isIgnoredBy` that a subscription for one directory ignores what its patterns find in the
path as seen from there.
-/

namespace Marginalia.Notifier

variable {ℓ : Type}

/-! ## Owing -/

/-- The changes that are to follow. -/
def Sequel.paths : Sequel → List String
  | .collect => []
  | .changes paths => paths

namespace Subscription

/-- A change of the path is to be told: it is dirty, or its change is queued. -/
def Owes (s : Subscription ℓ) (path : String) : Prop :=
  path ∈ s.dirty.map Prod.fst ∨ Event.change path ∈ s.queue

/-- The subscriptions agree on all that listeners, closing and raw events do not change. -/
structure SameSetting (s t : Subscription ℓ) : Prop where
  patterns : t.patterns = s.patterns
  roots : t.roots = s.roots
  home : t.home = s.home
  observes : t.observes = s.observes
  listeners : t.listeners = s.listeners
  closed : t.closed = s.closed

/-- All other fields are free. -/
lemma sameSetting_with (s : Subscription ℓ) (b q : List Event) (d : List (String × Int))
    (ts : List (Task ℓ)) :
    SameSetting s { s with backlog := b, queue := q, dirty := d, tasks := ts } :=
  ⟨rfl, rfl, rfl, rfl, rfl, rfl⟩

lemma SameSetting.trans {s t u : Subscription ℓ} (h : SameSetting s t) (k : SameSetting t u) :
    SameSetting s u :=
  ⟨k.patterns.trans h.patterns, k.roots.trans h.roots, k.home.trans h.home,
    k.observes.trans h.observes, k.listeners.trans h.listeners, k.closed.trans h.closed⟩

/-- The subscription is open, and the listener alone hears the events of every kind. -/
structure HeardBy (s : Subscription ℓ) (listener : ℓ) : Prop where
  isOpen : s.closed = false
  listeners : ∀ kind, s.listenersOf kind = [listener]

lemma SameSetting.heardBy {s t : Subscription ℓ} (h : SameSetting s t) {listener : ℓ}
    (hs : s.HeardBy listener) : t.HeardBy listener where
  isOpen := h.closed.trans hs.isOpen
  listeners kind := by rw [listenersOf, h.listeners, ← listenersOf, hs.listeners]

lemma SameSetting.ignores {s t : Subscription ℓ} (h : SameSetting s t) (path : String) :
    t.ignores path = s.ignores path := by
  simp only [Subscription.ignores, h.patterns, h.roots, h.home]

/-! ## Dispatching -/

/-- The result keeps the setting of `s`, and of the paths that `due` names none is forgotten: when
the call has ended the subscription owes their changes, and when the listener is told an event it is
the change of the path, or one that the rest of the task will tell, or the subscription owes it. -/
structure Dispatches (s : Subscription ℓ) (listener : ℓ) (due : String → Prop) (r : Result ℓ) :
    Prop where
  setting : SameSetting s r.state
  turn :
    (r.turn = .ends .returned ∧ r.state.tasks = s.tasks ∧ ∀ path, due path → r.state.Owes path) ∨
      ∃ e sequel, r.turn = .asks ⟨listener, e⟩ ∧
        r.state.tasks = .telling e [] sequel :: s.tasks ∧
        ∀ path, due path → r.state.Owes path ∨ e = .change path ∨ path ∈ sequel.paths

variable {s : Subscription ℓ} {listener : ℓ}

/-- Fewer paths may be due, before a change of what is dirty or queued. -/
lemma Dispatches.of_imp {t : Subscription ℓ} {due due' : String → Prop} {r : Result ℓ}
    (h : Dispatches t listener due r) (hset : SameSetting s t) (htasks : t.tasks = s.tasks)
    (hdue : ∀ path, due' path → due path) : Dispatches s listener due' r := by
  refine ⟨hset.trans h.setting, ?_⟩
  rw [← htasks]
  rcases h.turn with ⟨hturn, hleft, howes⟩ | ⟨e, sequel, hturn, hleft, howes⟩
  · exact Or.inl ⟨hturn, hleft, fun path hpath => howes path (hdue path hpath)⟩
  · exact Or.inr ⟨e, sequel, hturn, hleft, fun path hpath => howes path (hdue path hpath)⟩

lemma dispatches_tellChanges (h : s.HeardBy listener) (notes : List Note) (paths : List String) :
    Dispatches s listener (fun path => s.Owes path ∨ path ∈ paths)
      (s.tellChanges notes paths) := by
  cases paths with
  | nil =>
      refine ⟨sameSetting_with s _ _ _ _, Or.inl ⟨rfl, rfl, ?_⟩⟩
      rintro path (howes | hmem)
      · exact howes
      · exact absurd hmem List.not_mem_nil
  | cons path rest =>
      have htell : s.tellChanges notes (path :: rest) =
          s.ask notes listener (.change path) (.telling (.change path) [] (.changes rest)) := by
        rw [tellChanges, if_neg (by simp [h.isOpen]), h.listeners]
      rw [htell]
      refine ⟨sameSetting_with s _ _ _ _, Or.inr ⟨.change path, .changes rest, rfl, rfl, ?_⟩⟩
      rintro q (howes | hmem)
      · exact Or.inl howes
      · rcases List.mem_cons.1 hmem with rfl | hmem
        · exact Or.inr (Or.inl rfl)
        · exact Or.inr (Or.inr hmem)

/-- A dirty path is told now or stays dirty. -/
lemma mem_quiet_or_restless (s : Subscription ℓ) (now : Int) {path : String}
    (h : path ∈ s.dirty.map Prod.fst) :
    path ∈ (s.dirty.filter (s.isQuiet now)).map Prod.fst ∨
      path ∈ (s.dirty.filter fun entry => !s.isQuiet now entry).map Prod.fst := by
  obtain ⟨entry, hentry, rfl⟩ := List.mem_map.1 h
  by_cases hquiet : s.isQuiet now entry
  · exact Or.inl (List.mem_map_of_mem (List.mem_filter.2 ⟨hentry, hquiet⟩))
  · exact Or.inr (List.mem_map_of_mem (List.mem_filter.2 ⟨hentry, by simpa using hquiet⟩))

/-- **Collecting** forgets no path that the subscription owes. -/
lemma dispatches_collect (h : s.HeardBy listener) (now : Int) (notes : List Note) :
    Dispatches s listener s.Owes (s.collect now notes) := by
  have hset := sameSetting_with s s.backlog s.queue
    (s.dirty.filter fun entry => !s.isQuiet now entry) s.tasks
  have htell := dispatches_tellChanges (hset.heardBy h) notes
    ((s.dirty.filter (s.isQuiet now)).map Prod.fst)
  have hdue (path : String) (howes : s.Owes path) :
      Owes { s with dirty := s.dirty.filter fun entry => !s.isQuiet now entry } path ∨
        path ∈ (s.dirty.filter (s.isQuiet now)).map Prod.fst := by
    rcases howes with hdirty | hqueue
    · rcases mem_quiet_or_restless s now hdirty with hquiet | hrestless
      · exact Or.inr hquiet
      · exact Or.inl (Or.inl hrestless)
    · exact Or.inl (Or.inr hqueue)
  exact htell.of_imp hset rfl hdue

lemma dispatches_goOn (h : s.HeardBy listener) (now : Int) (notes : List Note)
    (sequel : Sequel) :
    Dispatches s listener (fun path => s.Owes path ∨ path ∈ sequel.paths)
      (s.goOn now notes sequel) := by
  cases sequel with
  | collect =>
      exact (dispatches_collect h now notes).of_imp (sameSetting_with s _ _ _ _) rfl
        fun path hpath => hpath.resolve_right List.not_mem_nil
  | changes paths => exact dispatches_tellChanges h notes paths

/-- **A turn** forgets no path that the subscription owes. -/
lemma dispatches_turn (h : s.HeardBy listener) (now : Int) :
    Dispatches s listener s.Owes (s.turn now) := by
  unfold turn
  rw [if_neg (by simp [h.isOpen])]
  cases hq : s.queue with
  | nil => exact dispatches_collect h _ _
  | cons e queue =>
      have hset := sameSetting_with s s.backlog queue s.dirty s.tasks
      have hlisteners := (hset.heardBy h).listeners e.kind
      simp only [hlisteners]
      refine ⟨sameSetting_with s _ _ _ _, Or.inr ⟨e, .collect, rfl, rfl, ?_⟩⟩
      rintro path (hdirty | hqueue)
      · exact Or.inl (Or.inl hdirty)
      · rw [hq] at hqueue
        rcases List.mem_cons.1 hqueue with he | hqueue
        · exact Or.inr (Or.inl he.symm)
        · exact Or.inl (Or.inr hqueue)

/-- When the listener has heard an event, the task goes on. -/
lemma dispatches_answer (h : s.HeardBy listener) (now : Int) {o : Outcome}
    (hcontained : o.isContained = true) {e : Event} {sequel : Sequel} {ts : List (Task ℓ)}
    (htasks : s.tasks = .telling e [] sequel :: ts) :
    Dispatches { s with tasks := ts } listener (fun path => s.Owes path ∨ path ∈ sequel.paths)
      (s.step now (.answer o)) := by
  have hset := sameSetting_with s s.backlog s.queue s.dirty ts
  obtain ⟨notes, hgoes⟩ :=
    proceed_of_isContained { s with tasks := ts } now hcontained (.telling e [] sequel)
  rw [step_answer_cons htasks, hgoes]
  exact dispatches_goOn (hset.heardBy h) now notes sequel

/-! ## Raw events -/

/-- A raw event changes the dirty paths only. -/
lemma sameSetting_observe (s : Subscription ℓ) (now : Int) (r : Raw) :
    SameSetting s (s.observe now r) ∧ (s.observe now r).tasks = s.tasks := by
  have hself := sameSetting_with s s.backlog s.queue s.dirty s.tasks
  unfold observe record
  split
  · split
    · split
      · exact ⟨hself, rfl⟩
      · exact ⟨sameSetting_with s _ _ _ _, rfl⟩
    · exact ⟨hself, rfl⟩
  · exact ⟨hself, rfl⟩

/-- What is owed stays owed. -/
lemma owes_observe_of_owes (now : Int) (r : Raw) {path : String} (h : s.Owes path) :
    (s.observe now r).Owes path := by
  unfold observe record
  split
  · split
    · split
      · exact h
      · rcases h with hdirty | hqueue
        · exact Or.inl (Entries.mem_map_fst_put.2 (Or.inr hdirty))
        · exact Or.inr hqueue
    · exact h
  · exact h

/-- **A raw event** makes the subscription owe a change of its path. -/
lemma owes_observe (hopen : s.closed = false) (hobserves : s.observes) (now : Int) {r : Raw}
    {path : String} (hr : r.touched? = some path) (hign : s.ignores path = false) :
    (s.observe now r).Owes path := by
  have hobs : s.observe now r = { s with dirty := Entries.put path now s.dirty } := by
    simp [observe, record, hr, hobserves, hopen, hign]
  rw [hobs]
  exact Or.inl (Entries.mem_map_fst_put.2 (Or.inl rfl))

/-! ## Ignored paths -/

/-- A subscription for one directory, which no link leads away from, ignores what its patterns find
in the path as seen from there. -/
lemma ignores_eq_isIgnoredBy {root : String} (hhome : Path.isAbsolute s.home)
    (hroots : s.roots = [Path.absoluteText s.home root]) (hroot : root ≠ "") {path : String}
    (hpath : path ≠ "") :
    s.ignores path = Ignore.isIgnoredBy s.patterns s.home path (some root) := by
  have hplace := Path.insideRoot?_absoluteText hhome hpath root
  have hne := Path.absoluteText_ne_empty hhome root
  simp only [ignores, hroots, List.find?_cons, List.find?_nil, hplace]
  cases hinside : Path.insideRoot? s.home path root with
  | none => simp [Ignore.isIgnoredBy, Ignore.isIgnored, Ignore.visiblePart, hroot, hinside]
  | some way =>
      rw [hinside] at hplace
      simp [Ignore.isIgnoredBy, Ignore.isIgnored, Ignore.visiblePart, hroot, hinside, hne, hplace]

end Subscription

end Marginalia.Notifier
