import Marginalia.Proofs.Tree
import Marginalia.Notifier.Opening

/-!
# A subscription that has just been opened

Opening a subscription leaves the events of three parts in its queue: an error for each directory
that the observer cannot be set on, then what the walks through the directories find, and last that
the observer has begun, or why it has not.  `queue_of_start` says so.  A failure that ends the
opening leaves no subscription, so that the parts may be taken one after the other: `Adds` says of a
part which events it puts into the queue when it does not end the opening.  `Harmless` parts do not
end it, and `exists_start_of_system` is what follows for a subscription.

`IsNew` is the rest of the state of a subscription that has just been opened.
-/

namespace Marginalia.Notifier

/-- The path whose change an event tells. -/
def Event.changed? : Event → Option String
  | .change path => some path
  | _ => none

/-! ## The parts of an opening -/

namespace Opening

/-- Unless the opening has ended, the part puts the events into the queue. -/
def Adds (part : Progress → Progress) (events : List Event) : Prop :=
  ∀ p : Progress, (p.next part).failure = none →
    p.failure = none ∧ (p.next part).queue = p.queue ++ events

/-- A part that does its work only in an opening that goes on. -/
lemma adds_of_forall {part : Progress → Progress} {events : List Event}
    (h : ∀ p : Progress, p.failure = none → (part p).failure = none →
      (part p).queue = p.queue ++ events) : Adds part events := by
  intro p hnext
  have hstill : p.failure = none := by
    by_contra hsome
    have hfail : p.failure.isSome := Option.isSome_iff_ne_none.2 hsome
    rw [Progress.next, if_pos hfail] at hnext
    exact hsome hnext
  have hdoes : p.next part = part p := by
    rw [Progress.next, if_neg (by simp [hstill])]
  rw [hdoes] at hnext ⊢
  exact ⟨hstill, h p hstill hnext⟩

/-- **Parts one after the other** put their events there one after the other. -/
lemma adds_foldl {parts : String → Progress → Progress} {events : String → List Event}
    (h : ∀ path, Adds (parts path) (events path)) (paths : List String) (p : Progress)
    (hend : (paths.foldl (fun p path => p.next (parts path)) p).failure = none) :
    p.failure = none ∧
      (paths.foldl (fun p path => p.next (parts path)) p).queue =
        p.queue ++ paths.flatMap events := by
  induction paths generalizing p with
  | nil => simpa using hend
  | cons path paths ih =>
      obtain ⟨hnext, hqueue⟩ := ih (p.next (parts path)) hend
      obtain ⟨hstill, hadded⟩ := h path p hnext
      refine ⟨hstill, ?_⟩
      rw [List.foldl_cons, hqueue, hadded, List.flatMap_cons, List.append_assoc]

variable (around : Surroundings)

/-- What is told of a directory that the observer cannot be set on. -/
def refused (path : String) : List Event :=
  ((around.refusal? path).map Event.error).toList

/-- What is told at the end of the opening. -/
def beginning : Event :=
  (around.startFailure?.map Event.error).getD .ready

lemma meet_queue {p : Progress} {text : String} {why : Failure}
    (h : (p.meet text why).failure = none) : (p.meet text why).queue = p.queue ++ [.error why] := by
  unfold Progress.meet at h ⊢
  split at h
  · rename_i hsystem
    rw [if_pos hsystem]
  · cases h

lemma adds_schedule (path : String) : Adds (schedule around path) (refused around path) := by
  apply adds_of_forall
  intro p _ hend
  unfold schedule at hend ⊢
  unfold refused
  cases hwhy : around.refusal? path with
  | none => simp
  | some why =>
      rw [hwhy] at hend
      exact meet_queue hend

lemma adds_begin : Adds (begin around) [beginning around] := by
  apply adds_of_forall
  intro p _ hend
  unfold begin at hend ⊢
  unfold beginning
  cases hwhy : around.startFailure? with
  | none => rfl
  | some why =>
      rw [hwhy] at hend
      exact meet_queue hend

variable {ℓ : Type} (s : Subscription ℓ)

/-- What a walk through a directory tells. -/
def walked (path : String) : List Event :=
  ((around.tree path).walk (fun place => !s.ignores place) path).map ofFound

lemma adds_list (path : String) : Adds (list s around path) (walked around s path) := by
  apply adds_of_forall
  intro p _ _
  rfl

lemma changed?_of_mem_refused {path : String} {e : Event} (h : e ∈ refused around path) :
    e.changed? = none := by
  obtain ⟨why, -, rfl⟩ := Option.map_eq_some_iff.1 (Option.mem_toList.1 h)
  rfl

lemma changed?_beginning : (beginning around).changed? = none := by
  unfold beginning
  cases around.startFailure? <;> rfl

/-- A walk tells the files that it finds. -/
lemma changes_walked (path : String) :
    (walked around s path).filterMap Event.changed? =
      ((around.tree path).walk (fun place => !s.ignores place) path).filterMap Found.place? := by
  rw [walked, List.filterMap_map]
  congr 1
  funext found
  cases found <;> rfl

/-- **The queue after an opening** that nothing has ended. -/
lemma queue_perform (hend : (perform s around).failure = none) :
    (perform s around).queue =
      s.paths.flatMap (refused around) ++
        (if s.options.ignoreInitial then [] else s.paths.flatMap (walked around s)) ++
        [beginning around] := by
  unfold perform at hend ⊢
  obtain ⟨hlisted, hqueue⟩ := adds_begin around _ hend
  dsimp only at hlisted hqueue ⊢
  rw [hqueue]
  congr 1
  by_cases hi : s.options.ignoreInitial = true
  · rw [if_pos hi] at hlisted ⊢
    rw [if_pos hi, List.append_nil]
    have hscheduled := adds_foldl (adds_schedule around) s.paths {} hlisted
    rw [hscheduled.2]
    rfl
  · rw [if_neg hi] at hlisted ⊢
    rw [if_neg hi]
    have hwalks := adds_foldl (adds_list around s) s.paths _ hlisted
    have hscheduled := adds_foldl (adds_schedule around) s.paths {} hwalks.1
    rw [hwalks.2, hscheduled.2]
    rfl

/-! ### Openings that are not ended -/

/-- The part does not end an opening. -/
def Harmless (part : Progress → Progress) : Prop :=
  ∀ p : Progress, p.failure = none → (part p).failure = none

lemma Harmless.next {part : Progress → Progress} (h : Harmless part) {p : Progress}
    (hp : p.failure = none) : (p.next part).failure = none := by
  rw [Progress.next, if_neg (by simp [hp])]
  exact h p hp

lemma Harmless.foldl {parts : String → Progress → Progress} {paths : List String}
    (h : ∀ path ∈ paths, Harmless (parts path)) {p : Progress} (hp : p.failure = none) :
    (paths.foldl (fun p path => p.next (parts path)) p).failure = none := by
  induction paths generalizing p with
  | nil => exact hp
  | cons path paths ih =>
      rw [List.forall_mem_cons] at h
      exact ih h.2 (h.1.next hp)

/-- A failure of the system is queued and does no harm. -/
lemma meet_failure {p : Progress} {text : String} {why : Failure} (h : why.isSystem) :
    (p.meet text why).failure = p.failure := by
  rw [Progress.meet, if_pos h]

lemma harmless_schedule {path : String}
    (h : ∀ why, around.refusal? path = some why → why.isSystem) :
    Harmless (schedule around path) := by
  intro p hp
  unfold schedule
  cases hwhy : around.refusal? path with
  | none => exact hp
  | some why => exact (meet_failure (h why hwhy)).trans hp

lemma harmless_begin (h : ∀ why, around.startFailure? = some why → why.isSystem) :
    Harmless (begin around) := by
  intro p hp
  unfold begin
  cases hwhy : around.startFailure? with
  | none => exact hp
  | some why => exact (meet_failure (h why hwhy)).trans hp

/-- **An opening goes through** when all that it meets are failures of the system. -/
lemma failure_perform (hrefusals : ∀ path ∈ s.paths, ∀ why, around.refusal? path = some why →
      why.isSystem) (hbegins : ∀ why, around.startFailure? = some why → why.isSystem) :
    (perform s around).failure = none := by
  have hscheduled : (s.paths.foldl (fun (p : Progress) path => p.next (schedule around path))
      {}).failure = none :=
    Harmless.foldl (fun path hpath => harmless_schedule around (hrefusals path hpath)) rfl
  have hlisting : ∀ path ∈ s.paths, Harmless (list s around path) := fun _ _ _ hp => hp
  unfold perform
  apply (harmless_begin around hbegins).next
  split
  · exact hscheduled
  · exact Harmless.foldl hlisting hscheduled

end Opening

/-! ## The subscription that comes of it -/

namespace Subscription

variable {ℓ : Type}

/-- Nothing has been done with the subscription yet. -/
structure IsNew (s : Subscription ℓ) : Prop where
  listeners : s.listeners = []
  backlog : s.backlog = []
  dirty : s.dirty = []
  closed : s.closed = false
  tasks : s.tasks = []

section

variable [Pattern.Dialect] {around : Surroundings} {paths : List String} {o : Options}
  {notes : List Note} {s : Subscription ℓ}

/-- What a subscription is made with. -/
lemma fields_of_make (h : make ℓ around paths o = .ok s) :
    Ignore.readAll (o.ignored.map .source) = .ok s.patterns ∧
      s.roots = rootsOf around (locate o paths) ∧ s.home = around.home ∧
      s.paths = locate o paths ∧ s.options = o ∧ s.IsNew := by
  unfold make at h
  cases hread : Ignore.readAll (o.ignored.map .source) with
  | error e =>
      rw [hread] at h
      cases h
  | ok patterns =>
      rw [hread] at h
      cases h
      exact ⟨rfl, rfl, rfl, rfl, rfl, ⟨rfl, rfl, rfl, rfl, rfl⟩⟩

/-- A subscription can be made for any directories if its patterns can be read. -/
lemma exists_make {patterns : List Pattern}
    (hread : Ignore.readAll (o.ignored.map .source) = .ok patterns) (paths : List String) :
    ∃ s, make ℓ around paths o = .ok s := by
  unfold make
  rw [hread]
  exact ⟨_, rfl⟩

/-- Nothing is done for a subscription whose patterns cannot be read. -/
lemma start_of_unreadable {e : Pattern.Error}
    (hread : Ignore.readAll (o.ignored.map .source) = .error e) (around : Surroundings)
    (paths : List String) : start ℓ around paths o = ([], .error (.pattern e)) := by
  unfold start make
  rw [hread]
  rfl

/-- A subscription that was opened is one that was made, with the events of the opening. -/
lemma made_of_start (h : start ℓ around paths o = (notes, .ok s)) :
    ∃ made : Subscription ℓ, make ℓ around paths o = .ok made ∧
      (Opening.perform made around).failure = none ∧
      s = { made with queue := (Opening.perform made around).queue } := by
  unfold start at h
  cases hmake : make ℓ around paths o with
  | error e =>
      rw [hmake] at h
      cases h
  | ok made =>
      rw [hmake] at h
      dsimp only at h
      split at h
      · cases h
      · rename_i hend
        cases h
        exact ⟨made, rfl, hend, rfl⟩

/-- **A subscription opens** when its patterns can be read and all that the opening meets are
failures of the system. -/
lemma exists_start_of_system {patterns : List Pattern}
    (hread : Ignore.readAll (o.ignored.map .source) = .ok patterns)
    (hrefusals : ∀ path ∈ locate o paths, ∀ why, around.refusal? path = some why → why.isSystem)
    (hbegins : ∀ why, around.startFailure? = some why → why.isSystem) :
    ∃ notes s, start ℓ around paths o = (notes, .ok s) := by
  obtain ⟨made, hmade⟩ := exists_make hread paths
  obtain ⟨-, -, -, hpaths, -, -⟩ := fields_of_make hmade
  have hend : (Opening.perform made around).failure = none :=
    Opening.failure_perform around made (hpaths ▸ hrefusals) hbegins
  unfold start
  rw [hmade]
  dsimp only
  rw [hend]
  exact ⟨_, _, rfl⟩

/-- What a subscription is opened with. -/
lemma fields_of_start (h : start ℓ around paths o = (notes, .ok s)) :
    Ignore.readAll (o.ignored.map .source) = .ok s.patterns ∧
      s.roots = rootsOf around (locate o paths) ∧ s.home = around.home ∧ s.dirty = [] ∧
      s.closed = false := by
  obtain ⟨made, hmake, -, rfl⟩ := made_of_start h
  obtain ⟨hread, hroots, hhome, -, -, hnew⟩ := fields_of_make hmake
  exact ⟨hread, hroots, hhome, hnew.dirty, hnew.closed⟩

lemma isNew_of_start (h : start ℓ around paths o = (notes, .ok s)) : s.IsNew := by
  obtain ⟨made, hmake, -, rfl⟩ := made_of_start h
  obtain ⟨-, -, -, -, -, hnew⟩ := fields_of_make hmake
  exact ⟨hnew.listeners, hnew.backlog, hnew.dirty, hnew.closed, hnew.tasks⟩

lemma paths_of_start (h : start ℓ around paths o = (notes, .ok s)) :
    s.paths = locate o paths := by
  obtain ⟨made, hmake, -, rfl⟩ := made_of_start h
  obtain ⟨-, -, -, hpaths, -, -⟩ := fields_of_make hmake
  exact hpaths

/-- **The queue of a subscription** that has just been opened. -/
theorem queue_of_start (h : start ℓ around paths o = (notes, .ok s)) :
    s.queue =
      s.paths.flatMap (Opening.refused around) ++
        (if o.ignoreInitial then [] else s.paths.flatMap (Opening.walked around s)) ++
        [Opening.beginning around] := by
  obtain ⟨made, hmake, hend, rfl⟩ := made_of_start h
  obtain ⟨-, -, -, -, hoptions, -⟩ := fields_of_make hmake
  have hqueue := Opening.queue_perform around made hend
  rw [hoptions] at hqueue
  exact hqueue

/-- The changes that are queued are those that the walks tell. -/
lemma changes_queue_of_start (h : start ℓ around paths o = (notes, .ok s)) :
    s.queue.filterMap Event.changed? =
      if o.ignoreInitial then []
      else s.paths.flatMap fun path => (Opening.walked around s path).filterMap Event.changed? := by
  have hrefused : (s.paths.flatMap (Opening.refused around)).filterMap Event.changed? = [] := by
    rw [List.filterMap_eq_nil_iff]
    intro e he
    obtain ⟨path, -, he⟩ := List.mem_flatMap.1 he
    exact Opening.changed?_of_mem_refused around he
  have hbeginning : [Opening.beginning around].filterMap Event.changed? = [] := by
    simp [Opening.changed?_beginning]
  rw [queue_of_start h, List.filterMap_append, List.filterMap_append, hrefused, hbeginning,
    List.nil_append, List.append_nil]
  split
  · rfl
  · exact List.filterMap_flatMap ..

/-- Unless the files that are there are to be left alone, the changes are what the walks find. -/
lemma changes_queue_of_start_of_walks (h : start ℓ around paths o = (notes, .ok s))
    (hinitial : o.ignoreInitial = false) :
    s.queue.filterMap Event.changed? = s.paths.flatMap fun path =>
      ((around.tree path).walk (fun place => !s.ignores place) path).filterMap Found.place? := by
  rw [changes_queue_of_start h, hinitial, if_neg Bool.false_ne_true]
  simp only [Opening.changes_walked]

/-- Where an opening leads to can be computed. -/
lemma exists_start {p : Subscription ℓ → Prop} [DecidablePred p]
    (h : (match (start ℓ around paths o).2 with
      | .ok s => decide (p s)
      | .error _ => false) = true) :
    ∃ notes s, start ℓ around paths o = (notes, .ok s) ∧ p s := by
  cases hstart : start ℓ around paths o with
  | mk notes result =>
      rw [hstart] at h
      cases result with
      | error why => cases h
      | ok s => exact ⟨notes, s, rfl, of_decide_eq_true h⟩

end

/-- An example: the directory `/w` holds a file, and a directory `build` with a file. -/
def workshop : Surroundings where
  home := "/w"
  realPath path := path
  tree _ := .listed ["a.py"] [("build", .listed ["b.py"] [])]

lemma proper_workshop : (workshop.tree "/w").Proper := by
  have hbuild : (Tree.listed ["b.py"] []).Proper := by
    refine .listed (by decide) (by decide) ?_
    intro name t hmem
    exact absurd hmem List.not_mem_nil
  refine .listed (by decide) (by decide) ?_
  intro name t hmem
  obtain ⟨-, rfl⟩ := Prod.mk.inj (List.mem_singleton.1 hmem)
  exact hbuild

end Subscription

end Marginalia.Notifier
