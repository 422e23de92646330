import Marginalia.Proofs.Notifier.Chronicle

/-!
# Delivering events

A listener is called for one event at a time, and while it is being called the tasks of the
subscription keep what has still to be heard.  `owed` reads the calls that are still to be made off
the tasks, and `due` are those that an input gives rise to: who is attached first is to hear what
has waited, and an event that is emitted is to be heard by all who listen.

The main result is `serves_step`: whatever a step does, the call that it makes and the calls that
are owed after it are those that were owed before and those that are due, in this order, and nothing
that somebody listens to is laid aside.  But the calls of a task are no longer owed when a listener
fails in a way that cannot be reported: the task is not among the `lasting` ones.  `InOrder` is the
invariant that this rests on.
-/

namespace Marginalia.Notifier

variable {ℓ : Type}

namespace Subscription

/-! ## Calls that are owed -/

/-- The calls that a task has still to make. -/
def owedBy : Task ℓ → List (Telling ℓ)
  | .replaying listener _ rest => rest.map fun e => ⟨listener, e⟩
  | .telling e rest _ => rest.map fun listener => ⟨listener, e⟩

/-- The calls about one kind of event. -/
def about (kind : EventKind) (calls : List (Telling ℓ)) : List (Telling ℓ) :=
  calls.filter (·.event.kind = kind)

/-- The calls about a kind that some tasks have still to make, in order. -/
def owed (kind : EventKind) (tasks : List (Task ℓ)) : List (Telling ℓ) :=
  about kind (tasks.flatMap owedBy)

/-- The events of a kind. -/
def ofKind (kind : EventKind) (events : List Event) : List Event :=
  events.filter (·.kind = kind)

lemma owed_sublist (kind : EventKind) {ts us : List (Task ℓ)} (h : ts.Sublist us) :
    (owed kind ts).Sublist (owed kind us) :=
  (h.flatMap owedBy).filter _

/-- The calls that some events lead to: each event is heard by all listeners of its kind. -/
def heardBy (listeners : List ℓ) (events : List Event) : List (Telling ℓ) :=
  events.flatMap fun e => listeners.map fun listener => ⟨listener, e⟩

section Lists

variable {kind : EventKind}

lemma about_append (cs ds : List (Telling ℓ)) :
    about kind (cs ++ ds) = about kind cs ++ about kind ds :=
  List.filter_append ..

/-- What one listener hears of events of one kind. -/
lemma about_replayed {events : List Event} {k : EventKind} (h : ∀ e ∈ events, e.kind = k)
    (listener : ℓ) :
    about kind (events.map fun e => ⟨listener, e⟩) =
      if k = kind then events.map fun e => ⟨listener, e⟩ else [] := by
  unfold about
  split
  · rename_i hkind
    refine List.filter_eq_self.2 fun call hcall => ?_
    obtain ⟨e, he, rfl⟩ := List.mem_map.1 hcall
    simp [h e he, hkind]
  · rename_i hkind
    refine List.filter_eq_nil_iff.2 fun call hcall => ?_
    obtain ⟨e, he, rfl⟩ := List.mem_map.1 hcall
    simp [h e he, hkind]

/-- What some listeners hear of one event. -/
lemma about_told (e : Event) (listeners : List ℓ) :
    about kind (listeners.map fun listener => ⟨listener, e⟩) =
      if e.kind = kind then listeners.map fun listener => ⟨listener, e⟩ else [] := by
  unfold about
  split
  · rename_i hkind
    refine List.filter_eq_self.2 fun call hcall => ?_
    obtain ⟨listener, -, rfl⟩ := List.mem_map.1 hcall
    simp [hkind]
  · rename_i hkind
    refine List.filter_eq_nil_iff.2 fun call hcall => ?_
    obtain ⟨listener, -, rfl⟩ := List.mem_map.1 hcall
    simp [hkind]

lemma heardBy_nil (events : List Event) : heardBy ([] : List ℓ) events = [] := by
  simp [heardBy]

/-- What is heard by one listener. -/
lemma heardBy_singleton (listener : ℓ) (events : List Event) :
    heardBy [listener] events = events.map fun e => ⟨listener, e⟩ :=
  List.map_eq_flatMap.symm

lemma heardBy_append (listeners : List ℓ) (events more : List Event) :
    heardBy listeners (events ++ more) = heardBy listeners events ++ heardBy listeners more :=
  List.flatMap_append

end Lists

/-! ## A subscription in order -/

/-- The change that a turn has begun to tell was begun before all else. -/
def Stacked : List (Task ℓ) → Prop
  | [] => True
  | .replaying .. :: ts => Stacked ts
  | .telling .. :: ts => ts = []

/-- Nothing waits for somebody who listens already, and nothing is owed where nobody listens. -/
structure InOrder (s : Subscription ℓ) : Prop where
  heard : ∀ kind, s.listenersOf kind ≠ [] → ofKind kind s.backlog = []
  unheard : ∀ kind, s.listenersOf kind = [] → owed kind s.tasks = []
  stacked : Stacked s.tasks

lemma IsNew.inOrder {s : Subscription ℓ} (h : s.IsNew) : s.InOrder where
  heard _ _ := by
    rw [h.backlog]
    rfl
  unheard _ _ := by
    rw [h.tasks]
    rfl
  stacked := by
    rw [h.tasks]
    exact trivial

/-- The listeners of a kind that are attached by an input. -/
def attachedBy (kind : EventKind) (i : Input ℓ) : List ℓ :=
  (i.attachment?.toList.filter (·.1 = kind)).map Prod.snd

/-- The calls about a kind that an input makes due.  Who is attached as the first listener of the
kind is to hear what waited; an event that is emitted is to be heard by all who listen. -/
def due (s : Subscription ℓ) (kind : EventKind) (now : Int) (i : Input ℓ) : List (Telling ℓ) :=
  if (s.listenersOf kind).isEmpty then heardBy (attachedBy kind i) (ofKind kind s.backlog)
  else heardBy (s.listenersOf kind) (ofKind kind (s.emits now i))

/-- The tasks that outlast the input: an answer that is not contained ends the latest one. -/
def lasting (s : Subscription ℓ) (i : Input ℓ) : List (Task ℓ) :=
  if i.isContained then s.tasks else s.tasks.tail

/-- How a step with the result `r` does what is due.  The call that is made and those that are then
owed are those that the lasting tasks owed and those that are due, and the first that is due is made
at once; who is attached listens; and what nobody listens to waits. -/
structure Serves (s : Subscription ℓ) (now : Int) (i : Input ℓ) (r : Result ℓ) : Prop where
  inOrder : r.state.InOrder
  queue : s.queue = (s.dequeued? i).toList ++ r.state.queue
  calls : ∀ kind, about kind (askedBy r.turn).toList ++ owed kind r.state.tasks =
    owed kind (s.lasting i) ++ s.due kind now i
  prompt : ∀ kind, s.due kind now i ≠ [] → about kind (askedBy r.turn).toList ≠ []
  listeners : ∀ kind, r.state.listenersOf kind = s.listenersOf kind ++ attachedBy kind i
  waits : ∀ kind, r.state.listenersOf kind = [] →
    ofKind kind r.state.backlog = ofKind kind s.backlog ++ ofKind kind (s.emits now i)

/-! ### Emitting -/

section Emitting

variable {s : Subscription ℓ} {kind : EventKind} {events : List Event} {sequel : Sequel}
  {r : Result ℓ}

/-- Among events that nobody listens to there is none that somebody listens to. -/
lemma ofKind_unheard {laid : List Event} (h : ∀ e ∈ laid, s.listenersOf e.kind = [])
    (hsome : s.listenersOf kind ≠ []) : ofKind kind laid = [] := by
  refine List.filter_eq_nil_iff.2 fun e he hkind => hsome ?_
  rw [← of_decide_eq_true hkind]
  exact h e he

lemma heardBy_unheard {laid : List Event} (h : ∀ e ∈ laid, s.listenersOf e.kind = []) :
    heardBy (s.listenersOf kind) (ofKind kind laid) = [] := by
  by_cases hsome : s.listenersOf kind = []
  · rw [hsome, heardBy_nil]
  · rw [ofKind_unheard h hsome]
    rfl

lemma ofKind_singleton (e : Event) : ofKind kind [e] = if e.kind = kind then [e] else [] := by
  by_cases hkind : e.kind = kind <;> simp [ofKind, hkind]

lemma ofKind_append (events more : List Event) :
    ofKind kind (events ++ more) = ofKind kind events ++ ofKind kind more :=
  List.filter_append ..

/-- **The calls** that are made and owed when events have been emitted. -/
lemma Emits.calls (h : Emits s events sequel r) (htasks : s.tasks = []) :
    about kind (askedBy r.turn).toList ++ owed kind r.state.tasks =
      heardBy (s.listenersOf kind) (ofKind kind events) := by
  rcases h.turn with ⟨hturn, hleft, -, hnone, -⟩ |
    ⟨laid, e, listener, others, hevents, hnone, hfirst, hturn, hleft, -⟩
  · rw [hturn, hleft, htasks, heardBy_unheard hnone]
    rfl
  · have htold : [⟨listener, e⟩] ++ [Task.telling e others sequel].flatMap owedBy =
        (s.listenersOf e.kind).map fun l => (⟨l, e⟩ : Telling ℓ) := by
      rw [hfirst]
      simp [owedBy]
    have hcalls : about kind (askedBy r.turn).toList ++ owed kind r.state.tasks =
        about kind ((s.listenersOf e.kind).map fun l => ⟨l, e⟩) := by
      rw [hturn, hleft, htasks, owed, ← about_append, ← htold]
      rfl
    rw [hcalls, about_told, hevents, ofKind_append, heardBy_append, heardBy_unheard hnone,
      List.nil_append, ofKind_singleton]
    by_cases hkind : e.kind = kind
    · rw [if_pos hkind, if_pos hkind, heardBy, List.flatMap_singleton, hkind]
    · rw [if_neg hkind, if_neg hkind]
      rfl

/-- The first call is made at once. -/
lemma Emits.prompt (h : Emits s events sequel r)
    (hsome : heardBy (s.listenersOf kind) (ofKind kind events) ≠ []) :
    about kind (askedBy r.turn).toList ≠ [] := by
  rcases h.turn with ⟨-, -, -, hnone, -⟩ |
    ⟨laid, e, listener, others, hevents, hnone, -, hturn, -, -⟩
  · exact absurd (heardBy_unheard hnone) hsome
  · have hkind : e.kind = kind := by
      by_contra hkind
      rw [hevents, ofKind_append, heardBy_append, heardBy_unheard hnone, ofKind_singleton,
        if_neg hkind] at hsome
      exact hsome rfl
    rw [hturn]
    simp [askedBy, about, hkind]

/-- What somebody listens to is not laid aside. -/
lemma Emits.backlog_of_heard (h : Emits s events sequel r) (hsome : s.listenersOf kind ≠ []) :
    ofKind kind r.state.backlog = ofKind kind s.backlog := by
  rcases h.turn with ⟨-, -, hwaits, hnone, -⟩ | ⟨_, _, _, _, -, hnone, -, -, -, hwaits⟩
  · rw [hwaits, ofKind_append, ofKind_unheard hnone hsome, List.append_nil]
  · rw [hwaits, ofKind_append, ofKind_unheard hnone hsome, List.append_nil]

/-- What nobody listens to is laid aside, all of it. -/
lemma Emits.backlog_of_unheard (h : Emits s events sequel r) (hnone : s.listenersOf kind = []) :
    ofKind kind r.state.backlog = ofKind kind s.backlog ++ ofKind kind events := by
  rcases h.turn with ⟨-, -, hwaits, -, -⟩ |
    ⟨laid, e, listener, others, hevents, -, hfirst, -, -, hwaits⟩
  · rw [hwaits, ofKind_append]
  · have hother : ¬ e.kind = kind := by
      intro hkind
      rw [hkind, hnone] at hfirst
      cases hfirst
    rw [hwaits, hevents, ofKind_append, ofKind_append, ofKind_singleton, if_neg hother,
      List.append_nil]

lemma Emits.stacked (h : Emits s events sequel r) (htasks : s.tasks = []) :
    Stacked r.state.tasks := by
  rcases h.turn with ⟨-, hleft, -, -, -⟩ | ⟨_, _, _, _, -, -, -, -, hleft, -⟩
  · rw [hleft, htasks]
    exact trivial
  · rw [hleft, htasks]
    rfl

end Emitting

/-! ### One step -/

section Serving

variable {s : Subscription ℓ} {now : Int} {i : Input ℓ} {r : Result ℓ}

lemma attachedBy_of_none (kind : EventKind) (h : i.attachment? = none) :
    attachedBy kind i = [] := by
  simp [attachedBy, h]

/-- Where nobody is attached only the events that are emitted are to be heard. -/
lemma due_of_none (kind : EventKind) (h : i.attachment? = none) :
    s.due kind now i = heardBy (s.listenersOf kind) (ofKind kind (s.emits now i)) := by
  rw [due, attachedBy_of_none kind h]
  split
  · rename_i hnone
    rw [List.isEmpty_iff.1 hnone, heardBy_nil, heardBy_nil]
  · rfl

lemma lasting_of_isContained (h : i.isContained = true) : s.lasting i = s.tasks := by
  rw [lasting, if_pos h]

/-- What outlasts an input is part of what was there. -/
lemma lasting_sublist (s : Subscription ℓ) (i : Input ℓ) : (s.lasting i).Sublist s.tasks := by
  unfold lasting
  split
  · exact List.Sublist.refl _
  · exact List.tail_sublist _

/-- Taking up a task makes the first call that it owes. -/
lemma Resumes.calls {contained : Bool} {ts us : List (Task ℓ)} {call : Option (Telling ℓ)}
    (h : Resumes contained ts call us) :
    call.toList ++ us.flatMap owedBy = (if contained then ts else ts.tail).flatMap owedBy := by
  cases h <;> simp [owedBy]

lemma Stacked.tail {ts : List (Task ℓ)} (h : Stacked ts) : Stacked ts.tail := by
  match ts with
  | [] => exact trivial
  | .replaying .. :: _ => exact h
  | .telling .. :: ts =>
      have hlast : ts = [] := h
      rw [List.tail_cons, hlast]
      exact trivial

lemma Resumes.stacked {contained : Bool} {ts us : List (Task ℓ)} {call : Option (Telling ℓ)}
    (h : Resumes contained ts call us) (hts : Stacked ts) : Stacked us := by
  cases h with
  | givenUp => exact hts.tail
  | _ => exact hts

/-- A silent step may make a call that was owed. -/
lemma serves_of_silent (hs : s.InOrder) (h : Silent s now i r) : Serves s now i r := by
  have hnothing : s.emits now i = [] :=
    emits_eq_nil h.dequeued (by simp [agenda, h.remaining, picked, h.looks])
  have hsame (kind : EventKind) : r.state.listenersOf kind = s.listenersOf kind := by
    rw [h.state]
    rfl
  have hbacklog : r.state.backlog = s.backlog := by
    rw [h.state]
  have hkinds (kind : EventKind) :
      about kind (askedBy r.turn).toList ++ owed kind r.state.tasks =
        owed kind (s.lasting i) := by
    rw [owed, owed, ← about_append, h.tasks.calls, lasting]
  have hdue (kind : EventKind) : s.due kind now i = [] := by
    rw [due_of_none kind h.attachment, hnothing]
    rfl
  constructor
  · constructor
    · intro kind hsome
      rw [hsame] at hsome
      rw [hbacklog]
      exact hs.heard kind hsome
    · intro kind hnone
      rw [hsame] at hnone
      have hlasting : owed kind (s.lasting i) = [] := by
        have hpart := owed_sublist kind (s.lasting_sublist i)
        rw [hs.unheard kind hnone] at hpart
        exact List.sublist_nil.1 hpart
      rw [← hkinds kind] at hlasting
      exact (List.append_eq_nil_iff.1 hlasting).2
    · exact h.tasks.stacked hs.stacked
  · rw [h.dequeued, h.state]
    rfl
  · intro kind
    rw [hdue, List.append_nil]
    exact hkinds kind
  · intro kind hsome
    exact absurd (hdue kind) hsome
  · intro kind
    rw [hsame, attachedBy_of_none kind h.attachment, List.append_nil]
  · intro kind _
    rw [hbacklog, hnothing]
    simp [ofKind]

/-- A step of the dispatcher emits its events, with no call under way. -/
lemma serves_of_dispatching {ts : List (Task ℓ)} (hs : s.InOrder)
    (h : Dispatching s now i ts r) (hturn : i.isTurn → s.tasks = []) : Serves s now i r := by
  obtain ⟨hidle, howed⟩ : ts = [] ∧ ∀ kind, owed kind (s.lasting i) = [] := by
    rcases h.tasks with ⟨rfl, rfl⟩ | ⟨o, e, sequel, rfl, hcontained, htasks⟩
    · rw [lasting_of_isContained rfl, hturn rfl]
      exact ⟨rfl, fun _ => rfl⟩
    · have hstacked := hs.stacked
      rw [htasks] at hstacked
      have hlast : ts = [] := hstacked
      rw [lasting_of_isContained (i := .answer o) hcontained, htasks, hlast]
      exact ⟨rfl, fun _ => rfl⟩
  have hnobody : i.attachment? = none := by
    rcases h.tasks with ⟨rfl, -⟩ | ⟨o, e, sequel, rfl, -⟩ <;> rfl
  obtain ⟨queue, hqueue, hemits⟩ := h.queue
  rw [hidle] at hemits
  have hsame (kind : EventKind) : r.state.listenersOf kind = s.listenersOf kind := by
    rw [hemits.state]
    rfl
  have hcalls (kind : EventKind) : about kind (askedBy r.turn).toList ++ owed kind r.state.tasks =
      heardBy (s.listenersOf kind) (ofKind kind (s.emits now i)) := hemits.calls rfl
  constructor
  · constructor
    · intro kind hsome
      rw [hsame] at hsome
      rw [hemits.backlog_of_heard hsome]
      exact hs.heard kind hsome
    · intro kind hnone
      rw [hsame] at hnone
      have hnothing := hcalls kind
      rw [hnone, heardBy_nil] at hnothing
      exact (List.append_eq_nil_iff.1 hnothing).2
    · exact hemits.stacked rfl
  · rw [hemits.state]
    exact hqueue
  · intro kind
    rw [hcalls, howed, due_of_none kind hnobody, List.nil_append]
  · intro kind hsome
    rw [due_of_none kind hnobody] at hsome
    exact hemits.prompt hsome
  · intro kind
    rw [hsame, attachedBy_of_none kind hnobody, List.append_nil]
  · intro kind hnone
    rw [hsame] at hnone
    exact hemits.backlog_of_unheard hnone

end Serving

/-! ### Attaching -/

section Attaching

variable (s : Subscription ℓ) (kind : EventKind) (listener : ℓ)

/-- The subscription with a further listener, for whom nothing waits. -/
def joined : Subscription ℓ :=
  { s with
    listeners := s.listeners ++ [(kind, listener)]
    backlog := s.backlog.filter fun e => !decide (e.kind = kind) }

lemma attach_eq :
    s.attach kind listener =
      (s.joined kind listener).replay [] listener kind (ofKind kind s.backlog) := by
  unfold attach joined ofKind
  rw [List.partition_eq_filter_filter]
  rfl

lemma listenersOf_joined (k : EventKind) :
    (s.joined kind listener).listenersOf k =
      s.listenersOf k ++ if kind = k then [listener] else [] := by
  by_cases hk : kind = k <;> simp [listenersOf, joined, hk]

lemma backlog_joined (k : EventKind) :
    ofKind k (s.joined kind listener).backlog = if kind = k then [] else ofKind k s.backlog := by
  unfold ofKind joined
  rw [List.filter_filter]
  by_cases hk : kind = k
  · rw [if_pos hk, hk]
    simp
  · rw [if_neg hk]
    refine List.filter_congr fun e _ => ?_
    by_cases he : e.kind = k
    · simp [he, Ne.symm hk]
    · simp [he]

variable {s kind listener}

lemma attachedBy_attach (k : EventKind) :
    attachedBy k (.attach kind listener) = if kind = k then [listener] else [] := by
  by_cases hk : kind = k <;> simp [attachedBy, Input.attachment?, hk]

lemma emits_attach (now : Int) : s.emits now (.attach kind listener) = [] :=
  emits_eq_nil rfl rfl

/-- Who is attached is to hear what waits, if nobody has listened before. -/
lemma due_attach (now : Int) (k : EventKind) :
    s.due k now (.attach kind listener) =
      if kind = k ∧ s.listenersOf k = [] then (ofKind kind s.backlog).map fun e => ⟨listener, e⟩
      else [] := by
  rw [due, emits_attach, attachedBy_attach]
  by_cases hk : kind = k
  · by_cases hnone : s.listenersOf k = []
    · simp [hk, hnone, heardBy_singleton]
    · simp [hnone, heardBy, ofKind]
  · simp [hk, heardBy, ofKind]

/-- Attaching takes up a task that owes what waits. -/
lemma attach_resumes (hopen : s.closed = false) (kind : EventKind) (listener : ℓ) :
    askedBy (s.attach kind listener).turn = (ofKind kind s.backlog).head?.map (⟨listener, ·⟩) ∧
      Resumes true (.replaying listener kind (ofKind kind s.backlog) :: s.tasks)
        (askedBy (s.attach kind listener).turn) (s.attach kind listener).state.tasks ∧
      (s.attach kind listener).state =
        { s.joined kind listener with tasks := (s.attach kind listener).state.tasks } := by
  rw [attach_eq]
  exact replay_resumes (s := s.joined kind listener) hopen [] listener kind
    (ofKind kind s.backlog)

lemma listenersOf_attach (hopen : s.closed = false) (k : EventKind) :
    (s.attach kind listener).state.listenersOf k =
      s.listenersOf k ++ attachedBy k (.attach kind listener) := by
  rw [(attach_resumes hopen kind listener).2.2, attachedBy_attach, ← listenersOf_joined]
  rfl

lemma backlog_attach (hopen : s.closed = false) (k : EventKind) :
    ofKind k (s.attach kind listener).state.backlog =
      if kind = k then [] else ofKind k s.backlog := by
  rw [(attach_resumes hopen kind listener).2.2]
  exact backlog_joined s kind listener k

lemma kind_of_mem_ofKind {events : List Event} {e : Event} (he : e ∈ ofKind kind events) :
    e.kind = kind :=
  of_decide_eq_true (List.mem_filter.1 he).2

/-- What waited is called for or owed. -/
lemma calls_attach (hopen : s.closed = false) (kind : EventKind) (listener : ℓ) (k : EventKind) :
    about k (askedBy (s.attach kind listener).turn).toList ++
        owed k (s.attach kind listener).state.tasks =
      (if kind = k then (ofKind kind s.backlog).map fun e => ⟨listener, e⟩ else []) ++
        owed k s.tasks := by
  rw [owed, ← about_append, (attach_resumes hopen kind listener).2.1.calls, if_pos rfl,
    List.flatMap_cons, about_append, owedBy, about_replayed fun e => kind_of_mem_ofKind]
  rfl

/-- Who does not listen now has not listened before. -/
lemma unheard_of_attach (hopen : s.closed = false) {k : EventKind}
    (hnone : (s.attach kind listener).state.listenersOf k = []) :
    s.listenersOf k = [] ∧ ¬ kind = k := by
  rw [listenersOf_attach hopen, attachedBy_attach] at hnone
  obtain ⟨hbefore, hnew⟩ := List.append_eq_nil_iff.1 hnone
  refine ⟨hbefore, fun hk => ?_⟩
  rw [if_pos hk] at hnew
  cases hnew

lemma inOrder_attach (hs : s.InOrder) (hopen : s.closed = false) :
    (s.attach kind listener).state.InOrder := by
  constructor
  · intro k hsome
    rw [backlog_attach hopen]
    by_cases hk : kind = k
    · rw [if_pos hk]
    · rw [listenersOf_attach hopen, attachedBy_attach, if_neg hk, List.append_nil] at hsome
      rw [if_neg hk]
      exact hs.heard k hsome
  · intro k hnone
    obtain ⟨hbefore, hk⟩ := unheard_of_attach hopen hnone
    have hmade := calls_attach hopen kind listener k
    rw [if_neg hk, hs.unheard k hbefore] at hmade
    exact (List.append_eq_nil_iff.1 hmade).2
  · exact (attach_resumes hopen kind listener).2.1.stacked hs.stacked

/-- **A listener that is attached** hears what waited for it. -/
lemma serves_attach (hs : s.InOrder) (hopen : s.closed = false) (now : Int) :
    Serves s now (.attach kind listener) (s.attach kind listener) := by
  obtain ⟨hfirst, -, hstate⟩ := attach_resumes hopen kind listener
  constructor
  · exact inOrder_attach hs hopen
  · rw [hstate]
    rfl
  · intro k
    rw [calls_attach hopen, due_attach, lasting_of_isContained rfl]
    by_cases hk : kind = k
    · by_cases hnone : s.listenersOf k = []
      · rw [if_pos hk, if_pos ⟨hk, hnone⟩, hs.unheard k hnone]
        simp
      · have hnothing : ofKind kind s.backlog = [] := by
          rw [hk]
          exact hs.heard k hnone
        rw [hnothing]
        simp [hnone]
    · simp [hk]
  · intro k hsome
    rw [due_attach] at hsome
    obtain ⟨⟨hk, -⟩, hwaits⟩ : (kind = k ∧ s.listenersOf k = []) ∧ ofKind kind s.backlog ≠ [] := by
      split at hsome
      · rename_i hboth
        exact ⟨hboth, fun hnothing => hsome (by rw [hnothing]; rfl)⟩
      · exact absurd rfl hsome
    obtain ⟨e, rest, hcons⟩ := List.exists_cons_of_ne_nil hwaits
    have he : e.kind = kind := by
      apply kind_of_mem_ofKind
      rw [hcons]
      exact List.mem_cons_self ..
    rw [hfirst, hcons]
    simp [about, he, hk]
  · exact listenersOf_attach hopen
  · intro k hnone
    rw [backlog_attach hopen, if_neg (unheard_of_attach hopen hnone).2, emits_attach]
    simp [ofKind]

end Attaching

/-! ### Any step -/

/-- **Every step** that leaves the subscription open does what is due. -/
theorem serves_step {s : Subscription ℓ} (hs : s.InOrder) (now : Int) (i : Input ℓ)
    (hopen : (s.step now i).state.closed = false) (hturn : i.isTurn → s.tasks = []) :
    Serves s now i (s.step now i) := by
  rcases step_cases now i hopen with ⟨kind, listener, rfl⟩ | hsilent | ⟨ts, hdispatching⟩
  · exact serves_attach hs (open_of_step hopen) now
  · exact serves_of_silent hs hsilent
  · exact serves_of_dispatching hs hdispatching hturn

end Subscription

end Marginalia.Notifier
