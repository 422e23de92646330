import Marginalia.Proofs.Notifier.Delivery

/-!
# Who hears what

The chronicle of a subscription says when an event was emitted and when a listener was attached.
`duty` reads off it which listener is to hear which event: who is attached first is to hear all
events of the kind that were emitted before, and an event that is emitted is to be heard by those
who are attached by then.  `delivers_iff_of_orderly` says that the subscription does its duty, call
by call and in order, whatever is attached when, except for the calls that were `forgone`: those of
a task that ended because a listener failed in a way that cannot be reported.  What one listener
hears follows from it: where nothing was forgone the first of a kind hears all events, and any other
one those since it was attached.  `backlog_forgone` has a listener that never hears of the second of
two events that waited for it.
-/

namespace Marginalia.Notifier

variable {ℓ : Type}

/-- The listener that a deed attaches to a kind of event. -/
def Deed.joins? (kind : EventKind) : Deed ℓ → Option ℓ
  | .attached k listener => if k = kind then some listener else none
  | _ => none

namespace Subscription

/-! ## What a chronicle demands -/

/-- The listeners of a kind, in the order in which they were attached. -/
def attachedOf (kind : EventKind) (c : List (Deed ℓ)) : List ℓ :=
  (c.filterMap (·.joins? kind)).reverse

/-- The calls about a kind of event that a chronicle makes due, in order.  Who is attached first is
to hear all events that were emitted before; and an event that is emitted is to be heard by those
who are attached by then. -/
def duty (kind : EventKind) : List (Deed ℓ) → List (Telling ℓ)
  | [] => []
  | d :: c =>
    duty kind c ++
      if (attachedOf kind c).isEmpty then
        heardBy (d.joins? kind).toList (ofKind kind (emittedIn c))
      else heardBy (attachedOf kind c) (ofKind kind d.emitted?.toList)

section Chronicles

variable {kind : EventKind} {c : List (Deed ℓ)}

lemma attachedOf_cons (d : Deed ℓ) (c : List (Deed ℓ)) :
    attachedOf kind (d :: c) = attachedOf kind c ++ (d.joins? kind).toList := by
  unfold attachedOf
  cases hd : d.joins? kind <;> simp [hd]

lemma attachedOf_append (c d : List (Deed ℓ)) :
    attachedOf kind (c ++ d) = attachedOf kind d ++ attachedOf kind c := by
  simp [attachedOf]

/-- Deeds that attach nobody make due that the events they emit are heard. -/
lemma duty_append {ds : List (Deed ℓ)} (h : attachedOf kind ds = []) :
    duty kind (ds ++ c) =
      duty kind c ++ heardBy (attachedOf kind c) (ofKind kind (emittedIn ds)) := by
  induction ds with
  | nil => simp [emittedIn, ofKind, heardBy]
  | cons d ds ih =>
      rw [attachedOf_cons] at h
      obtain ⟨hrest, hnobody⟩ := List.append_eq_nil_iff.1 h
      have hattached : attachedOf kind (ds ++ c) = attachedOf kind c := by
        rw [attachedOf_append, hrest, List.append_nil]
      rw [List.cons_append, duty, ih hrest, hattached, hnobody, emittedIn_cons, ofKind_append,
        heardBy_append, List.append_assoc]
      split
      · rename_i hnone
        rw [List.isEmpty_iff.1 hnone, heardBy_nil, heardBy_nil, heardBy_nil]
      · rfl

lemma joins?_attached (listener : ℓ) :
    (Deed.attached kind listener).joins? kind = some listener :=
  if_pos rfl

/-- Where nobody listens nothing is due. -/
lemma duty_of_unheard (h : attachedOf kind c = []) : duty kind c = [] := by
  have hduty := duty_append (c := []) h
  rw [List.append_nil] at hduty
  rw [hduty]
  exact heardBy_nil _

/-- The deeds of a step attach whom its input attaches. -/
lemma attachedOf_deeds (s : Subscription ℓ) (now : Int) (i : Input ℓ) :
    attachedOf kind (s.deeds now i) = attachedBy kind i := by
  unfold attachedOf deeds attachedBy
  cases ha : i.attachment? with
  | none => simp [List.filterMap_map, Deed.joins?]
  | some a =>
      by_cases hk : a.1 = kind <;> simp [List.filterMap_map, Deed.joins?, hk]

lemma deeds_attach (s : Subscription ℓ) (now : Int) (k : EventKind) (listener : ℓ) :
    s.deeds now (.attach k listener) = [.attached k listener] := by
  have hagenda : s.agenda now (.attach k listener) = [] := rfl
  simp [deeds, looksAt?, dequeued?, recorded?, Input.attachment?, hagenda, announces]

/-- What a step makes due is what its deeds demand. -/
lemma duty_deeds {s : Subscription ℓ} (hlisteners : s.listenersOf kind = attachedOf kind c)
    (hwaits : attachedOf kind c = [] → ofKind kind s.backlog = ofKind kind (emittedIn c))
    (now : Int) (i : Input ℓ) :
    duty kind (s.deeds now i ++ c) = duty kind c ++ s.due kind now i := by
  cases hi : i.attachment? with
  | none =>
      have hnobody : attachedOf kind (s.deeds now i) = [] := by
        rw [attachedOf_deeds, attachedBy_of_none kind hi]
      rw [duty_append hnobody, emittedIn_deeds, due_of_none kind hi, hlisteners]
  | some a =>
      obtain ⟨k, listener⟩ := a
      have hattach : i = .attach k listener := by
        cases i <;> simp_all [Input.attachment?]
      rw [hattach, deeds_attach, List.singleton_append, duty, due, emits_attach, hlisteners,
        attachedBy_attach]
      by_cases hnone : attachedOf kind c = []
      · have hjoins : ((Deed.attached k listener).joins? kind).toList =
            if k = kind then [listener] else [] := by
          by_cases hk : k = kind <;> simp [Deed.joins?, hk]
        rw [hnone, hwaits hnone, hjoins]
        rfl
      · rw [if_neg (by simp [hnone]), if_neg (by simp [hnone])]
        rfl

/-! ### What one listener is to hear -/

variable [DecidableEq ℓ]

/-- The events that one listener hears in some calls. -/
def heardOf (listener : ℓ) (calls : List (Telling ℓ)) : List Event :=
  (calls.filter (·.listener = listener)).map (·.event)

variable {listener : ℓ}

lemma heardOf_append (calls more : List (Telling ℓ)) :
    heardOf listener (calls ++ more) = heardOf listener calls ++ heardOf listener more := by
  simp [heardOf]

/-- A listener hears every event as often as it is attached. -/
lemma heardOf_heardBy (listeners : List ℓ) (events : List Event) :
    heardOf listener (heardBy listeners events) =
      events.flatMap fun e => List.replicate (listeners.count listener) e := by
  have hone (e : Event) : heardOf listener (listeners.map fun l => ⟨l, e⟩) =
      List.replicate (listeners.count listener) e := by
    unfold heardOf
    rw [List.filter_map, List.map_map]
    simp only [Function.comp_def]
    rw [List.map_const', List.count_eq_length_filter]
    rfl
  induction events with
  | nil => rfl
  | cons e events ih =>
      rw [heardBy, List.flatMap_cons, heardOf_append, hone, ← heardBy, ih, List.flatMap_cons]

/-- Who is once among the listeners hears every event once. -/
lemma heardOf_heardBy_of_once {listeners : List ℓ} (h : listeners.count listener = 1)
    (events : List Event) : heardOf listener (heardBy listeners events) = events := by
  rw [heardOf_heardBy, h]
  exact List.flatMap_singleton' events

/-- Who is not among the listeners hears nothing. -/
lemma heardOf_heardBy_of_not_mem {listeners : List ℓ} (h : listener ∉ listeners)
    (events : List Event) : heardOf listener (heardBy listeners events) = [] := by
  rw [heardOf_heardBy, List.count_eq_zero_of_not_mem h]
  simp

/-- Who was never attached hears nothing. -/
lemma heardOf_duty_of_not_mem (h : listener ∉ attachedOf kind c) :
    heardOf listener (duty kind c) = [] := by
  induction c with
  | nil => rfl
  | cons d c ih =>
      rw [attachedOf_cons, List.mem_append, not_or] at h
      rw [duty, heardOf_append, ih h.1, List.nil_append]
      split
      · exact heardOf_heardBy_of_not_mem h.2 _
      · exact heardOf_heardBy_of_not_mem h.1 _

/-- Who is attached hears what is emitted from then on. -/
lemma heardOf_duty_append (honce : (attachedOf kind c).count listener = 1) {ds : List (Deed ℓ)}
    (hnot : listener ∉ attachedOf kind ds) :
    heardOf listener (duty kind (ds ++ c)) =
      heardOf listener (duty kind c) ++ ofKind kind (emittedIn ds) := by
  induction ds with
  | nil => exact (List.append_nil _).symm
  | cons d ds ih =>
      rw [attachedOf_cons, List.mem_append, not_or] at hnot
      have hstill : (attachedOf kind (ds ++ c)).count listener = 1 := by
        rw [attachedOf_append, List.count_append, honce, List.count_eq_zero_of_not_mem hnot.1]
      have hsome : ¬ (attachedOf kind (ds ++ c)).isEmpty := by
        intro hnone
        rw [List.isEmpty_iff.1 hnone] at hstill
        cases hstill
      rw [List.cons_append, duty, if_neg hsome, heardOf_append, heardOf_heardBy_of_once hstill,
        ih hnot.1, emittedIn_cons, ofKind_append, List.append_assoc]

section Attached

variable {earlier later : List (Deed ℓ)}

lemma count_attachedOf (hearlier : listener ∉ attachedOf kind earlier) :
    (attachedOf kind (.attached kind listener :: earlier)).count listener = 1 := by
  rw [attachedOf_cons, List.count_append, List.count_eq_zero_of_not_mem hearlier, joins?_attached]
  simp

/-- **Who is attached first** is to hear all events that were emitted. -/
lemma heardOf_duty_first (hearlier : attachedOf kind earlier = [])
    (hlater : listener ∉ attachedOf kind later) :
    heardOf listener (duty kind (later ++ .attached kind listener :: earlier)) =
      ofKind kind (emittedIn (later ++ .attached kind listener :: earlier)) := by
  have hnot : listener ∉ attachedOf kind earlier := by
    rw [hearlier]
    exact List.not_mem_nil
  have hwaited : heardOf listener (duty kind (.attached kind listener :: earlier)) =
      ofKind kind (emittedIn earlier) := by
    rw [duty, duty_of_unheard hearlier, hearlier, joins?_attached, List.nil_append]
    exact heardOf_heardBy_of_once (by simp) _
  have hsame : emittedIn (.attached kind listener :: earlier) = emittedIn earlier := by
    rw [emittedIn_cons]
    exact List.append_nil _
  rw [heardOf_duty_append (count_attachedOf hnot) hlater, hwaited, emittedIn_append, hsame,
    ofKind_append]

/-- **Who is attached later** is to hear what was emitted since. -/
lemma heardOf_duty_further (hsome : attachedOf kind earlier ≠ [])
    (hearlier : listener ∉ attachedOf kind earlier) (hlater : listener ∉ attachedOf kind later) :
    heardOf listener (duty kind (later ++ .attached kind listener :: earlier)) =
      ofKind kind (emittedIn later) := by
  have hnothing : heardOf listener (duty kind (.attached kind listener :: earlier)) = [] := by
    rw [duty, if_neg (by simp [hsome]), heardOf_append, heardOf_duty_of_not_mem hearlier,
      heardOf_heardBy_of_not_mem hearlier]
    rfl
  rw [heardOf_duty_append (count_attachedOf hearlier) hlater, hnothing, List.nil_append]

end Attached

end Chronicles

/-! ## Runs -/

section Runs

variable {s : Subscription ℓ} {h : History ℓ}

/-- The calls about a kind that an input gives up: those that a task had still to make when a
listener failed in a way that cannot be reported. -/
def dropped (s : Subscription ℓ) (kind : EventKind) (i : Input ℓ) : List (Telling ℓ) :=
  if i.isContained then [] else owed kind (s.tasks.take 1)

/-- The calls about a kind that were given up in the course of a history, in order. -/
def forgone (s : Subscription ℓ) (kind : EventKind) : History ℓ → List (Telling ℓ)
  | [] => []
  | i :: h => s.forgone kind h ++ (s.after h).dropped kind i.2

/-- What is owed is given up, or owed by tasks that last. -/
lemma owed_eq_dropped_append (s : Subscription ℓ) (kind : EventKind) (i : Input ℓ) :
    owed kind s.tasks = s.dropped kind i ++ owed kind (s.lasting i) := by
  unfold dropped lasting
  split
  · rfl
  · cases s.tasks with
    | nil => rfl
    | cons t ts => simp [owed, about_append]

/-- Where all answers are contained nothing more is given up. -/
lemma forgone_append (s : Subscription ℓ) {later : History ℓ} (hcontained : Contained later)
    (kind : EventKind) (earlier : History ℓ) :
    s.forgone kind (later ++ earlier) = s.forgone kind earlier := by
  induction later with
  | nil => rfl
  | cons i later ih =>
      rw [List.cons_append, forgone, ih hcontained.tail, dropped, if_pos hcontained.head]
      exact List.append_nil _

lemma Contained.forgone (hcontained : Contained h) (kind : EventKind) : s.forgone kind h = [] := by
  have hnothing := s.forgone_append hcontained kind []
  rwa [List.append_nil] at hnothing

/-- How the chronicle of a history is kept to, kind by kind. -/
structure Dutiful (s : Subscription ℓ) (h : History ℓ) (kind : EventKind) : Prop where
  calls : (about kind (s.calls h) ++ owed kind (s.after h).tasks).Sublist
    (duty kind (s.chronicle h))
  /-- As many calls are missing as were given up. -/
  count : (about kind (s.calls h) ++ owed kind (s.after h).tasks).length +
      (s.forgone kind h).length =
    (duty kind (s.chronicle h)).length
  /-- Where calls are owed, one has been made. -/
  prompt : owed kind (s.after h).tasks ≠ [] → about kind (s.calls h) ≠ []
  listeners : (s.after h).listenersOf kind = attachedOf kind (s.chronicle h)
  waits : attachedOf kind (s.chronicle h) = [] →
    ofKind kind (s.after h).backlog = ofKind kind (emittedIn (s.chronicle h))

/-- Where nothing is due nothing is given up. -/
lemma Dutiful.forgone_eq_nil {kind : EventKind} (hduty : s.Dutiful h kind)
    (hnothing : duty kind (s.chronicle h) = []) : s.forgone kind h = [] := by
  have hcount := hduty.count
  rw [hnothing, List.length_nil] at hcount
  exact List.eq_nil_of_length_eq_zero (by omega)

/-- **Where nothing was given up** all calls are made that are due, in order, and only there. -/
lemma Dutiful.calls_eq_iff {kind : EventKind} (hduty : s.Dutiful h kind) :
    about kind (s.calls h) ++ owed kind (s.after h).tasks = duty kind (s.chronicle h) ↔
      s.forgone kind h = [] := by
  have hcount := hduty.count
  constructor
  · intro hall
    rw [hall] at hcount
    exact List.eq_nil_of_length_eq_zero (by omega)
  · intro hnothing
    rw [hnothing, List.length_nil, Nat.add_zero] at hcount
    exact hduty.calls.eq_of_length hcount

lemma Dutiful.calls_eq {kind : EventKind} (hduty : s.Dutiful h kind) (hcontained : Contained h) :
    about kind (s.calls h) ++ owed kind (s.after h).tasks = duty kind (s.chronicle h) :=
  hduty.calls_eq_iff.2 (hcontained.forgone kind)

lemma Dutiful.step {i : Int × Input ℓ} {kind : EventKind} (hduty : s.Dutiful h kind)
    (hserves : Serves (s.after h) i.1 i.2 ((s.after h).step i.1 i.2)) :
    s.Dutiful (i :: h) kind := by
  have hmore := duty_deeds hduty.listeners hduty.waits i.1 i.2
  have hattached : attachedOf kind (s.chronicle (i :: h)) =
      ((s.after h).step i.1 i.2).state.listenersOf kind := by
    rw [chronicle, attachedOf_append, attachedOf_deeds, ← hduty.listeners, hserves.listeners]
  have hlast : (owed kind ((s.after h).lasting i.2)).Sublist (owed kind (s.after h).tasks) :=
    owed_sublist kind ((s.after h).lasting_sublist i.2)
  have hcalls : about kind (s.calls (i :: h)) ++ owed kind (s.after (i :: h)).tasks =
      (about kind (s.calls h) ++ owed kind ((s.after h).lasting i.2)) ++
        (s.after h).due kind i.1 i.2 := by
    rw [after_cons, Subscription.calls, about_append, List.append_assoc, hserves.calls,
      ← List.append_assoc]
  constructor
  · rw [hcalls, chronicle, hmore]
    have hbefore := (List.Sublist.refl (about kind (s.calls h))).append hlast
    exact (hbefore.trans hduty.calls).append (List.Sublist.refl _)
  · have hcount := hduty.count
    have howed := congrArg List.length ((s.after h).owed_eq_dropped_append kind i.2)
    rw [hcalls, chronicle, hmore, forgone]
    simp only [List.length_append] at hcount howed ⊢
    omega
  · intro howed hnothing
    rw [Subscription.calls, about_append] at hnothing
    obtain ⟨hbefore, hnow⟩ := List.append_eq_nil_iff.1 hnothing
    have hnone : owed kind (s.after h).tasks = [] := by
      by_contra hsome
      exact hduty.prompt hsome hbefore
    have hdue : (s.after h).due kind i.1 i.2 = [] := by
      by_contra hsome
      exact hserves.prompt kind hsome hnow
    rw [hnone] at hlast
    have hmade := hserves.calls kind
    rw [hnow, List.sublist_nil.1 hlast, hdue, List.nil_append, List.nil_append] at hmade
    rw [after_cons] at howed
    exact howed hmade
  · rw [after_cons, hattached]
  · intro hnone
    have hbefore : attachedOf kind (s.chronicle h) = [] := by
      rw [chronicle, attachedOf_append] at hnone
      exact (List.append_eq_nil_iff.1 hnone).1
    rw [hattached] at hnone
    rw [after_cons, hserves.waits kind hnone, hduty.waits hbefore, chronicle, emittedIn_append,
      emittedIn_deeds, ofKind_append]

/-- **A subscription does its duty** as long as it is open and its dispatcher keeps out of calls,
except for what is given up. -/
lemma dutiful_of_isNew (hnew : s.IsNew) (horderly : s.Orderly h)
    (hopen : (s.after h).closed = false) :
    (s.after h).InOrder ∧ s.queue = dequeuedIn (s.chronicle h) ++ (s.after h).queue ∧
      ∀ kind, s.Dutiful h kind := by
  induction h with
  | nil =>
      refine ⟨hnew.inOrder, rfl, fun kind => ⟨?_, ?_, ?_, ?_, ?_⟩⟩
      · rw [after_nil, hnew.tasks]
        exact List.Sublist.refl _
      · rw [after_nil, hnew.tasks]
        rfl
      · intro howed
        rw [after_nil, hnew.tasks] at howed
        exact absurd rfl howed
      · rw [after_nil, listenersOf, hnew.listeners]
        rfl
      · intro _
        rw [after_nil, hnew.backlog]
        rfl
  | cons i h ih =>
      obtain ⟨hinOrder, hqueue, hduty⟩ := ih horderly.2 (open_of_cons hopen)
      rw [after_cons] at hopen
      have hserves := serves_step hinOrder i.1 i.2 hopen horderly.1
      rw [after_cons]
      refine ⟨hserves.inOrder, ?_, fun kind => (hduty kind).step hserves⟩
      rw [chronicle, dequeuedIn_append, dequeuedIn_deeds, List.append_assoc, ← hserves.queue]
      exact hqueue

variable [DecidableEq ℓ]

/-- How the events of a kind are heard in the course of a history. -/
structure Delivers (s : Subscription ℓ) (h : History ℓ) (kind : EventKind) : Prop where
  /-- The calls that were made and those that are still owed are those that are due, in order. -/
  calls : about kind (s.calls h) ++ owed kind (s.after h).tasks = duty kind (s.chronicle h)
  /-- Who was attached first, and not again, hears all events that were emitted. -/
  first : ∀ (later : List (Deed ℓ)) (listener : ℓ) (earlier : List (Deed ℓ)),
    s.chronicle h = later ++ .attached kind listener :: earlier →
    attachedOf kind earlier = [] → listener ∉ attachedOf kind later →
      heardOf listener (about kind (s.calls h) ++ owed kind (s.after h).tasks) =
        ofKind kind (emittedIn (s.chronicle h))
  /-- Who was attached after somebody else, and only once, hears the events since. -/
  further : ∀ (later : List (Deed ℓ)) (listener : ℓ) (earlier : List (Deed ℓ)),
    s.chronicle h = later ++ .attached kind listener :: earlier →
    attachedOf kind earlier ≠ [] → listener ∉ attachedOf kind earlier →
    listener ∉ attachedOf kind later →
      heardOf listener (about kind (s.calls h) ++ owed kind (s.after h).tasks) =
        ofKind kind (emittedIn later)
  /-- Where nobody was attached nothing is heard, and all that was emitted waits. -/
  waits : attachedOf kind (s.chronicle h) = [] →
    about kind (s.calls h) = [] ∧ owed kind (s.after h).tasks = [] ∧
      ofKind kind (s.after h).backlog = ofKind kind (emittedIn (s.chronicle h))
  /-- Where somebody was attached nothing waits. -/
  backlog : attachedOf kind (s.chronicle h) ≠ [] → ofKind kind (s.after h).backlog = []

/-- **Every event is heard once and in order**, unless a call is given up. Take a subscription that
was opened and any history that leaves it open, in which the dispatcher begins a turn only when no
listener is being called.

The calls that were made about a kind of event, and those that a listener who is being called keeps
waiting, are among those that the chronicle demands, each once and in this order.  They are all of
them exactly when no call of the kind was forgone, and none is as long as every failure of a
listener can be reported.  Then who was attached first hears all events of the kind, in the order in
which they were emitted, and everybody else those that were emitted since.  In any case all of them
wait as long as nobody is attached, and nothing waits afterwards. -/
theorem delivers_iff_of_orderly {around : Surroundings} {paths : List String} {o : Options}
    {notes : List Note} (hstart : start ℓ around paths o = (notes, .ok s))
    (horderly : s.Orderly h) (hopen : (s.after h).closed = false) (kind : EventKind) :
    (about kind (s.calls h) ++ owed kind (s.after h).tasks).Sublist (duty kind (s.chronicle h)) ∧
      (s.Delivers h kind ↔ s.forgone kind h = []) ∧
      (Contained h → s.forgone kind h = []) ∧
      (if attachedOf kind (s.chronicle h) = [] then
        ofKind kind (s.after h).backlog = ofKind kind (emittedIn (s.chronicle h))
      else ofKind kind (s.after h).backlog = []) := by
  obtain ⟨hinOrder, -, hduties⟩ := dutiful_of_isNew (isNew_of_start hstart) horderly hopen
  have hduty := hduties kind
  have hheard (hsome : attachedOf kind (s.chronicle h) ≠ []) :
      ofKind kind (s.after h).backlog = [] := by
    rw [← hduty.listeners] at hsome
    exact hinOrder.heard kind hsome
  refine ⟨hduty.calls, ⟨fun hdelivers => hduty.calls_eq_iff.1 hdelivers.calls, fun hnothing => ?_⟩,
    fun hcontained => hcontained.forgone kind, ?_⟩
  · have hcalls := hduty.calls_eq_iff.2 hnothing
    refine ⟨hcalls, ?_, ?_, ?_, hheard⟩
    · intro later listener earlier hc hearlier hlater
      rw [hcalls, hc]
      exact heardOf_duty_first hearlier hlater
    · intro later listener earlier hc hsome hearlier hlater
      rw [hcalls, hc]
      exact heardOf_duty_further hsome hearlier hlater
    · intro hnone
      rw [duty_of_unheard hnone] at hcalls
      obtain ⟨hmade, howed⟩ := List.append_eq_nil_iff.1 hcalls
      exact ⟨hmade, howed, hduty.waits hnone⟩
  · split
    · rename_i hnone
      exact hduty.waits hnone
    · rename_i hsome
      exact hheard hsome

end Runs

/-- Two events have been emitted when the first listener comes, and a third one while it and another
one listen.  The first fails when it is called, and its failures are reported. -/
theorem delivers_iff_of_orderly_of_late_listeners :
    let why : Outcome := .raised (.plain .value "no")
    let h : History Nat :=
      [(60, .answer .returned), (50, .answer why), (40, .turn), (30, .attach .change 1),
        (20, .answer why), (10, .attach .change 0), (0, .turn)]
    ∃ notes s, start Nat workshop ["/w"] { ignoreInitial := false } = (notes, .ok s) ∧
      s.Orderly h ∧ (s.after h).closed = false ∧ Contained h ∧ s.Delivers h .change ∧
      heardOf 0 (s.calls h) = [.change "/w/a.py", .change "/w/build/b.py"] ∧
      heardOf 1 (s.calls h) = [.change "/w/build/b.py"] := by
  intro why h
  obtain ⟨notes, s, hstart, horderly, hopen, hcontained, hfirst, hfurther⟩ :
      ∃ notes s, start Nat workshop ["/w"] { ignoreInitial := false } = (notes, .ok s) ∧
        s.Orderly h ∧ (s.after h).closed = false ∧ Contained h ∧
        heardOf 0 (s.calls h) = [.change "/w/a.py", .change "/w/build/b.py"] ∧
        heardOf 1 (s.calls h) = [.change "/w/build/b.py"] :=
    exists_start (by decide +kernel)
  obtain ⟨-, hiff, hnothing, -⟩ := delivers_iff_of_orderly hstart horderly hopen .change
  exact ⟨notes, s, hstart, horderly, hopen, hcontained, hiff.2 (hnothing hcontained), hfirst,
    hfurther⟩

/-- **An event that is never heard.** Two changes wait for the first listener.  It fails when it
hears of the first one, and the failure cannot be put into words: the attempt meets another failure,
with which the attaching ends.  The subscription is open and nobody is being called, but the second
change is neither heard nor does it wait any longer. -/
theorem backlog_forgone :
    let worse : Failure := .plain .runtime "no words"
    let h : History Nat :=
      [(20, .answer (.raised (.wordless "Mute" worse))), (10, .attach .change 0), (5, .turn),
        (0, .turn)]
    ∃ notes s, start Nat workshop ["/w"] { ignoreInitial := false } = (notes, .ok s) ∧
      s.Orderly h ∧ (s.after h).closed = false ∧
      ((s.after h.tail).step 20 (.answer (.raised (.wordless "Mute" worse)))).turn =
        .ends (.raised worse) ∧
      ofKind .change (emittedIn (s.chronicle h)) =
        [.change "/w/a.py", .change "/w/build/b.py"] ∧
      s.calls h = [⟨0, .change "/w/a.py"⟩] ∧ (s.after h).tasks = [] ∧ (s.after h).backlog = [] ∧
      s.forgone .change h = [⟨0, .change "/w/build/b.py"⟩] := by
  intro worse h
  exact exists_start (by decide +kernel)

end Subscription

end Marginalia.Notifier
