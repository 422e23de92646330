import Marginalia.Proofs.Notifier.Hearing

/-!
# The order of the first events

A subscription that tells the files that are there queues their changes before the event `ready`,
and the dispatcher takes them out of the queue in this order.  But what nobody listens to yet waits
for the first listener of its own kind, and the kinds do not wait for one another: if the listener
of `ready` is attached before the listener of changes, and the dispatcher has emptied the queue by
then, `ready` is heard first.

`scan_before_ready_iff` says that this is the only case in which it is, as long as no call for a
change is given up because a listener fails in a way that cannot be reported.  `ready_before_scan`
has a run of it.
-/

namespace Marginalia.Notifier.Subscription

variable {ℓ : Type}

/-! ## Parts of a history -/

section Parts

variable {s : Subscription ℓ} {earlier h : History ℓ}

lemma Orderly.of_suffix (hpart : earlier <:+ h) (horderly : s.Orderly h) : s.Orderly earlier := by
  obtain ⟨later, rfl⟩ := hpart
  induction later with
  | nil => exact horderly
  | cons i later ih => exact ih horderly.2

lemma open_of_suffix (hpart : earlier <:+ h) (hopen : (s.after h).closed = false) :
    (s.after earlier).closed = false := by
  obtain ⟨later, rfl⟩ := hpart
  induction later with
  | nil => exact hopen
  | cons i later ih => exact ih (open_of_cons hopen)

/-- The calls of a part of a history come first. -/
lemma calls_of_suffix (hpart : earlier <:+ h) : s.calls earlier <+: s.calls h := by
  obtain ⟨later, rfl⟩ := hpart
  induction later with
  | nil => exact List.prefix_refl _
  | cons i later ih => exact ih.trans (List.prefix_append _ _)

/-- **A call was made by a step**, after all calls that came before.  Where it was not made in the
first part of a history the step comes after that part. -/
lemma exists_step_of_calls {post : History ℓ} {front back : List (Telling ℓ)} {call : Telling ℓ}
    (hcalls : s.calls (post ++ earlier) = front ++ call :: back)
    (hnot : call ∉ s.calls earlier) :
    ∃ later i since, post = later ++ i :: since ∧ front = s.calls (since ++ earlier) ∧
      askedBy ((s.after (since ++ earlier)).step i.1 i.2).turn = some call := by
  induction post generalizing back with
  | nil =>
      rw [List.nil_append] at hcalls
      rw [hcalls] at hnot
      exact absurd (List.mem_append_right _ (List.mem_cons_self ..)) hnot
  | cons i post ih =>
      have hbefore (others : List (Telling ℓ))
          (hothers : s.calls (post ++ earlier) = front ++ call :: others) :
          ∃ later j since, i :: post = later ++ j :: since ∧
            front = s.calls (since ++ earlier) ∧
            askedBy ((s.after (since ++ earlier)).step j.1 j.2).turn = some call := by
        obtain ⟨later, j, since, rfl, hfront, hj⟩ := ih hothers
        exact ⟨i :: later, j, since, rfl, hfront, hj⟩
      rw [List.cons_append, calls] at hcalls
      cases hasked : askedBy ((s.after (post ++ earlier)).step i.1 i.2).turn with
      | none =>
          rw [hasked, Option.toList_none, List.append_nil] at hcalls
          exact hbefore back hcalls
      | some made =>
          rw [hasked, Option.toList_some] at hcalls
          rcases List.eq_nil_or_concat' back with rfl | ⟨others, last, rfl⟩
          · obtain ⟨hfront, hmade⟩ := List.append_inj' hcalls rfl
            refine ⟨[], i, post, rfl, hfront.symm, ?_⟩
            rw [hasked, (List.cons.inj hmade).1]
          · rw [← List.cons_append, ← List.append_assoc] at hcalls
            exact hbefore others (List.append_inj' hcalls rfl).1

end Parts

/-- Who was attached to what, the latest first. -/
def attachments (h : History ℓ) : List (EventKind × ℓ) :=
  h.filterMap (·.2.attachment?)

/-- The listeners of a kind are those that were attached. -/
lemma attachedOf_chronicle (s : Subscription ℓ) (kind : EventKind) (h : History ℓ) :
    attachedOf kind (s.chronicle h) =
      (((attachments h).filter (·.1 = kind)).map Prod.snd).reverse := by
  induction h with
  | nil => rfl
  | cons i h ih =>
      rw [chronicle, attachedOf_append, attachedOf_deeds, ih, attachedBy, attachments, attachments]
      cases ha : i.2.attachment? with
      | none => simp [ha]
      | some a => by_cases hk : a.1 = kind <;> simp [ha, hk]

/-! ## One listener -/

section One

variable {kind : EventKind} {c : List (Deed ℓ)} {listener : ℓ}

/-- The only listener of a kind is to hear every event of the kind once. -/
lemma duty_of_only (honly : attachedOf kind c = [listener]) :
    duty kind c = heardBy [listener] (ofKind kind (emittedIn c)) := by
  induction c with
  | nil => cases honly
  | cons d c ih =>
      rw [attachedOf_cons] at honly
      rw [duty, emittedIn_cons, ofKind_append, heardBy_append]
      cases hd : d.joins? kind with
      | none =>
          rw [hd, Option.toList_none, List.append_nil] at honly
          rw [honly, ih honly]
          rfl
      | some other =>
          rw [hd, Option.toList_some] at honly
          have hlast : attachedOf kind c ++ [other] = [] ++ [listener] := honly
          obtain ⟨hnone, hother⟩ := List.append_inj' hlast rfl
          have hsilent : d.emitted? = none := by
            cases d <;> simp_all [Deed.joins?, Deed.emitted?]
          rw [hnone, duty_of_unheard hnone, hsilent, Option.toList_some, hother]
          exact (List.append_nil _).symm

/-- Only what was emitted is to be heard. -/
lemma event_mem_of_mem_duty {call : Telling ℓ} (hcall : call ∈ duty kind c) :
    call.event ∈ ofKind kind (emittedIn c) := by
  have hheard {listeners : List ℓ} {events : List Event}
      (hmem : call ∈ heardBy listeners events) : call.event ∈ events := by
    obtain ⟨e, he, hcall⟩ := List.mem_flatMap.1 hmem
    obtain ⟨l, -, rfl⟩ := List.mem_map.1 hcall
    exact he
  induction c with
  | nil => cases hcall
  | cons d c ih =>
      rw [duty] at hcall
      rw [emittedIn_cons, ofKind_append, List.mem_append]
      rcases List.mem_append.1 hcall with hbefore | hnow
      · exact Or.inl (ih hbefore)
      · split at hnow
        · exact Or.inl (hheard hnow)
        · exact Or.inr (hheard hnow)

/-- Where at most one call is due it is made at once, and none is owed. -/
lemma owed_eq_nil_of_length_le {s : Subscription ℓ} {h : History ℓ} (hduty : s.Dutiful h kind)
    (honce : (duty kind (s.chronicle h)).length ≤ 1) : owed kind (s.after h).tasks = [] := by
  by_contra howed
  have hmade : 0 < (about kind (s.calls h)).length :=
    List.length_pos_of_ne_nil (hduty.prompt howed)
  have hleft : 0 < (owed kind (s.after h).tasks).length := List.length_pos_of_ne_nil howed
  rw [← hduty.count, List.length_append] at honce
  omega

/-- Only where a call has been made another one can be given up. -/
lemma calls_ne_nil_of_forgone {s : Subscription ℓ} {h : History ℓ} (hnew : s.IsNew)
    (horderly : s.Orderly h) (hopen : (s.after h).closed = false)
    (hsome : s.forgone kind h ≠ []) : about kind (s.calls h) ≠ [] := by
  induction h with
  | nil => exact absurd rfl hsome
  | cons i h ih =>
      have hbefore := open_of_cons hopen
      obtain ⟨-, -, hduty⟩ := dutiful_of_isNew hnew horderly.2 hbefore
      have hmade : about kind (s.calls h) ≠ [] := by
        by_cases hearlier : s.forgone kind h = []
        · apply (hduty kind).prompt
          intro hnone
          have hparts := (s.after h).owed_eq_dropped_append kind i.2
          rw [hnone] at hparts
          rw [forgone, hearlier, (List.append_eq_nil_iff.1 hparts.symm).1] at hsome
          exact hsome rfl
        · exact ih horderly.2 hbefore hearlier
      rw [calls, about_append]
      exact fun hnone => hmade (List.append_eq_nil_iff.1 hnone).1

/-- Where at most one call is due none is given up. -/
lemma forgone_eq_nil_of_length_le {s : Subscription ℓ} {h : History ℓ} (hnew : s.IsNew)
    (horderly : s.Orderly h) (hopen : (s.after h).closed = false)
    (honce : (duty kind (s.chronicle h)).length ≤ 1) : s.forgone kind h = [] := by
  by_contra hsome
  obtain ⟨-, -, hduty⟩ := dutiful_of_isNew hnew horderly hopen
  have hcount := (hduty kind).count
  have hmade := List.length_pos_of_ne_nil (calls_ne_nil_of_forgone hnew horderly hopen hsome)
  have hgiven := List.length_pos_of_ne_nil hsome
  rw [List.length_append] at hcount
  omega

end One

/-! ## The event `ready` -/

/-- Only the event `ready` is of its kind. -/
lemma eq_ready {e : Event} (h : e.kind = .ready) : e = .ready := by
  cases e <;> simp_all [Event.kind]

lemma ofKind_ready_ne_nil_iff {events : List Event} :
    ofKind .ready events ≠ [] ↔ .ready ∈ events := by
  constructor
  · intro hsome
    obtain ⟨e, he⟩ := List.exists_mem_of_ne_nil _ hsome
    obtain ⟨hmem, hkind⟩ := List.mem_filter.1 he
    rw [← eq_ready (of_decide_eq_true hkind)]
    exact hmem
  · intro hmem
    exact List.ne_nil_of_mem (List.mem_filter.2 ⟨hmem, rfl⟩)

/-- What is taken out of the queue is emitted. -/
lemma dequeuedIn_sublist (c : List (Deed ℓ)) : (dequeuedIn c).Sublist (emittedIn c) := by
  induction c with
  | nil => exact List.Sublist.refl _
  | cons d c ih =>
      have hdeed : d.dequeued?.toList.Sublist d.emitted?.toList := by
        cases d <;> simp [Deed.dequeued?, Deed.emitted?]
      rw [dequeuedIn_cons, emittedIn_cons]
      exact ih.append hdeed

/-- The picked paths give rise to changes only. -/
lemma ready_emittedIn (c : List (Deed ℓ)) :
    ofKind .ready (emittedIn c) = ofKind .ready (dequeuedIn c) := by
  induction c with
  | nil => rfl
  | cons d c ih =>
      have hdeed : ofKind .ready d.emitted?.toList = ofKind .ready d.dequeued?.toList := by
        cases d <;> rfl
      rw [dequeuedIn_cons, emittedIn_cons, ofKind_append, ofKind_append, ih, hdeed]

/-! ### The queue of a new subscription -/

/-- The event `ready` is the last one that is queued. -/
lemma queue_eq_of_ready {around : Surroundings} {paths : List String} {o : Options}
    {notes : List Note} {s : Subscription ℓ} (hstart : start ℓ around paths o = (notes, .ok s))
    (hready : .ready ∈ s.queue) : ∃ front, s.queue = front ++ [.ready] ∧ .ready ∉ front := by
  have hqueue := queue_of_start hstart
  have hfront : Event.ready ∉ s.paths.flatMap (Opening.refused around) ++
      (if o.ignoreInitial then [] else s.paths.flatMap (Opening.walked around s)) := by
    intro hmem
    rcases List.mem_append.1 hmem with hrefused | hwalked
    · obtain ⟨path, -, hpath⟩ := List.mem_flatMap.1 hrefused
      obtain ⟨why, -, hwhy⟩ := Option.map_eq_some_iff.1 (Option.mem_toList.1 hpath)
      cases hwhy
    · split at hwalked
      · cases hwalked
      · obtain ⟨path, -, hpath⟩ := List.mem_flatMap.1 hwalked
        obtain ⟨found, -, hfound⟩ := List.mem_map.1 hpath
        cases found <;> cases hfound
  have hlast : Opening.beginning around = .ready := by
    rw [hqueue] at hready
    rcases List.mem_append.1 hready with hmem | hmem
    · exact absurd hmem hfront
    · exact (List.mem_singleton.1 hmem).symm
  rw [hlast] at hqueue
  exact ⟨_, hqueue, hfront⟩

/-- The event `ready` is queued at most once. -/
lemma length_ready_queue_le {around : Surroundings} {paths : List String} {o : Options}
    {notes : List Note} {s : Subscription ℓ} (hstart : start ℓ around paths o = (notes, .ok s)) :
    (ofKind .ready s.queue).length ≤ 1 := by
  by_cases hready : .ready ∈ s.queue
  · obtain ⟨front, hqueue, hfront⟩ := queue_eq_of_ready hstart hready
    have hnone : ofKind .ready front = [] := by
      by_contra hsome
      exact hfront (ofKind_ready_ne_nil_iff.1 hsome)
    rw [hqueue, ofKind_append, hnone]
    exact Nat.le_refl 1
  · have hnone : ofKind .ready s.queue = [] := by
      by_contra hsome
      exact hready (ofKind_ready_ne_nil_iff.1 hsome)
    rw [hnone]
    exact Nat.zero_le 1

/-! ### When `ready` is heard -/

section Ready

variable {around : Surroundings} {paths : List String} {o : Options} {notes : List Note}
  {s : Subscription ℓ} {h : History ℓ} {listener : ℓ}

/-- As long as `ready` is queued nobody has heard it. -/
lemma ready_not_called (hstart : start ℓ around paths o = (notes, .ok s))
    (horderly : s.Orderly h) (hopen : (s.after h).closed = false)
    (hwaits : .ready ∈ s.queue → .ready ∈ (s.after h).queue) : ⟨listener, .ready⟩ ∉ s.calls h := by
  intro hcall
  obtain ⟨-, hqueue, hduty⟩ := dutiful_of_isNew (isNew_of_start hstart) horderly hopen
  have hdue : ⟨listener, .ready⟩ ∈ duty .ready (s.chronicle h) :=
    (hduty .ready).calls.subset (List.mem_append_left _ (List.mem_filter.2 ⟨hcall, rfl⟩))
  have htaken : ofKind .ready (dequeuedIn (s.chronicle h)) ≠ [] := by
    rw [← ready_emittedIn]
    exact List.ne_nil_of_mem (event_mem_of_mem_duty hdue)
  have hleft : ofKind .ready (s.after h).queue ≠ [] := by
    rw [ofKind_ready_ne_nil_iff]
    apply hwaits
    rw [hqueue]
    exact List.mem_append_left _ (ofKind_ready_ne_nil_iff.1 htaken)
  have honce := length_ready_queue_le hstart
  rw [hqueue, ofKind_append, List.length_append] at honce
  have := List.length_pos_of_ne_nil htaken
  have := List.length_pos_of_ne_nil hleft
  omega

/-- The only listener of `ready` is to hear it at most once. -/
lemma length_duty_ready_le (hstart : start ℓ around paths o = (notes, .ok s))
    (horderly : s.Orderly h) (hopen : (s.after h).closed = false)
    (honly : attachedOf .ready (s.chronicle h) = [listener]) :
    (duty .ready (s.chronicle h)).length ≤ 1 := by
  obtain ⟨-, hqueue, -⟩ := dutiful_of_isNew (isNew_of_start hstart) horderly hopen
  have honce := length_ready_queue_le hstart
  rw [hqueue, ofKind_append, List.length_append] at honce
  rw [duty_of_only honly, heardBy_singleton, List.length_map, ready_emittedIn]
  omega

/-- The only listener of `ready` is called for it at once. -/
lemma owed_ready (hstart : start ℓ around paths o = (notes, .ok s))
    (horderly : s.Orderly h) (hopen : (s.after h).closed = false)
    (honly : attachedOf .ready (s.chronicle h) = [listener]) :
    owed .ready (s.after h).tasks = [] := by
  obtain ⟨-, -, hduty⟩ := dutiful_of_isNew (isNew_of_start hstart) horderly hopen
  exact owed_eq_nil_of_length_le (hduty .ready)
    (length_duty_ready_le hstart horderly hopen honly)

/-- Once `ready` has left the queue its only listener has heard it. -/
lemma ready_called (hstart : start ℓ around paths o = (notes, .ok s))
    (horderly : s.Orderly h) (hopen : (s.after h).closed = false)
    (honly : attachedOf .ready (s.chronicle h) = [listener]) (hready : .ready ∈ s.queue)
    (hgone : .ready ∉ (s.after h).queue) : ⟨listener, .ready⟩ ∈ s.calls h := by
  obtain ⟨-, hqueue, hduty⟩ := dutiful_of_isNew (isNew_of_start hstart) horderly hopen
  have htaken : .ready ∈ dequeuedIn (s.chronicle h) := by
    rw [hqueue] at hready
    exact (List.mem_append.1 hready).resolve_right hgone
  have hemitted : .ready ∈ ofKind .ready (emittedIn (s.chronicle h)) :=
    List.mem_filter.2 ⟨(dequeuedIn_sublist _).subset htaken, rfl⟩
  have hnothing : s.forgone .ready h = [] :=
    forgone_eq_nil_of_length_le (isNew_of_start hstart) horderly hopen
      (length_duty_ready_le hstart horderly hopen honly)
  have hcalls := (hduty .ready).calls_eq_iff.2 hnothing
  rw [owed_ready hstart horderly hopen honly, List.append_nil, duty_of_only honly,
    heardBy_singleton] at hcalls
  have hcall : ⟨listener, .ready⟩ ∈ about .ready (s.calls h) := by
    rw [hcalls]
    exact List.mem_map_of_mem hemitted
  exact (List.mem_filter.1 hcall).1

/-- The call for `ready` is made by the turn that takes it out of the queue. -/
lemma turn_of_ready_asked (hstart : start ℓ around paths o = (notes, .ok s))
    {i : Int × Input ℓ} (horderly : s.Orderly (i :: h))
    (hopen : (s.after (i :: h)).closed = false)
    (honly : attachedOf .ready (s.chronicle h) = [listener])
    (hasked : askedBy ((s.after h).step i.1 i.2).turn = some ⟨listener, .ready⟩) :
    i.2.isTurn ∧ ∃ rest, (s.after h).queue = .ready :: rest := by
  have hbefore := open_of_cons hopen
  obtain ⟨hinOrder, -, hduty⟩ := dutiful_of_isNew (isNew_of_start hstart) horderly.2 hbefore
  rw [after_cons] at hopen
  have hcalls := (serves_step hinOrder i.1 i.2 hopen horderly.1).calls .ready
  have hlast := owed_sublist .ready ((s.after h).lasting_sublist i.2)
  rw [owed_ready hstart horderly.2 hbefore honly] at hlast
  rw [List.sublist_nil.1 hlast, hasked, List.nil_append, due, (hduty .ready).listeners, honly,
    if_neg (by simp), heardBy_singleton] at hcalls
  have hemits : .ready ∈ (s.after h).emits i.1 i.2 := by
    rw [← ofKind_ready_ne_nil_iff]
    intro hnone
    rw [hnone] at hcalls
    cases hcalls
  have htaken : (s.after h).dequeued? i.2 = some .ready := by
    rcases List.mem_append.1 hemits with htaken | hchange
    · exact Option.mem_toList.1 htaken
    · obtain ⟨path, -, hpath⟩ := List.mem_map.1 hchange
      cases hpath
  cases hi : i.2 with
  | turn =>
      rw [hi, dequeued?, if_neg (by simp [hbefore])] at htaken
      obtain ⟨rest, hqueue⟩ := List.head?_eq_some_iff.1 htaken
      exact ⟨rfl, rest, hqueue⟩
  | _ =>
      rw [hi] at htaken
      cases htaken

/-- When `ready` is the next event of the queue, all others have been taken out of it. -/
lemma dequeuedIn_of_ready (hstart : start ℓ around paths o = (notes, .ok s))
    {taken rest : List Event} (hqueue : s.queue = taken ++ .ready :: rest) :
    ofKind .change s.queue = ofKind .change taken := by
  have hready : .ready ∈ s.queue := by
    rw [hqueue]
    exact List.mem_append_right _ (List.mem_cons_self ..)
  obtain ⟨front, hlast, hfront⟩ := queue_eq_of_ready hstart hready
  have hsame : taken ++ .ready :: rest = front ++ [.ready] := hqueue.symm.trans hlast
  rcases List.eq_nil_or_concat' rest with rfl | ⟨others, last, rfl⟩
  · rw [hqueue, ofKind_append]
    exact List.append_nil _
  · rw [← List.cons_append, ← List.append_assoc] at hsame
    have hmem := (List.append_inj' hsame rfl).1
    rw [← hmem] at hfront
    exact absurd (List.mem_append_right _ (List.mem_cons_self ..)) hfront

end Ready

/-! ## The three listeners of a watcher -/

section Watched

variable {around : Surroundings} {paths : List String} {o : Options} {notes : List Note}
  {s : Subscription ℓ} {pre post : History ℓ} {time : Int} {onReady onChange : ℓ}

/-- From when the second listener is attached there is one for `ready` and one for changes. -/
lemma attachedOf_watched (hpre : attachments pre = [(.ready, onReady)])
    (hpost : ∀ a ∈ attachments post, a.1 = .error) :
    attachedOf .ready (s.chronicle (post ++ (time, .attach .change onChange) :: pre)) =
        [onReady] ∧
      attachedOf .change (s.chronicle (post ++ (time, .attach .change onChange) :: pre)) =
        [onChange] := by
  have hnone (kind : EventKind) (hkind : kind ≠ .error) :
      (attachments post).filter (·.1 = kind) = [] := by
    rw [List.filter_eq_nil_iff]
    intro a ha
    rw [hpost a ha]
    simpa using hkind.symm
  have hall : attachments (post ++ (time, .attach .change onChange) :: pre) =
      attachments post ++ [(.change, onChange), (.ready, onReady)] := by
    rw [← hpre, attachments, List.filterMap_append]
    rfl
  rw [attachedOf_chronicle, attachedOf_chronicle, hall, List.filter_append, List.filter_append,
    hnone .ready (by decide), hnone .change (by decide)]
  exact ⟨rfl, rfl⟩

/-- If `ready` has left the queue before somebody listens to changes it is heard before them. -/
lemma ready_first (hstart : start ℓ around paths o = (notes, .ok s))
    (hpre : attachments pre = [(.ready, onReady)]) (horderly : s.Orderly pre)
    (hopen : (s.after pre).closed = false) (hready : .ready ∈ s.queue)
    (hgone : .ready ∉ (s.after pre).queue) :
    ⟨onReady, .ready⟩ ∈ s.calls pre ∧ about .change (s.calls pre) = [] := by
  obtain ⟨-, -, hduty⟩ := dutiful_of_isNew (isNew_of_start hstart) horderly hopen
  have honly : attachedOf .ready (s.chronicle pre) = [onReady] := by
    rw [attachedOf_chronicle, hpre]
    rfl
  have hnobody : attachedOf .change (s.chronicle pre) = [] := by
    rw [attachedOf_chronicle, hpre]
    rfl
  have hnothing := (hduty .change).calls
  rw [duty_of_unheard hnobody, List.sublist_nil] at hnothing
  exact ⟨ready_called hstart horderly hopen honly hready hgone,
    (List.append_eq_nil_iff.1 hnothing).1⟩

/-- As long as nobody listens to changes no call for one is given up, and afterwards none is if all
failures can be reported. -/
lemma forgone_change (hstart : start ℓ around paths o = (notes, .ok s))
    (hpre : attachments pre = [(.ready, onReady)]) (hcontained : Contained post)
    (horderly : s.Orderly pre) (hopen : (s.after pre).closed = false) :
    s.forgone .change (post ++ (time, .attach .change onChange) :: pre) = [] := by
  obtain ⟨-, -, hduty⟩ := dutiful_of_isNew (isNew_of_start hstart) horderly hopen
  have hnobody : attachedOf .change (s.chronicle pre) = [] := by
    rw [attachedOf_chronicle, hpre]
    rfl
  rw [forgone_append s hcontained, forgone,
    (hduty .change).forgone_eq_nil (duty_of_unheard hnobody)]
  rfl

/-- If `ready` is taken out of the queue when somebody listens to changes, all changes of the queue
have been heard before it is. -/
lemma changes_first (hstart : start ℓ around paths o = (notes, .ok s))
    (hpre : attachments pre = [(.ready, onReady)])
    (hpost : ∀ a ∈ attachments post, a.1 = .error) (hcontained : Contained post)
    {i : Int × Input ℓ}
    (horderly : s.Orderly (i :: (post ++ (time, .attach .change onChange) :: pre)))
    (hopen : (s.after (i :: (post ++ (time, .attach .change onChange) :: pre))).closed = false)
    (hasked : askedBy ((s.after (post ++ (time, .attach .change onChange) :: pre)).step i.1
      i.2).turn = some ⟨onReady, .ready⟩) :
    ((ofKind .change s.queue).map fun e => ⟨onChange, e⟩).Sublist
      (s.calls (post ++ (time, .attach .change onChange) :: pre)) := by
  have hpart : pre <:+ i :: (post ++ (time, .attach .change onChange) :: pre) :=
    (List.suffix_cons _ _).trans ((List.suffix_append _ _).trans (List.suffix_cons _ _))
  obtain ⟨hreadyOnly, hchangeOnly⟩ :
      attachedOf .ready (s.chronicle (post ++ (time, .attach .change onChange) :: pre)) =
          [onReady] ∧
        attachedOf .change (s.chronicle (post ++ (time, .attach .change onChange) :: pre)) =
          [onChange] := attachedOf_watched hpre hpost
  have hnothing : s.forgone .change (post ++ (time, .attach .change onChange) :: pre) = [] :=
    forgone_change hstart hpre hcontained (horderly.of_suffix hpart) (open_of_suffix hpart hopen)
  generalize hh : post ++ (time, .attach .change onChange) :: pre = h at *
  obtain ⟨-, hqueue, hduty⟩ := dutiful_of_isNew (isNew_of_start hstart) horderly.2
    (open_of_cons hopen)
  obtain ⟨hturn, rest, hnext⟩ := turn_of_ready_asked hstart horderly hopen hreadyOnly hasked
  have hidle : (s.after h).tasks = [] := horderly.1 hturn
  rw [hnext] at hqueue
  have hcalls := (hduty .change).calls_eq_iff.2 hnothing
  have hnobody : owed .change ([] : List (Task ℓ)) = [] := rfl
  rw [hidle, hnobody, List.append_nil, duty_of_only hchangeOnly, heardBy_singleton] at hcalls
  have hheard : ((ofKind .change s.queue).map fun e => (⟨onChange, e⟩ : Telling ℓ)).Sublist
      (about .change (s.calls h)) := by
    rw [hcalls, dequeuedIn_of_ready hstart hqueue]
    exact ((dequeuedIn_sublist _).filter _).map _
  exact hheard.trans List.filter_sublist

/-- As long as `ready` is queued when somebody begins to listen to changes nobody has heard it. -/
lemma ready_waits (hstart : start ℓ around paths o = (notes, .ok s))
    (horderly : s.Orderly ((time, .attach .change onChange) :: pre))
    (hopen : (s.after ((time, .attach .change onChange) :: pre)).closed = false)
    (hwaits : .ready ∈ s.queue → .ready ∈ (s.after pre).queue) :
    ⟨onReady, .ready⟩ ∉ s.calls ((time, .attach .change onChange) :: pre) := by
  have hopenPre := open_of_cons hopen
  obtain ⟨hinOrder, -, -⟩ := dutiful_of_isNew (isNew_of_start hstart) horderly.2 hopenPre
  have hqueue : (s.after pre).queue =
      (s.after ((time, .attach .change onChange) :: pre)).queue := by
    rw [after_cons]
    exact (serves_attach hinOrder hopenPre time).queue
  apply ready_not_called hstart horderly hopen
  rw [← hqueue]
  exact hwaits

/-- **The files that are there come before `ready`** exactly when no turn has taken `ready` out of
the queue before somebody listens to changes.  Listeners may fail, but not in such a way that the
listener of changes is no longer called. -/
theorem scan_before_ready_iff (hstart : start ℓ around paths o = (notes, .ok s))
    (hpre : attachments pre = [(.ready, onReady)])
    (hpost : ∀ a ∈ attachments post, a.1 = .error) (hcontained : Contained post)
    (horderly : s.Orderly (post ++ (time, .attach .change onChange) :: pre))
    (hopen : (s.after (post ++ (time, .attach .change onChange) :: pre)).closed = false) :
    (∀ front back,
        s.calls (post ++ (time, .attach .change onChange) :: pre) =
          front ++ ⟨onReady, .ready⟩ :: back →
        ((ofKind .change s.queue).map fun e => ⟨onChange, e⟩).Sublist front) ↔
      ofKind .change s.queue = [] ∨ .ready ∉ s.queue ∨ .ready ∈ (s.after pre).queue := by
  have hattached : (time, .attach .change onChange) :: pre <:+
      post ++ (time, .attach .change onChange) :: pre := List.suffix_append _ _
  have hpart := (List.suffix_cons _ _).trans hattached
  constructor
  · intro hbefore
    by_contra hnot
    simp only [not_or, not_not] at hnot
    obtain ⟨hsome, hready, hgone⟩ := hnot
    obtain ⟨hcall, hnothing⟩ := ready_first hstart hpre (horderly.of_suffix hpart)
      (open_of_suffix hpart hopen) hready hgone
    obtain ⟨front, back, hfront⟩ := List.append_of_mem hcall
    obtain ⟨more, hmore⟩ := calls_of_suffix (s := s) hpart
    have hheard := hbefore front (back ++ more)
      (by rw [← hmore, hfront, List.append_assoc, List.cons_append])
    obtain ⟨e, he⟩ := List.exists_mem_of_ne_nil _ hsome
    have hmem : ⟨onChange, e⟩ ∈ about .change (s.calls pre) := by
      refine List.mem_filter.2 ⟨?_, (List.mem_filter.1 he).2⟩
      rw [hfront]
      exact List.mem_append_left _ (hheard.subset (List.mem_map_of_mem he))
    rw [hnothing] at hmem
    cases hmem
  · intro hcases front back hcalls
    by_cases hsome : ofKind .change s.queue = []
    · rw [hsome]
      exact List.nil_sublist _
    have hwaits : .ready ∈ s.queue → .ready ∈ (s.after pre).queue := by
      intro hready
      rcases hcases with hnone | habsent | hwaits
      · exact absurd hnone hsome
      · exact absurd hready habsent
      · exact hwaits
    have hlate : ⟨onReady, .ready⟩ ∉ s.calls ((time, .attach .change onChange) :: pre) :=
      ready_waits hstart (horderly.of_suffix hattached) (open_of_suffix hattached hopen) hwaits
    -- so the call is made after somebody has begun to listen to changes
    obtain ⟨later, i, since, rfl, hfront, hasked⟩ := exists_step_of_calls hcalls hlate
    have hstep : i :: (since ++ (time, .attach .change onChange) :: pre) <:+
        later ++ i :: since ++ (time, .attach .change onChange) :: pre := by
      rw [List.append_assoc]
      exact List.suffix_append _ _
    have hsince : since.Sublist (later ++ i :: since) :=
      (List.sublist_cons_self i since).trans (List.sublist_append_right _ _)
    have herrors : ∀ a ∈ attachments since, a.1 = .error := fun a ha =>
      hpost a ((hsince.filterMap _).subset ha)
    have hreported : Contained since := fun i hi => hcontained i (hsince.subset hi)
    rw [hfront]
    exact changes_first hstart hpre herrors hreported (horderly.of_suffix hstep)
      (open_of_suffix hstep hopen) hasked

end Watched

/-- The three listeners are attached before the first turn of the dispatcher. -/
theorem scan_before_ready_iff_of_prompt_listeners :
    let pre : History Nat := [(0, .attach .ready 0)]
    let post : History Nat :=
      [(9, .turn), (8, .answer .returned), (7, .turn), (6, .answer .returned), (5, .turn),
        (2, .attach .error 2)]
    let h := post ++ (1, .attach .change 1) :: pre
    ∃ notes s, start Nat workshop ["/w"] { ignoreInitial := false } = (notes, .ok s) ∧
      attachments pre = [(.ready, 0)] ∧ (∀ a ∈ attachments post, a.1 = .error) ∧
      Contained post ∧ s.Orderly h ∧ (s.after h).closed = false ∧ ⟨0, .ready⟩ ∈ s.calls h ∧
      ∀ front back, s.calls h = front ++ ⟨0, .ready⟩ :: back →
        ((ofKind .change s.queue).map fun e => ⟨1, e⟩).Sublist front := by
  intro pre post h
  obtain ⟨notes, s, hstart, horderly, hopen, hcalled, hwaits⟩ :
      ∃ notes s, start Nat workshop ["/w"] { ignoreInitial := false } = (notes, .ok s) ∧
        s.Orderly h ∧ (s.after h).closed = false ∧ ⟨0, .ready⟩ ∈ s.calls h ∧
        .ready ∈ (s.after pre).queue :=
    exists_start (by decide +kernel)
  have hpre : attachments pre = [(.ready, 0)] := rfl
  have hpost : ∀ a ∈ attachments post, a.1 = .error := by decide
  have hcontained : Contained post := by decide
  have hfirst := (scan_before_ready_iff hstart hpre hpost hcontained horderly hopen).2
    (Or.inr (Or.inr hwaits))
  exact ⟨notes, s, hstart, hpre, hpost, hcontained, horderly, hopen, hcalled, hfirst⟩

/-- **`ready` is heard before the files that are there** when the dispatcher has taken three turns
before the three listeners are attached. -/
theorem ready_before_scan :
    let h : History Nat :=
      [(7, .attach .error 2), (6, .answer .returned), (5, .answer .returned),
        (4, .attach .change 1), (3, .answer .returned), (3, .attach .ready 0), (2, .turn),
        (1, .turn), (0, .turn)]
    ∃ notes s, start Nat workshop ["/w"] { ignoreInitial := false } = (notes, .ok s) ∧
      s.queue = [.change "/w/a.py", .change "/w/build/b.py", .ready] ∧
      attachments h = [(.error, 2), (.change, 1), (.ready, 0)] ∧
      s.Orderly h ∧ (s.after h).closed = false ∧
      s.calls h = [⟨0, .ready⟩, ⟨1, .change "/w/a.py"⟩, ⟨1, .change "/w/build/b.py"⟩] := by
  intro h
  exact exists_start (by decide +kernel)

end Marginalia.Notifier.Subscription
