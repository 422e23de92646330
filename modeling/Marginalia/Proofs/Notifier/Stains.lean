import Marginalia.Proofs.Notifier.Delivery

/-!
# The dirty paths in the chronicle

`stains` reads off a chronicle which paths are dirty and since when: a path is dirty once it has
been recorded, and clean again once it has been picked.  A chronicle is `Lawful` when each pick in
it takes exactly the paths that are dirty by then and have been quiet for long enough.

`dirty_eq_stains` says that a subscription keeps to this, whatever is done to it and in whatever
order.  `announced_of_picked` says that the changes of the picked paths are announced in the order
in which they were picked, each once; for this the dispatcher must take its turns one after the
other.  `looks_of_turns` says that each turn picks once.  A turn that ends because a listener fails
in a way that cannot be reported does not get so far: what it has picked may go unannounced, and it
may not have looked yet.
-/

namespace Marginalia.Notifier

variable {ℓ : Type}

/-- The paths that a deed picks. -/
def Deed.pickedPaths : Deed ℓ → List String
  | .picked paths _ => paths
  | _ => []

/-- The path whose change a deed announces. -/
def Deed.announced? : Deed ℓ → Option String
  | .announced path => some path
  | _ => none

/-- The deed is a look at the dirty paths. -/
def Deed.isLook : Deed ℓ → Bool
  | .picked .. => true
  | _ => false

/-- The dispatcher has still to look at the dirty paths. -/
def Sequel.looks : Sequel → Bool
  | .collect => true
  | .changes _ => false

/-- What follows when an event has been told, if the dispatcher is telling it. -/
def Task.sequel? : Task ℓ → Option Sequel
  | .telling _ _ sequel => some sequel
  | .replaying .. => none

namespace Subscription

/-! ## Chronicles -/

/-- The dirty paths that a chronicle leaves behind, each with the time of its last record. -/
def stains : List (Deed ℓ) → List (String × Int)
  | [] => []
  | .recorded path time :: c => Entries.put path time (stains c)
  | .picked paths _ :: c => (stains c).filter (·.1 ∉ paths)
  | _ :: c => stains c

/-- The paths that have been quiet for long enough at a time. -/
def quietIn (threshold time : Int) (dirty : List (String × Int)) : List String :=
  (dirty.filter fun entry => threshold ≤ time - entry.2).map Prod.fst

/-- What is picked are the quiet ones of the dirty paths. -/
def Lawful (threshold : Int) : List (Deed ℓ) → Prop
  | [] => True
  | .picked paths time :: c => paths = quietIn threshold time (stains c) ∧ Lawful threshold c
  | _ :: c => Lawful threshold c

/-- The paths that were picked, in order. -/
def pickedIn (c : List (Deed ℓ)) : List String :=
  c.reverse.flatMap Deed.pickedPaths

/-- The paths whose changes were announced, in order. -/
def announcedIn (c : List (Deed ℓ)) : List String :=
  (c.filterMap Deed.announced?).reverse

section Chronicles

variable {c : List (Deed ℓ)}

lemma pickedIn_append (c d : List (Deed ℓ)) : pickedIn (c ++ d) = pickedIn d ++ pickedIn c := by
  simp [pickedIn]

lemma announcedIn_append (c d : List (Deed ℓ)) :
    announcedIn (c ++ d) = announcedIn d ++ announcedIn c := by
  simp [announcedIn]

lemma nodup_stains (c : List (Deed ℓ)) : ((stains c).map Prod.fst).Nodup := by
  induction c with
  | nil => exact List.nodup_nil
  | cons d c ih =>
      cases d with
      | recorded path time => exact Entries.nodup_put path time ih
      | picked paths time => exact ih.sublist (List.filter_sublist.map Prod.fst)
      | _ => exact ih

/-- Where no path is listed twice those that are not picked are those that are not quiet. -/
lemma filter_not_mem_quietIn {dirty : List (String × Int)} (h : (dirty.map Prod.fst).Nodup)
    (threshold time : Int) :
    dirty.filter (·.1 ∉ quietIn threshold time dirty) =
      dirty.filter fun entry => !decide (threshold ≤ time - entry.2) := by
  apply List.filter_congr
  intro entry hentry
  have hpicked : entry.1 ∈ quietIn threshold time dirty ↔ threshold ≤ time - entry.2 := by
    constructor
    · intro hmem
      obtain ⟨other, hother, hsame⟩ := List.mem_map.1 hmem
      obtain ⟨hlisted, hquiet⟩ := List.mem_filter.1 hother
      have heq : other = entry := List.inj_on_of_nodup_map h hlisted hentry hsame
      rw [heq] at hquiet
      exact of_decide_eq_true hquiet
    · intro hquiet
      exact List.mem_map_of_mem (List.mem_filter.2 ⟨hentry, decide_eq_true hquiet⟩)
  by_cases hquiet : threshold ≤ time - entry.2
  · simp [hpicked, hquiet]
  · simp [hpicked, hquiet]

lemma stains_announced (paths : List String) :
    stains (paths.map .announced ++ c) = stains c := by
  induction paths with
  | nil => rfl
  | cons path paths ih => exact ih

lemma lawful_announced {threshold : Int} (paths : List String) :
    Lawful threshold (paths.map .announced ++ c) ↔ Lawful threshold c := by
  induction paths with
  | nil => rfl
  | cons path paths ih => exact ih

end Chronicles

/-! ## One step -/

section Step

variable {s : Subscription ℓ} {now : Int} {i : Input ℓ} {c : List (Deed ℓ)}

/-- A step that looks for quiet paths records none. -/
lemma noted_of_looksAt? {time : Int} (h : s.looksAt? now i = some time) :
    s.noted now i = s.dirty := by
  cases i <;> first | rfl | cases h

/-- The quiet ones of the dirty paths. -/
lemma quietAt_eq (s : Subscription ℓ) (time : Int) :
    s.quietAt time = quietIn s.options.stabilityThreshold time s.dirty := rfl

/-- The deeds of a step leave behind what is dirty after it. -/
lemma stains_deeds (hstains : stains c = s.dirty) :
    stains (s.deeds now i ++ c) = s.dirtyAfter now i := by
  have hnodup : (s.dirty.map Prod.fst).Nodup := by
    rw [← hstains]
    exact nodup_stains c
  have hclean (time : Int) : s.dirty.filter (·.1 ∉ s.quietAt time) =
      s.dirty.filter fun entry => !s.isQuiet time entry :=
    filter_not_mem_quietIn hnodup s.options.stabilityThreshold time
  have hnoted : stains ((s.dequeued? i).toList.map .dequeued ++
      ((s.recorded? i).toList.map (.recorded · now) ++
        (i.attachment?.toList.map (fun a => .attached a.1 a.2) ++ c))) = s.noted now i := by
    rw [noted, ← hstains]
    cases s.dequeued? i <;> cases s.recorded? i <;> cases i.attachment? <;> rfl
  unfold deeds
  simp only [List.append_assoc]
  rw [stains_announced, dirtyAfter]
  cases hlooks : s.looksAt? now i with
  | none => exact hnoted
  | some time =>
      rw [Option.toList_some, List.map_singleton, List.singleton_append, stains, hnoted,
        noted_of_looksAt? hlooks]
      exact hclean time

/-- The deeds of a step are lawful. -/
lemma lawful_deeds (hlawful : Lawful s.options.stabilityThreshold c)
    (hstains : stains c = s.dirty) : Lawful s.options.stabilityThreshold (s.deeds now i ++ c) := by
  have hpicks (time : Int) (hlooks : s.looksAt? now i = some time) :
      s.quietAt time = quietIn s.options.stabilityThreshold time (s.noted now i) := by
    rw [noted_of_looksAt? hlooks, quietAt_eq]
  unfold deeds
  simp only [List.append_assoc]
  rw [lawful_announced]
  rw [noted, ← hstains] at hpicks
  cases hlooks : s.looksAt? now i with
  | none =>
      cases s.dequeued? i <;> cases s.recorded? i <;> cases i.attachment? <;> exact hlawful
  | some time =>
      have hquiet := hpicks time hlooks
      revert hquiet
      cases s.dequeued? i <;> cases s.recorded? i <;> cases i.attachment? <;>
        exact fun hquiet => ⟨hquiet, hlawful⟩

/-- **A step** leaves the paths dirty that its deeds leave. -/
lemma dirty_step (hopen : (s.step now i).state.closed = false) :
    (s.step now i).state.dirty = s.dirtyAfter now i := by
  rcases step_cases now i hopen with ⟨kind, listener, rfl⟩ | hsilent | ⟨ts, hdispatching⟩
  · have hbefore := open_of_step hopen
    obtain ⟨-, -, hstate⟩ :=
      replay_resumes (s := s.joined kind listener) hbefore [] listener kind (ofKind kind s.backlog)
    rw [step, attach_eq, hstate]
    rfl
  · rw [hsilent.state, dirtyAfter, hsilent.looks]
  · obtain ⟨queue, -, hemits⟩ := hdispatching.queue
    exact hemits.dirty

end Step

/-! ### Picked paths -/

/-- What follows the events that are being told by the dispatcher. -/
def unfinished (tasks : List (Task ℓ)) : List Sequel :=
  tasks.filterMap Task.sequel?

/-- The picked paths whose changes have still to be announced. -/
def unannounced (tasks : List (Task ℓ)) : List String :=
  (unfinished tasks).flatMap Sequel.paths

lemma unfinished_telling (e : Event) (rest : List ℓ) (sequel : Sequel)
    (ts : List (Task ℓ)) :
    unfinished (.telling e rest sequel :: ts) = sequel :: unfinished ts := rfl

lemma Resumes.unfinished {contained : Bool} {ts us : List (Task ℓ)} {call : Option (Telling ℓ)}
    (h : Resumes contained ts call us) :
    unfinished us = unfinished (if contained then ts else ts.tail) := by
  cases h <;> rfl

/-- What is given up is no longer finished. -/
lemma unfinished_lasting_sublist (s : Subscription ℓ) (i : Input ℓ) :
    (unfinished (s.lasting i)).Sublist (unfinished s.tasks) :=
  (s.lasting_sublist i).filterMap _

section Announcing

variable {s : Subscription ℓ} {now : Int} {i : Input ℓ}

/-- Who is attached is called by a task of its own. -/
lemma unfinished_attach (hopen : s.closed = false) (kind : EventKind) (listener : ℓ) :
    unfinished (s.attach kind listener).state.tasks = unfinished s.tasks := by
  obtain ⟨-, hresumes, -⟩ :=
    replay_resumes (s := s.joined kind listener) hopen [] listener kind (ofKind kind s.backlog)
  rw [attach_eq, hresumes.unfinished]
  rfl

lemma announcedIn_deeds (s : Subscription ℓ) (now : Int) (i : Input ℓ) :
    announcedIn (s.deeds now i) = s.announces (s.agenda now i) := by
  unfold announcedIn deeds
  simp [List.filterMap_map, Function.comp_def, Deed.announced?]

lemma pickedIn_deeds (s : Subscription ℓ) (now : Int) (i : Input ℓ) :
    pickedIn (s.deeds now i) = s.picked now i := by
  unfold pickedIn deeds picked
  cases s.looksAt? now i <;> cases s.dequeued? i <;> cases s.recorded? i <;>
    cases i.attachment? <;> simp [Deed.pickedPaths, List.flatMap_map]

lemma announces_append_drop (s : Subscription ℓ) (paths : List String) :
    s.announces paths ++ paths.drop (s.announces paths).length = paths := by
  unfold announces
  split
  · simp
  · cases paths <;> simp

/-- What follows when an event has been heard are the changes that are still to be announced. -/
lemma paths_follows (s : Subscription ℓ) (now : Int) (i : Input ℓ) :
    (s.follows now i).paths =
      (s.agenda now i).drop (s.announces (s.agenda now i)).length := by
  unfold follows
  split
  · rename_i hturn
    cases i <;> simp_all [Input.isTurn, agenda, remaining, picked, Sequel.paths]
  · rfl

/-- The paths that are gone on with are announced now or later. -/
lemma Emits.announces {t : Subscription ℓ} {r : Result ℓ}
    (h : Emits t (s.emits now i) (s.follows now i) r) (hidle : unfinished t.tasks = []) :
    (unfinished r.state.tasks).length ≤ 1 ∧
      s.announces (s.agenda now i) ++ unannounced r.state.tasks = s.agenda now i := by
  have hall := announces_append_drop s (s.agenda now i)
  rw [← paths_follows] at hall
  rcases h.turn with ⟨-, htasks, -, -, hsequel⟩ | ⟨_, e, _, others, -, -, -, -, htasks, -⟩
  · have hnone : unannounced r.state.tasks = [] := by
      rw [unannounced, htasks, hidle]
      rfl
    rw [hsequel] at hall
    rw [hnone, htasks, hidle]
    exact ⟨Nat.zero_le 1, hall⟩
  · have hone : unfinished r.state.tasks = [s.follows now i] := by
      rw [htasks, unfinished_telling, hidle]
    rw [unannounced, hone, List.flatMap_singleton]
    exact ⟨Nat.le_refl 1, hall⟩

/-- A step that picks nothing and goes on with nothing announces nothing. -/
lemma announcing_of_silent (hone : (unfinished s.tasks).length ≤ 1)
    (hlooks : s.looksAt? now i = none) (hremaining : s.remaining i = []) {tasks : List (Task ℓ)}
    (hsame : unfinished tasks = unfinished (s.lasting i)) :
    (unfinished tasks).length ≤ 1 ∧
      announcedIn (s.deeds now i) ++ unannounced tasks =
        unannounced (s.lasting i) ++ pickedIn (s.deeds now i) := by
  rw [announcedIn_deeds, pickedIn_deeds, agenda, hremaining, picked, hlooks, unannounced,
    unannounced, hsame]
  exact ⟨(s.unfinished_lasting_sublist i).length_le.trans hone, by simp [announces]⟩

lemma announcing_of_dispatching {ts : List (Task ℓ)} {r : Result ℓ}
    (h : Dispatching s now i ts r) (hone : (unfinished s.tasks).length ≤ 1)
    (hturn : i.isTurn → unfinished s.tasks = []) :
    (unfinished r.state.tasks).length ≤ 1 ∧
      announcedIn (s.deeds now i) ++ unannounced r.state.tasks =
        unannounced (s.lasting i) ++ pickedIn (s.deeds now i) := by
  obtain ⟨hidle, hremaining⟩ : unfinished ts = [] ∧ unannounced (s.lasting i) = s.remaining i := by
    rcases h.tasks with ⟨rfl, rfl⟩ | ⟨o, e, sequel, rfl, hcontained, htasks⟩
    · rw [lasting_of_isContained rfl, unannounced, hturn rfl]
      exact ⟨rfl, rfl⟩
    · have hremaining : s.remaining (.answer o) = sequel.paths := by
        simp [remaining, htasks, hcontained]
      rw [htasks, unfinished_telling, List.length_cons] at hone
      have hlast : unfinished ts = [] := List.eq_nil_of_length_eq_zero (by omega)
      rw [lasting_of_isContained (i := .answer o) hcontained, unannounced, htasks,
        unfinished_telling, hlast, hremaining]
      exact ⟨rfl, List.flatMap_singleton ..⟩
  obtain ⟨queue, -, hemits⟩ := h.queue
  rw [announcedIn_deeds, pickedIn_deeds, hremaining]
  exact hemits.announces hidle

/-- **A step** announces the picked paths in order, if the task that has them outlasts it. -/
lemma announcing_step (hone : (unfinished s.tasks).length ≤ 1)
    (hturn : i.isTurn → unfinished s.tasks = []) (hopen : (s.step now i).state.closed = false) :
    (unfinished (s.step now i).state.tasks).length ≤ 1 ∧
      announcedIn (s.deeds now i) ++ unannounced (s.step now i).state.tasks =
        unannounced (s.lasting i) ++ pickedIn (s.deeds now i) := by
  rcases step_cases now i hopen with ⟨kind, listener, rfl⟩ | hsilent | ⟨ts, hdispatching⟩
  · have hsame := unfinished_attach (open_of_step hopen) kind listener
    rw [← lasting_of_isContained (i := .attach kind listener) rfl] at hsame
    exact announcing_of_silent hone rfl rfl hsame
  · exact announcing_of_silent hone hsilent.looks hsilent.remaining hsilent.tasks.unfinished
  · exact announcing_of_dispatching hdispatching hone hturn

end Announcing

/-! ### Looks at the dirty paths -/

section Looking

variable {s : Subscription ℓ} {now : Int} {i : Input ℓ}

lemma looks_deeds (s : Subscription ℓ) (now : Int) (i : Input ℓ) :
    (s.deeds now i).countP Deed.isLook = (s.looksAt? now i).toList.length := by
  unfold deeds
  cases s.looksAt? now i <;> cases s.dequeued? i <;> cases s.recorded? i <;>
    cases i.attachment? <;> simp [List.countP_cons, Deed.isLook, Function.comp_def]

/-- **A step** looks at the dirty paths when it is due: a turn does so at once, unless the event
that it begins with has to be heard first. -/
lemma looking_step (hopen : (s.step now i).state.closed = false) :
    (s.deeds now i).countP Deed.isLook +
        (unfinished (s.step now i).state.tasks).countP Sequel.looks =
      (unfinished (s.lasting i)).countP Sequel.looks + if i.isTurn then 1 else 0 := by
  rw [looks_deeds]
  rcases step_cases now i hopen with ⟨kind, listener, rfl⟩ | hsilent | ⟨ts, hdispatching⟩
  · rw [step, unfinished_attach (open_of_step hopen)]
    exact Nat.zero_add _
  · rw [hsilent.tasks.unfinished, hsilent.looks, hsilent.noTurn]
    exact Nat.zero_add _
  · obtain ⟨queue, -, hemits⟩ := hdispatching.queue
    have hdue : (s.looksAt? now i).toList.length + [s.follows now i].countP Sequel.looks +
          (unfinished ts).countP Sequel.looks =
        (unfinished (s.lasting i)).countP Sequel.looks + if i.isTurn then 1 else 0 := by
      rcases hdispatching.tasks with ⟨rfl, rfl⟩ | ⟨o, e, sequel, rfl, hcontained, htasks⟩
      · rw [lasting_of_isContained rfl]
        cases hlooks : s.looksAt? now .turn <;>
          simp [follows, hlooks, Input.isTurn, Sequel.looks, Nat.add_comm]
      · rw [lasting_of_isContained (i := .answer o) hcontained]
        cases sequel <;>
          simp [follows, looksAt?, htasks, hcontained, unfinished_telling, List.countP_cons,
            Input.isTurn, Sequel.looks, Nat.add_comm]
    rw [← hdue]
    rcases hemits.turn with ⟨-, htasks, -, -, hsequel⟩ | ⟨_, e, _, others, -, -, -, -, htasks, -⟩
    · rw [htasks, hsequel]
      rfl
    · rw [htasks, unfinished_telling, ← List.singleton_append, List.countP_append, Nat.add_assoc]

end Looking

/-! ## Runs -/

/-- The dispatcher begins a turn only when it is through with the one before. -/
def TurnByTurn (s : Subscription ℓ) : History ℓ → Prop
  | [] => True
  | i :: h => (i.2.isTurn → unfinished (s.after h).tasks = []) ∧ s.TurnByTurn h

instance decidableTurnByTurn (s : Subscription ℓ) : (h : History ℓ) → Decidable (s.TurnByTurn h)
  | [] => inferInstanceAs (Decidable True)
  | i :: h =>
    have := decidableTurnByTurn s h
    inferInstanceAs
      (Decidable ((i.2.isTurn → unfinished (s.after h).tasks = []) ∧ s.TurnByTurn h))

section Runs

variable {s : Subscription ℓ} {h : History ℓ}

/-- **The dirty paths** are those that the chronicle leaves behind, and the picks are lawful. -/
theorem dirty_eq_stains (hnew : s.IsNew) (hopen : (s.after h).closed = false) :
    (s.after h).dirty = stains (s.chronicle h) ∧
      Lawful s.options.stabilityThreshold (s.chronicle h) := by
  induction h with
  | nil => exact ⟨hnew.dirty, trivial⟩
  | cons i h ih =>
      obtain ⟨hdirty, hlawful⟩ := ih (open_of_cons hopen)
      have hoptions : (s.after h).options = s.options := (kept_lasts.run s h.reverse).options
      rw [after_cons] at hopen
      rw [← hoptions] at hlawful ⊢
      rw [after_cons, chronicle, stains_deeds hdirty.symm, dirty_step hopen]
      exact ⟨rfl, lawful_deeds hlawful hdirty.symm⟩

/-- **The changes of the picked paths** are announced in order, each once, and all of them as long
as no turn ends with a failure. -/
theorem announced_of_picked (hnew : s.IsNew) (hturns : s.TurnByTurn h)
    (hopen : (s.after h).closed = false) :
    (unfinished (s.after h).tasks).length ≤ 1 ∧
      (announcedIn (s.chronicle h) ++ unannounced (s.after h).tasks).Sublist
        (pickedIn (s.chronicle h)) ∧
      (Contained h → announcedIn (s.chronicle h) ++ unannounced (s.after h).tasks =
        pickedIn (s.chronicle h)) := by
  induction h with
  | nil =>
      rw [after_nil, hnew.tasks]
      exact ⟨Nat.zero_le 1, List.Sublist.refl _, fun _ => rfl⟩
  | cons i h ih =>
      obtain ⟨hone, hsome, hall⟩ := ih hturns.2 (open_of_cons hopen)
      rw [after_cons] at hopen
      obtain ⟨hstill, hstep⟩ := announcing_step hone hturns.1 hopen
      rw [after_cons, chronicle, announcedIn_append, pickedIn_append, List.append_assoc, hstep,
        ← List.append_assoc]
      refine ⟨hstill, ?_, fun hcontained => ?_⟩
      · have hlast : (unannounced ((s.after h).lasting i.2)).Sublist
            (unannounced (s.after h).tasks) :=
          ((s.after h).unfinished_lasting_sublist i.2).flatMap _
        have hbefore := (List.Sublist.refl (announcedIn (s.chronicle h))).append hlast
        exact (hbefore.trans hsome).append (List.Sublist.refl _)
      · rw [lasting_of_isContained hcontained.head, hall hcontained.tail]

/-- **Every turn looks** at the dirty paths at most once, and once as long as no turn ends with a
failure. -/
theorem looks_of_turns (hnew : s.IsNew) (hopen : (s.after h).closed = false) :
    (s.chronicle h).countP Deed.isLook + (unfinished (s.after h).tasks).countP Sequel.looks ≤
        h.countP (·.2.isTurn) ∧
      (Contained h →
        (s.chronicle h).countP Deed.isLook + (unfinished (s.after h).tasks).countP Sequel.looks =
          h.countP (·.2.isTurn)) := by
  induction h with
  | nil =>
      rw [after_nil, hnew.tasks]
      exact ⟨Nat.le_refl _, fun _ => rfl⟩
  | cons i h ih =>
      obtain ⟨hmost, hall⟩ := ih (open_of_cons hopen)
      rw [after_cons] at hopen
      have hstep := looking_step hopen
      rw [after_cons, chronicle, List.countP_append, List.countP_cons]
      refine ⟨?_, fun hcontained => ?_⟩
      · have hlast : (unfinished ((s.after h).lasting i.2)).countP Sequel.looks ≤
            (unfinished (s.after h).tasks).countP Sequel.looks :=
          ((s.after h).unfinished_lasting_sublist i.2).countP_le
        omega
      · have hbefore := hall hcontained.tail
        rw [lasting_of_isContained hcontained.head] at hstep
        omega

end Runs

end Subscription

end Marginalia.Notifier
