import Marginalia.Proofs.Watcher.Unnoticed

/-!
# Whether a subscription has its listeners

A watch opens a subscription and then has three listeners attached to it, one after the other.  The
first events may be told while this goes on, so that the host is called in between.  If it fails,
the watch is left: the subscription stays open, and the listeners that were not attached yet are
left off for good (`deaf_after_watch`).

`wanted` are the listeners of all subscriptions that a history opens.  Each of them is attached,
left off, or still to be attached, and only one of the three: `balance_listeners` says so of a step,
and `perm_wanted` of a run.

The main result is `attached_iff_not_leftOff`.  A watch that opens no subscription leaves none; one
that is left later leaves its own open, unless another watch or a close has come meanwhile; and of
an open subscription all those listeners are attached that were not left off.
-/

namespace Marginalia.Watcher

open Notifier (Event EventKind)

/-! ## Listeners that are wanted -/

/-- The listeners that a task has still to attach. -/
def toAttachOf : Task → List Attachment
  | .attaching id g rest => rest.map (⟨id, ·, g⟩)
  | _ => []

/-- The listeners that have still to be attached. -/
def toAttach (w : Watcher) : List Attachment :=
  w.tasks.flatMap toAttachOf

/-- The listeners of a subscription. -/
def listenersOf (id g : Nat) : List Attachment :=
  [⟨id, .ready, g⟩, ⟨id, .change, g⟩, ⟨id, .error, g⟩]

/-- The listeners that an input calls for, where `g` is the number of the latest watch or close. -/
def wantedUpon (g : Nat) : Input → List Attachment
  | .watch _ (.ok id) => listenersOf id (g + 1)
  | _ => []

/-- The listeners that a history calls for, the latest first. -/
def wanted : History → List Attachment
  | [] => []
  | i :: h => wantedUpon (generationOf h) i ++ wanted h

/-- The listeners that were not attached because attaching another one has failed. -/
def leftOff (w : Watcher) : History → List Attachment
  | [] => []
  | i :: h => (w.after h).dropped toAttachOf i ++ leftOff w h

variable {w : Watcher}

lemma unattached_of_leaves {q : Question} (hq : ∀ id kind g, q ≠ .attach id kind g) {t : Task}
    (h : q.Leaves t) : attachmentOf (.asks q) = [] ∧ toAttachOf t = [] := by
  cases q with
  | attach id kind g => exact absurd rfl (hq id kind g)
  | comment b all =>
      obtain ⟨path, known, rest, rfl⟩ := h
      exact ⟨rfl, rfl⟩
  | read | trigger | ready | error =>
      cases h
      exact ⟨rfl, rfl⟩

/-- A step that asks for no listener leaves those that have to be attached. -/
lemma toAttach_of_quiet (v : Watcher) {i : Input}
    (hquiet : ∀ id kind g, (v.step i).turn ≠ .asks (.attach id kind g)) :
    (v.tasksUpon i).flatMap toAttachOf =
      attachmentOf (v.step i).turn ++ (v.step i).state.toAttach := by
  refine flatMap_tasks_of_quiet v (fun _ => rfl) fun q t hturn hleaves => ?_
  exact unattached_of_leaves (fun id kind g hq => hquiet id kind g (hq ▸ hturn)) hleaves

/-- **The account of a step**: the listeners that it calls for and those that had to be attached are
left off, attached, or have still to be. -/
theorem balance_listeners (v : Watcher) (i : Input) :
    wantedUpon v.generation i ++ v.toAttach =
      v.dropped toAttachOf i ++ (attachmentOf (v.step i).turn ++ (v.step i).state.toAttach) := by
  have hquiet (hwatch : ∀ root id, i ≠ .watch root (.ok id))
      (htasks : ∀ o id g rest ts, i = .answer o → v.tasks ≠ .attaching id g rest :: ts)
      (id : Nat) (kind : EventKind) (g : Nat) : (v.step i).turn ≠ .asks (.attach id kind g) := by
    intro hasks
    rcases asks_attach_cases hasks with ⟨root, hi, -⟩ | ⟨o, rest, ts, hi, hts⟩
    · exact hwatch root id hi
    · exact htasks o id g rest ts hi hts
  cases i with
  | watch root opened =>
      cases opened with
      | ok id =>
          obtain ⟨notes, h⟩ := watch_ok v root id
          rw [step, h]
          rfl
      | error why =>
          exact toAttach_of_quiet v (hquiet (fun root id h => by cases h)
            fun o id g rest ts h => by cases h)
  | answer o =>
      cases h : v.tasks with
      | nil => cases o <;> simp [toAttach, dropped, step, finish, h, attachmentOf, wantedUpon]
      | cons t ts =>
          by_cases ht : ∃ id g rest, t = .attaching id g rest
          · obtain ⟨id, g, rest, rfl⟩ := ht
            rw [toAttach, h, dropped.eq_def]
            simp only [step, h]
            cases o <;> cases rest <;> rfl
          · have hnone : toAttachOf t = [] := by
              cases t with
              | attaching id g rest => exact absurd ⟨id, g, rest, rfl⟩ ht
              | _ => rfl
            have hsame := toAttach_of_quiet v (hquiet (fun root id h => by cases h)
              fun o id g rest ts _ hts => ht ⟨id, g, rest, (List.cons.inj (h.symm.trans hts)).1⟩)
            have hdropped : v.dropped toAttachOf (.answer o) = [] := by
              cases o with
              | raised why => simp [dropped, h, hnone]
              | _ => rfl
            rw [← hsame, hdropped, toAttach, h, List.flatMap_cons, hnone, tasksUpon, h]
            rfl
  | _ =>
      exact toAttach_of_quiet v (hquiet (fun root id h => by cases h)
        fun o id g rest ts h => by cases h)

/-- **Every listener that is wanted** is attached, left off, or still to be attached. -/
theorem perm_wanted (hw : w.Unused) (h : History) :
    (w.attachments h ++ w.leftOff h ++ (w.after h).toAttach).Perm (wanted h) := by
  induction h with
  | nil => rw [after_nil, toAttach, hw.tasks]; exact List.Perm.refl _
  | cons i h ih =>
      have hstep := balance_listeners (w.after h) i
      rw [after_generation hw] at hstep
      rw [List.perm_iff_count] at ih ⊢
      intro a
      have hstep := congrArg (List.count a) hstep
      have ih := ih a
      rw [after_cons, attachments, leftOff, wanted]
      simp only [List.count_append] at hstep ih ⊢
      omega

/-! ## The listeners of one subscription -/

/-- Only a watch calls for listeners, and they carry its number. -/
lemma generation_of_mem_wantedUpon {g : Nat} {i : Input} {a : Attachment}
    (ha : a ∈ wantedUpon g i) : a.generation = g + 1 ∧ i.turnsOver := by
  cases i with
  | watch root opened =>
      cases opened with
      | ok id =>
          simp only [wantedUpon, listenersOf, List.mem_cons, List.not_mem_nil, or_false] at ha
          rcases ha with rfl | rfl | rfl <;> exact ⟨rfl, rfl⟩
      | error why => exact absurd ha List.not_mem_nil
  | _ => exact absurd ha List.not_mem_nil

lemma nodup_wantedUpon (g : Nat) (i : Input) : (wantedUpon g i).Nodup := by
  cases i with
  | watch root opened => cases opened <;> simp [wantedUpon, listenersOf]
  | _ => exact List.nodup_nil

/-- What is wanted has the number of a watch that has come. -/
lemma generation_le_of_mem_wanted {h : History} {a : Attachment} (ha : a ∈ wanted h) :
    a.generation ≤ generationOf h := by
  induction h with
  | nil => exact absurd ha List.not_mem_nil
  | cons i h ih =>
      rcases List.mem_append.1 ha with hnew | hold
      · obtain ⟨hg, hturns⟩ := generation_of_mem_wantedUpon hnew
        have hlast : generationOf (i :: h) = generationOf h + 1 :=
          List.countP_cons_of_pos hturns
        omega
      · exact (ih hold).trans (List.sublist_cons_self i h).countP_le

/-- No listener is wanted twice. -/
lemma nodup_wanted (h : History) : (wanted h).Nodup := by
  induction h with
  | nil => exact List.nodup_nil
  | cons i h ih =>
      refine List.nodup_append.2 ⟨nodup_wantedUpon _ i, ih, ?_⟩
      rintro a hnew b hold rfl
      have hg := (generation_of_mem_wantedUpon hnew).1
      have hle := generation_le_of_mem_wanted hold
      omega

/-- The listeners of a subscription that was opened are wanted. -/
lemma mem_wanted_of_opened {h : History} {g id : Nat} (hopened : Opened h g id)
    (kind : EventKind) : ⟨id, kind, g⟩ ∈ wanted h := by
  obtain ⟨root, before, ⟨later, rfl⟩, rfl⟩ := hopened
  induction later with
  | nil =>
      have hlast : generationOf (.watch root (.ok id) :: before) = generationOf before + 1 :=
        List.countP_cons_of_pos rfl
      rw [hlast]
      exact List.mem_append_left _ (by cases kind <;> simp [wantedUpon, listenersOf])
  | cons i later ih => exact List.mem_append_right _ ih

/-- A watch that opened a subscription has it open as long as no other watch or close has come. -/
lemma open_of_opened {h : History} {g id : Nat} (hopened : Opened h g id)
    (hlast : generationOf h = g) : openGeneration h = some g := by
  obtain ⟨root, hfind⟩ := find?_of_opened hopened hlast
  rw [openGeneration, hfind, hlast]

/-- **A listener is attached unless it was left off**, once its watch is not in progress any
more. -/
lemma mem_attachments_iff (hw : w.Unused) {h : History} {g id : Nat} (hopened : Opened h g id)
    (hdone : ∀ s rest, .attaching s g rest ∉ (w.after h).tasks) (kind : EventKind) :
    ⟨id, kind, g⟩ ∈ w.attachments h ↔ ⟨id, kind, g⟩ ∉ w.leftOff h := by
  have hperm := perm_wanted hw h
  have hmem := hperm.mem_iff.2 (mem_wanted_of_opened hopened kind)
  have hnodup := hperm.nodup_iff.2 (nodup_wanted h)
  have hnone : ⟨id, kind, g⟩ ∉ (w.after h).toAttach := by
    intro ha
    obtain ⟨t, ht, ha⟩ := List.mem_flatMap.1 ha
    cases t with
    | attaching id' g' rest =>
        obtain ⟨kind', -, heq⟩ := List.mem_map.1 ha
        cases heq
        exact hdone id rest ht
    | _ => exact List.not_mem_nil ha
  constructor
  · intro hattached hleft
    exact (List.nodup_append.1 (List.nodup_append.1 hnodup).1).2.2 _ hattached _ hleft rfl
  · intro hleft
    rcases List.mem_append.1 hmem with hmem | hmem
    · exact (List.mem_append.1 hmem).resolve_right hleft
    · exact absurd hmem hnone

/-! ## The status of a watcher -/

lemma after_subscription_of_closed (hw : w.Unused) (h : History) :
    (w.after h).closed → (w.after h).subscription = none := by
  induction h with
  | nil => exact fun _ => hw.subscription
  | cons i h ih =>
      rw [after_cons]
      exact subscription_of_closed _ ih i

/-- The subscription is the one that the latest watch or close has opened. -/
lemma opened_of_subscription (hw : w.Unused) {h : History} {id : Nat}
    (hsubscription : (w.after h).subscription = some id) : Opened h (generationOf h) id := by
  induction h with
  | nil =>
      rw [after_nil, hw.subscription] at hsubscription
      cases hsubscription
  | cons i h ih =>
      rw [after_cons, (sameCourse_step (w.after h) i).subscription] at hsubscription
      cases i with
      | watch root opened =>
          cases opened with
          | ok id' =>
              cases hsubscription
              exact ⟨root, h, List.suffix_refl _, rfl⟩
          | error why => cases hsubscription
      | close => cases hsubscription
      | _ => exact (ih hsubscription).cons _

/-- **A watcher is watching or paused** exactly as long as it has a subscription, and that is as
long as the latest of the watches and closes is a watch that opened one. -/
lemma status_open_iff (hw : w.Unused) (h : History) :
    ((w.after h).status = .watching ∨ (w.after h).status = .paused ↔
        ∃ id, (w.after h).subscription = some id) ∧
      ((w.after h).status = .watching ∨ (w.after h).status = .paused ↔
        openGeneration h ≠ none) := by
  have hstatus : (w.after h).status = .watching ∨ (w.after h).status = .paused ↔
      ∃ id, (w.after h).subscription = some id := by
    rw [status_of_open _ (after_subscription_of_closed hw h), Option.isSome_iff_exists]
  refine ⟨hstatus, hstatus.trans ⟨?_, fun hopen => ?_⟩⟩
  · rintro ⟨id, hid⟩
    rw [open_of_opened (opened_of_subscription hw hid) rfl]
    exact Option.some_ne_none _
  · obtain ⟨g, hg⟩ := Option.ne_none_iff_exists'.1 hopen
    have hcurrent := (after_isCurrent hw h g).2 hg
    rw [isCurrent, Bool.and_eq_true] at hcurrent
    exact Option.isSome_iff_exists.1 hcurrent.2

/-- A watch that opens no subscription leaves none behind. -/
lemma watch_raised (w : Watcher) (h : History) (root : String) (opened : Except Failure Nat)
    (why : Failure) :
    (((w.after h).step (.watch root opened)).turn = .ends (.raised why) ↔ opened = .error why) ∧
      (w.after (.watch root (.error why) :: h)).status = .idle := by
  constructor
  · cases opened with
    | ok id =>
        obtain ⟨notes, hstep⟩ := watch_ok (w.after h) root id
        simp [step, hstep]
    | error why' =>
        obtain ⟨notes, hstep⟩ := watch_error (w.after h) root why'
        simp [step, hstep]
  · obtain ⟨notes, hstep⟩ := watch_error (w.after h) root why
    rw [after_cons, step, hstep]
    rfl

/-- A watch that has opened its subscription is left by a failure where it is. -/
lemma attaching_raised {v : Watcher} {id g : Nat} {rest : List EventKind} {ts : List Task}
    (htasks : v.tasks = .attaching id g rest :: ts) (o : Outcome) (why : Failure) :
    ((v.step (.answer o)).turn = .ends (.raised why) ↔ o = .raised why) ∧
      (v.step (.answer (.raised why))).state = { v with tasks := ts } := by
  constructor
  · simp only [step, htasks]
    cases o <;> cases rest <;> simp [proceed, attach]
  · simp only [step, htasks]
    rfl

/-- **What becomes of a watch that fails.**  A watch fails if its subscription cannot be opened, and
then the watcher is idle; or if a listener cannot be attached without a failure.  In that case the
subscription stays open, unless another watch or a close has come during the watch.  So while the
watcher is watching or paused, and its watch is not in progress any more, those listeners of its
subscription are attached that were not left off by such a failure, and no others. -/
theorem attached_iff_not_leftOff {o : Options} {c : Callbacks} {home : String}
    (made : make o c home = .ok w) (h : History) :
    (∀ root opened why,
        (((w.after h).step (.watch root opened)).turn = .ends (.raised why) ↔ opened = .error why) ∧
          (w.after (.watch root (.error why) :: h)).status = .idle) ∧
      (∀ id g rest ts, (w.after h).tasks = .attaching id g rest :: ts → ∀ o why,
        (((w.after h).step (.answer o)).turn = .ends (.raised why) ↔ o = .raised why) ∧
          let left := w.after (.answer (.raised why) :: h)
          (left.status = .watching ∨ left.status = .paused ↔ openGeneration h ≠ none) ∧
            (generationOf h = g → left.subscription = some id)) ∧
      ((w.after h).status = .watching ∨ (w.after h).status = .paused →
        ∃ g id, openGeneration h = some g ∧ (w.after h).subscription = some id ∧
          ((∀ s rest, .attaching s g rest ∉ (w.after h).tasks) →
            ∀ kind, ⟨id, kind, g⟩ ∈ w.attachments h ↔ ⟨id, kind, g⟩ ∉ w.leftOff h)) := by
  have hw := unused_of_make made
  refine ⟨watch_raised w h, fun id g rest ts htasks o why => ?_, fun hstatus => ?_⟩
  · obtain ⟨hturn, hstate⟩ := attaching_raised htasks o why
    refine ⟨hturn, ?_⟩
    rw [after_cons, hstate]
    refine ⟨(status_open_iff hw h).2, fun hlast => ?_⟩
    have hopened := opened_of_attaching hw h id g rest (htasks ▸ List.mem_cons_self ..)
    exact subscription_of_opened hw hopened (open_of_opened hopened hlast)
  · obtain ⟨id, hid⟩ := (status_open_iff hw h).1.1 hstatus
    have hopened := opened_of_subscription hw hid
    exact ⟨generationOf h, id, open_of_opened hopened rfl, hid,
      fun hdone kind => mem_attachments_iff hw hopened hdone kind⟩

/-- A watch that is left while `ready` is told, and one that is closed in between. -/
theorem attached_iff_not_leftOff_of_failing_ready :
    let no := Failure.plain .runtime "no"
    let ready : History := [.event 1 .ready, .watch "/w" (.ok 0)]
    let told : History := .answer (.raised no) :: ready
    let left : History := .answer (.raised no) :: told
    let closed : History := .answer (.raised no) :: .close :: ready
    make { ignored := [] } {} "/w" = .ok plain ∧
      ((plain.after told).tasks = .attaching 0 1 [.change, .error] :: [] ∧
        ((plain.after told).step (.answer (.raised no))).turn = .ends (.raised no) ∧
        generationOf told = 1 ∧ (plain.after left).subscription = some 0) ∧
      ((plain.after closed).tasks = .attaching 0 1 [.change, .error] :: [] ∧
        openGeneration closed = none ∧
        ¬ ((plain.after (.answer (.raised no) :: closed)).status = .watching ∨
          (plain.after (.answer (.raised no) :: closed)).status = .paused)) ∧
      ((plain.after left).status = .watching ∧
        (∀ s rest, .attaching s 1 rest ∉ (plain.after left).tasks) ∧
        ⟨0, .ready, 1⟩ ∈ plain.attachments left ∧ ⟨0, .change, 1⟩ ∉ plain.attachments left ∧
        ⟨0, .error, 1⟩ ∉ plain.attachments left) := by
  intro no ready told left closed
  have htasks : (plain.after told).tasks = .attaching 0 1 [.change, .error] :: [] := by decide
  have htasks' : (plain.after closed).tasks = .attaching 0 1 [.change, .error] :: [] := by decide
  have hlast : generationOf told = 1 := by decide
  have hclosed : openGeneration closed = none := by decide
  have hstatus : (plain.after left).status = .watching := by decide
  have hdone : ∀ s rest, .attaching s 1 rest ∉ (plain.after left).tasks := by
    intro s rest
    have hnone : (plain.after left).tasks = [] := by decide
    rw [hnone]
    exact List.not_mem_nil
  obtain ⟨hturn, -, hsubscription⟩ :=
    (attached_iff_not_leftOff make_plain told).2.1 0 1 _ [] htasks (.raised no) no
  obtain ⟨-, hafter, -⟩ :=
    (attached_iff_not_leftOff make_plain closed).2.1 0 1 _ [] htasks' (.raised no) no
  obtain ⟨g, id, hopen, hid, hlisteners⟩ :=
    (attached_iff_not_leftOff make_plain left).2.2 (Or.inl hstatus)
  obtain rfl : g = 1 := (Option.some.inj (hopen.symm.trans (by decide)))
  obtain rfl : id = 0 := (Option.some.inj (hid.symm.trans (by decide)))
  have hlisteners := hlisteners hdone
  exact ⟨make_plain, ⟨htasks, hturn.2 rfl, hlast, hsubscription hlast⟩,
    ⟨htasks', hclosed, fun hopen => hafter.1 hopen hclosed⟩, hstatus, hdone,
    (hlisteners .ready).2 (by decide), fun h => (hlisteners .change).1 h (by decide),
    fun h => (hlisteners .error).1 h (by decide)⟩

/-- **A watcher that hears nothing**: the host fails when it is told that observation has begun, and
the watch is left.  The watcher has a subscription and says that it is watching, but no listener for
changes was ever asked for. -/
theorem deaf_after_watch :
    let no := Failure.plain .runtime "no"
    let told : History := [.answer (.raised no), .event 1 .ready, .watch "/w" (.ok 0)]
    let left : History := .answer (.raised no) :: told
    make { ignored := [] } {} "/w" = .ok plain ∧
      (plain.after told).tasks = [.attaching 0 1 [.change, .error]] ∧
      ((plain.after told).step (.answer (.raised no))).turn = .ends (.raised no) ∧
      (plain.after left).tasks = [] ∧ (plain.after left).status = .watching ∧
      (plain.after left).subscription = some 0 ∧ plain.attachments left = [⟨0, .ready, 1⟩] := by
  intro no told left
  exact ⟨make_plain, by decide, rfl, by decide, by decide, by decide, by decide⟩

end Marginalia.Watcher
