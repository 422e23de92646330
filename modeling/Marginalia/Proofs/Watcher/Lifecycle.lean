import Marginalia.Proofs.Watcher.History

/-!
# What a watcher is doing, read off its history

The status of a watcher rests on three fields that four calls set in their own ways.  Here it is
read off the calls themselves:

* `ClosedBy`: a close came, and no watch was begun after it;
* `IdleBy`: there was no watch yet, or opening the subscription of the latest one failed;
* `pausedBy` (of the histories): the latest of the pauses and resumes is a pause.

`readyCalls` are the inputs upon which the host was told that observation has begun.  What keeps
them few is the generation that the watcher remembers: it is never ahead of the present one
(`after_readyGeneration_le`), so that the first `ready` of a new subscription is told
(`asks_ready_of_first`), and no other one is until the next watch succeeds (`readyCalls_append`).

The main result, `status_of_history`, puts the two readings together.
-/

namespace Marginalia.Watcher

open Notifier (Event EventKind)

/-! ## Reading a history -/

/-- The input is a watch that opened a subscription. -/
def Input.opens : Input → Bool
  | .watch _ (.ok _) => true
  | _ => false

/-- A close came, and no watch was begun after it. -/
def ClosedBy (h : History) : Prop :=
  ∃ later before, h = later ++ .close :: before ∧ ∀ i ∈ later, ¬ i.isWatch

/-- There was no watch yet, or opening the subscription of the latest one failed. -/
def IdleBy (h : History) : Prop :=
  (∀ i ∈ h, ¬ i.isWatch) ∨
    ∃ later root why before, h = later ++ .watch root (.error why) :: before ∧
      ∀ i ∈ later, ¬ i.isWatch

/-- The inputs upon which the host was told that observation has begun, the latest first. -/
def readyCalls (w : Watcher) : History → History
  | [] => []
  | i :: h =>
    match ((w.after h).step i).turn with
    | .asks .ready => i :: readyCalls w h
    | _ => readyCalls w h

lemma closedBy_cons_iff (i : Input) (h : History) :
    ClosedBy (i :: h) ↔ i = .close ∨ (¬ i.isWatch ∧ ClosedBy h) := by
  constructor
  · rintro ⟨later, before, heq, hlater⟩
    cases later with
    | nil => exact Or.inl (List.cons.inj heq).1
    | cons j later =>
        obtain ⟨rfl, rfl⟩ := List.cons.inj heq
        rw [List.forall_mem_cons] at hlater
        exact Or.inr ⟨hlater.1, later, before, rfl, hlater.2⟩
  · rintro (rfl | ⟨hi, later, before, rfl, hlater⟩)
    · exact ⟨[], h, rfl, fun _ hj => absurd hj List.not_mem_nil⟩
    · exact ⟨i :: later, before, rfl, List.forall_mem_cons.2 ⟨hi, hlater⟩⟩

lemma idleBy_cons_iff (i : Input) (h : History) :
    IdleBy (i :: h) ↔ (∃ root why, i = .watch root (.error why)) ∨ (¬ i.isWatch ∧ IdleBy h) := by
  constructor
  · rintro (hnone | ⟨later, root, why, before, heq, hlater⟩)
    · rw [List.forall_mem_cons] at hnone
      exact Or.inr ⟨hnone.1, Or.inl hnone.2⟩
    · cases later with
      | nil => exact Or.inl ⟨root, why, (List.cons.inj heq).1⟩
      | cons j later =>
          obtain ⟨rfl, rfl⟩ := List.cons.inj heq
          rw [List.forall_mem_cons] at hlater
          exact Or.inr ⟨hlater.1, Or.inr ⟨later, root, why, before, rfl, hlater.2⟩⟩
  · rintro (⟨root, why, rfl⟩ | ⟨hi, hnone | ⟨later, root, why, before, rfl, hlater⟩⟩)
    · exact Or.inr ⟨[], root, why, h, rfl, fun _ hj => absurd hj List.not_mem_nil⟩
    · exact Or.inl (List.forall_mem_cons.2 ⟨hi, hnone⟩)
    · exact Or.inr ⟨i :: later, root, why, before, rfl, List.forall_mem_cons.2 ⟨hi, hlater⟩⟩

/-! ## The status -/

variable {w : Watcher}

lemma after_closed_iff (hw : w.Unused) (h : History) :
    (w.after h).closed = true ↔ ClosedBy h := by
  induction h with
  | nil =>
      rw [after_nil, hw.closed]
      refine iff_of_false Bool.false_ne_true ?_
      rintro ⟨later, before, heq, -⟩
      cases later <;> cases heq
  | cons i h ih =>
      rw [after_cons, (sameCourse_step (w.after h) i).closed, closedBy_cons_iff]
      cases i with
      | watch root opened => simp [courseUpon, Input.isWatch]
      | close => simp [courseUpon]
      | _ => simpa [courseUpon, Input.isWatch] using ih

/-- Unless the watcher is closed, it has no subscription exactly when it is idle. -/
lemma after_subscription_eq_none_iff (hw : w.Unused) {h : History} (hopen : ¬ ClosedBy h) :
    (w.after h).subscription = none ↔ IdleBy h := by
  induction h with
  | nil =>
      rw [after_nil, hw.subscription]
      exact iff_of_true rfl (Or.inl fun _ hj => absurd hj List.not_mem_nil)
  | cons i h ih =>
      rw [closedBy_cons_iff, not_or] at hopen
      rw [after_cons, (sameCourse_step (w.after h) i).subscription, idleBy_cons_iff]
      cases i with
      | watch root opened =>
          cases opened <;> simp [courseUpon, Input.isWatch, Except.toOption]
      | close => exact absurd rfl hopen.1
      | _ => simpa [courseUpon, Input.isWatch] using ih (by simpa [Input.isWatch] using hopen.2)

/-- Only the calls that change the course change what the watcher is doing. -/
lemma status_cons_of_steady (w : Watcher) (h : History) {i : Input} (hturn : ¬ i.turnsOver)
    (hpause : ¬ i.setsPause) : (w.after (i :: h)).status = (w.after h).status := by
  have hcourse := sameCourse_step (w.after h) i
  rw [after_cons, status, status, hcourse.closed, hcourse.subscription, hcourse.paused]
  cases i with
  | watch | close => exact absurd rfl hturn
  | pause | resume => exact absurd rfl hpause
  | _ => rfl

/-! ## The calls for observation that has begun -/

/-- The generation that the watcher remembers after an input. -/
def readyGenerationUpon (v : Watcher) : Input → Nat
  | .event g .ready => if v.isCurrent g then g else v.readyGeneration
  | _ => v.readyGeneration

section ReadyGeneration

variable (v : Watcher)

lemma readyGeneration_callHost (there : Bool) (notes : List Note) (q : Question) (t : Task) :
    (v.callHost there notes q t).state.readyGeneration = v.readyGeneration := by
  cases there <;> rfl

lemma readyGeneration_attach (notes : List Note) (id g : Nat) (kinds : List EventKind) :
    (v.attach notes id g kinds).state.readyGeneration = v.readyGeneration := by
  cases kinds <;> rfl

lemma readyGeneration_report (notes : List Note) (path : String) (known : List String)
    (all rest : List Block) :
    (v.report notes path known all rest).state.readyGeneration = v.readyGeneration := by
  obtain ⟨notes', -, h⟩ := report_eq v notes path known all rest
  rw [h]
  split <;> rfl

lemma readyGeneration_scan (path content : String) :
    (v.scan path content).state.readyGeneration = v.readyGeneration := by
  by_cases h : Block.anyTrigger (Block.ofContent path content)
  · obtain ⟨notes, -, hs⟩ := scan_of_anyTrigger v h
    rw [hs, dispatch, readyGeneration_callHost]
  · obtain ⟨notes, -, hs⟩ := scan_of_not_anyTrigger v h
    rw [hs, store]
    split
    · rfl
    · rw [readyGeneration_report]

lemma readyGeneration_unread (path : String) (why : Failure) :
    (v.unread path why).state.readyGeneration = v.readyGeneration := by
  unfold unread
  split <;> rfl

lemma readyGeneration_proceed (o : Outcome) (t : Task) :
    (v.proceed o t).state.readyGeneration = v.readyGeneration := by
  cases t with
  | attaching id g rest =>
      cases o with
      | raised why => rfl
      | _ => exact readyGeneration_attach v [] id g rest
  | reading path =>
      cases o with
      | raised why => exact readyGeneration_unread v path why
      | text content => exact readyGeneration_scan v path content
      | returned | made => exact readyGeneration_scan v path ""
  | reporting path known all rest =>
      cases o with
      | raised why => rfl
      | _ => exact readyGeneration_report v [] path known all rest
  | calling => cases o <;> rfl

lemma readyGeneration_event (g : Nat) (e : Event) :
    (v.step (.event g e)).state.readyGeneration = v.readyGenerationUpon (.event g e) := by
  cases e with
  | ready =>
      by_cases hg : v.isCurrent g = true <;> by_cases hr : v.readyGeneration = g
      · simp [step, onReady, readyGenerationUpon, hr, finish]
      · simp [step, onReady, readyGenerationUpon, hg, hr, readyGeneration_callHost]
      · simp [step, onReady, readyGenerationUpon, hg, finish]
      · simp [step, onReady, readyGenerationUpon, hg, finish]
  | change path =>
      simp only [step, onChange, readyGenerationUpon]
      split
      · rfl
      · split <;> rfl
  | error why =>
      simp only [step, onError, readyGenerationUpon]
      split
      · rfl
      · exact readyGeneration_callHost v _ _ _ _

/-- **The remembered generation** is that of the latest `ready` of an open subscription. -/
lemma step_readyGeneration (i : Input) :
    (v.step i).state.readyGeneration = v.readyGenerationUpon i := by
  cases i with
  | watch root opened =>
      cases opened with
      | ok id => obtain ⟨notes, h⟩ := watch_ok v root id; rw [step, h]; rfl
      | error why => obtain ⟨notes, h⟩ := watch_error v root why; rw [step, h]; rfl
  | close => obtain ⟨notes, h⟩ := close_eq v; rw [step, h]; rfl
  | pause | resume | clear => rfl
  | event g e => exact readyGeneration_event v g e
  | answer o =>
      cases h : v.tasks with
      | nil => rw [step_answer_of_nil v h]; rfl
      | cons t ts =>
          simp only [step, h]
          exact readyGeneration_proceed { v with tasks := ts } o t

end ReadyGeneration

/-- The remembered generation is never ahead of the present one. -/
lemma after_readyGeneration_le (hw : w.Unused) (h : History) :
    (w.after h).readyGeneration ≤ generationOf h := by
  induction h with
  | nil => rw [after_nil, hw.readyGeneration]; exact Nat.zero_le _
  | cons i h ih =>
      have hgrows : generationOf h ≤ generationOf (i :: h) :=
        (List.sublist_cons_self i h).countP_le
      rw [after_cons, step_readyGeneration]
      cases i with
      | event g e =>
          cases e with
          | ready =>
              rw [readyGenerationUpon]
              split
              · rename_i hg
                have hlatest := generationOf_of_open ((after_isCurrent hw h g).1 hg)
                exact hlatest.le.trans hgrows
              · exact ih.trans hgrows
          | _ => exact ih.trans hgrows
      | _ => exact ih.trans hgrows

lemma questionAfter?_ne_ready (v : Watcher) (o : Outcome) (t : Task) :
    v.questionAfter? o t ≠ some .ready := by
  intro h
  rcases questionAfter?_cases v h with ⟨_, _, _, _, -, hq⟩ | ⟨_, hq⟩ | ⟨_, _, hq⟩ <;> cases hq

/-- **The host is told that observation has begun** exactly upon a `ready` of the open subscription,
unless the generation is the remembered one. -/
lemma step_asks_ready_iff (hw : w.Unused) (h : History) (i : Input) :
    ((w.after h).step i).turn = .asks .ready ↔
      w.callbacks.ready ∧ ∃ g, i = .event g .ready ∧ openGeneration h = some g ∧
        (w.after h).readyGeneration ≠ g := by
  cases i with
  | watch root opened => cases opened <;> simp [step_asks_iff, questionUpon?]
  | close | pause | resume | clear => simp [step_asks_iff, questionUpon?]
  | event g e =>
      rw [step_event_asks_iff, after_isCurrent hw]
      cases e with
      | ready =>
          simp only [questionOfEvent?, after_callbacks]
          constructor
          · rintro ⟨hopen, hq⟩
            split at hq
            · rename_i h
              exact ⟨h.2, g, rfl, hopen, h.1⟩
            · cases hq
          · rintro ⟨hthere, g', hg, hopen, hne⟩
            cases hg
            exact ⟨hopen, if_pos ⟨hne, hthere⟩⟩
      | change path => simp [questionOfEvent?]
      | error why => simp [questionOfEvent?]
  | answer o =>
      rw [step_answer_asks_iff]
      refine iff_of_false (fun hq => ?_) (by simp)
      obtain ⟨t, -, ht⟩ := Option.bind_eq_some_iff.1 hq
      exact questionAfter?_ne_ready _ o t ht

lemma readyCalls_of_asks {h : History} {i : Input}
    (hturn : ((w.after h).step i).turn = .asks .ready) :
    w.readyCalls (i :: h) = i :: w.readyCalls h := by
  rw [readyCalls, hturn]

lemma readyCalls_of_not_asks {h : History} {i : Input}
    (hturn : ((w.after h).step i).turn ≠ .asks .ready) :
    w.readyCalls (i :: h) = w.readyCalls h := by
  rw [readyCalls]
  split
  · rename_i hasks
    exact absurd hasks hturn
  · rfl

/-! ### Until the next watch succeeds -/

lemma openGeneration_of_opens {x : Input} (hx : x.opens) (h : History) :
    openGeneration (x :: h) = some (generationOf (x :: h)) := by
  cases x with
  | watch root opened =>
      cases opened with
      | ok id => rfl
      | error why => cases hx
  | _ => cases hx

lemma generationOf_of_opens {x : Input} (hx : x.opens) (h : History) :
    generationOf (x :: h) = generationOf h + 1 := by
  cases x with
  | watch => exact List.countP_cons_of_pos rfl
  | _ => cases hx

/-- Other inputs than watches and closes leave the subscription open that is open. -/
lemma openGeneration_cons_of_steady {i : Input} (hi : ¬ i.turnsOver) (h : History) :
    openGeneration (i :: h) = openGeneration h := by
  have hcount : generationOf (i :: h) = generationOf h := List.countP_cons_of_neg hi
  rw [openGeneration, openGeneration, List.find?_cons_of_neg hi, hcount]

/-- **The first `ready` of a new subscription is told.**  The generation that is remembered until
then is that of an earlier one. -/
theorem asks_ready_of_first (hw : w.Unused) (hthere : w.callbacks.ready) {k : History} {x : Input}
    {h : History} (hx : x.opens)
    (hk : ∀ i ∈ k, ¬ i.turnsOver ∧ i ≠ .event (generationOf (x :: h)) .ready) :
    ((w.after (k ++ x :: h)).step (.event (generationOf (x :: h)) .ready)).turn = .asks .ready := by
  have hkept : openGeneration (k ++ x :: h) = some (generationOf (x :: h)) ∧
      (w.after (k ++ x :: h)).readyGeneration ≤ generationOf h := by
    induction k with
    | nil =>
        refine ⟨openGeneration_of_opens hx h, ?_⟩
        rw [List.nil_append, after_cons, step_readyGeneration]
        cases x with
        | watch => exact after_readyGeneration_le hw h
        | _ => cases hx
    | cons i k ih =>
        rw [List.forall_mem_cons] at hk
        obtain ⟨hopen, hle⟩ := ih hk.2
        rw [List.cons_append, openGeneration_cons_of_steady hk.1.1, after_cons,
          step_readyGeneration]
        refine ⟨hopen, ?_⟩
        cases i with
        | event g e =>
            cases e with
            | ready =>
                rw [readyGenerationUpon, if_neg]
                · exact hle
                · rw [after_isCurrent hw, hopen]
                  intro hg
                  cases hg
                  exact hk.1.2 rfl
            | _ => exact hle
        | _ => exact hle
  have hlater := generationOf_of_opens hx h
  exact (step_asks_ready_iff hw _ _).2 ⟨hthere, _, rfl, hkept.1, by omega⟩

/-- Without a watch that succeeds no other subscription is opened. -/
lemma openGeneration_of_append {k h : History} (hk : ∀ i ∈ k, ¬ i.opens) {g : Nat}
    (hopen : openGeneration (k ++ h) = some g) : openGeneration h = some g := by
  induction k with
  | nil => exact hopen
  | cons i k ih =>
      rw [List.forall_mem_cons] at hk
      refine ih hk.2 ?_
      cases i with
      | watch root opened =>
          cases opened with
          | ok id => exact absurd rfl hk.1
          | error why => cases hopen
      | close => cases hopen
      | _ => exact hopen

/-- Before the first watch that succeeds the host is told nothing. -/
lemma readyCalls_of_unopened (hw : w.Unused) {h : History} (hh : ∀ i ∈ h, ¬ i.opens) :
    w.readyCalls h = [] := by
  induction h with
  | nil => rfl
  | cons i h ih =>
      rw [List.forall_mem_cons] at hh
      rw [readyCalls_of_not_asks, ih hh.2]
      intro hturn
      obtain ⟨-, g, -, hopen, -⟩ := (step_asks_ready_iff hw h i).1 hturn
      have hnone : openGeneration [] = some g :=
        openGeneration_of_append hh.2 (by rwa [List.append_nil])
      cases hnone

/-- From a watch that succeeds to the next one the host is told at most once, and for the
subscription of that watch; once it was told, the watcher remembers it. -/
lemma readyCalls_append (hw : w.Unused) {k : History} {x : Input} {h : History} (hx : x.opens)
    (hk : ∀ i ∈ k, ¬ i.opens) :
    w.readyCalls (k ++ x :: h) = w.readyCalls h ∨
      (w.readyCalls (k ++ x :: h) =
          .event (generationOf (x :: h)) .ready :: w.readyCalls h ∧
        (w.after (k ++ x :: h)).readyGeneration = generationOf (x :: h)) := by
  induction k with
  | nil =>
      refine Or.inl (readyCalls_of_not_asks fun hturn => ?_)
      obtain ⟨-, g, rfl, -⟩ := (step_asks_ready_iff hw h x).1 hturn
      cases hx
  | cons i k ih =>
      rw [List.forall_mem_cons] at hk
      rw [List.cons_append]
      -- A subscription that is open here is the one that `x` opened.
      have hopen {g : Nat} (hg : openGeneration (k ++ x :: h) = some g) :
          g = generationOf (x :: h) :=
        generationOf_of_open (openGeneration_of_append hk.2 hg)
      by_cases hturn : ((w.after (k ++ x :: h)).step i).turn = .asks .ready
      · obtain ⟨-, g, rfl, hg, hne⟩ := (step_asks_ready_iff hw _ i).1 hturn
        have hcurrent := (after_isCurrent hw (k ++ x :: h) g).2 hg
        obtain rfl := hopen hg
        rcases ih hk.2 with hcalls | ⟨-, hsame⟩
        · refine Or.inr ⟨by rw [readyCalls_of_asks hturn, hcalls], ?_⟩
          rw [after_cons, step_readyGeneration, readyGenerationUpon, if_pos hcurrent]
        · exact absurd hsame hne
      · rw [readyCalls_of_not_asks hturn]
        refine (ih hk.2).imp id fun ⟨hcalls, hsame⟩ => ⟨hcalls, ?_⟩
        rw [after_cons, step_readyGeneration]
        cases i with
        | event g e =>
            cases e with
            | ready =>
                rw [readyGenerationUpon]
                split
                · rename_i hg
                  exact hopen ((after_isCurrent hw _ g).1 hg)
                · exact hsame
            | _ => exact hsame
        | _ => exact hsame

/-! ## Status and history -/

/-- **The status is a function of the history**: closed after a close that no watch follows; else
idle before any watch and after one that failed; else paused or watching, as the latest pause or
resume says.  Nothing but these calls changes it.  From one watch that succeeds to the next the host
is told at most once that observation has begun, on behalf of the subscription of the former, and
before the first it is not told at all. -/
theorem status_of_history {o : Options} {c : Callbacks} {home : String}
    (made : make o c home = .ok w) :
    (∀ h, ((w.after h).status = .closed ↔ ClosedBy h) ∧
        (¬ ClosedBy h → ((w.after h).status = .idle ↔ IdleBy h)) ∧
        (¬ ClosedBy h → ¬ IdleBy h →
          (w.after h).status = if pausedBy h then .paused else .watching)) ∧
      (∀ h i, ¬ i.turnsOver → ¬ i.setsPause →
        (w.after (i :: h)).status = (w.after h).status) ∧
      (∀ h, (∀ i ∈ h, ¬ i.opens) → w.readyCalls h = []) ∧
      ∀ k x h, x.opens → (∀ i ∈ k, ¬ i.opens) →
        w.readyCalls (k ++ x :: h) = w.readyCalls h ∨
          w.readyCalls (k ++ x :: h) =
            .event (generationOf (x :: h)) .ready :: w.readyCalls h := by
  have hw := unused_of_make made
  refine ⟨fun h => ?_, fun h i => status_cons_of_steady w h, fun h => readyCalls_of_unopened hw,
    fun k x h hx hk => (readyCalls_append hw hx hk).imp id And.left⟩
  have hclosed := after_closed_iff hw h
  have hidle := after_subscription_eq_none_iff hw (h := h)
  have hpaused := after_paused hw h
  by_cases hc : ClosedBy h
  · simp [status, hclosed.2 hc, hc]
  · have hopen : (w.after h).closed = false := Bool.eq_false_iff.2 (mt hclosed.1 hc)
    by_cases hi : IdleBy h
    · simp [status, hopen, (hidle hc).2 hi, hc, hi]
    · have hsome : (w.after h).subscription.isNone = false := by
        rw [Option.isNone_eq_false_iff, Option.isSome_iff_ne_none]
        exact mt (hidle hc).1 hi
      cases hp : pausedBy h <;> simp [status, hopen, hsome, hpaused, hp, hc, hi]

/-- A pause made while the watcher is closed outlasts the next watch; of two `ready` of the first
subscription only one is told. -/
theorem status_of_history_of_pause_while_closed :
    let attached : History := [.answer .returned, .answer .returned, .answer .returned]
    let twice : History := [.event 1 .ready, .answer .returned, .event 1 .ready]
    let h : History := (.pause :: .close :: twice ++ attached) ++ .watch "/w" (.ok 0) :: []
    let again : History := .watch "/w" (.ok 1) :: h
    make { ignored := [] } {} "/w" = .ok plain ∧
      (ClosedBy h ∧ (plain.after h).status = .closed) ∧
      (¬ ClosedBy again ∧ ¬ IdleBy again ∧ (plain.after again).status = .paused) ∧
      (plain.after (.clear :: again)).status = (plain.after again).status ∧
      plain.readyCalls [.close, .pause] = [] ∧
      plain.readyCalls h = [.event 1 .ready] := by
  intro attached twice h again
  obtain ⟨hstatus, hsteady, hunopened, hcalls⟩ := status_of_history make_plain
  have hclosed : ClosedBy h := ⟨[.pause], _, rfl, by simp [Input.isWatch]⟩
  have hopen : ¬ ClosedBy again := by simp [again, closedBy_cons_iff, Input.isWatch]
  have hbusy : ¬ IdleBy again := by simp [again, idleBy_cons_iff, Input.isWatch]
  have hnone : plain.readyCalls [.close, .pause] = [] := hunopened _ (by simp [Input.opens])
  have hsome : plain.readyCalls h ≠ [] := nofun
  have htold : plain.readyCalls h = [.event 1 .ready] :=
    (hcalls _ _ _ rfl (by simp [attached, twice, Input.opens])).resolve_left hsome
  exact ⟨make_plain, ⟨hclosed, ((hstatus h).1).2 hclosed⟩,
    ⟨hopen, hbusy, (hstatus again).2.2 hopen hbusy⟩,
    hsteady again .clear Bool.false_ne_true Bool.false_ne_true, hnone, htold⟩

end Marginalia.Watcher
