import Marginalia.Proofs.Watcher.Omission

/-!
# Events that go unnoticed

Two kinds of events leave no trace on a watcher.  The first are late ones: a listener goes on to
carry the number of the watch that attached it, so once that subscription is not the open one its
events are refused.  The second are changes of the open subscription whose file is not read, because
the watcher is paused, because the path is ignored, or because reading fails.

`late_events_unnoticed` and `unread_changes_unnoticed` say of each kind what a single event comes
to, and compare the run with the one that it leaves when such events are taken out of it.
-/

namespace Marginalia.Watcher

open Notifier (Event EventKind)

variable {w : Watcher}

/-! ## Listeners -/

/-- A listener that a watcher had attached: to a subscription, for the events of a kind, in a
generation. -/
structure Attachment where
  subscription : Nat
  kind : EventKind
  generation : Nat
  deriving DecidableEq, Repr

/-- The listener that a turn asks for. -/
def attachmentOf : Turn Question → List Attachment
  | .asks (.attach id kind g) => [⟨id, kind, g⟩]
  | _ => []

/-- The listeners that were asked for so far, the latest first. -/
def attachments (w : Watcher) : History → List Attachment
  | [] => []
  | i :: h => attachmentOf ((w.after h).step i).turn ++ attachments w h

/-- The watch or close with the number `g` was a watch that opened the subscription. -/
def Opened (h : History) (g id : Nat) : Prop :=
  ∃ root before, .watch root (.ok id) :: before <:+ h ∧
    generationOf (.watch root (.ok id) :: before) = g

lemma Opened.cons {h : History} {g id : Nat} (hopened : Opened h g id) (i : Input) :
    Opened (i :: h) g id := by
  obtain ⟨root, before, hsuffix, hg⟩ := hopened
  exact ⟨root, before, hsuffix.trans (List.suffix_cons i h), hg⟩

/-- Only the task of attaching leads to another listener. -/
lemma attaching_of_questionAfter? {v : Watcher} {o : Outcome} {t : Task} {id g : Nat}
    {kind : EventKind} (h : v.questionAfter? o t = some (.attach id kind g)) :
    ∃ rest, t = .attaching id g rest := by
  rcases questionAfter?_cases v h with ⟨_, _, rest, _, rfl, hq⟩ | ⟨_, hq⟩ | ⟨_, _, hq⟩
  · cases hq
    exact ⟨rest, rfl⟩
  · cases hq
  · cases hq

lemma attach_of_leaves {q : Question} {id g : Nat} {rest : List EventKind}
    (h : q.Leaves (.attaching id g rest)) : ∃ kind, q = .attach id kind g := by
  cases q with
  | attach id' kind g' =>
      obtain ⟨rest', h⟩ := h
      cases h
      exact ⟨kind, rfl⟩
  | comment b all =>
      obtain ⟨path, known, rest', h⟩ := h
      cases h
  | read | trigger | ready | error => cases h

/-- **A listener is asked for** by the watch that opened its subscription, or upon the answer to
another one of them. -/
lemma asks_attach_cases {v : Watcher} {i : Input} {id g : Nat} {kind : EventKind}
    (hasks : (v.step i).turn = .asks (.attach id kind g)) :
    (∃ root, i = .watch root (.ok id) ∧ g = v.generation + 1) ∨
      ∃ o rest ts, i = .answer o ∧ v.tasks = .attaching id g rest :: ts := by
  rw [step_asks_iff] at hasks
  cases i with
  | watch root opened =>
      cases opened with
      | ok id' =>
          cases hasks
          exact Or.inl ⟨root, rfl, rfl⟩
      | error why => cases hasks
  | close | pause | resume | clear => cases hasks
  | event g' e =>
      simp only [questionUpon?] at hasks
      split at hasks
      · cases e <;> simp only [questionOfEvent?] at hasks <;> split at hasks <;> cases hasks
      · cases hasks
  | answer o =>
      obtain ⟨t, ht, hq⟩ := Option.bind_eq_some_iff.1 hasks
      obtain ⟨rest, rfl⟩ := attaching_of_questionAfter? hq
      obtain ⟨ts, hts⟩ := List.head?_eq_some_iff.1 ht
      exact Or.inr ⟨o, rest, ts, rfl, hts⟩

/-- A listener that is asked for carries the number of its subscription, provided that those that
have still to be asked for do. -/
lemma opened_of_asks (hw : w.Unused) {h : History}
    (htasks : ∀ id g rest, .attaching id g rest ∈ (w.after h).tasks → Opened h g id) {i : Input}
    {id g : Nat} {kind : EventKind}
    (hasks : ((w.after h).step i).turn = .asks (.attach id kind g)) : Opened (i :: h) g id := by
  rcases asks_attach_cases hasks with ⟨root, rfl, rfl⟩ | ⟨o, rest, ts, rfl, hts⟩
  · refine ⟨root, h, List.suffix_refl _, ?_⟩
    rw [after_generation hw]
    exact List.countP_cons_of_pos rfl
  · exact (htasks id g rest (hts ▸ List.mem_cons_self ..)).cons _

/-- The listeners that have still to be asked for carry the number of their subscription. -/
lemma opened_of_attaching (hw : w.Unused) (h : History) :
    ∀ id g rest, .attaching id g rest ∈ (w.after h).tasks → Opened h g id := by
  induction h with
  | nil =>
      intro id g rest hmem
      rw [after_nil, hw.tasks] at hmem
      exact absurd hmem List.not_mem_nil
  | cons i h ih =>
      intro id g rest hmem
      have hbelow (hmem : .attaching id g rest ∈ i.below (w.after h).tasks) :
          Opened (i :: h) g id := by
        have hsub : i.below (w.after h).tasks ⊆ (w.after h).tasks := by
          cases i with
          | answer o => exact List.tail_subset _
          | _ => exact List.Subset.refl _
        exact (ih id g rest (hsub hmem)).cons i
      rw [after_cons] at hmem
      cases hturn : ((w.after h).step i).turn with
      | ends o =>
          rw [tasks_of_ends hturn] at hmem
          exact hbelow hmem
      | asks q =>
          obtain ⟨t, hleaves, ht⟩ := tasks_of_asks hturn
          rw [ht] at hmem
          rcases List.mem_cons.1 hmem with rfl | hmem
          · obtain ⟨kind, rfl⟩ := attach_of_leaves hleaves
            exact opened_of_asks hw ih hturn
          · exact hbelow hmem

/-- **A listener carries the number of the watch** that opened its subscription. -/
lemma opened_of_mem_attachments (hw : w.Unused) {h : History} {a : Attachment}
    (ha : a ∈ w.attachments h) : Opened h a.generation a.subscription := by
  induction h with
  | nil => exact absurd ha List.not_mem_nil
  | cons i h ih =>
      rcases List.mem_append.1 ha with hnew | hold
      · unfold attachmentOf at hnew
        split at hnew
        · rename_i id kind g hturn
          obtain rfl := List.mem_singleton.1 hnew
          exact opened_of_asks hw (opened_of_attaching hw h) hturn
        · exact absurd hnew List.not_mem_nil
      · exact (ih hold).cons i

/-- A watch that opened a subscription is the latest of all if none has a higher number. -/
lemma find?_of_opened {h : History} {g id : Nat} (hopened : Opened h g id)
    (hlast : generationOf h = g) :
    ∃ root, h.find? Input.turnsOver = some (.watch root (.ok id)) := by
  obtain ⟨root, before, ⟨later, rfl⟩, hg⟩ := hopened
  have hnone : generationOf later = 0 := by
    rw [generationOf_append, hg] at hlast
    omega
  have hlater : later.find? Input.turnsOver = none := by
    rw [List.find?_eq_none]
    intro i hi hturns
    exact (List.countP_pos_iff.2 ⟨i, hi, hturns⟩).ne' hnone
  refine ⟨root, ?_⟩
  rw [List.find?_append, hlater]
  rfl

/-- The open subscription is the one that the watch of its number opened. -/
lemma subscription_of_opened (hw : w.Unused) {h : History} {g id : Nat}
    (hopened : Opened h g id) (hopen : openGeneration h = some g) :
    (w.after h).subscription = some id := by
  obtain ⟨root, hfind⟩ := find?_of_opened hopened (generationOf_of_open hopen).symm
  rw [after_subscription hw, hfind]

/-! ## Late events -/

/-- The input is an event of a subscription that is not the open one. -/
def IsLate (h : History) : Input → Prop
  | .event g _ => openGeneration h ≠ some g
  | _ => False

instance (h : History) : (i : Input) → Decidable (IsLate h i)
  | .event _ _ => inferInstanceAs (Decidable (_ ≠ _))
  | .watch .. | .close | .pause | .resume | .clear | .answer _ => .isFalse id

/-- A late event is refused. -/
lemma step_of_late (hw : w.Unused) {h : History} {g : Nat} (hlate : openGeneration h ≠ some g)
    (e : Event) :
    ∃ notes, Logs notes ∧ (w.after h).step (.event g e) = (w.after h).finish notes := by
  have hcurrent : (w.after h).isCurrent g = false := by
    rw [Bool.eq_false_iff]
    exact fun hcurrent => hlate ((after_isCurrent hw h g).1 hcurrent)
  cases e with
  | ready =>
      refine ⟨[], logs_nil, ?_⟩
      simp [step, onReady, hcurrent]
  | change path =>
      refine ⟨_, logs_entry Log.Level.debug [.words
        "Discarding change from superseded subscription | path=", .text path], ?_⟩
      simp [step, onChange, hcurrent]
  | error why =>
      refine ⟨[], logs_nil, ?_⟩
      simp [step, onError, hcurrent]

/-- Taking out late events does no harm, and none of them has anything under way. -/
lemma harmless_of_late (hw : w.Unused) {late : Choice} (hlate : ∀ k i, late k i → IsLate k i)
    (h : History) : w.Harmless late h ∧ ∀ m ∈ w.marks late h, m = false := by
  have hrefused (k : History) (i : Input) (hi : late k i) :
      ∃ notes, (w.after k).step i = (w.after k).finish notes := by
    have hlate := hlate k i hi
    cases i with
    | event g e =>
        obtain ⟨notes, -, hstep⟩ := step_of_late hw hlate e
        exact ⟨notes, hstep⟩
    | _ => exact absurd hlate id
  have hmarks : ∀ k, ∀ m ∈ w.marks late k, m = false := by
    intro k
    refine eq_false_of_mem_marks fun k i hi => ?_
    obtain ⟨notes, hstep⟩ := hrefused k i hi
    exact ⟨.returned, by rw [hstep, finish_turn]⟩
  refine ⟨?_, hmarks h⟩
  intro i k _ hleft
  cases i with
  | answer o =>
      have hkept := not_leavesOut_answer (hmarks k) o
      exact absurd (hkept.symm.trans hleft) Bool.false_ne_true
  | _ =>
      obtain ⟨notes, hstep⟩ := hrefused k _ hleft
      rw [hstep]
      rfl

/-- **Late events go unnoticed.**  The events of every listener whose subscription is not the open
one are late; a late event leaves the watcher as it is and asks nothing; and a run from which late
events are taken out, whichever, comes to the same in all other steps and leads to the same
watcher. -/
theorem late_events_unnoticed {o : Options} {c : Callbacks} {home : String}
    (made : make o c home = .ok w) (h : History) :
    (∀ a ∈ w.attachments h, (w.after h).subscription ≠ some a.subscription →
        openGeneration h ≠ some a.generation) ∧
      (∀ g e, openGeneration h ≠ some g →
        ∃ notes, Logs notes ∧ (w.after h).step (.event g e) = ⟨w.after h, notes, .ends .returned⟩) ∧
      ∀ late : Choice, (∀ k i, late k i → IsLate k i) →
        w.trace (w.without late h) = w.traceWithout late h ∧
          w.after (w.without late h) = w.after h := by
  have hw := unused_of_make made
  refine ⟨?_, fun g e hlate => step_of_late hw hlate e, ?_⟩
  · intro a ha hother hopen
    exact hother (subscription_of_opened hw (opened_of_mem_attachments hw ha) hopen)
  · intro late hchosen
    obtain ⟨hharmless, hmarks⟩ := harmless_of_late hw hchosen h
    exact ⟨trace_without hw hharmless, after_without_of_settled hw hharmless hmarks⟩

/-- A change of the first subscription, told after the second watch, might as well not have come. -/
theorem late_events_unnoticed_of_second_watch :
    let again : History := .watch "/w" (.ok 1) :: watching
    let h : History := .event 1 (.change "/w/a.py") :: again
    let late : Choice := fun k i => decide (IsLate k i)
    make { ignored := [] } {} "/w" = .ok plain ∧
      (⟨0, .change, 1⟩ ∈ plain.attachments h ∧ (plain.after h).subscription ≠ some 0 ∧
        openGeneration h ≠ some 1) ∧
      (∃ notes, Logs notes ∧
        (plain.after h).step (.event 1 (.change "/w/a.py")) =
          ⟨plain.after h, notes, .ends .returned⟩) ∧
      (∀ k i, late k i → IsLate k i) ∧ plain.without late h = again ∧
      plain.trace again = plain.traceWithout late h ∧ plain.after again = plain.after h := by
  intro again h late
  obtain ⟨hlisteners, hrefused, hruns⟩ := late_events_unnoticed make_plain h
  have hmem : ⟨0, .change, 1⟩ ∈ plain.attachments h := by decide
  have hother : (plain.after h).subscription ≠ some 0 := by decide
  have hlate : openGeneration h ≠ some 1 := hlisteners _ hmem hother
  have hchosen (k : History) (i : Input) (hi : late k i) : IsLate k i := of_decide_eq_true hi
  exact ⟨make_plain, ⟨hmem, hother, hlate⟩, hrefused 1 (.change "/w/a.py") hlate, hchosen, rfl,
    hruns late hchosen⟩

/-! ## Changes whose file is not read -/

/-- The input brings an answer that is no failure. -/
def Input.succeeds : Input → Bool
  | .answer o => o.failure?.isNone
  | _ => false

/-- No file is read on behalf of the inputs that are left out: each attempt has failed. -/
def ReadsFail (w : Watcher) (c : Choice) : History → Prop
  | [] => True
  | i :: h => (w.leavesOut c h i → i.succeeds = false) ∧ ReadsFail w c h

instance (w : Watcher) (c : Choice) : (h : History) → Decidable (w.ReadsFail c h)
  | [] => .isTrue trivial
  | _ :: h =>
    have : Decidable (w.ReadsFail c h) := instDecidableReadsFail w c h
    inferInstanceAs (Decidable (_ ∧ _))

lemma ReadsFail.of_suffix {c : Choice} {h : History} (hfail : w.ReadsFail c h) {i : Input}
    {k : History} (hk : i :: k <:+ h) (hleft : w.leavesOut c k i) : i.succeeds = false := by
  induction h with
  | nil => exact absurd (List.suffix_nil.1 hk) (List.cons_ne_nil i k)
  | cons j h ih =>
      rcases List.suffix_cons_iff.1 hk with heq | hk
      · cases heq
        exact hfail.1 hleft
      · exact ih hfail.2 hk

/-- In a pause, or of an ignored path, a change comes to nothing. -/
lemma step_of_refused (hw : w.Unused) {h : History} {g : Nat} {path : String}
    (hopen : openGeneration h = some g)
    (hrefused : pausedBy h ∨ Ignore.isIgnoredBy w.patterns w.home path (rootBy w.options h)) :
    (w.after h).step (.event g (.change path)) = ⟨w.after h, [], .ends .returned⟩ := by
  have hcurrent : (w.after h).isCurrent g = true := (after_isCurrent hw h g).2 hopen
  have hdropped : ((w.after h).paused || (w.after h).ignores path) = true := by
    rw [after_paused hw, after_ignores hw, Bool.or_eq_true]
    exact hrefused
  simp [step, onChange, hcurrent, hdropped, finish]

/-- Any other change of the open subscription asks for the file, and for nothing else. -/
lemma step_of_accepts (hw : w.Unused) {h : History} {g : Nat} {path : String}
    (haccepts : w.accepts h g path) :
    (w.after h).step (.event g (.change path)) =
      ⟨{ w.after h with tasks := .reading path :: (w.after h).tasks }, [],
        .asks (.read path)⟩ := by
  obtain ⟨hopen, hpaused, hignored⟩ := haccepts
  have hcurrent : (w.after h).isCurrent g = true := (after_isCurrent hw h g).2 hopen
  have htaken : ((w.after h).paused || (w.after h).ignores path) = false := by
    rw [after_paused hw, after_ignores hw, hpaused, hignored, Bool.or_false]
  simp [step, onChange, hcurrent, htaken, ask]

/-- Until its file has been read a change does nothing. -/
lemma bare_step_change (v : Watcher) (g : Nat) (path : String) :
    (v.step (.event g (.change path))).state.bare = v.bare := by
  rw [step, onChange]
  split
  · rfl
  · split <;> rfl

/-- A failed read does nothing, and an expected failure stays inside. -/
lemma step_raised_of_reading {v : Watcher} {path : String} {rest : List Task}
    (htasks : v.tasks = .reading path :: rest) (why : Failure) :
    ∃ notes, Logs notes ∧ v.step (.answer (.raised why)) =
      ⟨{ v with tasks := rest }, notes,
        .ends (if why.isReadFailure then .returned else .raised why)⟩ := by
  simp only [step, htasks, proceed, unread]
  split
  · exact ⟨_, logs_entry _ _, rfl⟩
  · exact ⟨_, logs_nil, rfl⟩

/-- Whatever a failure answers, it does no more than end a task. -/
lemma bare_step_raised (v : Watcher) (why : Failure) :
    (v.step (.answer (.raised why))).state.bare = v.bare := by
  cases htasks : v.tasks with
  | nil => rw [step_answer_of_nil v htasks]; rfl
  | cons t ts =>
      cases t with
      | reading path =>
          obtain ⟨notes, -, hstep⟩ := step_raised_of_reading htasks why
          rw [hstep]
          rfl
      | attaching | reporting | calling => simp only [step, htasks]; rfl

/-- Taking out changes whose file is not read does no harm. -/
lemma ReadsFail.harmless {c : Choice} {h : History} (hfail : w.ReadsFail c h)
    (hchanges : ∀ k i, c k i → ∃ g path, i = .event g (.change path)) : w.Harmless c h := by
  intro i k hk hleft
  have hfails := hfail.of_suffix hk hleft
  cases i with
  | answer o =>
      cases o with
      | raised why => exact bare_step_raised _ why
      | returned | text | made => cases hfails
  | _ =>
      obtain ⟨g, path, hi⟩ := hchanges k _ hleft
      rw [hi]
      exact bare_step_change _ g path

lemma isReadFailure_iff (why : Failure) :
    why.isReadFailure ↔ why.isSystem ∨ ∃ m octets, why = .malformed m octets := by
  cases why <;> simp [Failure.isReadFailure, Failure.isSystem]

/-- **Changes whose file is not read go unnoticed.**  In a pause, and of an ignored path, a change
comes to nothing, and its file is not read.  Any other change of the open subscription asks for the
file and for nothing else; if reading fails, only a note in the log is left, and the failure goes on
to the caller unless it is one of the system or of undecodable octets.  A run from which such
changes are taken out, whichever, comes to the same in all other steps and leads to the same
watcher; a pause that is lifted makes up for none of them. -/
theorem unread_changes_unnoticed {o : Options} {c : Callbacks} {home : String}
    (made : make o c home = .ok w) (h : History) :
    (∀ g path, openGeneration h = some g →
        (pausedBy h ∨ Ignore.isIgnoredBy w.patterns w.home path (rootBy w.options h)) →
        (w.after h).step (.event g (.change path)) = ⟨w.after h, [], .ends .returned⟩) ∧
      (∀ g path, w.accepts h g path →
        (w.after h).step (.event g (.change path)) =
            ⟨{ w.after h with tasks := .reading path :: (w.after h).tasks }, [],
              .asks (.read path)⟩ ∧
          ∀ why, w.after (.answer (.raised why) :: .event g (.change path) :: h) = w.after h) ∧
      (∀ path rest why, (w.after h).tasks = .reading path :: rest →
        ∃ notes turn, Logs notes ∧
          (w.after h).step (.answer (.raised why)) =
            ⟨{ w.after h with tasks := rest }, notes, turn⟩ ∧
          ((why.isSystem ∨ ∃ m octets, why = .malformed m octets) → turn = .ends .returned) ∧
          (¬ (why.isSystem ∨ ∃ m octets, why = .malformed m octets) →
            turn = .ends (.raised why))) ∧
      (∃ notes, Logs notes ∧
        (w.after h).step .resume = ⟨{ w.after h with paused := false }, notes, .ends .returned⟩) ∧
      ∀ unread : Choice, (∀ k i, unread k i → ∃ g path, i = .event g (.change path)) →
        w.ReadsFail unread h →
        w.trace (w.without unread h) = w.traceWithout unread h ∧
          (w.after (w.without unread h)).bare = (w.after h).bare ∧
          ((∀ m ∈ w.marks unread h, m = false) →
            w.after (w.without unread h) = w.after h) := by
  have hw := unused_of_make made
  refine ⟨?_, ?_, ?_, ?_, ?_⟩
  · exact fun g path hopen hrefused => step_of_refused hw hopen hrefused
  · intro g path haccepts
    have hasks := step_of_accepts hw haccepts
    refine ⟨hasks, fun why => ?_⟩
    have htasks : (w.after (.event g (.change path) :: h)).tasks =
        .reading path :: (w.after h).tasks := by
      rw [after_cons, hasks]
    obtain ⟨notes, -, hstep⟩ := step_raised_of_reading htasks why
    rw [after_cons, hstep, after_cons, hasks]
  · intro path rest why htasks
    obtain ⟨notes, hlogs, hstep⟩ := step_raised_of_reading htasks why
    refine ⟨notes, _, hlogs, hstep, fun hexpected => ?_, fun hother => ?_⟩
    · rw [if_pos ((isReadFailure_iff why).2 hexpected)]
    · rw [if_neg (mt (isReadFailure_iff why).1 hother)]
  · rw [step, resume]
    split
    · exact ⟨_, logs_entry _ _, rfl⟩
    · exact ⟨_, logs_nil, rfl⟩
  · intro unread hchanges hfail
    have hharmless := hfail.harmless hchanges
    exact ⟨trace_without hw hharmless, (after_without hw hharmless).1,
      after_without_of_settled hw hharmless⟩

/-- A change in a pause and one whose file may not be read, with the block that stays. -/
theorem unread_changes_unnoticed_of_pause_and_permission :
    let denied := Failure.permissionDenied "/w/a.py"
    let before : History := .answer .returned :: saved "/w/a.py" "# one AI" ++ watching
    let paused : History := .pause :: before
    let again : History := .resume :: .event 1 (.change "/w/a.py") :: paused
    let reading : History := .event 1 (.change "/w/a.py") :: again
    let h : History := .answer (.raised denied) :: reading
    let unread : Choice := fun k i => decide (before.length ≤ k.length) &&
      i matches .event _ (.change _)
    make { ignored := [] } {} "/w" = .ok plain ∧
      (openGeneration paused = some 1 ∧ pausedBy paused ∧
        (plain.after paused).step (.event 1 (.change "/w/a.py")) =
          ⟨plain.after paused, [], .ends .returned⟩) ∧
      (plain.accepts again 1 "/w/a.py" ∧
        ((plain.after again).step (.event 1 (.change "/w/a.py"))).turn =
          .asks (.read "/w/a.py")) ∧
      ((plain.after reading).tasks = .reading "/w/a.py" :: [] ∧
        ((plain.after reading).step (.answer (.raised denied))).turn = .ends .returned) ∧
      (∀ k i, unread k i → ∃ g path, i = .event g (.change path)) ∧ plain.ReadsFail unread h ∧
      plain.without unread h = .resume :: paused ∧
      plain.trace (.resume :: paused) = plain.traceWithout unread h ∧
      plain.after (.resume :: paused) = plain.after h ∧
      (plain.after h).pending.get "/w/a.py" = [⟨"/w/a.py", 1, ["# one AI"], false⟩] := by
  intro denied before paused again reading h unread
  have hopen : openGeneration paused = some 1 := by decide
  have hpaused : pausedBy paused := by decide
  have haccepts : plain.accepts again 1 "/w/a.py" := by decide
  have htasks : (plain.after reading).tasks = .reading "/w/a.py" :: [] := by decide
  have hchanges (k : History) (i : Input) (hi : unread k i) :
      ∃ g path, i = .event g (.change path) := by
    have hi := (Bool.and_eq_true_iff.1 hi).2
    split at hi
    · exact ⟨_, _, rfl⟩
    · cases hi
  have hfail : plain.ReadsFail unread h := by decide
  have hsettled : ∀ m ∈ plain.marks unread h, m = false := by decide
  have hdropped := (unread_changes_unnoticed make_plain paused).1 1 "/w/a.py" hopen (Or.inl hpaused)
  have hasks := ((unread_changes_unnoticed make_plain again).2.1 1 "/w/a.py" haccepts).1
  obtain ⟨notes, turn, -, hstep, hexpected, -⟩ :=
    (unread_changes_unnoticed make_plain reading).2.2.1 "/w/a.py" [] denied htasks
  obtain ⟨htrace, -, hafter⟩ :=
    (unread_changes_unnoticed make_plain h).2.2.2.2 unread hchanges hfail
  refine ⟨make_plain, ⟨hopen, hpaused, hdropped⟩, ⟨haccepts, by rw [hasks]⟩, ⟨htasks, ?_⟩,
    hchanges, hfail, rfl, htrace, hafter hsettled, by decide⟩
  rw [hstep, hexpected (Or.inl rfl)]

end Marginalia.Watcher
