import Marginalia.Proofs.Block
import Marginalia.Proofs.Pending
import Marginalia.Proofs.Watcher.History

/-!
# What a history does to the pending set

Of all inputs two kinds touch the pending set: `clear`, and the answer that brings the content of a
file whose change was accepted.  `deeds` reads them off a history, and `after_pending` says that the
pending set of a watcher that was just made is `pendingOf` them.

This holds as long as the reading of files is not re-entered: `Prompt` says that whoever is asked to
read a file answers before anything else comes in.  Every other question may be followed by any
inputs.  The invariant behind it is `after_tasks`: a task to read a file is the latest one, and it
is there exactly when the last input was an accepted change of the file.

`pending_get_eq_ofContent` is the main result: what waits for a file are the blocks of the content
in force, `contentInForce?`.
-/

namespace Marginalia.Watcher

open Notifier (Event EventKind)

/-! ## Reading -/

/-- The file that an input causes to be read. -/
def readUpon? (w : Watcher) (h : History) : Input → Option String
  | .event g (.change path) => if w.accepts h g path then some path else none
  | _ => none

/-- The file that is being read after a history. -/
def reading? (w : Watcher) : History → Option String
  | [] => none
  | i :: h => w.readUpon? h i

/-- The input is what comes of reading a file: its content or a failure. -/
def Input.bringsFile : Input → Bool
  | .answer (.text _) | .answer (.raised _) => true
  | _ => false

/-- Whoever is asked to read a file answers before anything else comes in. -/
def Prompt (w : Watcher) : History → Prop
  | [] => True
  | i :: h => ((w.reading? h).isSome → i.bringsFile) ∧ Prompt w h

instance decidablePrompt (w : Watcher) : (h : History) → Decidable (w.Prompt h)
  | [] => .isTrue trivial
  | _ :: h =>
    have := decidablePrompt w h
    inferInstanceAs (Decidable (_ ∧ _))

/-! ## Deeds -/

/-- What is done to the pending set. -/
inductive Deed
  /-- The content of a file was taken in. -/
  | took (path content : String)
  | cleared
  deriving DecidableEq, Repr

/-- What an input does to the pending set. -/
def deedUpon? (w : Watcher) (h : History) : Input → Option Deed
  | .clear => some .cleared
  | .answer (.text content) => (w.reading? h).map (.took · content)
  | _ => none

/-- What a history does to the pending set, the latest deed first. -/
def deeds (w : Watcher) : History → List Deed
  | [] => []
  | i :: h => (w.deedUpon? h i).toList ++ deeds w h

namespace Deed

/-- The deed leaves nothing that waits: it clears, or takes in content with a line that is a
trigger. -/
def flushes : Deed → Bool
  | .took _ content => (Text.lines content).any (Marker.ofLine? · = some .trigger)
  | .cleared => true

/-- The content of the file that the deed takes in. -/
def contentOf? (path : String) : Deed → Option String
  | .took q content => if q = path then some content else none
  | .cleared => none

end Deed

/-- The content of a file that was taken in last, provided that nothing was flushed since. -/
def contentInForce? (path : String) (ds : List Deed) : Option String :=
  (ds.takeWhile (!·.flushes)).findSome? (Deed.contentOf? path)

/-- The pending set that deeds lead to. -/
def pendingOf : List Deed → Pending
  | [] => .empty
  | .took path content :: ds => takingIn (pendingOf ds) path content
  | .cleared :: _ => .empty

variable {w : Watcher}

lemma deedUpon?_eq_took_iff {h : History} {i : Input} {path content : String} :
    w.deedUpon? h i = some (.took path content) ↔
      i = .answer (.text content) ∧ w.reading? h = some path := by
  unfold deedUpon?
  split <;> simp_all [and_comm]

lemma deedUpon?_eq_cleared_iff {h : History} {i : Input} :
    w.deedUpon? h i = some .cleared ↔ i = .clear := by
  unfold deedUpon?
  split <;> simp_all

/-! ## The task to read -/

/-- No answer leads to another reading. -/
lemma questionAfter?_ne_read (v : Watcher) (o : Outcome) (t : Task) (path : String) :
    v.questionAfter? o t ≠ some (.read path) := by
  intro h
  rcases questionAfter?_cases v h with ⟨_, _, _, _, -, hq⟩ | ⟨_, hq⟩ | ⟨_, _, hq⟩ <;> cases hq

/-- **A file is read** exactly upon an accepted change of it. -/
theorem step_asks_read_iff (hw : w.Unused) (h : History) (i : Input) (path : String) :
    ((w.after h).step i).turn = .asks (.read path) ↔ w.readUpon? h i = some path := by
  rw [step_asks_iff]
  cases i with
  | watch root opened => cases opened <;> simp [questionUpon?, readUpon?]
  | close | pause | resume | clear => simp [questionUpon?, readUpon?]
  | event g e =>
      cases e with
      | ready | error => simp [questionUpon?, questionOfEvent?, readUpon?]
      | change q =>
          by_cases hq : q = path
          · subst hq
            rw [← step_asks_iff, after_asks_read_iff hw, readUpon?]
            split <;> simp_all
          · simp [questionUpon?, questionOfEvent?, readUpon?, hq]
  | answer o =>
      have hnone : (w.after h).tasks.head?.bind ((w.after h).questionAfter? o) ≠
          some (.read path) := by
        intro hq
        obtain ⟨t, -, ht⟩ := Option.bind_eq_some_iff.1 hq
        exact questionAfter?_ne_read _ o t path ht
      simp [questionUpon?, hnone, readUpon?]

/-- No file is being read. -/
def NoReading (ts : List Task) : Prop :=
  ∀ path, Task.reading path ∉ ts

lemma Question.Leaves.ne_reading {q : Question} {t : Task} (h : q.Leaves t)
    (hq : ∀ path, q ≠ .read path) (path : String) : t ≠ .reading path := by
  rintro rfl
  cases q with
  | read q => exact hq q rfl
  | attach id kind g => obtain ⟨rest, hr⟩ := h; cases hr
  | comment b all => obtain ⟨q, known, rest, hr⟩ := h; cases hr
  | trigger | ready | error => cases h

/-- Before anything new is begun, no reading is left over. -/
lemma noReading_tasksUpon {h : History} {i : Input} {ts : List Task}
    (hts : (w.after h).tasks = ((w.reading? h).map Task.reading).toList ++ ts)
    (hno : NoReading ts) (hp : (w.reading? h).isSome → i.bringsFile) :
    NoReading ((w.after h).tasksUpon i) := by
  cases hr : w.reading? h with
  | none =>
      rw [hr] at hts
      have hsub : (w.after h).tasksUpon i ⊆ ts := by
        rw [show ts = (w.after h).tasks from hts.symm]
        cases i with
        | answer o => exact List.tail_subset _
        | _ => exact List.Subset.refl _
      exact fun path hmem => hno path (hsub hmem)
  | some q =>
      rw [hr] at hts hp
      cases i with
      | answer o =>
          rw [tasksUpon, hts]
          exact hno
      | _ => exact absurd (hp rfl) Bool.false_ne_true

/-- **A task to read a file** is there exactly when the last input was an accepted change of that
file, and then it is the latest task. -/
theorem after_tasks (hw : w.Unused) {h : History} (hp : w.Prompt h) :
    ∃ ts, (w.after h).tasks = ((w.reading? h).map Task.reading).toList ++ ts ∧
      NoReading ts := by
  induction h with
  | nil => exact ⟨[], by rw [after_nil, hw.tasks]; rfl, fun path => List.not_mem_nil⟩
  | cons i h ih =>
      obtain ⟨ts, hts, hno⟩ := ih hp.2
      have hupon : NoReading ((w.after h).tasksUpon i) := noReading_tasksUpon hts hno hp.1
      have hask := step_asks_read_iff hw h i
      have hstep := step_tasks (w.after h) i
      rw [after_cons, reading?]
      cases hturn : ((w.after h).step i).turn with
      | ends o =>
          rw [hturn] at hstep
          have hnone : w.readUpon? h i = none :=
            Option.eq_none_iff_forall_ne_some.2 fun path hr => by
              rw [← hask, hturn] at hr
              cases hr
          exact ⟨_, by rw [hnone, hstep]; rfl, hupon⟩
      | asks q =>
          rw [hturn] at hstep
          obtain ⟨t, hleaves, htasks⟩ := hstep
          -- Only a question for a file puts a new reading on top of the tasks.
          by_cases hq : ∃ path, q = .read path
          · obtain ⟨path, rfl⟩ := hq
            have hsome : w.readUpon? h i = some path := (hask path).1 hturn
            have ht : t = .reading path := hleaves
            exact ⟨_, by rw [hsome, htasks, ht]; rfl, hupon⟩
          · have hne : ∀ path, q ≠ .read path := fun path h => hq ⟨path, h⟩
            have hnone : w.readUpon? h i = none :=
              Option.eq_none_iff_forall_ne_some.2 fun path hr => by
                rw [← hask, hturn, Turn.asks.injEq] at hr
                exact hne path hr
            refine ⟨t :: (w.after h).tasksUpon i, by rw [hnone, htasks]; rfl, ?_⟩
            intro path hmem
            rcases List.mem_cons.1 hmem with ht | hmem
            · exact hleaves.ne_reading hne path ht.symm
            · exact hupon path hmem

/-- While a file is being read, that is the latest task. -/
lemma head?_tasks_of_reading (hw : w.Unused) {h : History} (hp : w.Prompt h) {path : String}
    (hr : w.reading? h = some path) : (w.after h).tasks.head? = some (.reading path) := by
  obtain ⟨ts, hts, -⟩ := after_tasks hw hp
  rw [hts, hr]
  rfl

/-- While none is being read, the latest task is another one. -/
lemma ne_reading_of_mem_head? (hw : w.Unused) {h : History} (hp : w.Prompt h)
    (hr : w.reading? h = none) {t : Task} (ht : t ∈ (w.after h).tasks.head?) (path : String) :
    t ≠ .reading path := by
  obtain ⟨ts, hts, hno⟩ := after_tasks hw hp
  rw [hr] at hts
  rintro rfl
  have hmem := List.mem_of_mem_head? ht
  rw [hts] at hmem
  exact hno path hmem

lemma reading?_eq_some_iff {h : History} {path : String} :
    w.reading? h = some path ↔
      ∃ g before, h = .event g (.change path) :: before ∧ w.accepts before g path := by
  cases h with
  | nil => simp [reading?]
  | cons i before =>
      rw [reading?]
      cases i with
      | event g e =>
          cases e with
          | change q =>
              by_cases hacc : w.accepts before g q
              · simp only [readUpon?, if_pos hacc, Option.some.injEq, List.cons.injEq,
                  Input.event.injEq, Event.change.injEq]
                constructor
                · rintro rfl
                  exact ⟨g, before, ⟨⟨rfl, rfl⟩, rfl⟩, hacc⟩
                · rintro ⟨g', before', ⟨⟨-, hq⟩, -⟩, -⟩
                  exact hq
              · simp only [readUpon?, if_neg hacc, List.cons.injEq, Input.event.injEq,
                  Event.change.injEq]
                constructor
                · intro hnone
                  cases hnone
                · rintro ⟨g', before', ⟨⟨rfl, rfl⟩, rfl⟩, hacc'⟩
                  exact absurd hacc' hacc
          | ready | error => simp [readUpon?]
      | _ => simp [readUpon?]

/-! ## What deeds make of the pending set -/

/-- The blocks of the content are what shows whether it flushes. -/
lemma Deed.flushes_took (path content : String) :
    (Deed.took path content).flushes = Block.anyTrigger (Block.ofContent path content) :=
  (Block.anyTrigger_ofContent path content).symm

lemma tidy_takingIn {p : Pending} (h : p.Tidy) (path content : String) :
    (takingIn p path content).Tidy := by
  unfold takingIn
  split
  · exact Pending.tidy_empty
  · exact h.replace path _

lemma tidy_pendingOf (ds : List Deed) : (pendingOf ds).Tidy := by
  induction ds with
  | nil => exact Pending.tidy_empty
  | cons d ds ih =>
      cases d with
      | took path content => exact tidy_takingIn ih path content
      | cleared => exact Pending.tidy_empty

lemma pendingOf_of_flushes {d : Deed} (h : d.flushes) (ds : List Deed) :
    pendingOf (d :: ds) = .empty := by
  cases d with
  | took path content =>
      rw [Deed.flushes_took] at h
      exact if_pos h
  | cleared => rfl

lemma contentInForce?_of_flushes {d : Deed} (h : d.flushes) (path : String) (ds : List Deed) :
    contentInForce? path (d :: ds) = none := by
  simp [contentInForce?, h]

lemma contentInForce?_of_not_flushes {d : Deed} (h : ¬ d.flushes) (path : String)
    (ds : List Deed) :
    contentInForce? path (d :: ds) =
      ((Deed.contentOf? path d).or (contentInForce? path ds)) := by
  rw [contentInForce?, List.takeWhile_cons_of_pos (by simpa using h), List.findSome?_cons]
  cases Deed.contentOf? path d <;> rfl

/-- What waits for a file are the blocks of the content in force. -/
lemma get_pendingOf (path : String) (ds : List Deed) :
    (pendingOf ds).get path =
      ((contentInForce? path ds).map (Block.ofContent path)).getD [] := by
  induction ds with
  | nil => rfl
  | cons d ds ih =>
      by_cases hd : d.flushes
      · rw [pendingOf_of_flushes hd, contentInForce?_of_flushes hd]
        rfl
      · rw [contentInForce?_of_not_flushes hd]
        cases d with
        | cleared => exact absurd rfl hd
        | took q content =>
            have hkept : pendingOf (.took q content :: ds) =
                (pendingOf ds).replace q (Block.ofContent q content) :=
              if_neg (by rwa [Deed.flushes_took] at hd)
            rw [hkept, Pending.get_replace, ih, Deed.contentOf?]
            by_cases hq : q = path
            · subst hq
              simp
            · simp [hq, Ne.symm hq]

/-- The content in force holds no trigger. -/
lemma not_anyTrigger_of_inForce {path content : String} {ds : List Deed}
    (h : contentInForce? path ds = some content) :
    ¬ Block.anyTrigger (Block.ofContent path content) := by
  obtain ⟨d, hd, hcontent⟩ := List.exists_of_findSome?_eq_some h
  have hflush : (!d.flushes) = true :=
    List.mem_takeWhile_imp (p := fun d : Deed => !d.flushes) hd
  cases d with
  | cleared => simp [Deed.contentOf?] at hcontent
  | took q c =>
      by_cases hq : q = path
      · subst hq
        simp only [Deed.contentOf?, if_true, Option.some.injEq] at hcontent
        subst hcontent
        simpa [Deed.flushes_took] using hflush
      · simp [Deed.contentOf?, hq] at hcontent

/-- A block that waits carries the path of its file and holds no trigger. -/
lemma mem_get_pendingOf {path : String} {ds : List Deed} {b : Block}
    (hb : b ∈ (pendingOf ds).get path) : b.path = path ∧ b.trigger = false := by
  rw [get_pendingOf] at hb
  cases hc : contentInForce? path ds with
  | none =>
      rw [hc] at hb
      exact absurd hb List.not_mem_nil
  | some content =>
      rw [hc] at hb
      exact ⟨Block.path_of_mem_ofContent hb,
        Block.trigger_of_mem (not_anyTrigger_of_inForce hc) hb⟩

/-! ## The pending set is what the deeds make it -/

/-- **The pending set** of a watcher that was just made is what the deeds make it. -/
theorem after_pending (hw : w.Unused) {h : History} (hp : w.Prompt h) :
    (w.after h).pending = pendingOf (w.deeds h) := by
  induction h with
  | nil => exact hw.pending
  | cons i h ih =>
      have ih := ih hp.2
      rw [after_cons, step_pending, deeds]
      cases i with
      | clear => rfl
      | answer o =>
          cases hr : w.reading? h with
          | none =>
              -- The answer is to another question, which leaves the pending set alone.
              have hsame : (w.after h).pendingUpon (.answer o) = (w.after h).pending := by
                rw [pendingUpon]
                cases hh : (w.after h).tasks.head? with
                | none => rfl
                | some t =>
                    have hne := ne_reading_of_mem_head? hw hp.2 hr hh
                    cases t with
                    | reading path => exact absurd rfl (hne path)
                    | _ => rfl
              rw [hsame, ih]
              cases o <;> simp [deedUpon?, hr]
          | some path =>
              have hprompt : (Input.answer o).bringsFile := hp.1 (by rw [hr]; rfl)
              rw [pendingUpon, head?_tasks_of_reading hw hp.2 hr, ih]
              cases o with
              | text content => simp [deedUpon?, hr, pendingAfter, contentOf?, pendingOf]
              | raised why => simp [deedUpon?, pendingAfter, contentOf?]
              | returned | made => exact absurd hprompt Bool.false_ne_true
      | _ => exact ih

/-- **What waits for a file** are the blocks of the content in force: that of its latest accepted
change since the last flush.  What is kept for a file is never empty, carries the path of the file
and holds no trigger, and no file is kept twice. -/
theorem pending_get_eq_ofContent {o : Options} {c : Callbacks} {home : String}
    (made : make o c home = .ok w) {h : History} (prompt : w.Prompt h) :
    (∀ path, (w.after h).pending.get path =
        ((contentInForce? path (w.deeds h)).map (Block.ofContent path)).getD []) ∧
      (∀ path blocks, (path, blocks) ∈ (w.after h).pending.entries →
        blocks ≠ [] ∧ ∀ b ∈ blocks, b.path = path ∧ b.trigger = false) ∧
      ((w.after h).pending.entries.map Prod.fst).Nodup := by
  have hpending := after_pending (unused_of_make made) prompt
  have htidy := tidy_pendingOf (w.deeds h)
  rw [hpending]
  refine ⟨fun path => get_pendingOf path _, fun path blocks he => ?_, htidy.nodup⟩
  obtain ⟨hget, hne⟩ := (htidy.mem_entries_iff path blocks).1 he
  exact ⟨hne, fun b hb => mem_get_pendingOf (hget ▸ hb)⟩

/-- A note that was kept is gone after a trigger in another file; a later note is kept. -/
theorem pending_get_eq_ofContent_of_three_saves :
    let h := saved "/w/c.py" "# later AI" ++ .answer .returned :: saved "/w/b.py" "# now AI!" ++
      saved "/w/a.py" "# note AI" ++ watching
    make { ignored := [] } {} "/w" = .ok plain ∧ plain.Prompt h ∧
      (plain.after h).pending.get "/w/a.py" = [] ∧
      (plain.after h).pending.get "/w/c.py" = [⟨"/w/c.py", 1, ["# later AI"], false⟩] := by
  intro h
  have prompt : plain.Prompt h := by decide
  have hget := (pending_get_eq_ofContent make_plain prompt).1
  exact ⟨make_plain, prompt, (hget "/w/a.py").trans (by decide),
    (hget "/w/c.py").trans (by decide)⟩

end Marginalia.Watcher
