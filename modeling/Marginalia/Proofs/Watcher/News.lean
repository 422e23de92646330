import Marginalia.Proofs.Watcher.Deeds
import Marginalia.Proofs.Watcher.Supersession

/-!
# What the host is told of a change

A change whose content holds no trigger is reported block by block, but only what is new: a block
whose first line and text stood together in the former content of the file is passed over.  The
watcher compares keys, so this is said under the condition that the digests of the texts involved
tell them apart (`DigestsTell`).

`Unfolds` follows one input through all questions that it leads to, each of which is answered at
once and without a failure; it covers exactly the hosts whose callbacks neither call back nor fail.
`Awaits` says that the content of an accepted change is being waited for, whatever has come in since
the change, and `acts` reads off a history what was done to the pending set, also where other inputs
came in while a file was read.

The main result is `news_of_awaits`.
-/

namespace Marginalia.Watcher

open Notifier (Event EventKind)

/-! ## What is new -/

/-- The blocks whose first line and text do not stand together in one of the former blocks. -/
def newAmong (previous blocks : List Block) : List Block :=
  blocks.filter fun b => previous.all fun p => ¬ (p.line = b.line ∧ p.text = b.text)

/-- Different texts of the former blocks and the present ones have different digests. -/
def DigestsTell (previous blocks : List Block) : Prop :=
  ∀ p ∈ previous, ∀ b ∈ blocks, p.digest = b.digest → p.text = b.text

instance (previous blocks : List Block) : Decidable (DigestsTell previous blocks) :=
  inferInstanceAs (Decidable (∀ p ∈ previous, ∀ b ∈ blocks, _ → _))

/-- The blocks whose keys are not among some known ones. -/
def unknownTo (known : List String) (blocks : List Block) : List Block :=
  blocks.filter fun b => ¬ known.contains b.key

/-- Comparing keys finds what is new. -/
lemma unknownTo_keys {previous blocks : List Block} {path : String}
    (hprevious : ∀ p ∈ previous, p.path = path) (hblocks : ∀ b ∈ blocks, b.path = path)
    (htell : DigestsTell previous blocks) :
    unknownTo (previous.map (·.key)) blocks = newAmong previous blocks := by
  refine List.filter_congr fun b hb => ?_
  have hsame {p : Block} (hp : p ∈ previous) :
      p.key = b.key ↔ p.line = b.line ∧ p.text = b.text := by
    rw [Block.key_eq_iff ((hprevious p hp).trans (hblocks b hb).symm)]
    refine and_congr_right fun _ => ⟨htell p hp b hb, fun htext => ?_⟩
    rw [Block.digest, Block.digest, htext]
  rw [Bool.eq_iff_iff, decide_eq_true_iff, List.all_eq_true, List.contains_iff_mem, List.mem_map]
  constructor
  · intro hno p hp
    exact decide_eq_true fun heq => hno ⟨p, hp, (hsame hp).2 heq⟩
  · rintro hall ⟨p, hp, hkey⟩
    exact of_decide_eq_true (hall p hp) ((hsame hp).1 hkey)

/-- Nothing is new next to itself. -/
lemma newAmong_self (blocks : List Block) : newAmong blocks blocks = [] := by
  refine List.filter_eq_nil_iff.2 fun b hb hall => ?_
  exact of_decide_eq_true (List.all_eq_true.1 hall b hb) ⟨rfl, rfl⟩

/-! ## Following an input -/

/-- The input, put in after a history, leads to the questions, one after the other, each of which is
answered at once and without a failure; then its call ends without one, and `h'` has come in. -/
inductive Unfolds (w : Watcher) : History → Input → List Question → History → Prop
  | ends {h : History} {i : Input} (hturn : ((w.after h).step i).turn = .ends .returned) :
    Unfolds w h i [] (i :: h)
  | asks {h h' : History} {i : Input} {q : Question} {qs : List Question}
    (hturn : ((w.after h).step i).turn = .asks q)
    (hrest : Unfolds w (i :: h) (.answer .returned) qs h') : Unfolds w h i (q :: qs) h'

/-- `n` callbacks have returned. -/
def returns (n : Nat) : History :=
  List.replicate n (.answer .returned)

variable {w : Watcher}

lemma returns_succ (n : Nat) (i : Input) (h : History) :
    returns (n + 1) ++ i :: h = returns n ++ .answer .returned :: i :: h := by
  rw [returns, returns, List.replicate_succ', List.append_assoc, List.singleton_append]

/-- **A report unfolds** into one question for each block whose key is not known, and leaves the
watcher as it was when the report began. -/
lemma unfolds_report {v : Watcher} (hthere : v.callbacks.comment) (path : String)
    (known : List String) (all rest : List Block) {h : History} {i : Input} {notes : List Note}
    (hstep : (w.after h).step i = v.report notes path known all rest) :
    w.Unfolds h i ((unknownTo known rest).map (.comment · all))
        (returns (unknownTo known rest).length ++ i :: h) ∧
      w.after (returns (unknownTo known rest).length ++ i :: h) = v := by
  induction rest generalizing h i notes with
  | nil =>
      refine ⟨.ends (by rw [hstep]; rfl), ?_⟩
      rw [unknownTo, List.filter_nil]
      exact (after_cons w i h).trans (by rw [hstep]; rfl)
  | cons b rest ih =>
      by_cases hb : known.contains b.key
      · have hskip : unknownTo known (b :: rest) = unknownTo known rest :=
          List.filter_cons_of_neg (by simpa using hb)
        rw [report, if_pos hb] at hstep
        rw [hskip]
        exact ih hstep
      · have hnew : unknownTo known (b :: rest) = b :: unknownTo known rest :=
          List.filter_cons_of_pos (by simpa using hb)
        rw [report, if_neg hb, if_pos hthere] at hstep
        have hafter : w.after (i :: h) =
            { v with tasks := .reporting path known all rest :: v.tasks } := by
          rw [after_cons, hstep]
          rfl
        -- The answer takes the report up where it was left, with the rest of the blocks.
        have hnext : (w.after (i :: h)).step (.answer .returned) =
            v.report [] path known all rest := by
          rw [hafter]
          rfl
        obtain ⟨hunfolds, hend⟩ := ih hnext
        rw [hnew, List.map_cons, List.length_cons, returns_succ]
        exact ⟨.asks (by rw [hstep]; rfl) hunfolds, hend⟩

lemma unfolds_store {v : Watcher} (hthere : v.callbacks.comment) (path : String)
    (blocks : List Block) {h : History} {i : Input} {notes : List Note}
    (hstep : (w.after h).step i = v.store notes path blocks) :
    let news := unknownTo ((v.pending.get path).map (·.key)) blocks
    let kept := v.pending.replace path blocks
    w.Unfolds h i (news.map (.comment · kept.snapshot)) (returns news.length ++ i :: h) ∧
      w.after (returns news.length ++ i :: h) = { v with pending := kept } := by
  intro news kept
  rw [store] at hstep
  split at hstep
  · rename_i hempty
    have hnews : news = [] := by
      rw [List.isEmpty_iff] at hempty
      subst hempty
      rfl
    rw [hnews]
    refine ⟨.ends (by rw [hstep]; rfl), ?_⟩
    exact (after_cons w i h).trans (by rw [hstep]; rfl)
  · exact unfolds_report (v := { v with pending := kept }) hthere path _ _ _ hstep

/-! ## What was done to the pending set -/

/-- What an input does to the pending set.  The content of a file may come at any time after it was
asked for. -/
def actUpon? (w : Watcher) (h : History) : Input → Option Deed
  | .clear => some .cleared
  | .answer o =>
    match w.underway h with
    | (.reading path, _) :: _ => (contentOf? o).map (.took path ·)
    | _ => none
  | _ => none

/-- What a history does to the pending set, the latest deed first. -/
def acts (w : Watcher) : History → List Deed
  | [] => []
  | i :: h => (w.actUpon? h i).toList ++ acts w h

/-- **The pending set** is what was done to it, whatever came in while files were read. -/
lemma after_pending_acts (hw : w.Unused) (h : History) :
    (w.after h).pending = pendingOf (w.acts h) := by
  induction h with
  | nil => exact hw.pending
  | cons i h ih =>
      rw [after_cons, step_pending, acts]
      cases i with
      | clear => rfl
      | answer o =>
          rw [pendingUpon, ← map_fst_underway hw h, actUpon?]
          cases hu : w.underway h with
          | nil => exact ih
          | cons u us =>
              obtain ⟨t, j⟩ := u
              cases t with
              | reading path =>
                  cases hc : contentOf? o with
                  | none => simpa [pendingAfter, hc] using ih
                  | some content => simp [pendingAfter, hc, pendingOf, ih]
              | _ => exact ih
      | _ => exact ih

/-! ## Changes that wait for their content -/

/-- The content of an accepted change is what is waited for: the file is being read for the sake of
the change, and all that came in since is done with. -/
def Awaits (w : Watcher) (h : History) (g : Nat) (path : String) : Prop :=
  ∃ during before, h = during ++ .event g (.change path) :: before ∧ w.accepts before g path ∧
    w.underway h = (.reading path, .event g (.change path)) :: w.underway before

/-- A change that was just accepted waits for its content. -/
lemma awaits_of_accepts (hw : w.Unused) {h : History} {g : Nat} {path : String}
    (accepts : w.accepts h g path) : w.Awaits (.event g (.change path) :: h) g path := by
  refine ⟨[], h, rfl, accepts, ?_⟩
  have hturn := (after_asks_read_iff hw h g path).2 accepts
  have hstep := step_tasks (w.after h) (.event g (.change path))
  rw [hturn] at hstep
  obtain ⟨t, rfl, htasks⟩ := hstep
  exact underway_of_asks hturn htasks

lemma tasks_of_awaits (hw : w.Unused) {h : History} {g : Nat} {path : String}
    (awaits : w.Awaits h g path) :
    (w.after h).tasks = .reading path :: (w.after h).tasks.tail := by
  obtain ⟨during, before, -, -, hu⟩ := awaits
  rw [tasks_of_underway hw hu, List.tail_cons]

/-! ## What the host is told -/

/-- **Only what is new is told**: for a change whose content holds no trigger the host is called
once for each block that is new next to the former ones of the file, in the order of the file and
each time with all that waits then; it is not called for anything else, and nothing but the pending
set is another one afterwards.  Where the content is the one in force, the host is not called, and
what waits stays as it is. -/
theorem news_of_awaits {o : Options} {c : Callbacks} {home : String}
    (made : make o c home = .ok w) (hthere : c.comment) {h : History} {g : Nat}
    {path content : String} (awaits : w.Awaits h g path)
    (plain : ¬ Block.anyTrigger (Block.ofContent path content))
    (tell : DigestsTell ((w.after h).pending.get path) (Block.ofContent path content)) :
    let blocks := Block.ofContent path content
    let news := newAmong ((w.after h).pending.get path) blocks
    let kept := (w.after h).pending.replace path blocks
    let told := returns news.length ++ .answer (.text content) :: h
    w.Unfolds h (.answer (.text content)) (news.map (.comment · kept.snapshot)) told ∧
      w.after told =
        { w.after h with pending := kept, tasks := (w.after h).tasks.tail } ∧
      (∀ b ∈ news, b ∈ kept.snapshot) ∧
      (contentInForce? path (w.acts h) = some content →
        news = [] ∧ kept = (w.after h).pending) := by
  intro blocks news kept told
  have hw := unused_of_make made
  have hpending := after_pending_acts hw h
  have htidy : (w.after h).pending.Tidy := hpending ▸ tidy_pendingOf _
  have hprevious : ∀ b ∈ (w.after h).pending.get path, b.path = path := by
    rw [hpending]
    exact fun b hb => (mem_get_pendingOf hb).1
  have hnews : unknownTo (((w.after h).pending.get path).map (·.key)) blocks = news :=
    unknownTo_keys hprevious (fun b hb => Block.path_of_mem_ofContent hb) tell
  obtain ⟨notes, -, hscan⟩ := scan_of_not_anyTrigger
    { w.after h with tasks := (w.after h).tasks.tail } plain
  have hstep : (w.after h).step (.answer (.text content)) =
      { w.after h with tasks := (w.after h).tasks.tail }.store notes path blocks := by
    rw [← hscan]
    simp only [step]
    rw [tasks_of_awaits hw awaits]
    rfl
  have hcomment : (w.after h).callbacks.comment := by
    rw [after_callbacks, callbacks_of_make made]
    exact hthere
  obtain ⟨hunfolds, hafter⟩ := unfolds_store
    (v := { w.after h with tasks := (w.after h).tasks.tail }) hcomment path blocks hstep
  rw [hnews] at hunfolds hafter
  refine ⟨hunfolds, hafter, fun b hb => ?_, fun hforce => ?_⟩
  · have hget : b ∈ kept.get path := by
      rw [Pending.get_replace, if_pos rfl]
      exact List.mem_of_mem_filter hb
    exact (htidy.replace path blocks).mem_snapshot_of_mem_get hget
  · have hsame : (w.after h).pending.get path = blocks := by
      rw [hpending, get_pendingOf, hforce, Option.map_some, Option.getD_some]
    have hnone : news = newAmong blocks blocks := congrArg (newAmong · blocks) hsame
    have hback : kept = (w.after h).pending.replace path ((w.after h).pending.get path) := by
      rw [hsame]
    exact ⟨hnone.trans (newAmong_self blocks), hback.trans (htidy.replace_get path)⟩

/-- A block that was shifted is told anew, one that stays in its place is not; and the same content
once more is passed over. -/
theorem news_of_awaits_of_shift :
    let content := "# one AI\n\n\n# two AI"
    let former : History := .answer .returned :: .answer .returned ::
      saved "/w/a.py" "# one AI\n\n# two AI" ++ watching
    let h : History := .event 1 (.change "/w/a.py") :: former
    let told : History := .answer .returned :: .answer (.text content) :: h
    let again : History := .event 1 (.change "/w/a.py") :: told
    let one : Block := ⟨"/w/a.py", 1, ["# one AI"], false⟩
    let two : Block := ⟨"/w/a.py", 4, ["# two AI"], false⟩
    make { ignored := [] } {} "/w" = .ok Watcher.plain ∧
      (Watcher.plain.Awaits h 1 "/w/a.py" ∧
        Watcher.plain.Unfolds h (.answer (.text content)) [.comment two [one, two]] told) ∧
      (Watcher.plain.Awaits again 1 "/w/a.py" ∧
        contentInForce? "/w/a.py" (Watcher.plain.acts again) = some content ∧
        Watcher.plain.Unfolds again (.answer (.text content)) []
          (.answer (.text content) :: again)) := by
  intro content former h told again one two
  have hw := unused_of_make make_plain
  have awaits : Watcher.plain.Awaits h 1 "/w/a.py" := awaits_of_accepts hw (by decide)
  have awaits' : Watcher.plain.Awaits again 1 "/w/a.py" := awaits_of_accepts hw (by decide)
  have plain : ¬ Block.anyTrigger (Block.ofContent "/w/a.py" content) := by decide
  have hfirst := (news_of_awaits make_plain rfl awaits plain (by decide +kernel)).1
  obtain ⟨hsecond, -, -, hsame⟩ :=
    news_of_awaits make_plain rfl awaits' plain (by decide +kernel)
  have hnews : newAmong ((Watcher.plain.after h).pending.get "/w/a.py")
      (Block.ofContent "/w/a.py" content) = [two] := by decide +kernel
  have hkept : ((Watcher.plain.after h).pending.replace "/w/a.py"
      (Block.ofContent "/w/a.py" content)).snapshot = [one, two] := by decide +kernel
  have hforce : contentInForce? "/w/a.py" (Watcher.plain.acts again) = some content := by
    decide +kernel
  rw [hnews, hkept] at hfirst
  rw [(hsame hforce).1] at hsecond
  exact ⟨make_plain, ⟨awaits, hfirst⟩, ⟨awaits', hforce, hsecond⟩⟩

end Marginalia.Watcher
