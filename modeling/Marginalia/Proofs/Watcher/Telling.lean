import Marginalia.Proofs.Grouping
import Marginalia.Proofs.Watcher.News

/-!
# Whether the host is told of what waits

The content of a file begins a report of its new blocks, and the host is told of one after the
other. If it fails at one of them the report is left, and of the blocks behind it nothing is said.
They wait by then, so that they are not new to any later report: no later change makes up for the
failure (`left_out_for_good`).

Each step keeps an account of this (`balance`): what is new and what was due before it is what is
told by it, what is left out by it, and what is due after it.  `Told` and `LeftOut` ask for an entry
in the account since the block last began to wait.  Blocks are told apart by their keys, as the
watcher does.

The main result is `told_iff_not_leftOut`: as long as the callbacks do not call back, a block that
waits has been told, is due, or was left out, and only one of the three.
-/

namespace Marginalia.Watcher

open Notifier (Event EventKind)

/-! ## The account of a step -/

/-- The blocks that a task has still to report. -/
def dueOf : Task → List Block
  | .reporting _ known _ rest => unknownTo known rest
  | _ => []

/-- The blocks that have still to be reported. -/
def due (w : Watcher) : List Block :=
  w.tasks.flatMap dueOf

/-- The block that a turn tells the host of. -/
def toldBy : Turn Question → List Block
  | .asks (.comment b _) => [b]
  | _ => []

/-- The new blocks in the content of a file; what comes with a trigger is not reported. -/
def newsIn (w : Watcher) (path content : String) : List Block :=
  if Block.anyTrigger (Block.ofContent path content) then []
  else unknownTo ((w.pending.get path).map (·.key)) (Block.ofContent path content)

/-- The new blocks that an answer to a task brings. -/
def newsAfter (w : Watcher) (o : Outcome) : Task → List Block
  | .reading path => ((contentOf? o).map (w.newsIn path)).getD []
  | _ => []

/-- The new blocks that an input brings. -/
def newsUpon (w : Watcher) : Input → List Block
  | .answer o => (w.tasks.head?.map (w.newsAfter o)).getD []
  | _ => []

/-- The blocks that an input leaves out. -/
def leftUpon (w : Watcher) (i : Input) : List Block :=
  w.dropped dueOf i

section Balance

variable (w : Watcher)

@[simp] lemma due_finish (notes : List Note) (o : Outcome) :
    (w.finish notes o).state.due = w.due := rfl

@[simp] lemma due_ask (notes : List Note) (q : Question) (t : Task) :
    (w.ask notes q t).state.due = dueOf t ++ w.due := rfl

/-- A report begins with the first unknown block. -/
lemma unknownTo_eq_unreported (known : List String) (rest : List Block) :
    unknownTo known rest =
      match unreported known rest with
      | [] => []
      | b :: later => b :: unknownTo known later := by
  induction rest with
  | nil => rfl
  | cons b rest ih =>
      by_cases hb : known.contains b.key
      · rw [unreported_of_known rest hb, ← ih]
        exact List.filter_cons_of_neg (by simpa using hb)
      · rw [unreported_of_new rest hb]
        exact List.filter_cons_of_pos (by simpa using hb)

lemma balance_report (hthere : w.callbacks.comment) (notes : List Note) (path : String)
    (known : List String) (all rest : List Block) :
    unknownTo known rest ++ w.due =
      toldBy (w.report notes path known all rest).turn ++
        (w.report notes path known all rest).state.due := by
  obtain ⟨notes', -, h⟩ := report_eq w notes path known all rest
  rw [h, if_pos hthere, unknownTo_eq_unreported]
  cases unreported known rest <;> rfl

lemma balance_callHost (there : Bool) (notes : List Note) {q : Question}
    (hq : toldBy (.asks q) = []) :
    w.due = toldBy (w.callHost there notes q .calling).turn ++
      (w.callHost there notes q .calling).state.due := by
  cases there with
  | true => rw [callHost, if_pos rfl, ask_turn, hq, due_ask]; rfl
  | false => rfl

lemma balance_scan (hthere : w.callbacks.comment) (path content : String) :
    w.newsIn path content ++ w.due =
      toldBy (w.scan path content).turn ++ (w.scan path content).state.due := by
  by_cases h : Block.anyTrigger (Block.ofContent path content)
  · obtain ⟨notes, -, hs⟩ := scan_of_anyTrigger w h
    rw [hs, newsIn, if_pos h]
    exact balance_callHost { w with pending := .empty } _ _ rfl
  · obtain ⟨notes, -, hs⟩ := scan_of_not_anyTrigger w h
    rw [hs, newsIn, if_neg h, store]
    split
    · rename_i hempty
      rw [List.isEmpty_iff.1 hempty]
      rfl
    · exact balance_report { w with pending := w.pending.replace path _ } hthere _ _ _ _ _

lemma balance_proceed (hthere : w.callbacks.comment) (o : Outcome) (t : Task) :
    w.newsAfter o t ++ (dueOf t ++ w.due) =
      (o.failure?.elim [] fun _ => dueOf t) ++
        (toldBy (w.proceed o t).turn ++ (w.proceed o t).state.due) := by
  cases t with
  | attaching id g rest => cases o <;> cases rest <;> rfl
  | reading path =>
      cases o with
      | raised why =>
          rw [proceed, unread]
          split <;> rfl
      | text content => exact balance_scan w hthere path content
      | returned | made => exact balance_scan w hthere path ""
  | reporting path known all rest =>
      cases o with
      | raised why => rfl
      | _ => exact balance_report w hthere [] path known all rest
  | calling => cases o <;> rfl

/-- Only an answer leads to a block. -/
lemma answer_of_asks_comment {i : Input} {b : Block} {all : List Block}
    (h : (w.step i).turn = .asks (.comment b all)) : ∃ o, i = .answer o := by
  rw [step_asks_iff] at h
  cases i with
  | answer o => exact ⟨o, rfl⟩
  | watch root opened => cases opened <;> cases h
  | close | pause | resume | clear => cases h
  | event g e =>
      rw [questionUpon?] at h
      split at h
      · cases e <;> simp only [questionOfEvent?] at h <;> split at h <;> cases h
      · cases h

lemma untold_of_leaves {q : Question} (hq : ∀ b all, q ≠ .comment b all) {t : Task}
    (h : q.Leaves t) : toldBy (.asks q) = [] ∧ dueOf t = [] := by
  cases q with
  | comment b all => exact absurd rfl (hq b all)
  | attach id kind g =>
      obtain ⟨rest, rfl⟩ := h
      exact ⟨rfl, rfl⟩
  | read | trigger | ready | error =>
      cases h
      exact ⟨rfl, rfl⟩

/-- **The account of a step**: what is new and what was due is left out, told, or due still. -/
theorem balance (hthere : w.callbacks.comment) (i : Input) :
    w.newsUpon i ++ w.due =
      w.leftUpon i ++ (toldBy (w.step i).turn ++ (w.step i).state.due) := by
  have hquiet (hi : ∀ o, i ≠ .answer o) (q : Question) (t : Task)
      (hturn : (w.step i).turn = .asks q) (hleaves : q.Leaves t) :
      toldBy (.asks q) = [] ∧ dueOf t = [] := by
    refine untold_of_leaves (fun b all hq => ?_) hleaves
    obtain ⟨o, ho⟩ := answer_of_asks_comment w (hq ▸ hturn)
    exact hi o ho
  cases i with
  | answer o =>
      cases h : w.tasks with
      | nil => cases o <;> simp [newsUpon, leftUpon, dropped, step_answer_of_nil w h, h, toldBy]
      | cons t ts =>
          have hdue : w.due = dueOf t ++ { w with tasks := ts }.due := by
            rw [due, h]
            rfl
          have hstep : w.step (.answer o) = { w with tasks := ts }.proceed o t := by
            simp only [step, h]
          have hnews : w.newsUpon (.answer o) = { w with tasks := ts }.newsAfter o t := by
            rw [newsUpon, h]
            cases t <;> rfl
          have hleft : w.leftUpon (.answer o) = o.failure?.elim [] fun _ => dueOf t := by
            cases o with
            | raised why => rw [leftUpon, dropped, h]; rfl
            | _ => rfl
          rw [hdue, hstep, hnews, hleft]
          exact balance_proceed { w with tasks := ts } hthere o t
  | _ => exact flatMap_tasks_of_quiet w (fun _ => rfl) (hquiet fun o ho => by cases ho)

end Balance

/-! ## While a block waits -/

/-- The block, as its key names it, is among the blocks. -/
def Named (b : Block) (blocks : List Block) : Prop :=
  ∃ p ∈ blocks, p.path = b.path ∧ p.key = b.key

instance (b : Block) (blocks : List Block) : Decidable (Named b blocks) :=
  inferInstanceAs (Decidable (∃ p ∈ blocks, _))

/-- The block, as its key names it, waits. -/
def Waits (w : Watcher) (b : Block) (h : History) : Prop :=
  b.key ∈ ((w.after h).pending.get b.path).map (·.key)

instance (w : Watcher) (b : Block) (h : History) : Decidable (w.Waits b h) :=
  inferInstanceAs (Decidable (_ ∈ _))

/-- Since the block last began to wait, an input has come of which `P` holds. -/
def WhileWaiting (w : Watcher) (b : Block) (P : History → Input → Prop) : History → Prop
  | [] => False
  | i :: h => w.Waits b (i :: h) ∧ (P h i ∨ WhileWaiting w b P h)

instance decidableWhileWaiting (w : Watcher) (b : Block) (P : History → Input → Prop)
    [∀ h i, Decidable (P h i)] : (h : History) → Decidable (w.WhileWaiting b P h)
  | [] => .isFalse id
  | _ :: h =>
    have := decidableWhileWaiting w b P h
    inferInstanceAs (Decidable (_ ∧ _))

/-- The host was told of the block since it last began to wait. -/
def Told (w : Watcher) (b : Block) (h : History) : Prop :=
  w.WhileWaiting b (fun h i => Named b (toldBy ((w.after h).step i).turn)) h

/-- Since the block last began to wait, a callback has failed in the report that had still to tell
of it. -/
def LeftOut (w : Watcher) (b : Block) (h : History) : Prop :=
  w.WhileWaiting b (fun h i => Named b ((w.after h).leftUpon i)) h

/-- A report has still to tell of the block. -/
def Owed (w : Watcher) (b : Block) (h : History) : Prop :=
  Named b (w.after h).due

instance (w : Watcher) (b : Block) (h : History) : Decidable (w.Told b h) :=
  inferInstanceAs (Decidable (w.WhileWaiting b _ h))

instance (w : Watcher) (b : Block) (h : History) : Decidable (w.LeftOut b h) :=
  inferInstanceAs (Decidable (w.WhileWaiting b _ h))

instance (w : Watcher) (b : Block) (h : History) : Decidable (w.Owed b h) :=
  inferInstanceAs (Decidable (Named b _))

variable {w : Watcher} {b : Block}

lemma named_append {xs ys : List Block} : Named b (xs ++ ys) ↔ Named b xs ∨ Named b ys := by
  simp only [Named, List.mem_append, or_and_right, exists_or]

lemma WhileWaiting.waits {P : History → Input → Prop} {h : History}
    (hwhile : w.WhileWaiting b P h) : w.Waits b h := by
  cases h with
  | nil => exact hwhile.elim
  | cons i h => exact hwhile.1

/-- News come from the content of a file that is being read. -/
lemma newsUpon_cases (v : Watcher) (i : Input) :
    v.newsUpon i = [] ∨ ∃ path ts content, v.tasks = .reading path :: ts ∧
      v.newsUpon i =
        unknownTo ((v.pending.get path).map (·.key)) (Block.ofContent path content) := by
  cases i with
  | answer o =>
      rw [newsUpon]
      cases v.tasks with
      | nil => exact Or.inl rfl
      | cons t ts =>
          cases t with
          | reading path =>
              simp only [List.head?_cons, Option.map_some, Option.getD_some, newsAfter]
              cases contentOf? o with
              | none => exact Or.inl rfl
              | some content =>
                  by_cases htrigger : Block.anyTrigger (Block.ofContent path content)
                  · exact Or.inl (if_pos htrigger)
                  · exact Or.inr ⟨path, ts, content, rfl, if_neg htrigger⟩
          | _ => exact Or.inl rfl
  | _ => exact Or.inl rfl

/-- What waits already is not new. -/
lemma not_named_newsUpon {h : History} (hwaits : w.Waits b h) (i : Input) :
    ¬ Named b ((w.after h).newsUpon i) := by
  rintro ⟨p, hp, hpath, hkey⟩
  rcases newsUpon_cases (w.after h) i with hnone | ⟨path, -, content, -, hnews⟩
  · exact List.not_mem_nil (hnone ▸ hp)
  · rw [hnews, unknownTo, List.mem_filter, decide_eq_true_iff, List.contains_iff_mem] at hp
    obtain rfl : b.path = path := hpath.symm.trans (Block.path_of_mem_ofContent hp.1)
    exact hp.2 (hkey ▸ hwaits)

/-- **What waits for a file after a step** has waited before, unless the step brought the content of
the file; and then the new ones among it are news. -/
lemma get_pendingUpon_cases (v : Watcher) (i : Input) (path : String) :
    (v.pendingUpon i).get path ⊆ v.pending.get path ∨
      ∃ content, (v.pendingUpon i).get path = Block.ofContent path content ∧
        v.newsUpon i =
          unknownTo ((v.pending.get path).map (·.key)) (Block.ofContent path content) := by
  cases i with
  | clear => exact Or.inl (List.nil_subset _)
  | answer o =>
      rw [pendingUpon, newsUpon]
      cases v.tasks with
      | nil => exact Or.inl (List.Subset.refl _)
      | cons t ts =>
          cases t with
          | reading q =>
              simp only [List.head?_cons, Option.map_some, Option.getD_some, pendingAfter,
                newsAfter]
              cases contentOf? o with
              | none => exact Or.inl (List.Subset.refl _)
              | some content =>
                  simp only [Option.map_some, Option.getD_some, takingIn, newsIn]
                  split
                  · exact Or.inl (List.nil_subset _)
                  · rw [Pending.get_replace]
                    by_cases hpath : path = q
                    · subst hpath
                      exact Or.inr ⟨content, if_pos rfl, rfl⟩
                    · rw [if_neg hpath]
                      exact Or.inl (List.Subset.refl _)
          | _ => exact Or.inl (List.Subset.refl _)
  | _ => exact Or.inl (List.Subset.refl _)

/-- What begins to wait is new. -/
lemma named_newsUpon {h : History} {i : Input} (hnow : w.Waits b (i :: h))
    (hbefore : ¬ w.Waits b h) : Named b ((w.after h).newsUpon i) := by
  rw [Waits, after_cons, step_pending] at hnow
  obtain ⟨p, hp, hkey⟩ := List.mem_map.1 hnow
  rcases get_pendingUpon_cases (w.after h) i b.path with hsub | ⟨content, hget, hnews⟩
  · exact absurd (List.mem_map.2 ⟨p, hsub hp, hkey⟩) hbefore
  · rw [hget] at hp
    refine ⟨p, ?_, Block.path_of_mem_ofContent hp, hkey⟩
    rw [hnews, unknownTo, List.mem_filter, decide_eq_true_iff, List.contains_iff_mem, hkey]
    exact ⟨hp, hbefore⟩

/-- The account of a step, for one block. -/
lemma named_balance (hthere : w.callbacks.comment) (h : History) (i : Input) :
    Named b ((w.after h).newsUpon i) ∨ w.Owed b h ↔
      Named b ((w.after h).leftUpon i) ∨ Named b (toldBy ((w.after h).step i).turn) ∨
        w.Owed b (i :: h) := by
  have hcallback : (w.after h).callbacks.comment := by rwa [after_callbacks]
  rw [Owed, Owed, after_cons, ← named_append, balance _ hcallback, named_append, named_append]

/-- **No block is forgotten without a failure**: what waits has been told, is due, or was left
out. -/
lemma told_or_owed_or_leftOut (hw : w.Unused) (hthere : w.callbacks.comment) {h : History}
    (hwaits : w.Waits b h) : w.Told b h ∨ w.Owed b h ∨ w.LeftOut b h := by
  induction h with
  | nil =>
      rw [Waits, after_nil, hw.pending] at hwaits
      exact absurd hwaits List.not_mem_nil
  | cons i h ih =>
      have hentry : Named b ((w.after h).newsUpon i) ∨ w.Owed b h →
          w.Told b (i :: h) ∨ w.Owed b (i :: h) ∨ w.LeftOut b (i :: h) := by
        intro hdue
        rcases (named_balance hthere h i).1 hdue with hleft | htold | howed
        · exact Or.inr (Or.inr ⟨hwaits, Or.inl hleft⟩)
        · exact Or.inl ⟨hwaits, Or.inl htold⟩
        · exact Or.inr (Or.inl howed)
      by_cases hbefore : w.Waits b h
      · rcases ih hbefore with htold | howed | hleft
        · exact Or.inl ⟨hwaits, Or.inr htold⟩
        · exact hentry (Or.inr howed)
        · exact Or.inr (Or.inr ⟨hwaits, Or.inr hleft⟩)
      · exact hentry (Or.inl (named_newsUpon hwaits hbefore))

/-! ## Hosts that do not call back -/

/-- The input answers a question. -/
def Input.answers : Input → Bool
  | .answer _ => true
  | _ => false

/-- While blocks have still to be reported nothing but answers comes in: the host does not call
back. -/
def Calm (w : Watcher) : History → Prop
  | [] => True
  | i :: h => ((w.after h).due ≠ [] → i.answers) ∧ Calm w h

instance decidableCalm (w : Watcher) : (h : History) → Decidable (w.Calm h)
  | [] => .isTrue trivial
  | _ :: h =>
    have := decidableCalm w h
    inferInstanceAs (Decidable (_ ∧ _))

/-- Whatever an input finds below its own task, there is nothing to report. -/
lemma due_tasksUpon_of_tail {v : Watcher} {i : Input} (hanswers : v.due ≠ [] → i.answers)
    (htail : v.tasks.tail.flatMap dueOf = []) : (v.tasksUpon i).flatMap dueOf = [] := by
  cases i with
  | answer o => exact htail
  | _ => exact Classical.not_not.1 fun hdue => Bool.false_ne_true (hanswers hdue)

/-- **A report is the latest task** as long as it has anything to tell. -/
lemma due_tail_of_calm (hw : w.Unused) {h : History} (calm : w.Calm h) :
    (w.after h).tasks.tail.flatMap dueOf = [] := by
  induction h with
  | nil => rw [after_nil, hw.tasks]; rfl
  | cons i h ih =>
      have hupon := due_tasksUpon_of_tail calm.1 (ih calm.2)
      have hstep := step_tasks (w.after h) i
      rw [after_cons]
      cases hturn : ((w.after h).step i).turn with
      | ends o =>
          rw [hturn] at hstep
          rw [hstep]
          exact List.eq_nil_of_subset_nil fun p hp => by
            obtain ⟨t, ht, hp⟩ := List.mem_flatMap.1 hp
            exact hupon ▸ List.mem_flatMap.2 ⟨t, List.mem_of_mem_tail ht, hp⟩
      | asks q =>
          rw [hturn] at hstep
          obtain ⟨t, -, htasks⟩ := hstep
          rw [htasks]
          exact hupon

/-- **No block is entered twice** in what is new and what is due. -/
lemma nodup_account {v : Watcher} (htail : v.tasks.tail.flatMap dueOf = [])
    (hdue : (v.due.map (·.key)).Nodup) (i : Input) :
    ((v.newsUpon i ++ v.due).map (·.key)).Nodup := by
  rcases newsUpon_cases v i with hnone | ⟨path, ts, content, htasks, hnews⟩
  · rw [hnone]
    exact hdue
  · have hnothing : v.due = [] := by
      rw [htasks] at htail
      rw [due, htasks]
      exact htail
    rw [hnothing, List.append_nil, hnews]
    exact (Block.nodup_keys_ofContent path content).sublist (List.filter_sublist.map _)

lemma nodup_due_of_calm (hw : w.Unused) (hthere : w.callbacks.comment) {h : History}
    (calm : w.Calm h) : ((w.after h).due.map (·.key)).Nodup := by
  induction h with
  | nil => rw [after_nil, due, hw.tasks]; exact List.nodup_nil
  | cons i h ih =>
      have hcallback : (w.after h).callbacks.comment := by rwa [after_callbacks]
      have hnodup := nodup_account (due_tail_of_calm hw calm.2) (ih calm.2) i
      rw [balance _ hcallback, ← List.append_assoc, List.map_append] at hnodup
      rw [after_cons]
      exact (List.nodup_append.1 hnodup).2.1

/-- Where no key stands twice, a block is on one side only. -/
lemma not_named_of_nodup {xs ys : List Block} (h : ((xs ++ ys).map (·.key)).Nodup)
    (hx : Named b xs) : ¬ Named b ys := by
  obtain ⟨p, hp, -, hpkey⟩ := hx
  rintro ⟨q, hq, -, hqkey⟩
  rw [List.map_append] at h
  exact (List.nodup_append.1 h).2.2 _ (List.mem_map_of_mem hp) _ (List.mem_map_of_mem hq)
    (hpkey.trans hqkey.symm)

/-- **One of the three only**: a block that was left out was not told, and one that is due was
neither. -/
lemma apart_of_calm (hw : w.Unused) (hthere : w.callbacks.comment) {h : History}
    (calm : w.Calm h) :
    (w.Told b h → ¬ w.LeftOut b h) ∧ (w.Owed b h → ¬ w.Told b h ∧ ¬ w.LeftOut b h) := by
  induction h with
  | nil => exact ⟨fun htold => htold.elim, fun _ => ⟨id, id⟩⟩
  | cons i h ih =>
      obtain ⟨htoldBefore, howedBefore⟩ := ih calm.2
      have hcallback : (w.after h).callbacks.comment := by rwa [after_callbacks]
      have hnodup := nodup_account (due_tail_of_calm hw calm.2)
        (nodup_due_of_calm hw hthere calm.2) i
      rw [balance _ hcallback] at hnodup
      have hleft (hl : Named b ((w.after h).leftUpon i)) :
          ¬ Named b (toldBy ((w.after h).step i).turn) ∧ ¬ w.Owed b (i :: h) := by
        rw [Owed, after_cons, ← not_or, ← named_append]
        exact not_named_of_nodup hnodup hl
      have htold (ht : Named b (toldBy ((w.after h).step i).turn)) : ¬ w.Owed b (i :: h) := by
        rw [Owed, after_cons]
        rw [List.map_append] at hnodup
        exact not_named_of_nodup (List.nodup_append.1 hnodup).2.1 ht
      -- A block with an entry for this step was new or due before, and so had no entry yet.
      have hfirst (hentry : Named b ((w.after h).leftUpon i) ∨
          Named b (toldBy ((w.after h).step i).turn) ∨ w.Owed b (i :: h)) :
          ¬ w.Told b h ∧ ¬ w.LeftOut b h := by
        rcases (named_balance hthere h i).2 hentry with hnews | howed
        · exact ⟨fun ht => not_named_newsUpon ht.waits i hnews,
            fun hl => not_named_newsUpon hl.waits i hnews⟩
        · exact howedBefore howed
      refine ⟨?_, fun howed => ⟨?_, ?_⟩⟩
      · rintro ⟨-, ht | ht⟩ ⟨-, hl | hl⟩
        · exact (hleft hl).1 ht
        · exact (hfirst (Or.inr (Or.inl ht))).2 hl
        · exact (hfirst (Or.inl hl)).1 ht
        · exact htoldBefore ht hl
      · rintro ⟨-, ht | ht⟩
        · exact htold ht howed
        · exact (hfirst (Or.inr (Or.inr howed))).1 ht
      · rintro ⟨-, hl | hl⟩
        · exact (hleft hl).2 howed
        · exact (hfirst (Or.inr (Or.inr howed))).2 hl

/-- After an input that was handled without a failure nothing is due. -/
lemma due_of_unfolds (hw : w.Unused) {h h' : History} {i : Input} {qs : List Question}
    (unfolds : w.Unfolds h i qs h') (calm : w.Calm h') : (w.after h').due = [] := by
  induction unfolds with
  | @ends h i hturn =>
      have hupon := due_tasksUpon_of_tail calm.1 (due_tail_of_calm hw calm.2)
      have hstep := step_tasks (w.after h) i
      rw [hturn] at hstep
      rw [after_cons, due, hstep]
      exact hupon
  | asks _ _ ih => exact ih calm

/-- **Whether the host is told of what waits.**  In every run, whatever the callbacks do, each block
that waits has been told since it began to wait, is due in a report, or was left out when a callback
failed.  As long as the callbacks do not call back it is only one of the three; and after an input
that was handled without a failure, such as a further change of the file, a block has been told
exactly if it was not left out. -/
theorem told_iff_not_leftOut {o : Options} {c : Callbacks} {home : String}
    (made : make o c home = .ok w) (hthere : c.comment) :
    (∀ h path, ∀ b ∈ (w.after h).pending.get path,
        w.Told b h ∨ w.Owed b h ∨ w.LeftOut b h) ∧
      (∀ h, w.Calm h → ∀ b,
        (w.Told b h → ¬ w.LeftOut b h) ∧ (w.Owed b h → ¬ w.Told b h ∧ ¬ w.LeftOut b h)) ∧
      ∀ h i qs h', w.Unfolds h i qs h' → w.Calm h' → ∀ path, ∀ b ∈ (w.after h').pending.get path,
        (w.Told b h' ↔ ¬ w.LeftOut b h') := by
  have hw := unused_of_make made
  have hcomment : w.callbacks.comment := by rwa [callbacks_of_make made]
  have hwaits {h : History} {path : String} {b : Block}
      (hb : b ∈ (w.after h).pending.get path) : w.Waits b h := by
    have hpath : b.path = path := by
      rw [after_pending_acts hw] at hb
      exact (mem_get_pendingOf hb).1
    rw [Waits, hpath]
    exact List.mem_map_of_mem hb
  refine ⟨fun h path b hb => told_or_owed_or_leftOut hw hcomment (hwaits hb),
    fun h calm b => apart_of_calm hw hcomment calm, fun h i qs h' unfolds calm path b hb => ?_⟩
  have hnone : ¬ w.Owed b h' := by
    rw [Owed, due_of_unfolds hw unfolds calm]
    rintro ⟨p, hp, -⟩
    exact List.not_mem_nil hp
  refine ⟨(apart_of_calm hw hcomment calm).1, fun hleft => ?_⟩
  rcases told_or_owed_or_leftOut hw hcomment (hwaits hb) with htold | howed | hleft'
  · exact htold
  · exact absurd howed hnone
  · exact absurd hleft' hleft

/-- The host fails at the first of two blocks; it is not told of the second when the file has
changed again, though it is told of the third. -/
theorem told_iff_not_leftOut_of_further_change :
    let content := "# one AI\n\n# two AI"
    let later := "# one AI\n\n# two AI\n\n# three AI"
    let failed : History := .answer (.raised (.plain .runtime "no")) ::
      saved "/w/a.py" content ++ watching
    let h : History := .event 1 (.change "/w/a.py") :: failed
    let h' : History := .answer .returned :: .answer (.text later) :: h
    let one : Block := ⟨"/w/a.py", 1, ["# one AI"], false⟩
    let two : Block := ⟨"/w/a.py", 3, ["# two AI"], false⟩
    let three : Block := ⟨"/w/a.py", 5, ["# three AI"], false⟩
    make { ignored := [] } {} "/w" = .ok Watcher.plain ∧ ({} : Callbacks).comment ∧
      Watcher.plain.Unfolds h (.answer (.text later)) [.comment three [one, two, three]] h' ∧
      Watcher.plain.Calm h' ∧
      (Watcher.plain.after h').pending.get "/w/a.py" = [one, two, three] ∧
      Watcher.plain.Told one h' ∧ ¬ Watcher.plain.Told two h' := by
  intro content later failed h h' one two three
  have unfolds : Watcher.plain.Unfolds h (.answer (.text later))
      [.comment three [one, two, three]] h' :=
    .asks (by decide +kernel) (.ends (by decide +kernel))
  have calm : Watcher.plain.Calm h' := by decide +kernel
  have hget : (Watcher.plain.after h').pending.get "/w/a.py" = [one, two, three] := by
    decide +kernel
  have hiff := (told_iff_not_leftOut make_plain rfl).2.2 h _ _ h' unfolds calm "/w/a.py"
  rw [hget] at hiff
  have hone : ¬ Watcher.plain.LeftOut one h' := by decide +kernel
  have htwo : Watcher.plain.LeftOut two h' := by decide +kernel
  exact ⟨make_plain, rfl, unfolds, calm, hget, (hiff one (by simp)).2 hone,
    fun htold => (hiff two (by simp)).1 htold htwo⟩

/-- The host fails at the first of two blocks.  The next change of the file finds both waiting, so
that it is handled without a failure and without a word about the second. -/
theorem left_out_for_good :
    let content := "# one AI\n\n# two AI"
    let failed : History := .answer (.raised (.plain .runtime "no")) ::
      saved "/w/a.py" content ++ watching
    let h : History := .event 1 (.change "/w/a.py") :: failed
    let h' : History := .answer (.text content) :: h
    let two : Block := ⟨"/w/a.py", 3, ["# two AI"], false⟩
    make { ignored := [] } {} "/w" = .ok Watcher.plain ∧
      Watcher.plain.accepts failed 1 "/w/a.py" ∧
      ¬ Block.anyTrigger (Block.ofContent "/w/a.py" content) ∧
      Watcher.plain.Unfolds h (.answer (.text content)) [] h' ∧
      two ∈ (Watcher.plain.after h').pending.get "/w/a.py" ∧ ¬ Watcher.plain.Told two h' := by
  intro content failed h h' two
  exact ⟨make_plain, by decide, by decide, .ends (by decide +kernel), by decide +kernel,
    by decide +kernel⟩

end Marginalia.Watcher
