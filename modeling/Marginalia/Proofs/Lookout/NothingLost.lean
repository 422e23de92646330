import Marginalia.Proofs.Lookout.Stage
import Marginalia.Proofs.Watcher.HandOver

/-!
# Nothing is lost

Blocks that are written into a file under observation reach the host.  As soon as the observer has
seen the file, its path is on its way: it is dirty, its change is queued or the present turn carries
it.  When it is on its way no longer, the file has been read since, and its blocks wait or were
handed over; `Settled` says so, and `Kept` is the invariant that puts this together for all paths.

`kept_move` shows that every move keeps it, whatever the order in which files are written, raw
events come in, time goes by and the dispatcher takes its turns.  The main result is
`blocks_wait_or_handed`.  Between a write and its raw event nothing of this can hold,
`unseen_block`.
-/

namespace Marginalia.Lookout

open Assembly (Caller Call Listener)
open Notifier (Event Raw Sequel Subscription Surroundings)
open Watcher (Callbacks Options SameCourse Continues)

/-! ## Marks -/

section Marks

variable {path q : String} {b : Block} {blocks : List Block} {marks : List Mark}

lemma sinceWrite_wrote_self (path : String) (marks : List Mark) :
    sinceWrite path (.wrote path :: marks) = [] := by
  simp [sinceWrite]

lemma sinceWrite_cons {m : Mark} (h : m ≠ .wrote path) (marks : List Mark) :
    sinceWrite path (m :: marks) = m :: sinceWrite path marks := by
  simp [sinceWrite, h]

/-- A file that has just been written has not been seen. -/
lemma not_seen_wrote (path : String) (marks : List Mark) : ¬ Seen path (.wrote path :: marks) := by
  rw [Seen, sinceWrite_wrote_self]
  exact List.not_mem_nil

lemma seen_cons_iff {m : Mark} (h : m ≠ .wrote path) (h' : m ≠ .touched path) :
    Seen path (m :: marks) ↔ Seen path marks := by
  rw [Seen, sinceWrite_cons h, List.mem_cons, Seen]
  exact or_iff_right h'.symm

lemma Handed.cons {m : Mark} (h : Handed path b marks) (hm : m ≠ .wrote path) :
    Handed path b (m :: marks) := by
  obtain ⟨n, hmem, hb⟩ := h
  exact ⟨n, by rw [sinceWrite_cons hm]; exact List.mem_cons_of_mem _ hmem, hb⟩

lemma seen_append_iff {m? : Option Mark} (h : ∀ m ∈ m?, m ≠ .wrote path)
    (h' : ∀ m ∈ m?, m ≠ .touched path) :
    Seen path (m?.toList ++ marks) ↔ Seen path marks := by
  cases m? with
  | none => rfl
  | some m => exact seen_cons_iff (h m rfl) (h' m rfl)

lemma Handed.append {m? : Option Mark} (h : Handed path b marks)
    (hm : ∀ m ∈ m?, m ≠ .wrote path) : Handed path b (m?.toList ++ marks) := by
  cases m? with
  | none => exact h
  | some m => exact h.cons (hm m rfl)

/-- What the host is asked never makes a file written or seen. -/
lemma markOf?_ne {question : Assembly.Question} {m : Mark} (hm : m ∈ markOf? question)
    (path : String) : m ≠ .wrote path ∧ m ≠ .touched path := by
  cases question with
  | trigger blocks => cases hm; simp
  | _ => cases hm

lemma handed_of_mem (h : b ∈ blocks) : Handed path b (.handed blocks :: marks) :=
  ⟨.handed blocks, by rw [sinceWrite_cons (by simp)]; exact List.mem_cons_self .., h⟩

end Marks

/-! ## The invariant -/

namespace Stage

/-- The present turn has still to bring the change of the path to the watcher, or the watcher has
still to take in the file. -/
def Carries (path : String) : Stage → Prop
  | .idle | .turning => False
  | .telling e sequel => e = .change path ∨ path ∈ sequel.paths
  | .asking q _ _ sequel => q = .read path ∨ path ∈ sequel.paths
  | .answering _ t _ sequel => t = .reading path ∨ path ∈ sequel.paths
  | .told _ _ sequel => path ∈ sequel.paths

/-- The watcher is asking the host what its task asks, and what it is answered is contained. -/
def Fits : Stage → Prop
  | .asking q t .. => q.Leaves t ∧ (toHost? q).isSome
  | .answering o t .. => o.isContained = true ∧ ∀ id g rest, t ≠ .attaching id g rest
  | .told o .. => o.isContained = true
  | _ => True

/-- What the host has read of the path, if the watcher is still to take it in, is what the file
holds. -/
def Fresh (l : Lookout) (path : String) : Stage → Prop
  | .answering o t .. => t = .reading path → o = outcomeOf (l.files path).val
  | _ => True

end Stage

/-- The blocks of a file wait, or were handed over since it was written. -/
def Settled (l : Lookout) (p : Pending) (path : String) : Prop :=
  ∀ content, (l.files path).val = .ok content → ∀ b ∈ Block.ofContent path content,
    b ∈ p.get path ∨ Handed path b l.marks

/-- A path that was seen since it was written is on its way, or its blocks are settled.  As long as
it is owed, what was read of it may be out of date. -/
def Covered (l : Lookout) (st : Stage) (w : Watcher) (s : Subscription Listener)
    (path : String) : Prop :=
  Seen path l.marks →
    s.Owes path ∨ st.Fresh l path ∧ (st.Carries path ∨ Settled l w.pending path)

/-- All paths that the watcher does not ignore are covered. -/
def AllCovered (w₀ : Watcher) (l : Lookout) (st : Stage) (w : Watcher)
    (s : Subscription Listener) : Prop :=
  ∀ path, path ≠ "" → w₀.ignores path = false → Covered l st w s path

/-- **The invariant**: the lookout is at some stage, the watcher is still on the course it began
with, and all paths are covered. -/
def Kept (w₀ : Watcher) (l : Lookout) : Prop :=
  ∃ st w s, Shape l st w s ∧ SameCourse w₀ w ∧ Listens w s ∧ st.Fits ∧ AllCovered w₀ l st w s

variable {w₀ : Watcher} {l : Lookout} {w : Watcher} {s : Subscription Listener}

lemma Listens.of_setting {t : Subscription Listener} (h : Listens w s)
    (hset : Subscription.SameSetting s t) : Listens w t where
  trigger := h.trigger
  current := h.current
  running := h.running
  tidy := h.tidy
  observes := hset.observes.trans h.observes
  heard := hset.heardBy h.heard
  agree path hpath := (hset.ignores path).trans (h.agree path hpath)

lemma ignores_of_course {v : Watcher} (h : SameCourse w v) (path : String) :
    v.ignores path = w.ignores path := by
  simp only [Watcher.ignores, h.patterns, h.home, h.root]

lemma Listens.of_course {v : Watcher} (h : Listens w s) (hcourse : SameCourse w v)
    (htidy : v.pending.Tidy) : Listens v s where
  trigger := by rw [hcourse.callbacks]; exact h.trigger
  current := (hcourse.isCurrent 1).trans h.current
  running := hcourse.paused.trans h.running
  tidy := htidy
  observes := h.observes
  heard := h.heard
  agree path hpath := (h.agree path hpath).trans (ignores_of_course hcourse path).symm

/-! ## Moves around the parts -/

/-- **A write** makes its own path unseen and leaves all others as they are. -/
lemma kept_write (h : Kept w₀ l) (path : String) (reading : Reading) :
    Kept w₀ (l.move (.write path reading)) := by
  obtain ⟨st, w, s, hshape, hcourse, hlistens, hfits, hcovered⟩ := h
  refine ⟨st, w, s, ⟨hshape.1, hshape.2, hshape.3, hshape.4, hshape.5, hshape.6, hshape.7,
    hshape.8⟩, hcourse, hlistens, hfits, fun q hempty hign hseen => ?_⟩
  -- The file itself is unseen now, so only other paths have to be covered.
  have hne : q ≠ path := fun he => not_seen_wrote path l.marks (he ▸ hseen)
  have hfiles : (l.move (.write path reading)).files q = l.files q := if_neg hne
  have hseen : Seen q l.marks := (seen_cons_iff (by simpa using hne.symm) (by simp)).1 hseen
  refine (hcovered q hempty hign hseen).imp_right (And.imp ?_ (Or.imp_right ?_))
  · intro hfresh
    cases st with
    | answering o t e sequel =>
        intro ht
        rw [hfiles]
        exact hfresh ht
    | _ => trivial
  · intro hsettled content hcontent b hb
    rw [hfiles] at hcontent
    exact (hsettled content hcontent b hb).imp_right fun hb => hb.cons (by simpa using hne.symm)

/-- Nothing depends on the time. -/
lemma kept_wait (h : Kept w₀ l) (ms : Nat) : Kept w₀ (l.move (.wait ms)) := by
  obtain ⟨st, w, s, hshape, hcourse, hlistens, hfits, hcovered⟩ := h
  refine ⟨st, w, s, ⟨hshape.1, hshape.2, hshape.3, hshape.4, hshape.5, hshape.6, hshape.7,
    hshape.8⟩, hcourse, hlistens, hfits, fun q hempty hign hseen => ?_⟩
  refine (hcovered q hempty hign hseen).imp_right (And.imp_left fun hfresh => ?_)
  cases st <;> exact hfresh

lemma stage_of_isIdle {st : Stage} (hshape : Shape l st w s) (h : l.isIdle) : st = .idle := by
  rw [isIdle, Bool.and_eq_true, List.isEmpty_iff] at h
  have hcallers := hshape.callers.symm.trans h.2
  cases st <;> first | rfl | cases hcallers

lemma kept_turn (h : Kept w₀ l) : Kept w₀ (l.move .turn) := by
  rw [move]
  split
  · rename_i hidle
    obtain ⟨st, w, s, hshape, hcourse, hlistens, -, hcovered⟩ := h
    obtain rfl := stage_of_isIdle hshape hidle
    rw [put_call hshape.work, hshape.callers]
    exact ⟨.turning, w, s, ⟨hshape.1, hshape.2, hshape.3, rfl, rfl, hshape.6, hshape.7,
      hshape.8⟩, hcourse, hlistens, trivial, hcovered⟩
  · exact h

/-- **A raw event** puts its own path on its way. -/
lemma kept_raw (h : Kept w₀ l) (r : Raw) : Kept w₀ (l.move (.raw r)) := by
  obtain ⟨st, w, s, hshape, hcourse, hlistens, hfits, hcovered⟩ := h
  obtain ⟨hset, htasks⟩ := Subscription.sameSetting_observe s l.assembly.now r
  obtain ⟨now, hput⟩ := put_subscription_ends (s := s) (o := .returned)
    (l := { l with assembly := { l.assembly with
        callers := .host :: l.assembly.callers
        work := some (.subscription 0 (.raw r)) } }) hshape.channels rfl rfl rfl
  rw [move, meanwhile, put_call rfl]
  dsimp only
  rw [hput]
  refine ⟨st, w, s.observe l.assembly.now r, ⟨hshape.1, rfl, hshape.3, hshape.4, hshape.5,
    hshape.6, hshape.7, htasks.trans hshape.8⟩, hcourse, hlistens.of_setting hset, hfits,
    fun q hempty hign hseen => ?_⟩
  by_cases htouched : r.touched? = some q
  · have hignores : s.ignores q = false := by
      rw [hlistens.agree q hempty, ignores_of_course hcourse, hign]
    exact Or.inl (Subscription.owes_observe hlistens.heard.isOpen hlistens.observes _ htouched
      hignores)
  · have hwrote : ∀ m ∈ r.touched?.map Mark.touched, m ≠ .wrote q := by
      intro m hm
      obtain ⟨p, -, rfl⟩ := Option.map_eq_some_iff.1 hm
      simp
    have hother : ∀ m ∈ r.touched?.map Mark.touched, m ≠ .touched q := by
      intro m hm
      obtain ⟨p, hp, rfl⟩ := Option.map_eq_some_iff.1 hm
      exact fun he => htouched (hp.trans (congrArg some (Mark.touched.inj he)))
    refine (hcovered q hempty hign ((seen_append_iff hwrote hother).1 hseen)).imp
      (Subscription.owes_observe_of_owes _ r) (And.imp ?_ (Or.imp_right ?_))
    · intro hfresh
      cases st <;> exact hfresh
    · intro hsettled content hcontent b hb
      exact (hsettled content hcontent b hb).imp_right fun hb => hb.append hwrote

/-! ## Steps of the parts -/

/-- **The subscription** goes on, and forgets no path. -/
lemma kept_of_dispatches {st : Stage} (hshape : Shape l st w s) (hcourse : SameCourse w₀ w)
    (hlistens : Listens w s) (hcallers : st.callers = [.host]) (hquestion : st.question = none)
    (hidle : st.watcherTasks = []) {i : Notifier.Input Listener}
    (hwork : st.work = some (.subscription 0 i)) {due : String → Prop}
    (hdisp : Subscription.Dispatches { s with tasks := [] } (.watcher 0 1) due
      (s.step l.assembly.now i))
    (hdue : ∀ path, path ≠ "" → w₀.ignores path = false → Seen path l.marks →
      due path ∨ Settled l w.pending path) :
    Kept w₀ (l.put .proceed) := by
  have hlistens' := (hlistens.of_setting (Subscription.sameSetting_with s s.backlog s.queue s.dirty
    [])).of_setting hdisp.setting
  have hwork' := hshape.work.trans hwork
  rcases hdisp.turn with ⟨hturn, htasks, howes⟩ | ⟨e, sequel, hturn, htasks, howes⟩
  · obtain ⟨now, hput⟩ :=
      put_subscription_ends hshape.channels hwork' (hshape.callers.trans hcallers) hturn
    rw [hput]
    refine ⟨.idle, w, _, ⟨hshape.watchers, rfl, hshape.session, rfl, rfl,
      hshape.question.trans hquestion, hshape.watcherTasks.trans hidle, htasks⟩, hcourse,
      hlistens', trivial, fun path hempty hign hseen => ?_⟩
    rcases hdue path hempty hign hseen with hpath | hsettled
    · exact Or.inl (howes path hpath)
    · exact Or.inr ⟨trivial, Or.inr hsettled⟩
  · obtain ⟨now, hput⟩ := put_subscription_asks hshape.channels hwork' hturn
    rw [hput, hshape.callers, hcallers]
    refine ⟨.telling e sequel, w, _, ⟨hshape.watchers, rfl, hshape.session, rfl, rfl,
      hshape.question.trans hquestion, hshape.watcherTasks.trans hidle, htasks⟩, hcourse,
      hlistens', trivial, fun path hempty hign hseen => ?_⟩
    rcases hdue path hempty hign hseen with hpath | hsettled
    · exact (howes path hpath).imp_right fun hmem => ⟨trivial, Or.inl hmem⟩
    · exact Or.inr ⟨trivial, Or.inr hsettled⟩

/-- The blocks of a file wait in a pending set, were handed over since it was written, or are handed
over by the turn. -/
def SettledBy (l : Lookout) (p : Pending) (turn : Turn Watcher.Question) (path : String) : Prop :=
  ∀ content, (l.files path).val = .ok content → ∀ b ∈ Block.ofContent path content,
    b ∈ p.get path ∨ Handed path b l.marks ∨ ∃ blocks, turn = .asks (.trigger blocks) ∧ b ∈ blocks

lemma SettledBy.of_ends {p : Pending} {o : Outcome} {path : String}
    (h : SettledBy l p (.ends o) path) : Settled l p path := by
  intro content hcontent b hb
  rcases h content hcontent b hb with hget | hhanded | ⟨blocks, hasks, -⟩
  · exact Or.inl hget
  · exact Or.inr hhanded
  · cases hasks

/-- What the turn hands over is on record once the host is asked. -/
lemma SettledBy.of_asks {p : Pending} {q : Watcher.Question} {path : String}
    (h : SettledBy l p (.asks q) path) {question : Assembly.Question}
    (hq : toHost? q = some question) {a : Assembly} {put : Option Assembly.Question} :
    Settled ⟨a, l.files, put, (markOf? question).toList ++ l.marks⟩ p path := by
  intro content hcontent b hb
  rcases h content hcontent b hb with hget | hhanded | ⟨blocks, hasks, hb⟩
  · exact Or.inl hget
  · exact Or.inr (hhanded.append fun m hm => (markOf?_ne hm path).1)
  · obtain rfl := Turn.asks.inj hasks
    obtain rfl := Option.some.inj hq
    exact Or.inr (handed_of_mem hb)

/-- **The watcher** goes on, and forgets no path. -/
lemma kept_of_continues {st : Stage} (hshape : Shape l st w s) (hcourse : SameCourse w₀ w)
    (hlistens : Listens w s) (hcallers : st.callers = [.subscription 0, .host])
    (hquestion : st.question = none) {e : Event} {sequel : Sequel}
    (htasks : st.tasks = [.telling e [] sequel]) {i : Watcher.Input}
    (hwork : st.work = some (.watcher 0 i)) {p : Pending}
    (hcont : Continues { w with tasks := [] } p (w.step i)) (htidy : p.Tidy)
    (hends : ∀ o, (w.step i).turn = .ends o → o.isContained = true)
    (hhost : ∀ q, (w.step i).turn = .asks q → (toHost? q).isSome)
    (hdue : ∀ path, path ≠ "" → w₀.ignores path = false → Seen path l.marks →
      s.Owes path ∨ path ∈ sequel.paths ∨ (w.step i).turn = .asks (.read path) ∨
        SettledBy l p (w.step i).turn path) :
    Kept w₀ (l.put .proceed) := by
  have hcourse' : SameCourse w (w.step i).state :=
    (Watcher.sameCourse_with w w.pending w.readyGeneration []).trans hcont.course
  have hlistens' : Listens (w.step i).state s :=
    hlistens.of_course hcourse' (by rw [hcont.pending]; exact htidy)
  have hwork' := hshape.work.trans hwork
  have hleft := hcont.tasks
  cases hturn : (w.step i).turn with
  | ends o =>
      rw [hturn] at hleft
      rw [put_watcher_ends hshape.watchers hwork' hcont.logs (hshape.callers.trans hcallers) hturn]
      refine ⟨.told o e sequel, _, s, ⟨rfl, hshape.channels, hshape.session, rfl, rfl,
        hshape.question.trans hquestion, hleft, hshape.tasks.trans htasks⟩,
        hcourse.trans hcourse', hlistens', hends o hturn, fun path hempty hign hseen => ?_⟩
      rcases hdue path hempty hign hseen with howes | hmem | hread | hsettled
      · exact Or.inl howes
      · exact Or.inr ⟨trivial, Or.inl hmem⟩
      · rw [hturn] at hread
        cases hread
      · rw [hturn] at hsettled
        rw [hcont.pending]
        exact Or.inr ⟨trivial, Or.inr hsettled.of_ends⟩
  | asks q =>
      rw [hturn] at hleft
      obtain ⟨t, hleaves, hleft⟩ := hleft
      obtain ⟨question, hquestion'⟩ := Option.isSome_iff_exists.1 (hhost q hturn)
      rw [put_watcher_asks hshape.watchers hshape.session hwork' hcont.logs hquestion' hturn,
        hshape.callers, hcallers]
      refine ⟨.asking q t e sequel, _, s, ⟨rfl, hshape.channels, hshape.session, rfl, rfl,
        hquestion'.symm, hleft, hshape.tasks.trans htasks⟩,
        hcourse.trans hcourse', hlistens', ⟨hleaves, hhost q hturn⟩,
        fun path hempty hign hseen => ?_⟩
      have hwrote : ∀ m ∈ markOf? question, m ≠ .wrote path := fun m hm => (markOf?_ne hm path).1
      have htouched : ∀ m ∈ markOf? question, m ≠ .touched path :=
        fun m hm => (markOf?_ne hm path).2
      rcases hdue path hempty hign ((seen_append_iff hwrote htouched).1 hseen) with
        howes | hmem | hread | hsettled
      · exact Or.inl howes
      · exact Or.inr ⟨trivial, Or.inl (Or.inr hmem)⟩
      · rw [hturn, Turn.asks.injEq] at hread
        exact Or.inr ⟨trivial, Or.inl (Or.inl hread)⟩
      · rw [hturn] at hsettled
        rw [hcont.pending]
        exact Or.inr ⟨trivial, Or.inr (hsettled.of_asks hquestion')⟩

/-! ## The next step -/

lemma kept_go_turning (hshape : Shape l .turning w s) (hcourse : SameCourse w₀ w)
    (hlistens : Listens w s) (hcovered : AllCovered w₀ l .turning w s) :
    Kept w₀ (l.put .proceed) := by
  have hdisp := (Subscription.dispatches_turn hlistens.heard l.assembly.now).of_imp
    (s := { s with tasks := [] })
    (Subscription.sameSetting_with _ s.backlog s.queue s.dirty s.tasks)
    hshape.tasks fun _ howes => howes
  refine kept_of_dispatches hshape hcourse hlistens rfl rfl rfl rfl (i := .turn) hdisp ?_
  intro path hempty hign hseen
  rcases hcovered path hempty hign hseen with howes | ⟨-, hcarries | hsettled⟩
  · exact Or.inl howes
  · exact absurd hcarries id
  · exact Or.inr hsettled

lemma kept_go_told {o : Outcome} {e : Event} {sequel : Sequel}
    (hshape : Shape l (.told o e sequel) w s) (hcourse : SameCourse w₀ w) (hlistens : Listens w s)
    (hfits : Stage.Fits (.told o e sequel)) (hcovered : AllCovered w₀ l (.told o e sequel) w s) :
    Kept w₀ (l.put .proceed) := by
  have hdisp := Subscription.dispatches_answer hlistens.heard l.assembly.now hfits hshape.tasks
  refine kept_of_dispatches hshape hcourse hlistens rfl rfl rfl rfl hdisp ?_
  intro path hempty hign hseen
  rcases hcovered path hempty hign hseen with howes | ⟨-, hmem | hsettled⟩
  · exact Or.inl (Or.inl howes)
  · exact Or.inl (Or.inr hmem)
  · exact Or.inr hsettled

/-- An event never makes the watcher attach a listener. -/
lemma toHost?_isSome_of_event {g : Nat} {e : Event} {q : Watcher.Question}
    (h : (w.step (.event g e)).turn = .asks q) : (toHost? q).isSome := by
  obtain ⟨-, hq⟩ := (Watcher.step_event_asks_iff w g e q).1 h
  cases e <;> simp only [Watcher.questionOfEvent?] at hq <;> split at hq <;> cases hq <;> rfl

/-- **An event** is told to the watcher, which reads the file that has changed. -/
lemma kept_go_telling {e : Event} {sequel : Sequel} (hshape : Shape l (.telling e sequel) w s)
    (hcourse : SameCourse w₀ w) (hlistens : Listens w s)
    (hcovered : AllCovered w₀ l (.telling e sequel) w s) : Kept w₀ (l.put .proceed) := by
  have htasks : w.tasks = [] := hshape.watcherTasks
  have hw : { w with tasks := [] } = w := by rw [← htasks]
  have hcont : Continues { w with tasks := [] } w.pending (w.step (.event 1 e)) := by
    rw [hw]
    exact Watcher.continues_event w 1 e
  have hends (o : Outcome) (hturn : (w.step (.event 1 e)).turn = .ends o) :
      o.isContained = true := by
    rw [Watcher.ends_of_event w hturn]
    rfl
  refine kept_of_continues hshape hcourse hlistens rfl rfl rfl rfl hcont hlistens.tidy hends
    (fun q => toHost?_isSome_of_event) ?_
  intro path hempty hign hseen
  rcases hcovered path hempty hign hseen with howes | ⟨-, (rfl | hmem) | hsettled⟩
  · exact Or.inl howes
  · refine Or.inr (Or.inr (Or.inl ((Watcher.step_event_asks_iff w 1 _ _).2 ⟨hlistens.current, ?_⟩)))
    have hignores : w.ignores path = false := (ignores_of_course hcourse path).trans hign
    simp [Watcher.questionOfEvent?, hlistens.running, hignores]
  · exact Or.inr (Or.inl hmem)
  · refine Or.inr (Or.inr (Or.inr fun content hcontent b hb => ?_))
    exact (hsettled content hcontent b hb).imp_right Or.inl

/-- The host fails, if at all, to read a file, and then in such a way that it can be reported. -/
lemma isContained_answerTo (l : Lookout) (question : Assembly.Question) :
    (l.answerTo question).isContained = true := by
  cases question with
  | read path => exact (l.files path).2
  | _ => rfl

/-- **The host** answers what it is asked; a file that it reads is read as it is now. -/
lemma kept_go_asking {q : Watcher.Question} {t : Watcher.Task} {e : Event} {sequel : Sequel}
    (hshape : Shape l (.asking q t e sequel) w s) (hcourse : SameCourse w₀ w)
    (hlistens : Listens w s) (hfits : Stage.Fits (.asking q t e sequel))
    (hcovered : AllCovered w₀ l (.asking q t e sequel) w s) {question : Assembly.Question}
    (hquestion : toHost? q = some question) :
    Kept w₀ ({ l with question := none }.put (.answer (l.answerTo question))) := by
  obtain ⟨hleaves, -⟩ := hfits
  have hput : { l with question := none }.put (.answer (l.answerTo question)) =
      { l with
        question := none
        assembly := { l.assembly with
          callers := [.subscription 0, .host]
          work := some (.watcher 0 (.answer (l.answerTo question))) } } := by
    simp only [put, Assembly.step, hshape.work, Stage.work, Assembly.settle, hshape.callers,
      Stage.callers]
    rfl
  rw [hput]
  refine ⟨.answering (l.answerTo question) t e sequel, w, s, ⟨hshape.watchers, hshape.channels,
    hshape.session, rfl, rfl, rfl, hshape.watcherTasks, hshape.tasks⟩, hcourse, hlistens,
    ⟨isContained_answerTo l question, ?_⟩, ?_⟩
  · rintro id g rest rfl
    cases q <;> simp_all [Watcher.Question.Leaves, toHost?]
  · intro path hempty hign hseen
    have hfresh : Stage.Fresh l path (.answering (l.answerTo question) t e sequel) := by
      rintro rfl
      cases q with
      | read q =>
          obtain rfl := Watcher.Task.reading.inj hleaves
          obtain rfl := Option.some.inj hquestion
          rfl
      | _ => simp [Watcher.Question.Leaves] at hleaves
    rcases hcovered path hempty hign hseen with howes | ⟨-, (rfl | hmem) | hsettled⟩
    · exact Or.inl howes
    · exact Or.inr ⟨hfresh, Or.inl (Or.inl hleaves)⟩
    · exact Or.inr ⟨hfresh, Or.inl (Or.inr hmem)⟩
    · exact Or.inr ⟨hfresh, Or.inr hsettled⟩

/-- An answer makes the watcher attach a listener only if it was attaching another one. -/
lemma toHost?_isSome_of_answer {o : Outcome} {t : Watcher.Task} {q : Watcher.Question}
    (hw : w.tasks = [t]) (ht : ∀ id g rest, t ≠ .attaching id g rest)
    (h : (w.step (.answer o)).turn = .asks q) : (toHost? q).isSome := by
  rw [Watcher.step_answer_asks_iff, hw, List.head?_cons, Option.bind_some] at h
  cases t with
  | attaching id g rest => exact absurd rfl (ht id g rest)
  | reading path =>
      obtain ⟨content, -, hq⟩ := Option.bind_eq_some_iff.1 h
      by_cases htrigger : Block.anyTrigger (Block.ofContent path content)
      · rw [Watcher.questionOfContent?, if_pos htrigger] at hq
        split at hq <;> cases hq
        rfl
      · rw [Watcher.questionOfContent?, if_neg htrigger] at hq
        obtain ⟨b, -, rfl⟩ := Option.map_eq_some_iff.1 hq
        rfl
  | reporting path known all rest =>
      rw [Watcher.questionAfter?] at h
      split at h
      · cases h
      · obtain ⟨b, -, rfl⟩ := Option.map_eq_some_iff.1 h
        rfl
  | calling => cases h

/-- The content of a file with a trigger is handed over with all that waits for other files. -/
lemma turn_of_anyTrigger {o : Outcome} {path content : String} (hw : w.tasks = [.reading path])
    (htrigger : w.callbacks.trigger) (ho : Watcher.contentOf? o = some content)
    (h : Block.anyTrigger (Block.ofContent path content)) :
    (w.step (.answer o)).turn =
      .asks (.trigger (w.pending.others path ++ Block.ofContent path content)) := by
  rw [Watcher.step_answer_asks_iff, hw, List.head?_cons, Option.bind_some,
    Watcher.questionAfter?, ho, Option.bind_some, Watcher.questionOfContent?_eq_trigger_iff]
  exact ⟨htrigger, h, rfl⟩

/-- **What was settled stays settled** when another file is taken in. -/
lemma settledBy_of_settled (hlistens : Listens w s) {o : Outcome} {t : Watcher.Task}
    (hw : w.tasks = [t]) {path : String} (ht : t ≠ .reading path)
    (h : Settled l w.pending path) :
    SettledBy l (Watcher.pendingAfter w.pending o t) (w.step (.answer o)).turn path := by
  intro content hcontent b hb
  rcases h content hcontent b hb with hget | hhanded
  · cases t with
    | reading q =>
        have hq : path ≠ q := fun he => ht (by rw [he])
        cases ho : Watcher.contentOf? o with
        | none => exact Or.inl (by simpa [Watcher.pendingAfter, ho] using hget)
        | some c =>
            have hafter : Watcher.pendingAfter w.pending o (.reading q) =
                Watcher.takingIn w.pending q c := by
              simp [Watcher.pendingAfter, ho]
            by_cases htrigger : Block.anyTrigger (Block.ofContent q c)
            · -- The trigger of another file takes along what waits for this one.
              have hother := hlistens.tidy.mem_others_of_mem_get hget hq
              have hturn := turn_of_anyTrigger hw hlistens.trigger ho htrigger
              exact Or.inr (Or.inr ⟨_, hturn, List.mem_append_left _ hother⟩)
            · refine Or.inl ?_
              rw [hafter, Watcher.takingIn, if_neg htrigger, Pending.get_replace, if_neg hq]
              exact hget
    | _ => exact Or.inl hget
  · exact Or.inr (Or.inl hhanded)

/-- **A file that is taken in as it is** is settled. -/
lemma settledBy_of_read (hlistens : Listens w s) {o : Outcome} {path : String}
    (hw : w.tasks = [.reading path]) (ho : o = outcomeOf (l.files path).val) :
    SettledBy l (Watcher.pendingAfter w.pending o (.reading path)) (w.step (.answer o)).turn
      path := by
  intro content hcontent b hb
  rw [hcontent] at ho
  subst ho
  by_cases htrigger : Block.anyTrigger (Block.ofContent path content)
  · have hturn := turn_of_anyTrigger (o := .text content) hw hlistens.trigger rfl htrigger
    exact Or.inr (Or.inr ⟨_, hturn, List.mem_append_right _ hb⟩)
  · refine Or.inl ?_
    have hkept : Watcher.pendingAfter w.pending (.text content) (.reading path) =
        w.pending.replace path (Block.ofContent path content) := if_neg htrigger
    rw [outcomeOf, hkept, Pending.get_replace, if_pos rfl]
    exact hb

lemma tidy_pendingAfter {p : Pending} (h : p.Tidy) (o : Outcome) (t : Watcher.Task) :
    (Watcher.pendingAfter p o t).Tidy := by
  cases t with
  | reading path =>
      rw [Watcher.pendingAfter]
      cases Watcher.contentOf? o with
      | none => exact h
      | some content => exact Watcher.tidy_takingIn h path content
  | _ => exact h

/-- **The watcher takes in a file**, or goes on with its reports. -/
lemma kept_go_answering {o : Outcome} {t : Watcher.Task} {e : Event} {sequel : Sequel}
    (hshape : Shape l (.answering o t e sequel) w s) (hcourse : SameCourse w₀ w)
    (hlistens : Listens w s) (hfits : Stage.Fits (.answering o t e sequel))
    (hcovered : AllCovered w₀ l (.answering o t e sequel) w s) : Kept w₀ (l.put .proceed) := by
  have hw : w.tasks = [t] := hshape.watcherTasks
  have hends (o' : Outcome) (hturn : (w.step (.answer o)).turn = .ends o') :
      o'.isContained = true := by
    rcases Watcher.ends_of_answer w hturn with rfl | rfl
    · rfl
    · exact hfits.1
  refine kept_of_continues hshape hcourse hlistens rfl rfl rfl rfl
    (Watcher.continues_answer w hw o) (tidy_pendingAfter hlistens.tidy o t) hends
    (fun q => toHost?_isSome_of_answer hw hfits.2) ?_
  intro path hempty hign hseen
  rcases hcovered path hempty hign hseen with howes | ⟨hfresh, hrest⟩
  · exact Or.inl howes
  · -- The path is owed no longer, so what was read of it is what it holds.
    by_cases ht : t = .reading path
    · have ho := hfresh ht
      subst ht
      exact Or.inr (Or.inr (Or.inr (settledBy_of_read hlistens hw ho)))
    · rcases hrest with (hreading | hmem) | hsettled
      · exact absurd hreading ht
      · exact Or.inr (Or.inl hmem)
      · exact Or.inr (Or.inr (Or.inr (settledBy_of_settled hlistens hw ht hsettled)))

lemma kept_go (h : Kept w₀ l) : Kept w₀ (l.move .go) := by
  obtain ⟨st, w, s, hshape, hcourse, hlistens, hfits, hcovered⟩ := id h
  have hwork := hshape.work
  rw [move, Assembly.isHostsTurn, hwork]
  cases st with
  | idle =>
      simp only [Stage.work, Option.isNone_none, if_true, hshape.question, Stage.question]
      exact h
  | turning => exact kept_go_turning hshape hcourse hlistens hcovered
  | telling e sequel => exact kept_go_telling hshape hcourse hlistens hcovered
  | asking q t e sequel =>
      obtain ⟨question, hquestion⟩ := Option.isSome_iff_exists.1 hfits.2
      simp only [Stage.work, Option.isNone_none, if_true, hshape.question, Stage.question,
        hquestion]
      exact kept_go_asking hshape hcourse hlistens hfits hcovered hquestion
  | answering o t e sequel => exact kept_go_answering hshape hcourse hlistens hfits hcovered
  | told o e sequel => exact kept_go_told hshape hcourse hlistens hfits hcovered

/-! ## Runs -/

/-- **Every move** keeps the invariant. -/
theorem kept_move (h : Kept w₀ l) (m : Move) : Kept w₀ (l.move m) := by
  cases m with
  | write path reading => exact kept_write h path reading
  | raw r => exact kept_raw h r
  | wait ms => exact kept_wait h ms
  | turn => exact kept_turn h
  | go => exact kept_go h

theorem kept_run (h : Kept w₀ l) (moves : List Move) : Kept w₀ (l.run moves) := by
  induction moves generalizing l with
  | nil => exact h
  | cons m moves ih => exact ih (kept_move h m)

variable {o : Options} {c : Callbacks} {around : Surroundings} {root : String}

/-- Once the watcher watches, the invariant holds. -/
lemma kept_start (h : Setting o c around root w) (files : String → Reading) :
    Kept (watching w root) (start around w root files) := by
  obtain ⟨queue, hstart⟩ := start_eq h files
  obtain ⟨patterns, -, rfl⟩ := watcher_of_make h.made
  rw [hstart]
  refine ⟨.idle, _, _, ⟨rfl, rfl, rfl, rfl, rfl, rfl, rfl, rfl⟩,
    Watcher.sameCourse_with _ _ _ _, ?_, trivial, ?_⟩
  · exact {
      trigger := h.trigger, current := rfl, running := rfl, tidy := Pending.tidy_empty
      observes := rfl
      heard := ⟨rfl, fun kind => by cases kind <;> rfl⟩
      agree := fun path hpath => Subscription.ignores_eq_isIgnoredBy h.home rfl
        (rootOf_ne_empty h.root_ne_empty) hpath }
  · intro path hempty hign hseen
    exact absurd hseen List.not_mem_nil

lemma watcher?_of_shape {st : Stage} (h : Shape l st w s) : l.watcher? = some w := by
  rw [watcher?, h.watchers]
  rfl

lemma subscription?_of_shape {st : Stage} (h : Shape l st w s) : l.subscription? = some s := by
  rw [subscription?, h.channels]
  rfl

/-- What the stage carries can be seen in the parts. -/
lemma carries_of_stage {st : Stage} (hshape : Shape l st w s) (hfits : st.Fits) {path : String}
    (h : st.Carries path) : l.Carries path := by
  have htelling {e : Event} {sequel : Sequel} (htasks : st.tasks = [.telling e [] sequel])
      (hmem : path ∈ sequel.paths) : l.Carries path := by
    cases sequel with
    | collect => exact absurd hmem List.not_mem_nil
    | changes paths =>
        refine Or.inl ⟨s, e, [], paths, subscription?_of_shape hshape, ?_, hmem⟩
        rw [hshape.tasks, htasks]
        exact List.mem_singleton_self _
  have hreading (htasks : st.watcherTasks = [.reading path]) : l.Carries path := by
    refine Or.inr (Or.inr ⟨w, watcher?_of_shape hshape, ?_⟩)
    rw [hshape.watcherTasks, htasks]
    exact List.mem_singleton_self _
  cases st with
  | idle | turning => exact absurd h id
  | telling e sequel =>
      rcases h with rfl | hmem
      · exact Or.inr (Or.inl hshape.work)
      · exact htelling rfl hmem
  | asking q t e sequel =>
      rcases h with rfl | hmem
      · have ht : t = .reading path := hfits.1
        exact hreading (by rw [ht]; rfl)
      · exact htelling rfl hmem
  | answering o t e sequel =>
      rcases h with rfl | hmem
      · exact hreading rfl
      · exact htelling rfl hmem
  | told o e sequel => exact htelling rfl h

/-- Between the turns nothing is carried. -/
lemma not_carries_of_idle (h : Shape l .idle w s) (path : String) : ¬ l.Carries path := by
  rintro (⟨t, e, listeners, paths, ht, hmem, -⟩ | hwork | ⟨v, hv, hmem⟩)
  · obtain rfl := Option.some.inj ((subscription?_of_shape h).symm.trans ht)
    rw [h.tasks] at hmem
    exact absurd hmem List.not_mem_nil
  · cases h.work.symm.trans hwork
  · obtain rfl := Option.some.inj ((watcher?_of_shape h).symm.trans hv)
    rw [h.watcherTasks] at hmem
    exact absurd hmem List.not_mem_nil

/-- **No block is lost**: whatever happens once the watcher has begun to watch, if the observer has
seen a file since it was last written, then its path is dirty, queued or carried by the present
turn, or each of its blocks waits or was handed over since the file was written.  Between the turns
nothing is carried. -/
theorem blocks_wait_or_handed (h : Setting o c around root w)
    (files : String → Reading) (moves : List Move) {l : Lookout}
    (hrun : (start around w root files).run moves = l) {path : String} (hpath : path ≠ "")
    (hign : Ignore.isIgnoredBy w.patterns w.home path (some (Watcher.rootOf o root)) = false)
    (hseen : Seen path l.marks) :
    ∃ w' s, l.watcher? = some w' ∧ l.subscription? = some s ∧ (l.isIdle → ¬ l.Carries path) ∧
      (path ∉ s.dirty.map Prod.fst → .change path ∉ s.queue → ¬ l.Carries path →
        ∀ content, (l.files path).val = .ok content → ∀ b ∈ Block.ofContent path content,
          b ∈ w'.pending.snapshot ∨ Handed path b l.marks) := by
  subst hrun
  obtain ⟨st, w', s, hshape, hcourse, hlistens, hfits, hcovered⟩ :=
    kept_run (kept_start h files) moves
  have hign' : (watching w root).ignores path = false := by
    obtain ⟨patterns, -, rfl⟩ := watcher_of_make h.made
    exact hign
  refine ⟨w', s, watcher?_of_shape hshape, subscription?_of_shape hshape, ?_, ?_⟩
  · intro hidle
    obtain rfl := stage_of_isIdle hshape hidle
    exact not_carries_of_idle hshape path
  · intro hclean hqueue hcarries content hcontent b hb
    rcases hcovered path hpath hign' hseen with (hdirty | hqueued) | ⟨-, hcarried | hsettled⟩
    · exact absurd hdirty hclean
    · exact absurd hqueued hqueue
    · exact absurd (carries_of_stage hshape hfits hcarried) hcarries
    · exact (hsettled content hcontent b hb).imp_left hlistens.tidy.mem_snapshot_of_mem_get

/-! ## A file that is noted

The plain watcher watches its home, where one file is written, seen and taken in. -/

/-- A home whose paths are no links. -/
def home : Surroundings := { home := "/w", realPath := Path.absoluteText "/w" }

lemma setting_home : Setting { ignored := [] } {} home "/w" Watcher.plain where
  made := rfl
  trigger := rfl
  sources := ⟨[], rfl⟩
  root_ne_empty := by decide
  home := by decide
  noLink := rfl
  observed := rfl
  begins := rfl

/-- The plain watcher watches its home, where there is no file yet. -/
def outset : Lookout :=
  start home Watcher.plain "/w" fun path => ⟨.error (Failure.noSuchFile path), rfl⟩

/-- A file is written. -/
def writing : List Move :=
  [.write "/w/a.py" ⟨.ok "# note AI", rfl⟩]

/-- The file is written, the observer sees it, and after a while a turn is begun, of which so many
steps are done. -/
def taking (steps : Nat) : List Move :=
  writing ++ [.raw ⟨.modified "/w/a.py", false⟩, .wait 500, .turn] ++ List.replicate steps .go

/-- After the turn the block waits. -/
theorem blocks_wait_or_handed_of_turn :
    let l := outset.run (taking 14)
    Setting { ignored := [] } {} home "/w" Watcher.plain ∧ "/w/a.py" ≠ "" ∧
      Ignore.isIgnoredBy [] "/w" "/w/a.py" (some (Watcher.rootOf { ignored := [] } "/w")) = false ∧
      Seen "/w/a.py" l.marks ∧ ∃ w, l.watcher? = some w ∧
        ∀ b ∈ Block.ofContent "/w/a.py" "# note AI",
          b ∈ w.pending.snapshot ∨ Handed "/w/a.py" b l.marks := by
  intro l
  have hign : Ignore.isIgnoredBy [] "/w" "/w/a.py"
      (some (Watcher.rootOf { ignored := [] } "/w")) = false := by decide
  have hseen : Seen "/w/a.py" l.marks := by decide +kernel
  have hparts : l.subscription?.map (fun s => (s.dirty, s.queue)) = some ([], []) := by
    decide +kernel
  have hidle : l.isIdle := by decide +kernel
  obtain ⟨w, s, hw, hs, hcarries, hblocks⟩ :=
    blocks_wait_or_handed setting_home _ (taking 14) (l := l) rfl (by decide) hign hseen
  rw [hs, Option.map_some, Option.some.injEq, Prod.mk.injEq] at hparts
  refine ⟨setting_home, by decide, hign, hseen, w, hw, ?_⟩
  exact hblocks (by simp [hparts.1]) (by simp [hparts.2]) (hcarries hidle) _ (by decide +kernel)

/-- **The path alone does not tell**: it is neither dirty nor queued between the write and its raw
event, and neither while the turn is about to read the file.  The block does not wait then, and was
not handed over. -/
theorem unseen_block :
    let b : Block := ⟨"/w/a.py", 1, ["# note AI"], false⟩
    b ∈ Block.ofContent "/w/a.py" "# note AI" ∧
      ∀ l ∈ [outset.run writing, outset.run (taking 6)],
        (l.files "/w/a.py").val = .ok "# note AI" ∧
          (∃ s ∈ l.subscription?,
            "/w/a.py" ∉ s.dirty.map Prod.fst ∧ .change "/w/a.py" ∉ s.queue) ∧
          (∃ w ∈ l.watcher?, b ∉ w.pending.snapshot) ∧ ¬ Handed "/w/a.py" b l.marks := by
  decide +kernel

end Marginalia.Lookout
