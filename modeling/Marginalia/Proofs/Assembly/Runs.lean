import Marginalia.Proofs.Assembly.Calls

/-!
# Runs of a session

Where a run stands after each of its inputs.  The contents of files are what is left to follow: an
answer to a question for a file goes to the watcher that has asked, and a content with a trigger
from there to the session and to the host as a message (`Reads.stand_content`).

`stand_cons` puts all inputs together, and `stand_after` is the result: after any run the machine is
at rest as the history says, or on its way there, and what has been delivered and what is still to
be delivered on this way are the letters of the history.  `messages_of_heeds` follows a single
change that is accepted to its message.
-/

namespace Marginalia

/-! ## The answer to one who reads -/

namespace Watcher

variable {w : Watcher} {path : String} {ts : List Task}

lemma pending_of_reading (h : w.tasks = .reading path :: ts) (o : Outcome) :
    (w.step (.answer o)).state.pending =
      ((contentOf? o).map (takingIn w.pending path)).getD w.pending := by
  rw [step_pending, pendingUpon, h]
  rfl

lemma noReading_of_reading (h : w.tasks = .reading path :: ts) (hno : NoReading ts) (o : Outcome) :
    NoReading (w.step (.answer o)).state.tasks := by
  refine w.noReading_step ?_ fun q hread => ?_
  · rw [tasksUpon, h]
    exact hno
  · obtain ⟨g, hi, -⟩ := (w.asks_read_iff _ q).1 hread
    cases hi

/-- What is read is handed over if it holds a trigger, and only then. -/
lemma asks_trigger_of_reading (h : w.tasks = .reading path :: ts)
    (hthere : w.callbacks.trigger = true) (o : Outcome) (blocks : List Block) :
    (w.step (.answer o)).turn = .asks (.trigger blocks) ↔
      ∃ content, contentOf? o = some content ∧
        Block.anyTrigger (Block.ofContent path content) ∧
          blocks = w.pending.others path ++ Block.ofContent path content := by
  rw [step_asks_iff, questionUpon?, h, List.head?_cons, Option.bind_some,
    questionAfter?_eq_trigger_iff]
  simp only [questionOfContent?_eq_trigger_iff, hthere, true_and, Task.reading.injEq]
  constructor
  · rintro ⟨q, content, rfl, hcontent⟩
    exact ⟨content, hcontent⟩
  · rintro ⟨content, hcontent⟩
    exact ⟨path, content, rfl, hcontent⟩

end Watcher

namespace Session

/-- A session delivers what it is handed over, if there is anything. -/
lemma step_trigger (s : Session) {blocks : List Block} (h : blocks ≠ []) :
    s.step (.trigger blocks) =
      s.ask [] (.deliver (Message.ofBlocks s.home s.cwd blocks)) (.delivering blocks) := by
  rw [step, deliver, if_neg (by simpa using h)]

end Session

namespace Assembly

open Watcher (NoReading pendingOf)

variable {a : Assembly} {s s' : Session} {v : View} {path : String} {id : Nat} {w : Watcher}

/-- The answer goes to the watcher that has asked for the file. -/
lemma Reads.step_answer (h : Reads s v path a s' id w) (o : Outcome) :
    a.step (.answer o) = (a.withTurn a.callers.tail (some (.watcher id (.answer o))), []) := by
  simp only [step, h.work]
  cases hcallers : a.callers with
  | nil =>
      have hhead := h.callers
      rw [hcallers] at hhead
      cases hhead
  | cons caller rest =>
      have hhead := h.callers
      rw [hcallers] at hhead
      obtain rfl := Option.some.inj hhead
      rw [settle, hcallers]
      rfl

/-- Once the answer is there the watcher goes on, and no watcher waits for a file. -/
lemma Reads.unread (h : Reads s v path a s' id w) (o : Outcome) :
    (a.withWatcher id (w.step (.answer o)).state).Unread := by
  intro u hu
  obtain ⟨k, hk⟩ := List.mem_iff_getElem?.1 hu
  obtain ⟨ts, htasks, hno⟩ := h.tasks
  by_cases hkid : k = id
  · subst hkid
    have hsame : (w.step (.answer o)).state = u := by
      simpa [withWatcher, (List.getElem?_eq_some_iff.1 h.watcher).1] using hk
    rw [← hsame]
    exact w.noReading_of_reading htasks hno o
  · have hk' : a.watchers[k]? = some u := by
      simpa [withWatcher, Ne.symm hkid] using hk
    exact h.others k u hk' hkid

/-- What the watcher has taken in becomes part of the view. -/
lemma Reads.seated_answer (h : Reads s v path a s' id w) (o : Outcome) :
    Seated s { v with deeds := ((Watcher.contentOf? o).map (.took path ·)).toList ++ v.deeds }
      (a.withWatcher id (w.step (.answer o)).state) s' := by
  have hcourse := w.sameCourse_step (.answer o)
  have hholds := h.seated.holder id w h.watcher h.isOpen
  obtain ⟨ts, htasks, -⟩ := h.tasks
  refine h.seated.withWatcher h.watcher hcourse.callbacks (Or.inl hholds.watcher) fun _ =>
    ⟨hholds.watcher, hholds.cwd, hholds.started, hcourse.paused.trans hholds.paused, ?_⟩
  · rw [w.pending_of_reading htasks, hholds.pending]
    cases Watcher.contentOf? o <;> rfl

/-- The watcher has taken in what was read, and nothing is handed over. -/
lemma Reads.stand_kept (h : Reads s v path a s' id w) {o : Outcome}
    (htrigger : ∀ blocks, (w.step (.answer o)).turn ≠ .asks (.trigger blocks)) :
    Stand s { v with deeds := ((Watcher.contentOf? o).map (.took path ·)).toList ++ v.deeds } none
      [] (a.withTurn a.callers.tail (some (.watcher id (.answer o)))) := by
  let b := a.withTurn a.callers.tail (some (.watcher id (.answer o)))
  have hseated := (h.seated_answer o).withTurn b.callers b.work
  have hread : ∀ q, (w.step (.answer o)).turn ≠ .asks (.read q) := by
    intro q hturn
    obtain ⟨g, hi, -⟩ := (w.asks_read_iff _ q).1 hturn
    cases hi
  obtain ⟨notes, hnotes, hstep⟩ := proceed_watcher (a := b) h.seated.channels rfl h.watcher
  have hyields := (yields_passOn hseated.channels id hread htrigger).after hnotes
  exact hyields.stand_on (a := b) rfl rfl hstep hseated h.steady (h.unread o)

/-- What was read holds a trigger, and is handed over to the session with all that waits. -/
lemma Reads.proceed_content (h : Reads s v path a s' id w) {content : String}
    (hany : Block.anyTrigger (Block.ofContent path content)) :
    ∃ notes, questions notes = [] ∧
      (a.withTurn a.callers.tail (some (.watcher id (.answer (.text content))))).step .proceed =
        ((a.withWatcher id (w.step (.answer (.text content))).state).withTurn
          (.watcher id :: a.callers.tail) (some (.session (.trigger (v.payload path content)))),
          notes) := by
  let b := a.withTurn a.callers.tail (some (.watcher id (.answer (.text content))))
  have hholds := h.seated.holder id w h.watcher h.isOpen
  obtain ⟨ts, htasks, -⟩ := h.tasks
  have hthere : w.callbacks.trigger = true :=
    h.seated.callbacks w (List.mem_of_getElem? h.watcher)
  have hturn : (w.step (.answer (.text content))).turn =
      .asks (.trigger (v.payload path content)) :=
    (w.asks_trigger_of_reading htasks hthere _ _).2
      ⟨content, rfl, hany, by rw [hholds.pending]; rfl⟩
  have hsession : (b.withWatcher id (w.step (.answer (.text content))).state).session.isSome := by
    show a.session.isSome
    rw [h.seated.session]
    rfl
  obtain ⟨notes, hnotes, hstep⟩ := proceed_watcher (a := b) h.seated.channels rfl h.watcher
  refine ⟨notes, hnotes, ?_⟩
  rw [hstep, hturn, passOn, watcherAsks, if_pos hsession]
  simp [Result.after, Assembly.call, withTurn, withWatcher, b]

/-- What is handed over is delivered. -/
lemma Seated.proceed_trigger {blocks : List Block} (h : Seated s v a s')
    (hcwd : s'.cwd = v.directory) (hblocks : blocks ≠ []) (callers : List Caller) :
    (a.withTurn callers (some (.session (.trigger blocks)))).step .proceed =
      ((a.withSession { s' with tasks := .delivering blocks :: s'.tasks }).withTurn
        (.session :: callers) none,
        [.asked (.deliver (Message.ofBlocks s.home v.directory blocks))]) := by
  let b := a.withTurn callers (some (.session (.trigger blocks)))
  have hdelivers : s'.step (.trigger blocks) =
      s'.ask [] (.deliver (Message.ofBlocks s.home v.directory blocks)) (.delivering blocks) := by
    rw [Session.step_trigger s' hblocks, h.home, hcwd]
  rw [proceed_session (a := b) h.session rfl, hdelivers]
  rfl

lemma payload_ne_nil {content : String} (hany : Block.anyTrigger (Block.ofContent path content)) :
    v.payload path content ≠ [] := by
  obtain ⟨block, hmem, -⟩ := List.any_eq_true.1 hany
  exact List.ne_nil_of_mem (List.mem_append_right _ hmem)

/-- **The content of a file** becomes part of the view, and if it holds a trigger a message is
delivered. -/
lemma Reads.stand_content (h : Reads s v path a s' id w) (content : String) :
    Stand s { v with deeds := .took path content :: v.deeds } none (v.letter? s path content).toList
      (a.withTurn a.callers.tail (some (.watcher id (.answer (.text content))))) := by
  rw [View.letter?, ← Block.anyTrigger_ofContent path content]
  by_cases hany : Block.anyTrigger (Block.ofContent path content)
  · let c := (a.withWatcher id (w.step (.answer (.text content))).state).withTurn
      (.watcher id :: a.callers.tail) (some (.session (.trigger (v.payload path content))))
    have hholds := h.seated.holder id w h.watcher h.isOpen
    let next : View := { v with deeds := .took path content :: v.deeds }
    have hseated : Seated s next (a.withWatcher id (w.step (.answer (.text content))).state) s' :=
      h.seated_answer (.text content)
    have hblocks : v.payload path content ≠ [] := payload_ne_nil hany
    have hdelivers : c.step .proceed = _ :=
      hseated.proceed_trigger hholds.cwd hblocks (.watcher id :: a.callers.tail)
    have hrests : Stand s next none [] (c.step .proceed).1 := by
      rw [hdelivers]
      exact .rests ⟨(hseated.withSession _).withTurn _ _, .cons rfl h.steady, h.unread _,
        fun c hc => by cases hc⟩
    have hgoes := Stand.goes (v := next) rfl rfl (fun _ => h.held) (by rw [hdelivers]; rfl) hrests
    obtain ⟨notes, hnotes, hpass⟩ := h.proceed_content hany
    rw [hdelivers] at hgoes
    rw [if_pos hany]
    exact .on rfl rfl hpass (messages_of_questions hnotes) (file?_of_questions hnotes) hgoes
  · rw [if_neg hany]
    obtain ⟨ts, htasks, -⟩ := h.tasks
    have hthere : w.callbacks.trigger = true :=
      h.seated.callbacks w (List.mem_of_getElem? h.watcher)
    refine h.stand_kept (o := .text content) fun blocks hturn => ?_
    obtain ⟨q, hcontent, hq, -⟩ := (w.asks_trigger_of_reading htasks hthere _ blocks).1 hturn
    cases hcontent
    exact hany hq

/-- A file that cannot be read changes nothing. -/
lemma Reads.stand_failure (h : Reads s v path a s' id w) (why : Failure) :
    Stand s v none [] (a.withTurn a.callers.tail (some (.watcher id (.answer (.raised why))))) := by
  obtain ⟨ts, htasks, -⟩ := h.tasks
  have hthere : w.callbacks.trigger = true :=
    h.seated.callbacks w (List.mem_of_getElem? h.watcher)
  refine h.stand_kept (o := .raised why) fun blocks hturn => ?_
  obtain ⟨content, hcontent, -⟩ := (w.asks_trigger_of_reading htasks hthere _ blocks).1 hturn
  cases hcontent

/-! ## The inputs of a run -/

lemma called?_of_some {c : Call} (hwork : a.work = some c) (i : Input) : a.called? i = none := by
  have hturn : a.isHostsTurn = false := by
    rw [isHostsTurn, hwork]
    rfl
  unfold called?
  split
  · rw [hturn]
    rfl
  · rfl

lemma view_of_called {h : History} {i : Input} {c : Session.Input}
    (hcalled : (a.after h).called? i = some c) :
    a.view s (i :: h) = (a.view s h).upon s c := by
  rw [view, calls, deeds, hcalled]
  cases c <;> rfl

lemma view_of_not_called {h : History} {i : Input} (hcalled : (a.after h).called? i = none) :
    a.view s (i :: h) =
      { a.view s h with deeds := (a.deedUpon? h i).toList ++ a.deeds h } := by
  rw [view, calls, deeds, hcalled]
  rfl

/-- While no file is read, an answer brings none. -/
lemma upon_of_reading?_none {h : History} (hread : a.reading? h = none) (i : Input) :
    a.deedUpon? h i = none ∧ a.letterUpon? s h i = none := by
  unfold deedUpon? letterUpon?
  rw [hread]
  constructor <;> split <;> rfl

/-- **A call of the session** is followed to where it leads. -/
lemma Rests.stand_session (h : Rests s v a s') {i : Session.Input}
    (hi : (Call.session i).isOfHost) :
    Stand s (v.upon s i) none [] (a.withTurn (.host :: a.callers) (some (.session i))) := by
  have hseated := h.seated.withTurn (.host :: a.callers) (some (.session i))
  cases i with
  | start cwd => exact stand_start hseated h.steady h.unread rfl
  | agentStart => exact stand_agentStart hseated h.steady h.unread rfl
  | agentEnd => exact stand_agentEnd hseated h.steady h.unread rfl
  | shutdown => exact stand_shutdown hseated h.steady h.unread rfl
  | comment | trigger | ready | error | answer => cases hi

/-- An input while the machine is at work: only `proceed` does anything. -/
lemma stand_cons_of_some {h : History} {i : Input} {c : Call} {ms : List String}
    (hread : a.reading? h = none) (hwork : (a.after h).work = some c)
    (hstand : Stand s (a.view s h) none ms (a.after h))
    (hnext : ∃ ms', Stand s (a.view s h) (file? ((a.after h).step .proceed).2) ms'
        ((a.after h).step .proceed).1 ∧ messages ((a.after h).step .proceed).2 ++ ms' = ms) :
    ∃ ms', Stand s (a.view s (i :: h)) (a.reading? (i :: h)) ms' (a.after (i :: h)) ∧
      messages ((a.after h).step i).2 ++ ms' = ms := by
  have hview : a.view s (i :: h) = a.view s h := by
    rw [view_of_not_called (called?_of_some hwork i), (upon_of_reading?_none (s := s) hread i).1]
    rfl
  rw [hview, reading?, after]
  by_cases hi : i = .proceed
  · subst hi
    exact hnext
  · rw [step_of_some hwork hi]
    exact ⟨ms, hstand, rfl⟩

/-- An input while the host is heard and no file is read. -/
lemma stand_cons_of_rests {h : History} {i : Input} (hread : a.reading? h = none)
    (hwork : (a.after h).work = none) (hrests : Rests s (a.view s h) (a.after h) s')
    (hi : plays? none i) :
    Stand s (a.view s (i :: h)) (a.reading? (i :: h)) [] (a.after (i :: h)) ∧
      messages ((a.after h).step i).2 = [] := by
  have hview (hcalled : (a.after h).called? i = none) : a.view s (i :: h) = a.view s h := by
    rw [view_of_not_called hcalled, (upon_of_reading?_none (s := s) hread i).1]
    rfl
  rw [reading?, after]
  cases i with
  | call c =>
      have hstep : (a.after h).step (.call c) =
          ((a.after h).withTurn (.host :: (a.after h).callers) (some c), []) := by
        simp only [step, hwork]
        rfl
      have hc : c.isOfHost := (Bool.and_eq_true_iff.1 hi).1
      rw [hstep]
      cases c with
      | session j =>
          have hcalled : (a.after h).called? (.call (.session j)) = some j := by
            rw [called?, isHostsTurn, hwork]
            rfl
          rw [view_of_called hcalled]
          exact ⟨hrests.stand_session hc, rfl⟩
      | watcher id j =>
          rw [hview rfl]
          refine ⟨.rests ⟨hrests.seated.withTurn _ _, hrests.steady, hrests.unread, ?_⟩, rfl⟩
          intro c' hc'
          obtain rfl := Option.some.inj hc'
          cases j with
          | event => rfl
          | watch | close | pause | resume | clear | answer => cases hc
      | watch | subscription | subscribe => cases hc
  | answer o =>
      have hstep : (a.after h).step (.answer o) = (a.after h).settle o := by
        simp only [step, hwork]
      have hyields := yields_settle (a.after h) o
      rw [hstep, hview rfl, hyields.file]
      exact ⟨hyields.stand hrests.seated hrests.steady hrests.unread, hyields.messages⟩
  | proceed =>
      rw [step_of_none hwork, hview rfl]
      exact ⟨.rests hrests, rfl⟩
  | wait | refuse =>
      have hseated := hrests.seated
      rw [hview rfl]
      simp only [step, hwork]
      exact ⟨.rests ⟨⟨hseated.relays, hseated.channels, hseated.session, hseated.settings,
        hseated.home, hseated.callbacks, hseated.holder⟩, hrests.steady, hrests.unread,
        fun c hc => by cases hc⟩, rfl⟩

/-- An input while a file is read: the answer. -/
lemma stand_cons_of_reads {h : History} {i : Input} (hread : a.reading? h = some path)
    (hreads : Reads s (a.view s h) path (a.after h) s' id w) (hi : plays? (some path) i) :
    Stand s (a.view s (i :: h)) (a.reading? (i :: h)) (a.letterUpon? s h i).toList
      (a.after (i :: h)) ∧ messages ((a.after h).step i).2 = [] := by
  cases i with
  | call c => exact absurd (Bool.and_eq_true_iff.1 hi).2 Bool.false_ne_true
  | answer o =>
      rw [reading?, after, hreads.step_answer, view_of_not_called rfl]
      cases o with
      | text content =>
          have hdeed : a.deedUpon? h (.answer (.text content)) = some (.took path content) := by
            rw [deedUpon?, hread]
            rfl
          have hletter : a.letterUpon? s h (.answer (.text content)) =
              (a.view s h).letter? s path content := by
            rw [letterUpon?, hread]
            rfl
          rw [hdeed, hletter]
          exact ⟨hreads.stand_content content, rfl⟩
      | raised why => exact ⟨hreads.stand_failure why, rfl⟩
      | returned | made => cases hi
  | proceed | wait | refuse => cases hi

/-- **One input of a run.** -/
lemma stand_cons {h : History} {i : Input} {ms : List String}
    (hstand : Stand s (a.view s h) (a.reading? h) ms (a.after h))
    (hi : plays? (a.reading? h) i) :
    ∃ ms', Stand s (a.view s (i :: h)) (a.reading? (i :: h)) ms' (a.after (i :: h)) ∧
      messages ((a.after h).step i).2 ++ ms' = ms ++ (a.letterUpon? s h i).toList := by
  generalize hv : a.view s h = v at hstand
  generalize hfile : a.reading? h = file at hstand hi
  generalize hb : a.after h = b at hstand
  cases hstand with
  | rests hrests =>
      subst hv hb
      rw [(upon_of_reading?_none hfile i).2]
      cases hwork : (a.after h).work with
      | some c =>
          have hminor := hrests.minor hwork
          exact stand_cons_of_some hfile hwork (.rests hrests)
            ⟨[], hminor.stand, by rw [hminor.messages]; rfl⟩
      | none =>
          obtain ⟨hnext, hmessages⟩ := stand_cons_of_rests hfile hwork hrests hi
          exact ⟨[], hnext, by rw [hmessages]; rfl⟩
  | reads hreads =>
      subst hv hb
      obtain ⟨hnext, hmessages⟩ := stand_cons_of_reads hfile hreads hi
      exact ⟨_, hnext, by rw [hmessages]⟩
  | goes hwork hbusy hheld hnone hnext =>
      subst hv hb
      rw [(upon_of_reading?_none hfile i).2, Option.toList_none, List.append_nil]
      refine stand_cons_of_some hfile hwork (.goes hwork hbusy hheld hnone hnext) ⟨_, ?_, rfl⟩
      rw [hnone]
      exact hnext

/-- **Where a run stands**: what was delivered and what is still to be delivered before the host is
heard again are the letters of the history. -/
theorem stand_after (begins : a.BeginsWith s) {h : History} (hplays : a.plays h) :
    ∃ ms, Stand s (a.view s h) (a.reading? h) ms (a.after h) ∧
      messages (a.seen h) ++ ms = a.letters s h := by
  induction h with
  | nil =>
      obtain ⟨around, settings, notifies, logger, rfl, rfl⟩ := begins
      refine ⟨[], .rests ⟨⟨rfl, fun c hc => ?_, rfl, rfl, rfl, fun w hw => ?_, fun k w hk => ?_⟩,
        fun t ht => ?_, fun w hw => ?_, fun c hc => ?_⟩, rfl⟩
      · exact absurd hc List.not_mem_nil
      · exact absurd hw List.not_mem_nil
      · exact absurd (List.mem_of_getElem? hk) List.not_mem_nil
      · exact absurd ht List.not_mem_nil
      · exact absurd hw List.not_mem_nil
      · cases hc
  | cons i h ih =>
      obtain ⟨hi, hplays⟩ := Bool.and_eq_true_iff.1 hplays
      obtain ⟨ms, hstand, hmessages⟩ := ih hplays
      obtain ⟨ms', hnext, hnew⟩ := stand_cons hstand hi
      refine ⟨ms', hnext, ?_⟩
      calc messages (a.seen (i :: h)) ++ ms'
          = messages (a.seen h) ++ (messages ((a.after h).step i).2 ++ ms') := by
            rw [seen, messages_append, List.append_assoc]
        _ = messages (a.seen h) ++ ms ++ (a.letterUpon? s h i).toList := by
            rw [hnew, List.append_assoc]
        _ = a.letters s (i :: h) := by rw [hmessages, letters]

/-! ## Changes of files -/

variable {file : Option String} {ms : List String} {h : History}

/-- An event is not to be done but at rest. -/
lemma Stand.rests_of_event {g : Nat} {e : Notifier.Event} (hstand : Stand s v file ms a)
    (hwork : a.work = some (.watcher id (.event g e))) : file = none ∧ ∃ s', Rests s v a s' := by
  cases hstand with
  | rests h => exact ⟨rfl, _, h⟩
  | reads h => cases hwork.symm.trans h.work
  | goes hbusy hevent =>
      obtain rfl := Option.some.inj (hwork.symm.trans hbusy)
      cases hevent

lemma Stand.exists_reads (hstand : Stand s v (some path) ms a) :
    ms = [] ∧ ∃ s' id w, Reads s v path a s' id w := by
  cases hstand with
  | reads h => exact ⟨rfl, _, _, _, h⟩

/-- What was read and holds a trigger is delivered two steps later. -/
lemma Reads.delivers {content : String} (hreads : Reads s v path (a.after h) s' id w)
    (hany : Block.anyTrigger (Block.ofContent path content)) :
    messages (a.seen (.proceed :: .proceed :: .answer (.text content) :: h)) =
      messages (a.seen h) ++ [Message.ofBlocks s.home v.directory (v.payload path content)] := by
  have hblocks : v.payload path content ≠ [] := payload_ne_nil hany
  have hholds := hreads.seated.holder id w hreads.watcher hreads.isOpen
  obtain ⟨notes, hnotes, hpass⟩ := hreads.proceed_content hany
  have hdelivers := (hreads.seated_answer (.text content)).proceed_trigger hholds.cwd hblocks
    (.watcher id :: (a.after h).callers.tail)
  simp only [seen, after, hreads.step_answer, hpass, hdelivers, messages_append,
    messages_of_questions hnotes, List.append_assoc]
  rfl

/-- **A change that is accepted** has the file read, and if that holds a trigger a message is
delivered. -/
lemma messages_of_heeds (begins : a.BeginsWith s) (hplays : a.plays h)
    (hheeds : (a.after h).Heeds path) {content : String}
    (hany : Block.anyTrigger (Block.ofContent path content)) :
    messages (a.seen (.proceed :: .proceed :: .answer (.text content) :: .proceed :: h)) =
      messages (a.seen h) ++
        [Message.ofBlocks s.home (a.view s h).directory ((a.view s h).payload path content)] := by
  obtain ⟨ms, hstand, -⟩ := stand_after begins hplays
  have ⟨id, g, hwork, _⟩ := hheeds
  obtain ⟨hreading, s', hrests⟩ := hstand.rests_of_event hwork
  have hread : a.reading? (.proceed :: h) = some path := (hstand.file?_iff _ _).2 ⟨rfl, hheeds⟩
  have hnext : a.plays (.proceed :: h) := by
    rw [plays, hreading]
    exact hplays
  have hview : a.view s (.proceed :: h) = a.view s h := view_of_not_called rfl
  have hmessages : messages (a.seen (.proceed :: h)) = messages (a.seen h) := by
    rw [seen, messages_append, (hrests.minor hwork).messages, List.append_nil]
  obtain ⟨ms, hstand, -⟩ := stand_after begins hnext
  rw [hread, hview] at hstand
  obtain ⟨-, s', id, w, hreads⟩ := hstand.exists_reads
  rw [hreads.delivers hany, hmessages]

end Assembly

end Marginalia
