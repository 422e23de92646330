import Marginalia.Proofs.Assembly.Subscriptions
import Marginalia.Proofs.Watcher.HandOver

/-!
# One step of an assembly

How a step of an assembly looks when a part of it has its turn, over a notifier that is a matter of
the host.  A step asks the host at most one question (`questions`), and two of them matter to those
who follow a run: that a file be read and that a message be delivered.

A call is minor if it neither begins nor ends anything and hands nothing over.  Minor calls lead to
minor ones (`Yields`), and their part changes by its tasks only: `Session.step_of_isMinor` and
`Watcher.noReading_step` are what is used of the session and of the watchers.

The last section holds a small session for the examples of the modules to come.
-/

namespace Marginalia

/-! ## What a watcher asks -/

namespace Watcher

open Notifier (Event EventKind)

variable {w : Watcher}

/-- The input is an event or an answer. -/
def Input.isMinor : Input → Bool
  | .event .. | .answer _ => true
  | _ => false

/-- **A file is read** exactly upon a change of it that comes from the open subscription, while
there is no pause, and if the file is not ignored. -/
lemma asks_read_iff (w : Watcher) (i : Input) (path : String) :
    (w.step i).turn = .asks (.read path) ↔
      ∃ g, i = .event g (.change path) ∧ w.isCurrent g ∧ w.paused = false ∧
        w.ignores path = false := by
  rw [step_asks_iff]
  cases i with
  | watch root opened => cases opened <;> simp [questionUpon?]
  | close | pause | resume | clear => simp [questionUpon?]
  | event g e =>
      cases e with
      | ready | error => simp [questionUpon?, questionOfEvent?]
      | change q =>
          simp only [questionUpon?, questionOfEvent?]
          constructor
          · intro h
            split at h
            · rename_i hcurrent
              split at h
              · cases h
              · rename_i hfree
                cases h
                simp only [not_or, Bool.not_eq_true] at hfree
                exact ⟨g, rfl, hcurrent, hfree⟩
            · cases h
          · rintro ⟨g', hi, hcurrent, hpaused, hignored⟩
            cases hi
            rw [if_pos hcurrent, if_neg (by simp [hpaused, hignored])]
  | answer o =>
      simp only [questionUpon?, reduceCtorEq, false_and, exists_false, iff_false]
      intro h
      obtain ⟨t, -, ht⟩ := Option.bind_eq_some_iff.1 h
      exact questionAfter?_ne_read w o t path ht

/-- Nothing is handed over by an event, nor by an answer while no file is being read. -/
lemma not_asks_trigger (hno : NoReading w.tasks) {i : Input} (hi : i.isMinor)
    (blocks : List Block) : (w.step i).turn ≠ .asks (.trigger blocks) := by
  rw [Ne, step_asks_iff]
  cases i with
  | event g e =>
      rw [questionUpon?]
      cases e <;> simp [questionOfEvent?]
  | answer o =>
      intro h
      obtain ⟨t, ht, hq⟩ := Option.bind_eq_some_iff.1 h
      obtain ⟨path, -, rfl, -, -⟩ := (questionAfter?_eq_trigger_iff w o t blocks).1 hq
      exact hno path (List.mem_of_mem_head? ht)
  | watch | close | pause | resume | clear => cases hi

/-- What waits stays as it is by an event, and by an answer while no file is being read. -/
lemma pending_of_noReading (hno : NoReading w.tasks) {i : Input} (hi : i.isMinor) :
    (w.step i).state.pending = w.pending := by
  rw [step_pending]
  cases i with
  | event => rfl
  | answer o =>
      rw [pendingUpon]
      cases h : w.tasks.head? with
      | none => rfl
      | some t =>
          have hne : ∀ path, t ≠ .reading path := fun path ht =>
            hno path (ht ▸ List.mem_of_mem_head? h)
          cases t with
          | reading path => exact absurd rfl (hne path)
          | attaching | reporting | calling => rfl
  | watch | close | pause | resume | clear => cases hi

lemma sameCourse_of_isMinor (w : Watcher) {i : Input} (hi : i.isMinor) :
    SameCourse w (w.step i).state := by
  have hsame := w.sameCourse_step i
  cases i with
  | event | answer => exact hsame
  | watch | close | pause | resume | clear => cases hi

lemma noReading_tasksUpon_of_isMinor (hno : NoReading w.tasks) {i : Input} (hi : i.isMinor) :
    NoReading (w.tasksUpon i) := by
  cases i with
  | event => exact hno
  | answer o => exact fun path hmem => hno path (List.mem_of_mem_tail hmem)
  | watch | close | pause | resume | clear => cases hi

/-- A step begins to read a file only by asking for it. -/
lemma noReading_step {i : Input} (hno : NoReading (w.tasksUpon i))
    (hread : ∀ path, (w.step i).turn ≠ .asks (.read path)) : NoReading (w.step i).state.tasks := by
  have htasks := w.step_tasks i
  cases hturn : (w.step i).turn with
  | ends o =>
      rw [hturn] at htasks
      rwa [htasks]
  | asks q =>
      rw [hturn] at htasks
      obtain ⟨t, hleaves, htasks⟩ := htasks
      have hq : ∀ path, q ≠ .read path := fun path h => hread path (h ▸ hturn)
      rw [htasks]
      intro path hmem
      rcases List.mem_cons.1 hmem with ht | hmem
      · exact hleaves.ne_reading hq path ht.symm
      · exact hno path hmem

/-- Whoever asks for a file waits for it. -/
lemma tasks_of_asks_read {i : Input} {path : String}
    (hturn : (w.step i).turn = .asks (.read path)) :
    (w.step i).state.tasks = .reading path :: w.tasksUpon i := by
  have htasks := w.step_tasks i
  rw [hturn] at htasks
  obtain ⟨t, hleaves, htasks⟩ := htasks
  have ht : t = .reading path := hleaves
  rw [htasks, ht]

end Watcher

/-! ## What a session asks -/

namespace Session

variable {s : Session}

/-- The input neither calls the session nor hands anything over. -/
def Input.isMinor : Input → Bool
  | .comment .. | .ready | .error _ | .answer _ => true
  | _ => false

/-- The session informs the host at most, and changes by its tasks only. -/
structure Informs (s : Session) (ts : List Task) (r : Result) : Prop where
  state : ∃ ts', r.state = { s with tasks := ts' } ∧ (IsSteady ts → IsSteady ts')
  turn : (∃ o, r.turn = .ends o) ∨ ∃ text gravity, r.turn = .asks (.notify text gravity)

lemma informs_finish (s : Session) (notes : List Log.Entry) (o : Outcome) :
    Informs s s.tasks (s.finish notes o) :=
  ⟨⟨s.tasks, rfl, id⟩, Or.inl ⟨o, rfl⟩⟩

lemma informs_inform (s : Session) (notes : List Log.Entry) (text : String) (gravity : Gravity) :
    Informs s s.tasks (s.inform notes text gravity) := by
  unfold inform
  split
  · exact ⟨⟨.waiting :: s.tasks, rfl, IsSteady.cons rfl⟩, Or.inr ⟨text, gravity, rfl⟩⟩
  · exact informs_finish s _ _

lemma informs_passOn (s : Session) (why : Failure) : Informs s s.tasks (s.passOn why) := by
  unfold passOn
  split
  · exact informs_inform s _ _ _
  · exact informs_finish s _ _

lemma informs_proceed (s : Session) (o : Outcome) {t : Task} (ht : t.turnsOver = false) :
    Informs s s.tasks (s.proceed o t) := by
  cases t with
  | delivering blocks =>
      rw [proceed, delivered]
      split
      · split
        · exact informs_inform s _ _ _
        · exact informs_finish s _ _
      · exact informs_inform s _ _ _
  | resuming =>
      cases o with
      | raised why => exact informs_finish s _ _
      | returned | text | made => exact informs_inform s _ _ _
  | waiting => cases o <;> exact informs_finish s _ _
  | beginning | making | ending => cases ht

/-- **A minor step** of a steady session changes its tasks only, and leaves it steady. -/
lemma step_of_isMinor (hs : IsSteady s.tasks) {i : Input} (hi : i.isMinor) :
    ∃ ts, (s.step i).state = { s with tasks := ts } ∧ IsSteady ts ∧
      ((∃ o, (s.step i).turn = .ends o) ∨
        ∃ text gravity, (s.step i).turn = .asks (.notify text gravity)) := by
  have conclude {ts : List Task} {r : Result} (h : Informs { s with tasks := ts } ts r)
      (hts : IsSteady ts) : ∃ ts', r.state = { s with tasks := ts' } ∧ IsSteady ts' ∧
        ((∃ o, r.turn = .ends o) ∨ ∃ text gravity, r.turn = .asks (.notify text gravity)) := by
    obtain ⟨ts', hstate, hsteady⟩ := h.state
    exact ⟨ts', hstate, hsteady hts, h.turn⟩
  cases i with
  | comment | ready => exact conclude (informs_inform s _ _ _) hs
  | error why => exact conclude (informs_passOn s why) hs
  | answer o =>
      cases htasks : s.tasks with
      | nil =>
          simp only [step, htasks]
          exact conclude (informs_finish s [] .returned) hs
      | cons t ts =>
          simp only [step, htasks]
          have ht : t.turnsOver = false := hs t (by rw [htasks]; exact List.mem_cons_self ..)
          have hts : IsSteady ts := fun t' ht' => hs t' (by rw [htasks]; exact .tail _ ht')
          exact conclude (informs_proceed { s with tasks := ts } o ht) hts
  | start | agentStart | agentEnd | shutdown | trigger => cases hi

end Session

namespace Assembly

/-! ## What the host is asked -/

/-- The question that a note puts to the host. -/
def Note.question? : Note → Option Question
  | .asked q => some q
  | _ => none

/-- What the host is asked, the earliest first. -/
def questions (notes : List Note) : List Question :=
  notes.filterMap Note.question?

/-- The message that the host is asked to deliver. -/
def Question.message? : Question → Option String
  | .deliver message => some message
  | _ => none

/-- The file that the host is asked to read. -/
def Question.file? : Question → Option String
  | .read path => some path
  | _ => none

/-- The messages that the host is asked to deliver, the earliest first. -/
def messages (notes : List Note) : List String :=
  (questions notes).filterMap Question.message?

/-- The first file that the host is asked to read. -/
def file? (notes : List Note) : Option String :=
  (questions notes).findSome? Question.file?

variable {a : Assembly} {notes more : List Note}

lemma questions_append (notes more : List Note) :
    questions (notes ++ more) = questions notes ++ questions more :=
  List.filterMap_append

lemma messages_append (notes more : List Note) :
    messages (notes ++ more) = messages notes ++ messages more := by
  rw [messages, questions_append, List.filterMap_append]
  rfl

lemma messages_of_questions (h : questions notes = []) : messages notes = [] := by
  rw [messages, h]
  rfl

lemma file?_of_questions (h : questions notes = []) : file? notes = none := by
  rw [file?, h]
  rfl

lemma messages_append_of_questions (h : questions notes = []) (more : List Note) :
    messages (notes ++ more) = messages more := by
  rw [messages_append, messages_of_questions h, List.nil_append]

lemma file?_append_of_questions (h : questions notes = []) (more : List Note) :
    file? (notes ++ more) = file? more := by
  rw [file?, questions_append, h]
  rfl

lemma questions_logs (entries : List Log.Entry) : questions (entries.map Note.log) = [] := by
  simp [questions, List.filterMap_map, Function.comp_def, Note.question?]

lemma questions_noteOf (ns : List Notifier.Note) : questions (ns.map noteOf) = [] := by
  simp only [questions, List.filterMap_map, List.filterMap_eq_nil_iff]
  intro n _
  cases n <;> rfl

lemma questions_closeChannel (a : Assembly) (id : Nat) :
    questions (a.closeChannel id).2 = [] := by
  unfold closeChannel
  split
  · exact questions_noteOf _
  · rfl

lemma questions_absorb {opening : List Note} (h : questions opening = []) (a : Assembly)
    (ns : List Watcher.Note) : questions (absorb opening a ns).2 = [] := by
  induction ns generalizing a with
  | nil => rfl
  | cons n ns ih =>
      cases n with
      | log entry => exact ih a
      | unsubscribed id =>
          simp only [absorb, Result.after, questions_append]
          rw [questions_closeChannel, ih]
          rfl
      | subscribing root =>
          simp only [absorb, Result.after, questions_append]
          rw [h, ih]
          rfl

/-! ## Minor calls -/

/-- The call neither begins nor ends anything, and nothing is handed over by it. -/
def Call.isMinor : Call → Bool
  | .session i => i.isMinor
  | .watcher _ i => i.isMinor
  | .subscription .. => true
  | .watch .. | .subscribe .. => false

/-- The result says whose turn it is, and no more: no message is delivered, no file is read, and
what is to be done is minor. -/
structure Yields (a : Assembly) (r : Result) : Prop where
  turn : ∃ callers work, r.1 = a.withTurn callers work
  work : ∀ c, r.1.work = some c → c.isMinor
  messages : messages r.2 = []
  file : file? r.2 = none

lemma yields_call (caller : Caller) {c : Call} (hc : c.isMinor) : Yields a (a.call caller c) :=
  ⟨⟨_, _, rfl⟩, (fun c' hc' => by cases hc'; exact hc), rfl, rfl⟩

lemma yields_askHost (caller : Caller) {q : Question} (hm : q.message? = none)
    (hf : q.file? = none) : Yields a (a.askHost caller q) := by
  refine ⟨⟨_, _, rfl⟩, (fun c hc => by cases hc), ?_, ?_⟩
  · simp [askHost, Assembly.messages, questions, Note.question?, hm]
  · simp [askHost, file?, questions, Note.question?, hf]

lemma yields_settle (a : Assembly) (o : Outcome) : Yields a (a.settle o) := by
  unfold settle
  split
  · rename_i hcallers
    exact ⟨⟨[], none, by rw [withTurn, ← hcallers]⟩, (fun c hc => by cases hc), rfl, rfl⟩
  · exact ⟨⟨_, _, rfl⟩, (fun c hc => by cases hc), rfl, rfl⟩
  all_goals exact ⟨⟨_, _, rfl⟩, (fun c hc => by cases hc; rfl), rfl, rfl⟩

/-- All that a watcher asks is passed on in this way, but for a file and for what it hands over. -/
lemma yields_watcherAsks (hrelayed : ∀ c ∈ a.channels, c = .relayed) (id : Nat)
    {q : Watcher.Question} (hread : ∀ path, q ≠ .read path)
    (htrigger : ∀ blocks, q ≠ .trigger blocks) : Yields a (a.watcherAsks id q) := by
  cases q with
  | attach channel kind g =>
      rw [watcherAsks]
      split
      · rename_i s hs
        cases hrelayed _ (List.mem_of_getElem? hs)
      · exact yields_askHost _ rfl rfl
  | read path => exact absurd rfl (hread path)
  | trigger blocks => exact absurd rfl (htrigger blocks)
  | comment | ready | error =>
      rw [watcherAsks]
      split
      · exact yields_call _ rfl
      · exact yields_askHost _ rfl rfl

/-- Passes on what the turn of a watcher comes to. -/
def passOn (a : Assembly) (id : Nat) : Turn Watcher.Question → Result
  | .ends o => a.settle o
  | .asks q => a.watcherAsks id q

lemma yields_passOn (hrelayed : ∀ c ∈ a.channels, c = .relayed) (id : Nat)
    {t : Turn Watcher.Question} (hread : ∀ path, t ≠ .asks (.read path))
    (htrigger : ∀ blocks, t ≠ .asks (.trigger blocks)) : Yields a (a.passOn id t) := by
  cases t with
  | ends o => exact yields_settle a o
  | asks q =>
      refine yields_watcherAsks hrelayed id ?_ ?_
      · exact fun path hq => hread path (hq ▸ rfl)
      · exact fun blocks hq => htrigger blocks (hq ▸ rfl)

lemma Yields.after {r : Result} (h : Yields a r) (hnotes : questions notes = []) :
    Yields a (r.after notes) where
  turn := h.turn
  work := h.work
  messages := by rw [Result.after, messages_append_of_questions hnotes, h.messages]
  file := by rw [Result.after, file?_append_of_questions hnotes, h.file]

/-! ## The turn of a part -/

lemma step_of_none (hwork : a.work = none) : a.step .proceed = (a, []) := by
  simp only [step, hwork]

/-- While a call is to be done, the host is not heard. -/
lemma step_of_some {c : Call} (hwork : a.work = some c) {i : Input} (hi : i ≠ .proceed) :
    a.step i = (a, []) := by
  cases i with
  | proceed => exact absurd rfl hi
  | call | answer | wait | refuse => simp only [step, hwork]

/-- The turn of the session. -/
lemma proceed_session {s : Session} {i : Session.Input} (hsession : a.session = some s)
    (hwork : a.work = some (.session i)) :
    a.step .proceed = Result.after ((s.step i).notes.map .log) (match (s.step i).turn with
      | .ends o => (a.withSession (s.step i).state).settle o
      | .asks q => (a.withSession (s.step i).state).sessionAsks q) := by
  rw [step_proceed hwork]
  exact stepSession_eq hsession i

/-- The turn of a watcher. -/
lemma proceed_watcher {id : Nat} {w : Watcher} {i : Watcher.Input}
    (hrelayed : ∀ c ∈ a.channels, c = .relayed) (hwork : a.work = some (.watcher id i))
    (hw : a.watchers[id]? = some w) :
    ∃ notes, questions notes = [] ∧
      a.step .proceed =
        Result.after notes ((a.withWatcher id (w.step i).state).passOn id (w.step i).turn) := by
  have hclosings : closings [] = [] := rfl
  have hquestions : questions [] = [] := rfl
  obtain ⟨notes, habsorb, -, -⟩ :=
    absorb_relayed (a := a.withWatcher id (w.step i).state) hrelayed hclosings (w.step i).notes
  have hnotes : questions notes = [] := by
    have h := questions_absorb hquestions (a.withWatcher id (w.step i).state) (w.step i).notes
    rwa [habsorb] at h
  refine ⟨notes, hnotes, ?_⟩
  rw [step_proceed hwork]
  exact stepWatcher_eq hw habsorb

/-- A call of a watcher that there is not. -/
lemma proceed_watcher_of_none {id : Nat} {i : Watcher.Input}
    (hwork : a.work = some (.watcher id i)) (hw : a.watchers[id]? = none) :
    a.step .proceed = a.settle .returned := by
  rw [step_proceed hwork, perform, stepWatcher, hw]

/-- The assembly with other subscriptions. -/
def withChannels (a : Assembly) (channels : List Channel) : Assembly :=
  { a with channels }

lemma stepWatcher_watch {id : Nat} (root : String) (opened : Except Failure Nat) {w : Watcher}
    (hrelayed : ∀ c ∈ a.channels, c = .relayed) {opening : List Note}
    (hclosings : closings opening = []) (hopening : questions opening = [])
    (hw : a.watchers[id]? = some w) :
    ∃ notes, questions notes = [] ∧ a.stepWatcher id opening (.watch root opened) =
      Result.after notes ((a.withWatcher id (w.step (.watch root opened)).state).passOn id
        (w.step (.watch root opened)).turn) := by
  obtain ⟨notes, habsorb, -, -⟩ :=
    absorb_relayed (a := a.withWatcher id (w.step (.watch root opened)).state) hrelayed hclosings
      (w.step (.watch root opened)).notes
  have hnotes := questions_absorb hopening (a.withWatcher id (w.step (.watch root opened)).state)
    (w.step (.watch root opened)).notes
  rw [habsorb] at hnotes
  exact ⟨notes, hnotes, stepWatcher_eq hw habsorb⟩

/-- Watching opens a subscription, or fails to, and hands it to the watcher. -/
lemma proceed_watch {id : Nat} {root : String} {w : Watcher} (hrelays : a.relays = true)
    (hrelayed : ∀ c ∈ a.channels, c = .relayed) (hwork : a.work = some (.watch id root))
    (hw : a.watchers[id]? = some w) :
    ∃ opened channels notes, (∀ c ∈ channels, c = Channel.relayed) ∧ questions notes = [] ∧
      a.step .proceed = Result.after notes
        (((a.withChannels channels).withWatcher id (w.step (.watch root opened)).state).passOn id
          (w.step (.watch root opened)).turn) := by
  rw [step_proceed hwork, perform, watch, hw]
  rcases openChannel_relayed hrelays root w.options.forNotifier with ⟨why, hopen⟩ | hopen
  · have hclosings : closings [] = [] := rfl
    obtain ⟨notes, hnotes, hstep⟩ :=
      stepWatcher_watch root (.error why) hrelayed hclosings rfl hw
    refine ⟨.error why, a.channels, notes, hrelayed, hnotes, ?_⟩
    simp only [hopen]
    exact hstep
  · have hchannels : ∀ c ∈ a.channels ++ [Channel.relayed], c = .relayed := by
      simpa [or_imp, forall_and] using hrelayed
    have hclosings : closings [.subscribed root w.options.forNotifier] = [] := rfl
    obtain ⟨notes, hnotes, hstep⟩ :=
      stepWatcher_watch (a := a.withChannels (a.channels ++ [Channel.relayed])) root
        (.ok a.channels.length) hchannels hclosings rfl hw
    refine ⟨.ok a.channels.length, _, notes, hchannels, hnotes, ?_⟩
    simp only [hopen]
    exact hstep

/-! ## A session in a directory -/

/-- A session in "/w", with nothing ignored. -/
def inW : Session :=
  { settings := { ignoredPatterns := [] }, home := "/w" }

/-- The assembly of this session. -/
def aroundW : Assembly :=
  { surroundings := { home := "/w", realPath := fun path => path }, relays := true,
    session := some inW }

/-- The session is started, and its watcher attached to a new subscription. -/
def started (cwd : Option String) : History :=
  [.proceed, .proceed, .answer .returned, .proceed, .answer .returned, .proceed,
    .answer .returned] ++ List.replicate 5 .proceed ++ [.call (.session (.start cwd))]

/-- A file changes, says the first subscription of a watcher. -/
def changed (id : Nat) (path : String) : History :=
  [.call (.watcher id (.event 1 (.change path)))]

end Assembly

end Marginalia
