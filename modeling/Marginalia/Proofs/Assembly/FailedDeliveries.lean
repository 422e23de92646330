import Marginalia.Proofs.Assembly.Step

/-!
# Deliveries that fail

A message that cannot be delivered is a matter of the session alone, if the failure can be put into
words.  Two runs are compared in which the host does the same, except that some deliveries fail in
the one and not in the other (`Alike`).

Right after such an answer the two are apart in what is to be done next, and in nothing else; with
its next step the session has told of the delivery, and they are in one state again (`Abreast`).
`confines_of_alike` is what follows for whole runs.  Nothing is assumed of the state in which they
begin, nor of how far the host calls while it is asked.  A failure that cannot be reported is not
confined: `wordless_delivery_leaves`.
-/

namespace Marginalia

/-! ## What a session keeps -/

namespace Session

variable {s : Session}

/-- The session changes by its watcher, its directory and its tasks only, and if it delivers a
message it has still to inform the host about that. -/
structure Frames (s : Session) (r : Result) : Prop where
  state : ∃ watcher cwd tasks, r.state = { s with watcher, cwd, tasks }
  delivers : ∀ message, r.turn = .asks (.deliver message) → ∃ blocks,
    message = Message.ofBlocks s.home s.cwd blocks ∧
      r.state.tasks.head? = some (.delivering blocks)

lemma frames_finish (s : Session) (notes : List Log.Entry) (o : Outcome) :
    Frames s (s.finish notes o) :=
  ⟨⟨_, _, _, rfl⟩, fun message h => by cases h⟩

lemma frames_ask (s : Session) (notes : List Log.Entry) {q : Question} (t : Task)
    (hq : ∀ message, q ≠ .deliver message) : Frames s (s.ask notes q t) := by
  refine ⟨⟨_, _, _, rfl⟩, fun message h => ?_⟩
  cases h
  exact absurd rfl (hq message)

lemma frames_inform (s : Session) (notes : List Log.Entry) (text : String) (gravity : Gravity) :
    Frames s (s.inform notes text gravity) := by
  unfold inform
  split
  · exact frames_ask s _ _ fun message h => by cases h
  · exact frames_finish s _ _

lemma frames_begin (s : Session) (cwd : Option String) : Frames s (s.begin cwd) :=
  ⟨⟨_, _, _, rfl⟩, fun message h => by cases h⟩

lemma frames_deliver (s : Session) (blocks : List Block) : Frames s (s.deliver blocks) := by
  unfold deliver
  split
  · exact frames_finish s _ _
  · refine ⟨⟨_, _, _, rfl⟩, fun message h => ?_⟩
    cases h
    exact ⟨blocks, rfl, rfl⟩

lemma frames_delivered (s : Session) (blocks : List Block) (o : Outcome) :
    Frames s (s.delivered blocks o) := by
  unfold delivered
  split
  · split
    · exact frames_inform s _ _ _
    · exact frames_finish s _ _
  · exact frames_inform s _ _ _

lemma frames_passOn (s : Session) (why : Failure) : Frames s (s.passOn why) := by
  unfold passOn
  split
  · exact frames_inform s _ _ _
  · exact frames_finish s _ _

lemma frames_proceed (s : Session) (o : Outcome) (t : Task) : Frames s (s.proceed o t) := by
  unfold proceed
  split
  · exact frames_delivered s _ o
  · split
    · exact frames_finish s _ _
    · exact frames_begin s _
    · exact ⟨⟨_, _, _, rfl⟩, fun message h => by cases h⟩
    · exact ⟨⟨_, _, _, rfl⟩, fun message h => by cases h⟩
    · exact frames_inform s _ _ _
    · exact frames_finish s _ _

lemma frames_step (s : Session) (i : Input) : Frames s (s.step i) := by
  cases i with
  | start cwd =>
      rw [step, start]
      split
      · exact frames_ask s _ _ fun message h => by cases h
      · exact frames_begin s cwd
  | agentStart =>
      rw [step, agentStart]
      split
      · exact frames_ask s _ _ fun message h => by cases h
      · exact frames_finish s _ _
  | agentEnd =>
      rw [step, agentEnd]
      split
      · exact frames_ask s _ _ fun message h => by cases h
      · exact frames_finish s _ _
  | shutdown =>
      rw [step, shutdown]
      split
      · exact frames_ask s _ _ fun message h => by cases h
      · exact ⟨⟨_, _, _, rfl⟩, fun message h => by cases h⟩
  | trigger blocks => exact frames_deliver s blocks
  | comment | ready => exact frames_inform s _ _ _
  | error why => exact frames_passOn s why
  | answer o =>
      cases htasks : s.tasks with
      | nil =>
          simp only [step, htasks]
          exact frames_finish s _ _
      | cons t ts =>
          simp only [step, htasks]
          obtain ⟨⟨watcher, cwd, tasks, hstate⟩, hdelivers⟩ :=
            frames_proceed { s with tasks := ts } o t
          exact ⟨⟨watcher, cwd, tasks, hstate⟩, hdelivers⟩

end Session

namespace Assembly

variable {a b : Assembly}

/-- The session is left alone, and nothing is delivered. -/
structure Quiet (a : Assembly) (r : Result) : Prop where
  session : r.1.session = a.session
  messages : messages r.2 = []

lemma Quiet.after {r : Result} {notes : List Note} (h : Quiet b r)
    (hsession : b.session = a.session) (hnotes : questions notes = []) :
    Quiet a (r.after notes) :=
  ⟨h.session.trans hsession, by
    rw [Result.after, messages_append_of_questions hnotes, h.messages]⟩

lemma quiet_settle (a : Assembly) (o : Outcome) : Quiet a (a.settle o) := by
  unfold settle
  split <;> exact ⟨rfl, rfl⟩

lemma quiet_watcherAsks (a : Assembly) (id : Nat) (q : Watcher.Question) :
    Quiet a (a.watcherAsks id q) := by
  cases q with
  | read path => exact ⟨rfl, rfl⟩
  | attach | comment | trigger | ready | error =>
      rw [watcherAsks]
      split <;> exact ⟨rfl, rfl⟩

lemma session_closeChannel (a : Assembly) (id : Nat) :
    (a.closeChannel id).1.session = a.session := by
  unfold closeChannel
  split <;> rfl

lemma session_absorb (opening : List Note) (a : Assembly) (ns : List Watcher.Note) :
    (absorb opening a ns).1.session = a.session := by
  induction ns generalizing a with
  | nil => rfl
  | cons n ns ih =>
      cases n with
      | log => exact ih a
      | unsubscribed id => exact (ih _).trans (session_closeChannel a id)
      | subscribing => exact ih a

lemma quiet_stepWatcher (a : Assembly) (id : Nat) {opening : List Note}
    (hopening : questions opening = []) (i : Watcher.Input) :
    Quiet a (a.stepWatcher id opening i) := by
  unfold stepWatcher
  split
  · exact quiet_settle a _
  · rename_i w hw
    have hsession := session_absorb opening (a.withWatcher id (w.step i).state) (w.step i).notes
    have hquestions := questions_absorb hopening (a.withWatcher id (w.step i).state)
      (w.step i).notes
    cases hturn : (w.step i).turn with
    | ends o =>
        simp only [hturn]
        exact (quiet_settle _ o).after hsession hquestions
    | asks q =>
        simp only [hturn]
        exact (quiet_watcherAsks _ id q).after hsession hquestions

/-- Opening a subscription leaves the session alone, and asks nothing. -/
lemma openObserved_quiet (a : Assembly) (paths : List String) (o : Notifier.Options) :
    (a.openObserved paths o).1.session = a.session ∧
      questions (a.openObserved paths o).2.1 = [] := by
  unfold openObserved
  split <;> exact ⟨rfl, questions_noteOf _⟩

lemma openChannel_quiet (a : Assembly) (root : String) (o : Notifier.Options) :
    (a.openChannel root o).1.session = a.session ∧
      questions (a.openChannel root o).2.1 = [] := by
  unfold openChannel
  split
  · unfold openRelayed
    split <;> exact ⟨rfl, rfl⟩
  · exact openObserved_quiet a _ o

lemma quiet_watch (a : Assembly) (id : Nat) (root : String) : Quiet a (a.watch id root) := by
  unfold watch
  split
  · exact quiet_settle a _
  · rename_i w hw
    obtain ⟨hsession, hopening⟩ := openChannel_quiet a root w.options.forNotifier
    have hstep := quiet_stepWatcher (a.openChannel root w.options.forNotifier).1 id hopening
      (.watch root (a.openChannel root w.options.forNotifier).2.2)
    exact ⟨hstep.session.trans hsession, hstep.messages⟩

lemma quiet_stepSubscription (a : Assembly) (id : Nat) (i : Notifier.Input Listener) :
    Quiet a (a.stepSubscription id i) := by
  unfold stepSubscription
  split
  · rename_i t ht
    cases hturn : (t.step a.now i).turn with
    | ends o =>
        simp only [hturn]
        exact (quiet_settle _ o).after rfl (questions_noteOf _)
    | asks q =>
        simp only [hturn]
        refine Quiet.after (b := a) ?_ rfl (questions_noteOf _)
        split <;> exact ⟨rfl, rfl⟩
  · exact quiet_settle a _

lemma quiet_subscribe (a : Assembly) (paths : List String) (o : Notifier.Options) :
    Quiet a (a.subscribe paths o) := by
  obtain ⟨hsession, hnotes⟩ := openObserved_quiet a paths o
  unfold subscribe
  split
  all_goals
    rename_i hopened
    rw [hopened] at hsession hnotes
    exact (quiet_settle _ _).after hsession hnotes

/-- Only a step of the session changes it, or delivers anything. -/
lemma step_cases (a : Assembly) (i : Input) :
    Quiet a (a.step i) ∨ ∃ j, i = .proceed ∧ a.work = some (.session j) := by
  cases hwork : a.work with
  | none =>
      refine Or.inl ?_
      cases i with
      | answer o =>
          simp only [step, hwork]
          exact quiet_settle a o
      | call | proceed | wait | refuse =>
          simp only [step, hwork]
          exact ⟨rfl, rfl⟩
  | some c =>
      by_cases hi : i = .proceed
      · subst hi
        rw [step_proceed hwork]
        cases c with
        | session j => exact Or.inr ⟨j, rfl, rfl⟩
        | watch id root => exact Or.inl (quiet_watch a id root)
        | watcher id j => exact Or.inl (quiet_stepWatcher a id rfl j)
        | subscription id j => exact Or.inl (quiet_stepSubscription a id j)
        | subscribe paths o => exact Or.inl (quiet_subscribe a paths o)
      · rw [step_of_some hwork hi]
        exact Or.inl ⟨rfl, rfl⟩

lemma session_sessionAsks (a : Assembly) (q : Session.Question) :
    (a.sessionAsks q).1.session = a.session := by
  cases q with
  | make options =>
      rw [sessionAsks, makeWatcher]
      split <;> rfl
  | watch | close | pause | resume | deliver | notify => rfl

lemma session_proceed {s : Session} {j : Session.Input} (hsession : a.session = some s)
    (hwork : a.work = some (.session j)) :
    (a.step .proceed).1.session = some (s.step j).state := by
  rw [proceed_session hsession hwork, Result.after]
  cases (s.step j).turn with
  | ends o => exact (quiet_settle _ o).session
  | asks q => exact session_sessionAsks _ q

/-- The session tells things as `s` does: to the host, or to the same logger. -/
def SpeaksAs (a : Assembly) (s : Session) : Prop :=
  ∃ t, a.session = some t ∧ t.notifies = s.notifies ∧ t.logger = s.logger

lemma SpeaksAs.step {s : Session} (h : a.SpeaksAs s) (i : Input) : (a.step i).1.SpeaksAs s := by
  obtain ⟨t, hsession, hnotifies, hlogger⟩ := h
  rcases a.step_cases i with hquiet | ⟨j, rfl, hwork⟩
  · exact ⟨t, hquiet.session.trans hsession, hnotifies, hlogger⟩
  · obtain ⟨watcher, cwd, tasks, hstate⟩ := (t.frames_step j).state
    refine ⟨_, session_proceed hsession hwork, ?_, ?_⟩
    · rw [hstate]
      exact hnotifies
    · rw [hstate]
      exact hlogger

lemma speaksAs_after {s : Session} (hsession : a.session = some s) (h : History) :
    (a.after h).SpeaksAs s := by
  induction h with
  | nil => exact ⟨s, hsession, rfl, rfl⟩
  | cons i h ih => exact ih.step i

end Assembly

/-! ## What is told of a delivery -/

namespace Session

/-- How grave a log entry is. -/
def Gravity.level : Gravity → Log.Level
  | .info => .info
  | .error => .error

/-- What the log says of a delivery that has failed. -/
def failureEntry (s : Session) (report : String) : Log.Entry where
  logger := s.logger
  level := .error
  text := "❌ Failed to deliver AI message: " ++ report
  traced := true

/-- What the host is told of a delivery that has failed. -/
def failureText (report : String) : String :=
  "Error sending message: " ++ report

section Delivering

variable {s : Session} {blocks : List Block} {ts : List Task} {o : Outcome}

lemma step_of_delivering (htasks : s.tasks = .delivering blocks :: ts) :
    s.step (.answer o) = { s with tasks := ts }.delivered blocks o := by
  simp only [step, htasks, proceed]

/-- A failure that cannot be reported ends the call: nobody is told of the delivery. -/
lemma delivered_fail {why worse : Failure} (hfails : o.failure? = some why)
    (hreport : why.report = .error worse) :
    s.delivered blocks o = s.finish [] (.raised worse) := by
  simp only [delivered, hfails, hreport]

/-- **A failure leaves the session** only if the delivery has failed in such a way that it cannot be
reported. -/
lemma delivered_raised_iff {worse : Failure} :
    (s.delivered blocks o).turn = .ends (.raised worse) ↔
      ∃ why, o.failure? = some why ∧ why.report = .error worse := by
  have hinform (notes : List Log.Entry) (text : String) (gravity : Gravity) :
      (s.inform notes text gravity).turn ≠ .ends (.raised worse) := by
    unfold inform
    split
    · exact fun h => by cases h
    · exact fun h => by cases h
  constructor
  · intro hends
    unfold delivered at hends
    split at hends
    · rename_i why hfails
      split at hends
      · exact absurd hends (hinform _ _ _)
      · rename_i worse' hreport
        cases hends
        exact ⟨why, hfails, hreport⟩
    · exact absurd hends (hinform _ _ _)
  · rintro ⟨why, hfails, hreport⟩
    rw [delivered_fail hfails hreport]
    rfl

end Delivering

end Session

namespace Assembly

variable {a b : Assembly} {s t : Session} {blocks : List Block} {ts : List Session.Task}
  {fs : List (List Block × String)} {h k : History}

/-- What the session tells the host, or the log in its place. -/
def telling (s : Session) (text : String) (gravity : Session.Gravity) : Note :=
  if s.notifies then .asked (.notify text gravity)
  else .log { logger := s.logger, level := gravity.level, text }

/-- What is told of a delivery that has failed. -/
def apology (s : Session) (report : String) : List Note :=
  [.log (s.failureEntry report), telling s (Session.failureText report) .error]

/-- What is told of a delivery that has not failed. -/
def confirmation (s : Session) (blocks : List Block) : List Note :=
  [telling s (Session.sentText blocks) .info]

lemma apology_congr (hnotifies : t.notifies = s.notifies) (hlogger : t.logger = s.logger)
    (report : String) : apology t report = apology s report := by
  simp only [apology, telling, Session.failureEntry, hnotifies, hlogger]

lemma confirmation_congr (hnotifies : t.notifies = s.notifies) (hlogger : t.logger = s.logger)
    (blocks : List Block) : confirmation t blocks = confirmation s blocks := by
  simp only [confirmation, telling, hnotifies, hlogger]

/-- Where the session is once it has told of a delivery. -/
def afterReport (a : Assembly) (s : Session) (ts : List Session.Task) : Result :=
  if s.notifies then
    ((a.withSession { s with tasks := .waiting :: ts }).withTurn (.session :: a.callers) none, [])
  else (a.withSession { s with tasks := ts }).settle .returned

/-- Once the session has told of a delivery, what it has told makes no difference. -/
lemma proceed_told (hsession : a.session = some t) (htasks : t.tasks = .delivering blocks :: ts)
    (callers : List Caller) {o : Outcome} {entries : List Log.Entry} {text : String}
    {gravity : Session.Gravity}
    (htells : { t with tasks := ts }.delivered blocks o =
      { t with tasks := ts }.inform entries text gravity) :
    (a.withTurn callers (some (.session (.answer o)))).step .proceed =
      Result.after (entries.map .log ++ [telling t text gravity])
        ((a.withTurn callers none).afterReport t ts) := by
  let b := a.withTurn callers (some (.session (.answer o)))
  rw [proceed_session (a := b) hsession rfl, Session.step_of_delivering htasks, htells]
  cases hnotifies : t.notifies with
  | false =>
      simp only [Session.inform, hnotifies, telling, afterReport, Session.finish, List.map_append,
        Bool.false_eq_true, if_false]
      cases gravity <;> rfl
  | true =>
      simp only [Session.inform, hnotifies, telling, afterReport, if_true, Result.after,
        List.append_nil]
      rfl

/-- **A delivery that fails** makes a difference only to what is told of it. -/
lemma proceed_failed (hsession : a.session = some t) (htasks : t.tasks = .delivering blocks :: ts)
    (callers : List Caller) {why : Failure} {report : String} (hreport : why.report = .ok report) :
    (a.withTurn callers (some (.session (.answer (.raised why))))).step .proceed =
      Result.after (apology t report) ((a.withTurn callers none).afterReport t ts) := by
  have htells : { t with tasks := ts }.delivered blocks (.raised why) =
        { t with tasks := ts }.inform [t.failureEntry report] (Session.failureText report)
          .error := by
    simp only [Session.delivered, Outcome.failure?, hreport]
    rfl
  exact proceed_told hsession htasks callers htells

lemma proceed_delivered (hsession : a.session = some t)
    (htasks : t.tasks = .delivering blocks :: ts) (callers : List Caller) :
    (a.withTurn callers (some (.session (.answer .returned)))).step .proceed =
      Result.after (confirmation t blocks) ((a.withTurn callers none).afterReport t ts) := by
  have htells : { t with tasks := ts }.delivered blocks .returned =
      { t with tasks := ts }.inform [] (Session.sentText blocks) .info := rfl
  exact proceed_told hsession htasks callers htells

/-! ## Two runs -/

/-- The latest question that has no answer is to deliver the message about the blocks. -/
def IsDelivering (a : Assembly) (blocks : List Block) : Prop :=
  a.work = none ∧ a.callers.head? = some .session ∧
    ∃ t, a.session = some t ∧ t.tasks.head? = some (.delivering blocks)

/-- The host does the same in both runs, but some deliveries fail in the first one only: of the
blocks and with the reports that are listed, the earliest first. -/
inductive Alike (a : Assembly) : List (List Block × String) → History → History → Prop
  | nil : Alike a [] [] []
  | same {fs : List (List Block × String)} {h k : History} (i : Input) (halike : Alike a fs h k) :
      Alike a fs (i :: h) (i :: k)
  | failed {fs : List (List Block × String)} {h k : History} {blocks : List Block} {why : Failure}
      {report : String} (hreport : why.report = .ok report) (halike : Alike a fs h k)
      (hdelivering : (a.after h).IsDelivering blocks) :
      Alike a (fs ++ [(blocks, report)]) (.answer (.raised why) :: h) (.answer .returned :: k)

lemma Alike.refl (a : Assembly) (h : History) : Alike a [] h h := by
  induction h with
  | nil => exact .nil
  | cons i h ih => exact ih.same i

lemma Alike.append (halike : Alike a fs h k) (later : History) :
    Alike a fs (later ++ h) (later ++ k) := by
  induction later with
  | nil => exact halike
  | cons i later ih => exact ih.same i

/-- What is seen of the two runs is the same, except that each of the failures is told of in the
place of a delivery. -/
inductive Instead (s : Session) : List (List Block × String) → List Note → List Note → Prop
  | nil : Instead s [] [] []
  | same {fs : List (List Block × String)} {ns ms : List Note} (n : Note)
      (h : Instead s fs ns ms) : Instead s fs (ns ++ [n]) (ms ++ [n])
  | failed {fs : List (List Block × String)} {ns ms : List Note} (blocks : List Block)
      (report : String) (h : Instead s fs ns ms) :
      Instead s (fs ++ [(blocks, report)]) (ns ++ apology s report)
        (ms ++ confirmation s blocks)

/-- How a call of the host has ended. -/
def Note.outcome? : Note → Option Outcome
  | .ended o => some o
  | _ => none

/-- How the calls of the host have ended, the earliest first. -/
def outcomes (notes : List Note) : List Outcome :=
  notes.filterMap Note.outcome?

/-- The failures of deliveries in the first run make no difference to the second one but in what is
told of them. -/
structure Confines (a : Assembly) (s : Session) (fs : List (List Block × String))
    (h k : History) : Prop where
  /-- It is the host's turn in both runs or in none. -/
  turn : (a.after h).isHostsTurn = (a.after k).isHostsTurn
  /-- The session, its watchers and their subscriptions are the same. -/
  state : (a.after h).isHostsTurn → a.after h = a.after k
  /-- The same messages are to be delivered. -/
  messages : messages (a.seen h) = messages (a.seen k)
  /-- The calls of the host end in the same way. -/
  ended : outcomes (a.seen h) = outcomes (a.seen k)
  /-- Each failure is told of once, in the place of the delivery. -/
  told : (a.after h).isHostsTurn → Instead s fs (a.seen h) (a.seen k)
  /-- Whenever the host is asked to deliver a message, its answer is what the runs may differ in. -/
  asked : ∀ i message, message ∈ Assembly.messages ((a.after h).step i).2 → ∃ blocks t,
    (a.after h).session = some t ∧ message = Message.ofBlocks t.home t.cwd blocks ∧
      (a.after (i :: h)).IsDelivering blocks
  /-- No failure of a delivery leaves the session, except one that cannot be reported. -/
  kept : ∀ blocks t ts, (a.after h).session = some t → t.tasks = .delivering blocks :: ts →
    ∀ o worse, (t.step (.answer o)).turn = .ends (.raised worse) ↔
      ∃ why, o.failure? = some why ∧ why.report = .error worse
  /-- Of one that cannot be reported nobody is told. -/
  untold : ∀ blocks t ts, (a.after h).session = some t → t.tasks = .delivering blocks :: ts →
    ∀ o why worse, o.failure? = some why → why.report = .error worse →
      t.step (.answer o) = { t with tasks := ts }.finish [] (.raised worse)

/-! ### One step of two runs -/

lemma Instead.append {ns ms : List Note} (h : Instead s fs ns ms) (more : List Note) :
    Instead s fs (ns ++ more) (ms ++ more) := by
  induction more using List.reverseRecOn with
  | nil => simpa using h
  | append_singleton more n ih =>
      rw [← List.append_assoc, ← List.append_assoc]
      exact ih.same n

lemma messages_confirmation (s : Session) (blocks : List Block) :
    messages (confirmation s blocks) = [] := by
  unfold confirmation telling
  split <;> rfl

lemma messages_apology (s : Session) (report : String) : messages (apology s report) = [] := by
  unfold apology telling
  split <;> rfl

lemma outcomes_confirmation (s : Session) (blocks : List Block) :
    outcomes (confirmation s blocks) = [] := by
  unfold confirmation telling
  split <;> rfl

lemma outcomes_apology (s : Session) (report : String) : outcomes (apology s report) = [] := by
  unfold apology telling
  split <;> rfl

lemma Instead.messages_eq {ns ms : List Note} (h : Instead s fs ns ms) :
    messages ns = messages ms := by
  induction h with
  | nil => rfl
  | same n _ ih => rw [messages_append, messages_append, ih]
  | failed blocks report _ ih =>
      rw [messages_append, messages_append, ih, messages_confirmation, messages_apology]

lemma outcomes_append (notes more : List Note) :
    outcomes (notes ++ more) = outcomes notes ++ outcomes more :=
  List.filterMap_append

lemma Instead.outcomes_eq {ns ms : List Note} (h : Instead s fs ns ms) :
    outcomes ns = outcomes ms := by
  induction h with
  | nil => rfl
  | same n _ ih => rw [outcomes_append, outcomes_append, ih]
  | failed blocks report _ ih =>
      rw [outcomes_append, outcomes_append, ih, outcomes_confirmation, outcomes_apology]

/-- Whoever is asked to deliver a message is asked by the session, which has then to inform him. -/
lemma isDelivering_of_mem (hsession : a.session = some s) {i : Input} {message : String}
    (hmem : message ∈ messages (a.step i).2) : ∃ blocks,
      message = Message.ofBlocks s.home s.cwd blocks ∧ (a.step i).1.IsDelivering blocks := by
  rcases a.step_cases i with hquiet | ⟨j, rfl, hwork⟩
  · rw [hquiet.messages] at hmem
    exact absurd hmem List.not_mem_nil
  · have hstate := session_proceed hsession hwork
    rw [proceed_session hsession hwork, Result.after,
      messages_append_of_questions (questions_logs _)] at hmem
    rw [proceed_session hsession hwork] at hstate ⊢
    cases hturn : (s.step j).turn with
    | ends o =>
        simp only [hturn] at hmem
        rw [(quiet_settle _ o).messages] at hmem
        exact absurd hmem List.not_mem_nil
    | asks q =>
        simp only [hturn] at hmem hstate ⊢
        cases q with
        | deliver m =>
            obtain rfl := List.mem_singleton.1 hmem
            obtain ⟨blocks, hm, hhead⟩ := (s.frames_step j).delivers _ hturn
            exact ⟨blocks, hm, rfl, rfl, _, hstate, hhead⟩
        | make options =>
            rw [sessionAsks, makeWatcher] at hmem
            split at hmem <;> exact absurd hmem List.not_mem_nil
        | watch | close | pause | resume | notify => exact absurd hmem List.not_mem_nil

/-- Where two runs that are alike stand. -/
inductive Abreast (a : Assembly) (s : Session) :
    List (List Block × String) → History → History → Prop
  /-- They are in one state. -/
  | level {fs : List (List Block × String)} {h k : History} (hstate : a.after h = a.after k)
      (hnotes : Instead s fs (a.seen h) (a.seen k)) : Abreast a s fs h k
  /-- A delivery was answered in two ways, and the session has not yet told of it. -/
  | apart {fs : List (List Block × String)} {h k : History} {blocks : List Block} {b : Assembly}
      {t : Session} {ts : List Session.Task} {why : Failure} {report : String}
      (callers : List Caller) (hreport : why.report = .ok report) (hsession : b.session = some t)
      (htasks : t.tasks = .delivering blocks :: ts)
      (hfails : a.after h = b.withTurn callers (some (.session (.answer (.raised why)))))
      (hreturns : a.after k = b.withTurn callers (some (.session (.answer .returned))))
      (hnotes : Instead s fs (a.seen h) (a.seen k)) : Abreast a s (fs ++ [(blocks, report)]) h k

/-- With the answers the runs come apart. -/
lemma Abreast.failed {why : Failure} {report : String} (hreport : why.report = .ok report)
    (hstate : a.after h = a.after k) (hnotes : Instead s fs (a.seen h) (a.seen k))
    (hdelivering : (a.after h).IsDelivering blocks) :
    Abreast a s (fs ++ [(blocks, report)]) (.answer (.raised why) :: h)
      (.answer .returned :: k) := by
  obtain ⟨hwork, hcaller, t, hsession, htask⟩ := hdelivering
  obtain ⟨rest, hcallers⟩ := List.head?_eq_some_iff.1 hcaller
  obtain ⟨ts, htasks⟩ := List.head?_eq_some_iff.1 htask
  have hanswer (o : Outcome) : (a.after h).step (.answer o) =
      ((a.after h).withTurn rest (some (.session (.answer o))), []) := by
    simp only [step, hwork, settle, hcallers]
    rfl
  refine .apart rest hreport hsession htasks ?_ ?_ ?_
  · rw [after, hanswer]
  · rw [after, ← hstate, hanswer]
  · rw [seen, seen, ← hstate, hanswer, hanswer, List.append_nil, List.append_nil]
    exact hnotes

/-- As long as the runs are apart, nothing but the next step of the session has an effect, and with
that they are level again. -/
lemma Abreast.same (habreast : Abreast a s fs h k) (hspeaks : (a.after h).SpeaksAs s) (i : Input) :
    Abreast a s fs (i :: h) (i :: k) := by
  cases habreast with
  | level hstate hnotes =>
      refine .level ?_ ?_
      · rw [after, after, hstate]
      · rw [seen, seen, hstate]
        exact hnotes.append _
  | apart callers hreport hsession htasks hfails hreturns hnotes =>
      rename_i gs blocks b t ts why report
      by_cases hi : i = .proceed
      · subst hi
        obtain ⟨t', hsession', hnotifies, hlogger⟩ := hspeaks
        rw [hfails] at hsession'
        obtain rfl := Option.some.inj (hsession.symm.trans hsession')
        refine .level ?_ ?_
        · rw [after, after, hfails, hreturns, proceed_failed hsession htasks callers hreport,
            proceed_delivered hsession htasks]
          rfl
        · rw [seen, seen, hfails, hreturns, proceed_failed hsession htasks callers hreport,
            proceed_delivered hsession htasks, Result.after, Result.after,
            apology_congr hnotifies hlogger, confirmation_congr hnotifies hlogger,
            ← List.append_assoc, ← List.append_assoc]
          exact (hnotes.failed blocks report).append _
      · refine .apart callers hreport hsession htasks ?_ ?_ ?_
        · rw [after, hfails, step_of_some rfl hi]
        · rw [after, hreturns, step_of_some rfl hi]
        · rw [seen, seen, hfails, hreturns, step_of_some rfl hi, step_of_some rfl hi,
            List.append_nil, List.append_nil]
          exact hnotes

lemma abreast_of_alike (hsession : a.session = some s) (halike : Alike a fs h k) :
    Abreast a s fs h k := by
  induction halike with
  | nil => exact .level rfl .nil
  | same i _ ih => exact ih.same (speaksAs_after hsession _) i
  | failed hreport _ hdelivering ih =>
      cases ih with
      | level hstate hnotes => exact .failed hreport hstate hnotes hdelivering
      | apart callers _ hsession htasks hfails hreturns hnotes =>
          have hwork := hdelivering.1
          rw [hfails] at hwork
          cases hwork

/-- **Failures of deliveries are confined** to what is told of them, as long as they can be
reported: in two runs that are alike the states are the same whenever it is the host's turn, and the
same messages are delivered.  A failure that cannot be reported leaves the session, and is the only
one; nobody is told of it. -/
theorem confines_of_alike (hsession : a.session = some s) (halike : Alike a fs h k) :
    Confines a s fs h k := by
  have habreast := abreast_of_alike hsession halike
  obtain ⟨t, ht, -⟩ := speaksAs_after hsession h
  have hasked (i : Input) (message : String) (hmem : message ∈ messages ((a.after h).step i).2) :
      ∃ blocks t, (a.after h).session = some t ∧ message = Message.ofBlocks t.home t.cwd blocks ∧
        (a.after (i :: h)).IsDelivering blocks := by
    obtain ⟨blocks, hmessage, hdelivering⟩ := isDelivering_of_mem ht hmem
    exact ⟨blocks, t, ht, hmessage, hdelivering⟩
  have hkept (blocks : List Block) (t : Session) (ts : List Session.Task)
      (_ : (a.after h).session = some t) (htasks : t.tasks = .delivering blocks :: ts)
      (o : Outcome) (worse : Failure) : (t.step (.answer o)).turn = .ends (.raised worse) ↔
        ∃ why, o.failure? = some why ∧ why.report = .error worse := by
    rw [Session.step_of_delivering htasks]
    exact Session.delivered_raised_iff
  have huntold (blocks : List Block) (t : Session) (ts : List Session.Task)
      (_ : (a.after h).session = some t) (htasks : t.tasks = .delivering blocks :: ts)
      (o : Outcome) (why worse : Failure) (hfails : o.failure? = some why)
      (hreport : why.report = .error worse) :
      t.step (.answer o) = { t with tasks := ts }.finish [] (.raised worse) := by
    rw [Session.step_of_delivering htasks]
    exact Session.delivered_fail hfails hreport
  cases habreast with
  | level hstate hnotes =>
      exact ⟨by rw [hstate], fun _ => hstate, hnotes.messages_eq, hnotes.outcomes_eq,
        fun _ => hnotes, hasked, hkept, huntold⟩
  | apart callers _ hsession htasks hfails hreturns hnotes =>
      have hbusy : ¬ (a.after h).isHostsTurn := by
        rw [hfails]
        exact Bool.false_ne_true
      exact ⟨by rw [hfails, hreturns]; rfl, fun h => absurd h hbusy, hnotes.messages_eq,
        hnotes.outcomes_eq, fun h => absurd h hbusy, hasked, hkept, huntold⟩

/-- The host is asked to deliver the message about a trigger. -/
def delivering : History :=
  [.proceed, .proceed, .answer (.text "# do AI!"), .proceed] ++ changed 0 "/w/a.py" ++
    started (some "/w")

/-- The host fails to deliver the message in one run and not in the other, and takes note of what it
is told: in the end the two are in one state, and have told of the delivery in different words. -/
theorem confines_of_alike_of_one_failure :
    let later : History := [.proceed, .proceed, .proceed, .answer .returned, .proceed]
    let why : Failure := .plain .runtime "no agent"
    let h := later ++ .answer (.raised why) :: delivering
    let k := later ++ .answer .returned :: delivering
    let fs := [(Block.ofContent "/w/a.py" "# do AI!", "no agent")]
    aroundW.session = some inW ∧ Alike aroundW fs h k ∧ Confines aroundW inW fs h k ∧
      (aroundW.after h).isHostsTurn ∧ (aroundW.after h).callers = [] ∧
      aroundW.after h = aroundW.after k ∧ Instead inW fs (aroundW.seen h) (aroundW.seen k) := by
  intro later why h k fs
  have hdelivering : (aroundW.after delivering).IsDelivering
      (Block.ofContent "/w/a.py" "# do AI!") := ⟨rfl, rfl, _, rfl, rfl⟩
  have halike : Alike aroundW fs h k := ((Alike.refl _ _).failed rfl hdelivering).append later
  have hturn : (aroundW.after h).isHostsTurn := rfl
  have hconfines := confines_of_alike (s := inW) rfl halike
  exact ⟨rfl, halike, hconfines, hturn, rfl, hconfines.state hturn, hconfines.told hturn⟩

/-- What the host is told. -/
def Question.notice? : Question → Option (String × Session.Gravity)
  | .notify text gravity => some (text, gravity)
  | _ => none

/-- What the host is told, the earliest first. -/
def notices (notes : List Note) : List (String × Session.Gravity) :=
  (questions notes).filterMap Question.notice?

/-- **A delivery whose failure leaves the session.** The host fails to deliver the message, and the
attempt to report that meets another failure.  It goes through the session and the watcher back to
the host, whose call fails; the host is told of nothing.  Had the delivery not failed the call would
return, and the host would be told. -/
theorem wordless_delivery_leaves :
    let worse : Failure := .plain .runtime "no words"
    let later : History := [.proceed, .proceed, .proceed, .answer .returned, .proceed]
    let h := [.proceed, .proceed] ++ .answer (.raised (.wordless "Mute" worse)) :: delivering
    let k := later ++ .answer .returned :: delivering
    (aroundW.after delivering).IsDelivering (Block.ofContent "/w/a.py" "# do AI!") ∧
      (aroundW.after h).callers = [] ∧ (aroundW.after k).callers = [] ∧
      (outcomes (aroundW.seen h)).getLast? = some (.raised worse) ∧
      (outcomes (aroundW.seen k)).getLast? = some .returned ∧
      (outcomes (aroundW.seen h)).length = (outcomes (aroundW.seen k)).length ∧
      notices (aroundW.seen h) ++ [(Session.sentText (Block.ofContent "/w/a.py" "# do AI!"),
        .info)] = notices (aroundW.seen k) := by
  refine ⟨⟨rfl, rfl, _, rfl, rfl⟩, rfl, rfl, rfl, rfl, rfl, rfl⟩

end Assembly

end Marginalia
