import Marginalia.Proofs.Assembly.Step

/-!
# Rounds of a session

A session with its watchers, over a notifier that is a matter of the host.  The host calls the
session, passes on the events of subscriptions, however old, and answers what it is asked; whoever
is asked for a file answers at once (`plays`).

What matters of such a run is read off the history, without the machine:

* `calls` are the calls of the session.  The latest of the starts and shutdowns says which directory
  is watched (`Session.directoryOf`); the latest of the starts and of what was said of the agent
  says whether the watcher is paused (`Session.heldBy`);
* `deeds` are the contents that were read since the latest start or shutdown;
* `letters` are the messages that these contents call for.

Between the turns of the host the machine is at work, and its state does not say yet what the host
has called for.  `Stand` takes care of this: at rest the state keeps to the reading of the history
(`Rests`), and otherwise the machine goes on, without hearing the host, to where it does.

`Rests.minor` is what a minor step does to it.  From there `Stand.file?_iff` says upon which changes
files are read, and `Stand.held_of_messages` that nothing is delivered while the watcher is paused.
-/

namespace Marginalia

/-! ## Reading the calls of a session -/

namespace Session

/-- The input starts the session or shuts it down. -/
def Input.turnsOver : Input → Bool
  | .start _ | .shutdown => true
  | _ => false

/-- The input bears on whether the watcher is paused. -/
def Input.setsPause : Input → Bool
  | .start _ | .agentStart | .agentEnd => true
  | _ => false

/-- The directory of the latest start, unless the session was shut down since. -/
def directoryOf (s : Session) (calls : List Input) : Option String :=
  match calls.find? Input.turnsOver with
  | some (.start cwd) => some (s.startDirectory cwd)
  | _ => none

/-- Of the starts and what was said of the agent, the latest is that the agent works. -/
def heldBy (calls : List Input) : Bool :=
  match calls.find? Input.setsPause with
  | some .agentStart => true
  | _ => false

lemma startDirectory_congr {s s' : Session} (hsettings : s'.settings = s.settings)
    (hhome : s'.home = s.home) (cwd : Option String) :
    s'.startDirectory cwd = s.startDirectory cwd := by
  rw [startDirectory, startDirectory, hsettings, hhome]

end Session

namespace Assembly

open Watcher (Deed NoReading pendingOf)

/-! ## Reading a history -/

/-- The call of the session that an input makes, when it is the host's turn. -/
def called? (a : Assembly) : Input → Option Session.Input
  | .call (.session i) => if a.isHostsTurn then some i else none
  | _ => none

/-- What the host has called the session for, the latest call first. -/
def calls (a : Assembly) : History → List Session.Input
  | [] => []
  | i :: h => ((a.after h).called? i).toList ++ a.calls h

/-- The file that the host is asked to read. -/
def reading? (a : Assembly) : History → Option String
  | [] => none
  | i :: h => file? ((a.after h).step i).2

/-- What an input does to the comments that wait, if it brings the content of a file. -/
def deedUpon? (a : Assembly) (h : History) : Input → Option Deed
  | .answer (.text content) => (a.reading? h).map (.took · content)
  | _ => none

/-- What was read since the latest start or shutdown, the latest content first. -/
def deeds (a : Assembly) : History → List Deed
  | [] => []
  | i :: h =>
    match (a.after h).called? i with
    | some c => if c.turnsOver then [] else a.deeds h
    | none => (a.deedUpon? h i).toList ++ a.deeds h

/-- What a history says of the session. -/
structure View where
  /-- The watcher is paused. -/
  held : Bool
  /-- The directory of the session. -/
  directory : Option String
  /-- What was read for the watcher. -/
  deeds : List Deed

/-- How a history reads. -/
def view (a : Assembly) (s : Session) (h : History) : View where
  held := Session.heldBy (a.calls h)
  directory := s.directoryOf (a.calls h)
  deeds := a.deeds h

/-- What a trigger in a file hands over: what waits for other files, and the blocks of the file. -/
def View.payload (v : View) (path content : String) : List Block :=
  (pendingOf v.deeds).others path ++ Block.ofContent path content

/-- The message that the content of a file calls for, if it holds a trigger. -/
def View.letter? (v : View) (s : Session) (path content : String) : Option String :=
  if (Text.lines content).any (Marker.ofLine? · = some .trigger) then
    some (Message.ofBlocks s.home v.directory (v.payload path content))
  else none

/-- The message that an input calls for, if it brings the content of a file. -/
def letterUpon? (a : Assembly) (s : Session) (h : History) : Input → Option String
  | .answer (.text content) => (a.reading? h).bind ((a.view s h).letter? s · content)
  | _ => none

/-- The messages that a history calls for, the earliest first. -/
def letters (a : Assembly) (s : Session) : History → List String
  | [] => []
  | i :: h => a.letters s h ++ (a.letterUpon? s h i).toList

/-! ## Runs -/

/-- The input is what comes of reading a file: its content or a failure. -/
def Input.bringsFile : Input → Bool
  | .answer (.text _) | .answer (.raised _) => true
  | _ => false

/-- The host makes the call: it starts the session or shuts it down, tells it of the agent, or
passes on an event. -/
def Call.isOfHost : Call → Bool
  | .session (.start _) | .session .shutdown | .session .agentStart | .session .agentEnd => true
  | .watcher _ (.event ..) => true
  | _ => false

/-- The host may give the input while it is asked to read a file or not. -/
def plays? (file : Option String) : Input → Bool
  | .call c => c.isOfHost && file.isNone
  | i => file.isNone || i.bringsFile

/-- The host has kept to its part: all its calls were such, and whenever it was asked to read a file
it did so before anything else. -/
def plays (a : Assembly) : History → Bool
  | [] => true
  | i :: h => plays? (a.reading? h) i && a.plays h

/-- A run begins with the assembly and its session, which was just made.  Opening and closing
subscriptions is a matter of the host. -/
def BeginsWith (a : Assembly) (s : Session) : Prop :=
  ∃ around settings notifies logger, s = { settings, home := around.home, notifies, logger } ∧
    a = { surroundings := around, relays := true, session := some s }

/-! ## The seat of a session -/

/-- What a call of the session does to a view. -/
def View.upon (v : View) (s : Session) : Session.Input → View
  | .start cwd => ⟨false, some (s.startDirectory cwd), []⟩
  | .shutdown => ⟨v.held, none, []⟩
  | .agentStart => { v with held := true }
  | .agentEnd => { v with held := false }
  | _ => v

/-- The watcher is the one of the session, now `s'`, and as the history says. -/
structure Holds (v : View) (s' : Session) (id : Nat) (w : Watcher) : Prop where
  watcher : s'.watcher = some id
  cwd : s'.cwd = v.directory
  started : v.directory.isSome
  paused : w.paused = v.held
  pending : w.pending = pendingOf v.deeds

/-- The session, now `s'`, is what `s` has become.  Whatever watcher holds a subscription is the one
of the session, and as the history says. -/
structure Seated (s : Session) (v : View) (a : Assembly) (s' : Session) : Prop where
  relays : a.relays = true
  channels : ∀ c ∈ a.channels, c = .relayed
  session : a.session = some s'
  settings : s'.settings = s.settings
  home : s'.home = s.home
  callbacks : ∀ w ∈ a.watchers, w.callbacks.trigger = true
  holder : ∀ k w, a.watchers[k]? = some w → w.subscription.isSome → Holds v s' k w

/-- No watcher waits for a file. -/
def Unread (a : Assembly) : Prop :=
  ∀ w ∈ a.watchers, NoReading w.tasks

/-- The state is as the history says, and what is to be done next is minor. -/
structure Rests (s : Session) (v : View) (a : Assembly) (s' : Session) : Prop where
  seated : Seated s v a s'
  steady : Session.IsSteady s'.tasks
  unread : a.Unread
  work : ∀ c, a.work = some c → c.isMinor

/-- The host is asked to read a file for the watcher `w`, which holds the open subscription. -/
structure Reads (s : Session) (v : View) (path : String) (a : Assembly) (s' : Session) (id : Nat)
    (w : Watcher) : Prop where
  seated : Seated s v a s'
  steady : Session.IsSteady s'.tasks
  work : a.work = none
  callers : a.callers.head? = some (.watcher id)
  watcher : a.watchers[id]? = some w
  isOpen : w.subscription.isSome
  tasks : ∃ ts, w.tasks = .reading path :: ts ∧ NoReading ts
  others : ∀ k u, a.watchers[k]? = some u → k ≠ id → NoReading u.tasks
  held : v.held = false

/-- The call is an event. -/
def Call.isEvent : Call → Bool
  | .watcher _ (.event ..) => true
  | _ => false

/-- Where a run stands: the file that the host is asked to read, the messages that are still to be
delivered before it is the host's turn, and the state. -/
inductive Stand (s : Session) (v : View) : Option String → List String → Assembly → Prop
  | rests {a : Assembly} {s' : Session} (h : Rests s v a s') : Stand s v none [] a
  | reads {a : Assembly} {path : String} {s' : Session} {id : Nat} {w : Watcher}
      (h : Reads s v path a s' id w) : Stand s v (some path) [] a
  /-- The machine goes on, and it delivers nothing if the watcher is to be paused. -/
  | goes {a : Assembly} {c : Call} {ms : List String} (hwork : a.work = some c)
      (hbusy : c.isEvent = false) (hheld : messages (a.step .proceed).2 ≠ [] → v.held = false)
      (hfile : file? (a.step .proceed).2 = none) (hnext : Stand s v none ms (a.step .proceed).1) :
      Stand s v none (messages (a.step .proceed).2 ++ ms) a

variable {a b : Assembly} {s s' : Session} {v v' : View} {notes : List Note} {r : Result}

/-! ### What the seat does not depend on -/

lemma Seated.withTurn (h : Seated s v a s') (callers : List Caller) (work : Option Call) :
    Seated s v (a.withTurn callers work) s' :=
  ⟨h.relays, h.channels, h.session, h.settings, h.home, h.callbacks, h.holder⟩

lemma Seated.withSession (h : Seated s v a s') (ts : List Session.Task) :
    Seated s v (a.withSession { s' with tasks := ts }) { s' with tasks := ts } := by
  refine ⟨h.relays, h.channels, rfl, h.settings, h.home, h.callbacks, fun k w hk hopen => ?_⟩
  have hholds := h.holder k w hk hopen
  exact ⟨hholds.watcher, hholds.cwd, hholds.started, hholds.paused, hholds.pending⟩

/-- A watcher is replaced; the view may change if that is the watcher of the session. -/
lemma Seated.withWatcher {id : Nat} {w u : Watcher} (h : Seated s v a s')
    (hw : a.watchers[id]? = some w) (hcallbacks : u.callbacks = w.callbacks)
    (hview : s'.watcher = some id ∨ v' = v)
    (hholds : u.subscription.isSome → Holds v' s' id u) :
    Seated s v' (a.withWatcher id u) s' := by
  refine ⟨h.relays, h.channels, h.session, h.settings, h.home, fun u' hu' => ?_, fun k u' hk => ?_⟩
  · rcases List.mem_or_eq_of_mem_set hu' with hu' | rfl
    · exact h.callbacks u' hu'
    · rw [hcallbacks]
      exact h.callbacks w (List.mem_of_getElem? hw)
  · by_cases hkid : id = k
    · subst hkid
      have hu : u = u' := by
        simpa [Assembly.withWatcher, (List.getElem?_eq_some_iff.1 hw).1] using hk
      rw [← hu]
      exact hholds
    · have hk' : a.watchers[k]? = some u' := by simpa [Assembly.withWatcher, hkid] using hk
      intro hopen
      have hholder := h.holder k u' hk' hopen
      rcases hview with hid | rfl
      · exact absurd (Option.some.inj (hid.symm.trans hholder.watcher)) hkid
      · exact hholder

/-- A watcher is replaced by one that differs in its tasks at most. -/
lemma Seated.withWatcher_of_course {id : Nat} {w u : Watcher} (h : Seated s v a s')
    (hw : a.watchers[id]? = some w) (hcourse : Watcher.SameCourse w u)
    (hpending : u.pending = w.pending) : Seated s v (a.withWatcher id u) s' := by
  refine h.withWatcher hw hcourse.callbacks (Or.inr rfl) fun hopen => ?_
  rw [hcourse.subscription] at hopen
  have hholds := h.holder id w hw hopen
  exact ⟨hholds.watcher, hholds.cwd, hholds.started, hcourse.paused.trans hholds.paused,
    hpending.trans hholds.pending⟩

lemma Unread.withWatcher (h : a.Unread) (id : Nat) {u : Watcher} (hu : NoReading u.tasks) :
    (a.withWatcher id u).Unread := by
  intro u' hu'
  rcases List.mem_or_eq_of_mem_set hu' with hu' | rfl
  · exact h u' hu'
  · exact hu

lemma Yields.rests (h : Yields a r) (hseated : Seated s v a s')
    (hsteady : Session.IsSteady s'.tasks) (hunread : a.Unread) : Rests s v r.1 s' := by
  obtain ⟨callers, work, hr⟩ := h.turn
  refine ⟨?_, hsteady, ?_, h.work⟩
  · rw [hr]
    exact hseated.withTurn callers work
  · rw [hr]
    exact hunread

lemma Yields.stand (h : Yields a r) (hseated : Seated s v a s')
    (hsteady : Session.IsSteady s'.tasks) (hunread : a.Unread) : Stand s v none [] r.1 :=
  .rests (h.rests hseated hsteady hunread)

/-- The machine goes on, and nothing is delivered on the way. -/
lemma Stand.on {c : Call} {ms : List String} (hwork : a.work = some c) (hbusy : c.isEvent = false)
    (hstep : a.step .proceed = r) (hmessages : messages r.2 = []) (hfile : file? r.2 = none)
    (hnext : Stand s v none ms r.1) : Stand s v none ms a := by
  subst hstep
  have h := Stand.goes hwork hbusy (fun hne => absurd hmessages hne) hfile hnext
  rwa [hmessages, List.nil_append] at h

/-- The machine comes to rest. -/
lemma Yields.stand_on {c : Call} (h : Yields b r) (hwork : a.work = some c)
    (hbusy : c.isEvent = false) (hstep : a.step .proceed = r) (hseated : Seated s v b s')
    (hsteady : Session.IsSteady s'.tasks) (hunread : b.Unread) : Stand s v none [] a :=
  .on hwork hbusy hstep h.messages h.file (h.stand hseated hsteady hunread)

/-! ## Minor steps -/

/-- After the history the present watcher accepts a change of the file: it comes from the open
subscription, the watcher is not paused, and the file is not ignored. -/
def Accepts (a : Assembly) (id g : Nat) (path : String) : Prop :=
  a.current? = some id ∧ ∃ w, a.watchers[id]? = some w ∧ w.isCurrent g ∧ w.paused = false ∧
    w.ignores path = false

/-- A change of the file, which the present watcher accepts, is to be done next. -/
def Heeds (a : Assembly) (path : String) : Prop :=
  ∃ id g, a.work = some (.watcher id (.event g (.change path))) ∧ a.Accepts id g path

/-- The step leads to rest again, or to a question for a file, and to this exactly upon a change
that is accepted. -/
structure Minor (s : Session) (v : View) (a : Assembly) : Prop where
  stand : Stand s v (file? (a.step .proceed).2) [] (a.step .proceed).1
  messages : messages (a.step .proceed).2 = []
  file : ∀ path, file? (a.step .proceed).2 = some path ↔ a.Heeds path

lemma Yields.minor (h : Yields b (a.step .proceed)) (hseated : Seated s v b s')
    (hsteady : Session.IsSteady s'.tasks) (hunread : b.Unread)
    (hnone : ∀ path, ¬ a.Heeds path) : Minor s v a := by
  refine ⟨?_, h.messages, fun path => ?_⟩
  · rw [h.file]
    exact h.stand hseated hsteady hunread
  · rw [h.file]
    exact ⟨(fun hsome => by cases hsome), fun hheeds => absurd hheeds (hnone path)⟩

lemma not_heeds {c : Call} (hwork : a.work = some c) (hc : c.isEvent = false) (path : String) :
    ¬ a.Heeds path := by
  rintro ⟨id, g, hevent, -⟩
  obtain rfl := Option.some.inj (hwork.symm.trans hevent)
  cases hc

lemma minor_session {i : Session.Input} (h : Rests s v a s') (hwork : a.work = some (.session i)) :
    Minor s v a := by
  have hi : i.isMinor := h.work _ hwork
  obtain ⟨ts, hstate, hsteady, hturn⟩ := Session.step_of_isMinor h.steady hi
  have hyields : Yields (a.withSession { s' with tasks := ts }) (a.step .proceed) := by
    rw [proceed_session h.seated.session hwork, hstate]
    rcases hturn with ⟨o, ho⟩ | ⟨text, gravity, hq⟩
    · rw [ho]
      exact (yields_settle _ o).after (questions_logs _)
    · rw [hq]
      exact (yields_askHost .session rfl rfl).after (questions_logs _)
  exact hyields.minor (h.seated.withSession ts) hsteady h.unread (not_heeds hwork rfl)

/-- A watcher that asks for a file holds the open subscription, and waits for the file. -/
lemma reads_of_asks {i : Watcher.Input} {w : Watcher} {id : Nat} {path : String}
    (h : Rests s v a s') (hi : i.isMinor) (hw : a.watchers[id]? = some w)
    (hread : (w.step i).turn = .asks (.read path)) :
    Reads s v path ((a.withWatcher id (w.step i).state).withTurn (.watcher id :: a.callers) none) s'
      id (w.step i).state := by
  have hno : NoReading w.tasks := h.unread w (List.mem_of_getElem? hw)
  have hcourse : Watcher.SameCourse w (w.step i).state := w.sameCourse_of_isMinor hi
  have hid : id < a.watchers.length := (List.getElem?_eq_some_iff.1 hw).1
  obtain ⟨g, -, hcurrent, hpaused, -⟩ := (w.asks_read_iff i path).1 hread
  have hopen : w.subscription.isSome := (Bool.and_eq_true_iff.1 hcurrent).2
  have hholds := h.seated.holder id w hw hopen
  have hseated := h.seated.withWatcher_of_course hw hcourse (w.pending_of_noReading hno hi)
  refine ⟨hseated.withTurn _ _, h.steady, rfl, rfl, ?_, ?_,
    ⟨_, w.tasks_of_asks_read hread, w.noReading_tasksUpon_of_isMinor hno hi⟩, ?_,
    hholds.paused.symm.trans hpaused⟩
  · simp [withTurn, withWatcher, hid]
  · rw [hcourse.subscription]
    exact hopen
  · intro k u hk hne
    have hk' : a.watchers[k]? = some u := by
      simpa [withTurn, withWatcher, Ne.symm hne] using hk
    exact h.unread u (List.mem_of_getElem? hk')

/-- A change that is accepted has the file read. -/
lemma minor_of_accepted {id g : Nat} {path : String} {w : Watcher} (h : Rests s v a s')
    (hwork : a.work = some (.watcher id (.event g (.change path)))) (hw : a.watchers[id]? = some w)
    (haccepted : w.isCurrent g ∧ w.paused = false ∧ w.ignores path = false) : Minor s v a := by
  have hread : (w.step (.event g (.change path))).turn = .asks (.read path) :=
    (w.asks_read_iff _ path).2 ⟨g, rfl, haccepted⟩
  have hholds := h.seated.holder id w hw (Bool.and_eq_true_iff.1 haccepted.1).2
  obtain ⟨notes, hnotes, hstep⟩ := proceed_watcher h.seated.channels hwork hw
  have hfile : file? (a.step .proceed).2 = some path := by
    rw [hstep, hread, Result.after, file?_append_of_questions hnotes]
    rfl
  refine ⟨?_, ?_, fun q => ?_⟩
  · rw [hfile, hstep, hread]
    exact .reads (reads_of_asks h rfl hw hread)
  · rw [hstep, hread, Result.after, messages_append_of_questions hnotes]
    rfl
  · rw [hfile, Option.some.injEq]
    constructor
    · rintro rfl
      exact ⟨id, g, hwork, (current?_of_session h.seated.session).trans hholds.watcher, w, hw,
        haccepted⟩
    · rintro ⟨id', g', hevent, -⟩
      cases hwork.symm.trans hevent
      rfl

/-- All else that a watcher does by a minor step leads to rest again. -/
lemma minor_of_not_read {id : Nat} {i : Watcher.Input} {w : Watcher} (h : Rests s v a s')
    (hwork : a.work = some (.watcher id i)) (hw : a.watchers[id]? = some w)
    (hread : ∀ path, (w.step i).turn ≠ .asks (.read path)) : Minor s v a := by
  have hi : i.isMinor := h.work _ hwork
  have hno : NoReading w.tasks := h.unread w (List.mem_of_getElem? hw)
  have hcourse : Watcher.SameCourse w (w.step i).state := w.sameCourse_of_isMinor hi
  have hseated := h.seated.withWatcher_of_course hw hcourse (w.pending_of_noReading hno hi)
  have hunread := h.unread.withWatcher id
    (w.noReading_step (w.noReading_tasksUpon_of_isMinor hno hi) hread)
  obtain ⟨notes, hnotes, hstep⟩ := proceed_watcher h.seated.channels hwork hw
  have hyields : Yields (a.withWatcher id (w.step i).state) (a.step .proceed) := by
    rw [hstep]
    exact (yields_passOn hseated.channels id hread (w.not_asks_trigger hno hi)).after hnotes
  refine hyields.minor hseated h.steady hunread ?_
  rintro path ⟨id', g, hevent, -, w', hw', haccepted⟩
  cases hwork.symm.trans hevent
  obtain rfl := Option.some.inj (hw.symm.trans hw')
  exact hread path ((w.asks_read_iff _ path).2 ⟨g, rfl, haccepted⟩)

lemma minor_watcher {id : Nat} {i : Watcher.Input} (h : Rests s v a s')
    (hwork : a.work = some (.watcher id i)) : Minor s v a := by
  cases hw : a.watchers[id]? with
  | none =>
      have hyields : Yields a (a.step .proceed) := by
        rw [proceed_watcher_of_none hwork hw]
        exact yields_settle a .returned
      refine hyields.minor h.seated h.steady h.unread ?_
      rintro path ⟨id', g, hevent, -, w, hw', -⟩
      cases hwork.symm.trans hevent
      cases hw.symm.trans hw'
  | some w =>
      by_cases hread : ∃ path, (w.step i).turn = .asks (.read path)
      · obtain ⟨path, hread⟩ := hread
        obtain ⟨g, rfl, haccepted⟩ := (w.asks_read_iff i path).1 hread
        exact minor_of_accepted h hwork hw haccepted
      · exact minor_of_not_read h hwork hw fun path hq => hread ⟨path, hq⟩

/-- **A minor step** leads to rest again, or to a question for a file. -/
lemma Rests.minor {c : Call} (h : Rests s v a s') (hwork : a.work = some c) : Minor s v a := by
  have hc : c.isMinor := h.work c hwork
  cases c with
  | session i => exact minor_session h hwork
  | watcher id i => exact minor_watcher h hwork
  | subscription id i =>
      have hyields : Yields a (a.step .proceed) := by
        rw [step_proceed hwork, perform, stepSubscription]
        split
        · rename_i t ht
          cases h.seated.channels _ (List.mem_of_getElem? ht)
        · exact yields_settle a .returned
      exact hyields.minor h.seated h.steady h.unread (not_heeds hwork rfl)
  | watch | subscribe => cases hc

/-- Upon an input while it is the host's turn nothing is delivered, and no file is read. -/
lemma step_of_turn (hwork : a.work = none) (i : Input) :
    messages (a.step i).2 = [] ∧ file? (a.step i).2 = none := by
  cases i with
  | answer o =>
      simp only [step, hwork]
      exact ⟨(yields_settle a o).messages, (yields_settle a o).file⟩
  | call | proceed | wait | refuse => simp only [step, hwork]; exact ⟨rfl, rfl⟩

/-- **The host is asked to read a file** exactly upon a change of it that is accepted. -/
lemma Stand.file?_iff {file : Option String} {ms : List String} (hstand : Stand s v file ms a)
    (i : Input) (path : String) :
    file? (a.step i).2 = some path ↔ i = .proceed ∧ a.Heeds path := by
  have hnever (hfile : file? (a.step i).2 = none) (hnone : i = .proceed → ¬ a.Heeds path) :
      file? (a.step i).2 = some path ↔ i = .proceed ∧ a.Heeds path := by
    rw [hfile]
    exact ⟨(fun h => by cases h), fun h => absurd h.2 (hnone h.1)⟩
  have hturn (hwork : a.work = none) :
      file? (a.step i).2 = some path ↔ i = .proceed ∧ a.Heeds path := by
    refine hnever (step_of_turn hwork i).2 ?_
    rintro - ⟨id, g, hevent, -⟩
    cases hwork.symm.trans hevent
  have hbusy {c : Call} (hwork : a.work = some c) (hi : i ≠ .proceed) :
      file? (a.step i).2 = some path ↔ i = .proceed ∧ a.Heeds path :=
    hnever (by rw [step_of_some hwork hi]; rfl) fun h => absurd h hi
  cases hstand with
  | rests h =>
      cases hwork : a.work with
      | none => exact hturn hwork
      | some c =>
          by_cases hi : i = .proceed
          · subst hi
            rw [(h.minor hwork).file path]
            exact (and_iff_right rfl).symm
          · exact hbusy hwork hi
  | reads h => exact hturn h.work
  | goes hwork hevent _ hfile _ =>
      by_cases hi : i = .proceed
      · subst hi
        exact hnever hfile fun _ => not_heeds hwork hevent path
      · exact hbusy hwork hi

/-- Nothing is delivered while the watcher is to be paused. -/
lemma Stand.held_of_messages {file : Option String} {ms : List String}
    (hstand : Stand s v file ms a) {i : Input} (hne : messages (a.step i).2 ≠ []) :
    v.held = false := by
  cases hwork : a.work with
  | none => exact absurd (step_of_turn hwork i).1 hne
  | some c =>
      by_cases hi : i = .proceed
      · subst hi
        cases hstand with
        | rests h => exact absurd (h.minor hwork).messages hne
        | reads h => cases hwork.symm.trans h.work
        | goes _ _ hheld _ _ => exact hheld hne
      · rw [step_of_some hwork hi] at hne
        exact absurd rfl hne

end Assembly

end Marginalia
