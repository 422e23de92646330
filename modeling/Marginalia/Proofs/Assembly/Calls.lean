import Marginalia.Proofs.Assembly.Rounds

/-!
# What the calls of a session lead to

Each call of the host is followed to where the machine comes to rest.  A start and a shutdown first
close the watcher that there is, and in between no watcher holds a subscription (`Bare`); so it does
not matter how the history is to be read then.

`stand_start`, `stand_shutdown`, `stand_agentStart` and `stand_agentEnd` are the results: each of
the calls leads to what `View.upon` says of it.
-/

namespace Marginalia.Assembly

open Watcher (NoReading pendingOf)

variable {a b : Assembly} {s s' : Session} {v v' : View} {id : Nat}

/-! ## Between two watchers -/

/-- No watcher holds a subscription, and none waits for a file. -/
structure Bare (a : Assembly) : Prop where
  relays : a.relays = true
  channels : ∀ c ∈ a.channels, c = .relayed
  unheld : ∀ w ∈ a.watchers, w.subscription = none
  callbacks : ∀ w ∈ a.watchers, w.callbacks.trigger = true
  unread : a.Unread

/-- Where nothing is held, a history may say anything. -/
lemma Bare.seated (h : Bare a) (hsession : a.session = some s')
    (hsettings : s'.settings = s.settings) (hhome : s'.home = s.home) : Seated s v a s' := by
  refine ⟨h.relays, h.channels, hsession, hsettings, hhome, h.callbacks, fun k w hk hopen => ?_⟩
  rw [h.unheld w (List.mem_of_getElem? hk)] at hopen
  cases hopen

lemma Bare.withTurn (h : Bare a) (callers : List Caller) (work : Option Call) :
    Bare (a.withTurn callers work) :=
  ⟨h.relays, h.channels, h.unheld, h.callbacks, h.unread⟩

lemma Bare.withSession (h : Bare a) (s' : Session) : Bare (a.withSession s') :=
  ⟨h.relays, h.channels, h.unheld, h.callbacks, h.unread⟩

/-- Nothing is held once the watcher of the session holds nothing. -/
lemma Seated.bare (h : Seated s v a s') (hunread : a.Unread)
    (hunheld : ∀ k w, a.watchers[k]? = some w → s'.watcher = some k → w.subscription = none) :
    Bare a := by
  refine ⟨h.relays, h.channels, fun w hw => ?_, h.callbacks, hunread⟩
  obtain ⟨k, hk⟩ := List.mem_iff_getElem?.1 hw
  rw [← Option.not_isSome_iff_eq_none]
  intro hopen
  have hnone := hunheld k w hk (h.holder k w hk hopen).watcher
  rw [hnone] at hopen
  cases hopen

lemma Seated.bare_of_none (h : Seated s v a s') (hunread : a.Unread)
    (hwatcher : s'.watcher = none) : Bare a := by
  refine h.bare hunread fun k w _ hk => ?_
  rw [hwatcher] at hk
  cases hk

lemma Seated.bare_of_missing (h : Seated s v a s') (hunread : a.Unread)
    (hwatcher : s'.watcher = some id) (hw : a.watchers[id]? = none) : Bare a := by
  refine h.bare hunread fun k w hk hid => ?_
  obtain rfl := Option.some.inj (hwatcher.symm.trans hid)
  rw [hk] at hw
  cases hw

/-- The watcher of the session is closed, and the session goes on. -/
lemma proceed_close {rest : List Caller} (h : Seated s v a s') (hunread : a.Unread)
    (hwatcher : s'.watcher = some id) (hwork : a.work = some (.watcher id .close))
    (hcallers : a.callers = .session :: rest) :
    ∃ b, (a.step .proceed).1 = b ∧ questions (a.step .proceed).2 = [] ∧ Bare b ∧
      b.session = some s' ∧ b.work = some (.session (.answer .returned)) ∧ b.callers = rest := by
  have hsettle (b : Assembly) (hb : b.callers = .session :: rest) :
      b.settle .returned = (b.withTurn rest (some (.session (.answer .returned))), []) := by
    rw [settle, hb]
    rfl
  cases hw : a.watchers[id]? with
  | none =>
      have hbare : Bare a := h.bare_of_missing hunread hwatcher hw
      rw [proceed_watcher_of_none hwork hw, hsettle a hcallers]
      exact ⟨_, rfl, rfl, hbare.withTurn _ _, h.session, rfl, rfl⟩
  | some w =>
      obtain ⟨notes, hnotes, hstep⟩ := proceed_watcher h.channels hwork hw
      have hcourse := w.sameCourse_step .close
      have hturn : (w.step .close).turn = .ends .returned := by
        obtain ⟨ns, hclose⟩ := w.close_eq
        rw [Watcher.step, hclose]
        rfl
      have hno : NoReading (w.step .close).state.tasks := by
        refine w.noReading_step (hunread w (List.mem_of_getElem? hw)) fun path hread => ?_
        rw [hturn] at hread
        cases hread
      have hclosed : Bare (a.withWatcher id (w.step .close).state) := by
        have hseated : Seated s v (a.withWatcher id (w.step .close).state) s' :=
          h.withWatcher hw hcourse.callbacks (Or.inr rfl) fun hopen => by
            rw [hcourse.subscription] at hopen
            cases hopen
        refine hseated.bare (hunread.withWatcher id hno) fun k u hk hid => ?_
        obtain rfl := Option.some.inj (hwatcher.symm.trans hid)
        have hu : (w.step .close).state = u := by
          simpa [Assembly.withWatcher, (List.getElem?_eq_some_iff.1 hw).1] using hk
        rw [← hu]
        exact hcourse.subscription
      rw [hstep, hturn]
      simp only [passOn, Result.after, hsettle (a.withWatcher id _) hcallers, List.append_nil]
      exact ⟨_, rfl, hnotes, hclosed.withTurn _ _, h.session, rfl, rfl⟩

/-- The session has its watcher closed before it goes on. -/
lemma stand_closing {i : Session.Input} {t : Session.Task} (h : Seated s v a s')
    (hunread : a.Unread) (hwork : a.work = some (.session i)) (hwatcher : s'.watcher = some id)
    (hstep : s'.step i = s'.ask [] (.close id) t)
    (hnext : ∀ b, Bare b → b.session = some { s' with tasks := t :: s'.tasks } →
      b.work = some (.session (.answer .returned)) → Stand s v' none [] b) :
    Stand s v' none [] a := by
  have hasks : a.step .proceed =
      ((a.withSession { s' with tasks := t :: s'.tasks }).withTurn (.session :: a.callers)
        (some (.watcher id .close)), []) := by
    rw [proceed_session h.session hwork, hstep]
    rfl
  obtain ⟨b, hb, hquestions, hbare, hsession, hanswer, -⟩ :=
    proceed_close ((h.withSession (t :: s'.tasks)).withTurn (.session :: a.callers)
      (some (.watcher id .close))) hunread hwatcher rfl rfl
  refine .on hwork rfl hasks rfl rfl (.on rfl rfl rfl (messages_of_questions hquestions)
    (file?_of_questions hquestions) ?_)
  rw [hb]
  exact hnext b hbare hsession hanswer

/-! ## Starts and shutdowns -/

/-- The new watcher of a session begins to watch, with nothing that waits and without a pause. -/
lemma stand_watch {root directory : String} {w : Watcher} (h : Bare a)
    (hsession : a.session = some s') (hsettings : s'.settings = s.settings)
    (hhome : s'.home = s.home) (hsteady : Session.IsSteady s'.tasks)
    (hwatcher : s'.watcher = some id) (hcwd : s'.cwd = some directory)
    (hwork : a.work = some (.watch id root)) (hw : a.watchers[id]? = some w) (hunused : w.Unused) :
    Stand s ⟨false, some directory, []⟩ none [] a := by
  obtain ⟨opened, channels, notes, hchannels, hnotes, hstep⟩ :=
    proceed_watch h.relays h.channels hwork hw
  have hcourse := w.sameCourse_step (.watch root opened)
  have hbare : Bare (a.withChannels channels) :=
    ⟨h.relays, hchannels, h.unheld, h.callbacks, h.unread⟩
  have hseated : Seated s ⟨false, some directory, []⟩
      ((a.withChannels channels).withWatcher id (w.step (.watch root opened)).state) s' := by
    refine (hbare.seated (v := ⟨false, none, []⟩) hsession hsettings hhome).withWatcher hw
      hcourse.callbacks (Or.inl hwatcher) fun _ => ⟨hwatcher, hcwd, rfl, ?_, ?_⟩
    · exact hcourse.paused.trans hunused.paused
    · rw [w.step_pending]
      exact hunused.pending
  have hread : ∀ path, (w.step (.watch root opened)).turn ≠ .asks (.read path) := by
    intro path hread
    obtain ⟨g, hi, -⟩ := (w.asks_read_iff _ path).1 hread
    cases hi
  have htrigger : ∀ blocks, (w.step (.watch root opened)).turn ≠ .asks (.trigger blocks) := by
    intro blocks htrigger
    rw [w.step_asks_iff] at htrigger
    cases opened <;> cases htrigger
  have hno : NoReading (w.step (.watch root opened)).state.tasks := by
    refine w.noReading_step ?_ hread
    show NoReading w.tasks
    rw [hunused.tasks]
    exact fun path => List.not_mem_nil
  have hyields := (yields_passOn hseated.channels id hread htrigger).after hnotes
  exact hyields.stand_on hwork rfl hstep hseated hsteady (hbare.unread.withWatcher id hno)

/-- The patterns of the settings could not be read: the session is left without a subscription. -/
lemma stand_unmade {t : Session} {root directory : String} {ts : List Session.Task}
    {why : Failure} (h : Bare a)
    (hsession : a.session = some { t with tasks := .making root :: ts })
    (hsettings : t.settings = s.settings) (hhome : t.home = s.home)
    (hsteady : Session.IsSteady ts) (hwork : a.work = some (.session (.answer (.raised why)))) :
    Stand s ⟨false, some directory, []⟩ none [] a := by
  let u : Session := { t with tasks := ts }
  have hbare : Bare (a.withSession u) := h.withSession u
  have hends : a.step .proceed = Result.after [] ((a.withSession u).settle (.raised why)) := by
    rw [proceed_session hsession hwork]
    rfl
  have hyields := yields_settle (a.withSession u) (.raised why)
  exact hyields.stand_on hwork rfl hends (hbare.seated rfl hsettings hhome) hsteady hbare.unread

/-- The new watcher is there, and the session has it watch. -/
lemma stand_made {t : Session} {root directory : String} {ts : List Session.Task} {w : Watcher}
    (h : Bare a) (hsession : a.session = some { t with tasks := .making root :: ts })
    (hsettings : t.settings = s.settings) (hhome : t.home = s.home)
    (hsteady : Session.IsSteady ts) (hcwd : t.cwd = some directory)
    (hwork : a.work = some (.session (.answer (.made id)))) (hw : a.watchers[id]? = some w)
    (hunused : w.Unused) : Stand s ⟨false, some directory, []⟩ none [] a := by
  let u : Session := { t with watcher := some id, tasks := .waiting :: ts }
  have htakes : a.step .proceed =
      ((a.withSession u).withTurn (.session :: a.callers) (some (.watch id root)), []) := by
    rw [proceed_session hsession hwork]
    rfl
  have hbare := (h.withSession u).withTurn (.session :: a.callers) (some (.watch id root))
  have hwatches : Stand s ⟨false, some directory, []⟩ none [] _ :=
    stand_watch hbare rfl hsettings hhome (.cons rfl hsteady) rfl hcwd rfl hw hunused
  exact .on hwork rfl htakes rfl rfl hwatches

/-- A new watcher holds nothing. -/
lemma Bare.withNew {options : Watcher.Options} {callbacks : Watcher.Callbacks} {home : String}
    {w : Watcher} (h : Bare a) (hmake : Watcher.make options callbacks home = .ok w)
    (hcallbacks : callbacks.trigger = true) (work : Option Call) :
    Bare { a with watchers := a.watchers ++ [w], work } := by
  have hunused := Watcher.unused_of_make hmake
  have hmem {u : Watcher} (hu : u ∈ a.watchers ++ [w]) : u ∈ a.watchers ∨ u = w := by
    simpa using hu
  refine ⟨h.relays, h.channels, fun u hu => ?_, fun u hu => ?_, fun u hu => ?_⟩
  · rcases hmem hu with hu | rfl
    · exact h.unheld u hu
    · exact hunused.subscription
  · rcases hmem hu with hu | rfl
    · exact h.callbacks u hu
    · rwa [Watcher.callbacks_of_make hmake]
  · rcases hmem hu with hu | rfl
    · exact h.unread u hu
    · rw [hunused.tasks]
      exact fun path => List.not_mem_nil

/-- The session begins in a directory, while nothing is held. -/
lemma stand_begin {i : Session.Input} {ts : List Session.Task} {cwd : Option String} (h : Bare a)
    (hsession : a.session = some s') (hsettings : s'.settings = s.settings)
    (hhome : s'.home = s.home) (hsteady : Session.IsSteady ts)
    (hwork : a.work = some (.session i)) (hstep : s'.step i = { s' with tasks := ts }.begin cwd) :
    Stand s ⟨false, some (s.startDirectory cwd), []⟩ none [] a := by
  have hroot : { s' with tasks := ts }.startDirectory cwd = s.startDirectory cwd :=
    Session.startDirectory_congr hsettings hhome cwd
  let begun : Session := { s' with cwd := some (s.startDirectory cwd) }
  let making : Session := { begun with tasks := .making (s.startDirectory cwd) :: ts }
  let options := Watcher.Options.ofSettings s'.settings (some (s.startDirectory cwd))
  have hmakes : a.step .proceed = (a.withSession making).makeWatcher options := by
    rw [proceed_session hsession hwork, hstep, Session.begin, hroot]
    rfl
  have hbare : Bare (a.withSession making) := h.withSession making
  cases hmake : Watcher.make options {} (a.withSession making).surroundings.home with
  | error e =>
      rw [makeWatcher, hmake] at hmakes
      refine .on hwork rfl hmakes rfl rfl ?_
      exact stand_unmade (t := begun) (hbare.withTurn _ _) rfl hsettings hhome hsteady rfl
  | ok w =>
      rw [makeWatcher, hmake] at hmakes
      refine .on hwork rfl hmakes rfl rfl ?_
      exact stand_made (t := begun) (hbare.withNew hmake rfl _) rfl hsettings hhome hsteady rfl
        rfl (by simp [withSession]) (Watcher.unused_of_make hmake)

/-- **A start** leads to a watcher that is new. -/
lemma stand_start {cwd : Option String} (h : Seated s v a s') (hsteady : Session.IsSteady s'.tasks)
    (hunread : a.Unread) (hwork : a.work = some (.session (.start cwd))) :
    Stand s ⟨false, some (s.startDirectory cwd), []⟩ none [] a := by
  cases hwatcher : s'.watcher with
  | none =>
      have hbare := h.bare_of_none hunread hwatcher
      have hstep : s'.step (.start cwd) = s'.begin cwd := by
        rw [Session.step, Session.start, hwatcher]
      exact stand_begin hbare h.session h.settings h.home hsteady hwork hstep
  | some id =>
      refine stand_closing (t := .beginning cwd) h hunread hwork hwatcher ?_ ?_
      · rw [Session.step, Session.start, hwatcher]
      · exact fun b hbare hsession hanswer =>
          stand_begin hbare hsession h.settings h.home hsteady hanswer rfl

/-- **A shutdown** leaves the session without a watcher. -/
lemma stand_shutdown (h : Seated s v a s') (hsteady : Session.IsSteady s'.tasks)
    (hunread : a.Unread) (hwork : a.work = some (.session .shutdown)) :
    Stand s ⟨v.held, none, []⟩ none [] a := by
  -- Once nothing is held the session ends, whatever its task was.
  have hend {b : Assembly} {t u : Session} {i : Session.Input} (hbare : Bare b)
      (hsession : b.session = some t) (hi : b.work = some (.session i))
      (hstep : t.step i = u.finish []) (hu : u.settings = s.settings ∧ u.home = s.home ∧
        Session.IsSteady u.tasks) : Stand s ⟨v.held, none, []⟩ none [] b := by
    have hproceed : b.step .proceed = Result.after [] ((b.withSession u).settle .returned) := by
      rw [proceed_session hsession hi, hstep]
      rfl
    have hyields := yields_settle (b.withSession u) .returned
    have hseated := (hbare.withSession u).seated (v := ⟨v.held, none, []⟩) rfl hu.1 hu.2.1
    exact hyields.stand_on hi rfl hproceed hseated hu.2.2 hbare.unread
  cases hwatcher : s'.watcher with
  | none =>
      refine hend (u := { s' with cwd := none }) (h.bare_of_none hunread hwatcher) h.session hwork
        ?_ ⟨h.settings, h.home, hsteady⟩
      rw [Session.step, Session.shutdown, hwatcher]
  | some id =>
      refine stand_closing (t := .ending) h hunread hwork hwatcher ?_ ?_
      · rw [Session.step, Session.shutdown, hwatcher]
      · exact fun b hbare hsession hanswer =>
          hend (u := { s' with watcher := none, cwd := none }) hbare hsession hanswer rfl
            ⟨h.settings, h.home, hsteady⟩

/-! ## The agent -/

/-- The watcher of the session is paused, or goes on. -/
lemma stand_pausing {i : Watcher.Input} {p : Bool} (h : Seated s v a s')
    (hsteady : Session.IsSteady s'.tasks) (hunread : a.Unread) (hwatcher : s'.watcher = some id)
    (hwork : a.work = some (.watcher id i)) (hbusy : (Call.watcher id i).isEvent = false)
    (hstep : ∀ w : Watcher, (w.step i).state = { w with paused := p } ∧
      (w.step i).turn = .ends .returned) : Stand s { v with held := p } none [] a := by
  cases hw : a.watchers[id]? with
  | none =>
      have hbare : Bare a := h.bare_of_missing hunread hwatcher hw
      have hyields := yields_settle a .returned
      exact hyields.stand_on hwork hbusy (proceed_watcher_of_none hwork hw)
        (hbare.seated h.session h.settings h.home) hsteady hunread
  | some w =>
      obtain ⟨notes, hnotes, hproceed⟩ := proceed_watcher h.channels hwork hw
      rw [(hstep w).1, (hstep w).2] at hproceed
      let b := a.withWatcher id { w with paused := p }
      have hseated : Seated s { v with held := p } b s' := by
        refine h.withWatcher hw rfl (Or.inl hwatcher) fun hopen => ?_
        have hholds := h.holder id w hw hopen
        exact ⟨hwatcher, hholds.cwd, hholds.started, rfl, hholds.pending⟩
      have hyields := (yields_settle b .returned).after hnotes
      exact hyields.stand_on hwork hbusy hproceed hseated hsteady
        (hunread.withWatcher id (hunread w (List.mem_of_getElem? hw)))

/-- What is said of the agent is passed on to the watcher of the session, if it has one. -/
lemma stand_agent {i : Session.Input} {j : Watcher.Input} {q : Nat → Session.Question}
    {t : Session.Task} {p : Bool} (h : Seated s v a s') (hsteady : Session.IsSteady s'.tasks)
    (hunread : a.Unread) (hwork : a.work = some (.session i)) (ht : t.turnsOver = false)
    (hnone : s'.watcher = none → s'.step i = s'.finish [])
    (hsome : ∀ id, s'.watcher = some id → s'.step i = s'.ask [] (q id) t)
    (hq : ∀ (b : Assembly) id, b.sessionAsks (q id) = b.call .session (.watcher id j))
    (hbusy : ∀ id, (Call.watcher id j).isEvent = false)
    (hstep : ∀ w : Watcher, (w.step j).state = { w with paused := p } ∧
      (w.step j).turn = .ends .returned) : Stand s { v with held := p } none [] a := by
  cases hwatcher : s'.watcher with
  | none =>
      have hproceed : a.step .proceed = Result.after [] ((a.withSession s').settle .returned) := by
        rw [proceed_session h.session hwork, hnone hwatcher]
        rfl
      have hyields := yields_settle (a.withSession s') .returned
      have hbare := (h.bare_of_none hunread hwatcher).withSession s'
      exact hyields.stand_on hwork rfl hproceed (hbare.seated rfl h.settings h.home) hsteady hunread
  | some id =>
      have hproceed : a.step .proceed =
          ((a.withSession { s' with tasks := t :: s'.tasks }).withTurn (.session :: a.callers)
            (some (.watcher id j)), []) := by
        rw [proceed_session h.session hwork, hsome id hwatcher]
        exact hq _ id
      have hseated := (h.withSession (t :: s'.tasks)).withTurn (.session :: a.callers)
        (some (.watcher id j))
      exact .on hwork rfl hproceed rfl rfl
        (stand_pausing hseated (.cons ht hsteady) hunread hwatcher rfl (hbusy id) hstep)

/-- **The agent begins to work**: the watcher is paused. -/
lemma stand_agentStart (h : Seated s v a s') (hsteady : Session.IsSteady s'.tasks)
    (hunread : a.Unread) (hwork : a.work = some (.session .agentStart)) :
    Stand s { v with held := true } none [] a := by
  refine stand_agent (j := .pause) (q := .pause) (t := .waiting) h hsteady hunread hwork rfl ?_ ?_
    (fun _ _ => rfl) (fun _ => rfl) (fun _ => ⟨rfl, rfl⟩)
  · exact fun hwatcher => by rw [Session.step, Session.agentStart, hwatcher]
  · exact fun id hwatcher => by rw [Session.step, Session.agentStart, hwatcher]

/-- **The agent has done its work**: the watcher goes on. -/
lemma stand_agentEnd (h : Seated s v a s') (hsteady : Session.IsSteady s'.tasks)
    (hunread : a.Unread) (hwork : a.work = some (.session .agentEnd)) :
    Stand s { v with held := false } none [] a := by
  refine stand_agent (j := .resume) (q := .resume) (t := .resuming) h hsteady hunread hwork rfl
    ?_ ?_ (fun _ _ => rfl) (fun _ => rfl) (fun _ => ⟨rfl, rfl⟩)
  · exact fun hwatcher => by rw [Session.step, Session.agentEnd, hwatcher]
  · exact fun id hwatcher => by rw [Session.step, Session.agentEnd, hwatcher]

end Marginalia.Assembly
