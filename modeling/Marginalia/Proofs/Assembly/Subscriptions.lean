import Marginalia.Assembly
import Marginalia.Proofs.Session.Step
import Marginalia.Proofs.Watcher.History

/-!
# Subscriptions in an assembly

A watcher by itself, or a session with all the watchers that it makes, over a notifier that is a
matter of the host.  The host opens and closes the subscriptions that it is told to, it may fail to
open one, and it calls at any time at which it is asked something.

The books of an assembly (`Books`) say of each subscription that was opened whether it was closed
or is still held, and only the present watcher holds one.  The books stay right because one step of
a watcher closes what it lets go of (`Watcher.step_custody`), and because a session changes its
watcher only while none of its watchers holds anything: `Phase` is where it stands in such a
turnover. `sound_step` puts this together for one step of the assembly, and
`subscriptions_closed_once` says it of whole runs.
-/

namespace Marginalia

/-! ## What a watcher closes -/

namespace Watcher

/-- The subscription that a note closes. -/
def Note.closed? : Note → Option Nat
  | .unsubscribed id => some id
  | _ => none

/-- The note marks the place where a subscription is opened. -/
def Note.isOpening : Note → Bool
  | .subscribing _ => true
  | _ => false

/-- The subscription that an input brings. -/
def Input.opened? : Input → Option Nat
  | .watch _ opened => opened.toOption
  | _ => none

lemma closed?_of_logs {notes : List Note} (h : Logs notes) : notes.filterMap Note.closed? = [] := by
  obtain ⟨entries, rfl⟩ := h
  simp [List.filterMap_map, Function.comp_def, Note.closed?]

lemma isOpening_of_logs {notes : List Note} (h : Logs notes) : notes.countP Note.isOpening = 0 := by
  obtain ⟨entries, rfl⟩ := h
  simp [List.countP_map, Function.comp_def, Note.isOpening]

variable (w : Watcher)

lemma watch_notes (root : String) (opened : Except Failure Nat) :
    ∃ logs, Logs logs ∧ (w.watch root opened).notes =
      w.subscription.toList.map .unsubscribed ++ .subscribing root :: logs := by
  unfold watch
  rw [closeSubscription_eq]
  cases opened with
  | error why => exact ⟨[], logs_nil, rfl⟩
  | ok id =>
      refine ⟨_, logs_entry Log.Level.info [.words "👀 Watching ", .text root,
        .words " for AI comments (generation=", .number (w.generation + 1), .words ")"], ?_⟩
      simp [attach, ask]

lemma close_notes :
    ∃ logs, Logs logs ∧ w.close.notes = w.subscription.toList.map .unsubscribed ++ logs := by
  unfold close
  rw [closeSubscription_eq]
  exact ⟨_, logs_entry _ _, rfl⟩

lemma logs_step {i : Input} (hi : i.turnsOver = false) : Logs (w.step i).notes := by
  cases i with
  | watch | close => cases hi
  | pause =>
      rw [step, pause]
      split
      · exact logs_nil
      · exact logs_entry _ _
  | resume =>
      rw [step, resume]
      split
      · exact logs_entry _ _
      · exact logs_nil
  | clear => exact logs_nil
  | event g e => exact (continues_event w g e).logs
  | answer o =>
      cases h : w.tasks with
      | nil => rw [step_answer_of_nil w h]; exact logs_nil
      | cons t ts => exact (continues_answer w h o).logs

lemma closed?_unsubscribed (ids : List Nat) :
    (ids.map Note.unsubscribed).filterMap Note.closed? = ids := by
  simp [List.filterMap_map, Function.comp_def, Note.closed?]

/-- **A watcher closes what it lets go of**: what it has closed and what it holds after a step is
what it held before and what the step brought. -/
theorem step_custody (i : Input) :
    (w.step i).notes.filterMap Note.closed? ++ (w.step i).state.subscription.toList =
      w.subscription.toList ++ i.opened?.toList := by
  have hcourse := (sameCourse_step w i).subscription
  cases i with
  | watch root opened =>
      obtain ⟨logs, hlogs, hnotes⟩ := watch_notes w root opened
      have hkept : (w.step (.watch root opened)).state.subscription = opened.toOption := hcourse
      rw [hkept, step, hnotes, List.filterMap_append, closed?_unsubscribed, List.filterMap_cons,
        closed?_of_logs hlogs]
      simp [Note.closed?, Input.opened?]
  | close =>
      obtain ⟨logs, hlogs, hnotes⟩ := close_notes w
      have hkept : (w.step .close).state.subscription = none := hcourse
      rw [hkept, step, hnotes, List.filterMap_append, closed?_unsubscribed, closed?_of_logs hlogs]
      simp [Input.opened?]
  | _ =>
      rw [closed?_of_logs (logs_step w rfl), hcourse]
      simp [courseUpon, Input.opened?]

lemma step_opening (i : Input) :
    (w.step i).notes.countP Note.isOpening = if i.isWatch then 1 else 0 := by
  cases i with
  | watch root opened =>
      obtain ⟨logs, hlogs, hnotes⟩ := watch_notes w root opened
      rw [step, hnotes, List.countP_append, List.countP_cons, isOpening_of_logs hlogs]
      simp [List.countP_map, Function.comp_def, Note.isOpening, Input.isWatch]
  | close =>
      obtain ⟨logs, hlogs, hnotes⟩ := close_notes w
      rw [step, hnotes, List.countP_append, isOpening_of_logs hlogs]
      simp [List.countP_map, Function.comp_def, Note.isOpening, Input.isWatch]
  | _ => exact isOpening_of_logs (logs_step w rfl)

end Watcher

namespace Assembly

/-! ## Runs -/

/-- The inputs of an assembly so far, the latest first. -/
abbrev History := List Input

/-- The assembly that a history leads to. -/
def after (a : Assembly) : History → Assembly
  | [] => a
  | i :: h => ((a.after h).step i).1

/-- What was seen so far, the earliest first. -/
def seen (a : Assembly) : History → List Note
  | [] => []
  | i :: h => a.seen h ++ ((a.after h).step i).2

/-- The subscription that a note closes. -/
def Note.closed? : Note → Option Nat
  | .unsubscribed id => some id
  | _ => none

/-- The note opens a subscription. -/
def Note.isOpening : Note → Bool
  | .subscribed .. => true
  | _ => false

/-- The subscriptions that were closed, each as often as it was. -/
def closings (notes : List Note) : List Nat :=
  notes.filterMap Note.closed?

/-- How many subscriptions were opened; they are numbered from zero. -/
def openings (notes : List Note) : Nat :=
  notes.countP Note.isOpening

/-- The present watcher: the one of the session, or the only one. -/
def current? (a : Assembly) : Option Nat :=
  match a.session with
  | some s => s.watcher
  | none => some 0

/-- The present watcher, if there is one. -/
def present? (a : Assembly) : Option Watcher :=
  a.current?.bind fun id => a.watchers[id]?

/-- The subscription that the present watcher holds. -/
def open? (a : Assembly) : Option Nat :=
  a.present?.bind fun w => w.subscription

/-- The call is one that may be made: only the present watcher is told to watch, and opening a
subscription is left to it. -/
def admits (a : Assembly) : Call → Bool
  | .watch id _ => a.current? = some id
  | .watcher _ i => !i.isWatch
  | .subscribe .. => false
  | .session _ | .subscription .. => true

/-- The host may give the input. -/
def permits (a : Assembly) : Input → Bool
  | .call c => a.admits c
  | .answer _ | .proceed | .wait _ | .refuse _ => true

/-- The host has kept to what it may do. -/
def permitted (a : Assembly) : History → Bool
  | [] => true
  | i :: h => (a.after h).permits i && a.permitted h

/-- A run begins with the assembly: there is either one watcher that was just made, or a session
that was just made.  Opening and closing subscriptions is a matter of the host. -/
def Begins (a : Assembly) : Prop :=
  (∃ around o c w, Watcher.make o c around.home = .ok w ∧
      a = { surroundings := around, relays := true, watchers := [w] }) ∨
    ∃ around settings notifies logger,
      a = { surroundings := around, relays := true
            session := some { settings, home := around.home, notifies, logger } }

variable {a b : Assembly} {notes more : List Note} {fresh : Option Nat}

lemma closings_append (notes more : List Note) :
    closings (notes ++ more) = closings notes ++ closings more :=
  List.filterMap_append

lemma openings_append (notes more : List Note) :
    openings (notes ++ more) = openings notes + openings more :=
  List.countP_append

lemma after_append (a : Assembly) (k h : History) : a.after (k ++ h) = (a.after h).after k := by
  induction k with
  | nil => rfl
  | cons i k ih => simp only [List.cons_append, after, ih]

lemma seen_append (a : Assembly) (k h : History) :
    a.seen (k ++ h) = a.seen h ++ (a.after h).seen k := by
  induction k with
  | nil => simp [seen]
  | cons i k ih => simp only [List.cons_append, seen, ih, after_append, List.append_assoc]

/-! ## The books -/

/-- The books are right: each subscription was either closed, once, or is held by the present
watcher, or is `fresh`, that is open and not yet handed to a watcher. -/
structure Books (a : Assembly) (notes : List Note) (fresh : Option Nat) : Prop where
  relays : a.relays = true
  channels : ∀ c ∈ a.channels, c = .relayed
  opened : openings notes + fresh.toList.length = a.channels.length
  custody : (closings notes ++ (a.open?.toList ++ fresh.toList)).Perm (List.range a.channels.length)
  others : ∀ k w, a.watchers[k]? = some w → a.current? ≠ some k → w.subscription = none
  closed : ∀ w ∈ a.watchers, w.closed → w.subscription = none

lemma open?_eq_none_of_forall (h : ∀ w ∈ a.watchers, w.subscription = none) : a.open? = none := by
  cases hp : a.present? with
  | none => rw [open?, hp]; rfl
  | some w =>
      obtain ⟨id, -, hid⟩ := Option.bind_eq_some_iff.1 hp
      rw [open?, hp]
      exact h w (List.mem_of_getElem? hid)

lemma current?_of_session {s : Session} (h : a.session = some s) : a.current? = s.watcher := by
  rw [current?, h]

lemma open?_of_current? (id? : Option Nat) (h : a.current? = id?) :
    a.open? = (id?.bind fun id => a.watchers[id]?).bind fun w => w.subscription := by
  rw [open?, present?, h]

namespace Books

lemma forall_eq_none (h : Books a notes fresh) (hopen : a.open? = none) :
    ∀ w ∈ a.watchers, w.subscription = none := by
  intro w hw
  obtain ⟨k, hk⟩ := List.mem_iff_getElem?.1 hw
  by_cases hcurrent : a.current? = some k
  · rw [open?_of_current? _ hcurrent] at hopen
    simpa [hk] using hopen
  · exact h.others k w hk hcurrent

/-- Notes that neither open nor close leave the books as they are. -/
lemma append (h : Books a notes fresh) (hclosings : closings more = [])
    (hopenings : openings more = 0) : Books a (notes ++ more) fresh where
  relays := h.relays
  channels := h.channels
  opened := by rw [openings_append, hopenings]; exact h.opened
  custody := by rw [closings_append, hclosings, List.append_nil]; exact h.custody
  others := h.others
  closed := h.closed

/-- Only the subscriptions and the watchers enter the books, and who the present one is. -/
lemma congr (h : Books a notes fresh) (hrelays : b.relays = a.relays)
    (hchannels : b.channels = a.channels) (hwatchers : b.watchers = a.watchers)
    (hcurrent : b.current? = a.current?) : Books b notes fresh where
  relays := hrelays.trans h.relays
  channels := by rw [hchannels]; exact h.channels
  opened := by rw [hchannels]; exact h.opened
  custody := by
    have hopen : b.open? = a.open? := by rw [open?, open?, present?, present?, hcurrent, hwatchers]
    rw [hopen, hchannels]
    exact h.custody
  others := by rw [hwatchers, hcurrent]; exact h.others
  closed := by rw [hwatchers]; exact h.closed

/-- Where nothing is held it does not matter who the present watcher is. -/
lemma congr_of_forall (h : Books a notes none) (hopen : a.open? = none)
    (hrelays : b.relays = a.relays) (hchannels : b.channels = a.channels)
    (hwatchers : ∀ w ∈ b.watchers, w.subscription = none) : Books b notes none where
  relays := hrelays.trans h.relays
  channels := by rw [hchannels]; exact h.channels
  opened := by rw [hchannels]; exact h.opened
  custody := by
    have hcustody := h.custody
    rw [hopen] at hcustody
    rw [open?_eq_none_of_forall hwatchers, hchannels]
    exact hcustody
  others := fun k w hk _ => hwatchers w (List.mem_of_getElem? hk)
  closed := fun w hw _ => hwatchers w hw

end Books

/-! ### A step of a watcher -/

lemma closings_logs (entries : List Log.Entry) : closings (entries.map Note.log) = [] := by
  simp [closings, List.filterMap_map, Function.comp_def, Note.closed?]

lemma openings_logs (entries : List Log.Entry) : openings (entries.map Note.log) = 0 := by
  simp [openings, List.countP_map, Function.comp_def, Note.isOpening]

lemma closeChannel_relayed (hrelayed : ∀ c ∈ a.channels, c = .relayed) (id : Nat) :
    a.closeChannel id = (a, [.unsubscribed id]) := by
  unfold closeChannel
  split
  · rename_i s hs
    cases hrelayed _ (List.mem_of_getElem? hs)
  · rfl

/-- Over relayed subscriptions the notes of a watcher are seen as they are. -/
lemma absorb_relayed (hrelayed : ∀ c ∈ a.channels, c = .relayed) {opening : List Note}
    (hopening : closings opening = []) (ns : List Watcher.Note) :
    ∃ more, absorb opening a ns = (a, more) ∧
      closings more = ns.filterMap Watcher.Note.closed? ∧
      openings more = ns.countP Watcher.Note.isOpening * openings opening := by
  induction ns with
  | nil => exact ⟨[], rfl, rfl, by simp [openings]⟩
  | cons n ns ih =>
      obtain ⟨more, habsorb, hclosings, hopenings⟩ := ih
      cases n with
      | log entry =>
          refine ⟨.log entry :: more, by rw [absorb, habsorb]; rfl, hclosings, ?_⟩
          simpa [openings, Note.isOpening, Watcher.Note.isOpening] using hopenings
      | unsubscribed id =>
          refine ⟨.unsubscribed id :: more, ?_, ?_, ?_⟩
          · rw [absorb, closeChannel_relayed hrelayed, habsorb]
            rfl
          · simpa [closings, Note.closed?, Watcher.Note.closed?] using hclosings
          · simpa [openings, Note.isOpening, Watcher.Note.isOpening] using hopenings
      | subscribing root =>
          refine ⟨opening ++ more, by rw [absorb, habsorb]; rfl, ?_, ?_⟩
          · rw [closings_append, hopening, hclosings]
            rfl
          · rw [openings_append, hopenings, List.countP_cons_of_pos rfl, Nat.succ_mul, Nat.add_comm]

/-- The assembly with the watcher replaced. -/
def withWatcher (a : Assembly) (id : Nat) (w : Watcher) : Assembly :=
  { a with watchers := a.watchers.set id w }

lemma open?_withWatcher {id : Nat} {w v : Watcher} (hw : a.watchers[id]? = some w) :
    (a.withWatcher id v).open? = if a.current? = some id then v.subscription else a.open? := by
  have hid : id < a.watchers.length := (List.getElem?_eq_some_iff.1 hw).1
  have hcurrent : (a.withWatcher id v).current? = a.current? := rfl
  rw [open?, present?, hcurrent]
  split
  · rename_i h
    simp [h, withWatcher, hid]
  · rename_i h
    cases hk : a.current? with
    | none => simp [open?, present?, hk]
    | some k =>
        have hne : id ≠ k := fun he => h (by rw [hk, he])
        simp [open?, present?, hk, withWatcher, hne]

/-- **A step of a watcher keeps the books right**: what was freshly opened is handed to it. -/
lemma Books.withWatcher {id : Nat} {w : Watcher} {i : Watcher.Input} {opening : List Note}
    (h : Books a notes i.opened?) (hw : a.watchers[id]? = some w)
    (hcurrent : i.opened? = none ∨ a.current? = some id) (hclosings : closings opening = [])
    (hopenings : i.isWatch → openings opening = i.opened?.toList.length) :
    ∃ more, absorb opening (a.withWatcher id (w.step i).state) (w.step i).notes =
        (a.withWatcher id (w.step i).state, more) ∧
      Books (a.withWatcher id (w.step i).state) (notes ++ more) none := by
  have hlaw := w.step_custody i
  obtain ⟨more, habsorb, hclosed, hopened⟩ :=
    absorb_relayed (a := a.withWatcher id (w.step i).state) h.channels hclosings (w.step i).notes
  -- A watcher that is not the present one neither holds nor closes anything.
  have hother (hne : a.current? ≠ some id) :
      (w.step i).state.subscription = none ∧ closings more = [] := by
    rw [h.others id w hw hne, hcurrent.resolve_right hne] at hlaw
    obtain ⟨hempty, hnone⟩ := List.append_eq_nil_iff.1 hlaw
    exact ⟨by simpa using hnone, hclosed.trans hempty⟩
  refine ⟨more, habsorb, h.relays, h.channels, ?_, ?_, ?_, ?_⟩
  · rw [openings_append, hopened, w.step_opening]
    by_cases hwatch : i.isWatch
    · rw [if_pos hwatch, one_mul, hopenings hwatch]
      exact h.opened
    · have hnone : i.opened? = none := by
        cases i with
        | watch => exact absurd rfl hwatch
        | _ => rfl
      have hcount := h.opened
      rw [hnone] at hcount
      rw [if_neg hwatch, zero_mul]
      exact hcount
  · have hcustody := h.custody
    rw [open?_withWatcher hw, closings_append]
    split
    · rename_i hpresent
      have hopen : a.open? = w.subscription := by simp [open?_of_current? _ hpresent, hw]
      rw [hclosed, Option.toList_none, List.append_nil, List.append_assoc, hlaw, ← hopen]
      exact hcustody
    · rename_i hne
      rw [(hother hne).2, List.append_nil]
      rwa [hcurrent.resolve_right hne] at hcustody
  · intro k v hk hne
    by_cases hkid : id = k
    · subst hkid
      have hv : (w.step i).state = v := by
        simpa [Assembly.withWatcher, (List.getElem?_eq_some_iff.1 hw).1] using hk
      rw [← hv]
      exact (hother hne).1
    · refine h.others k v ?_ hne
      simpa [Assembly.withWatcher, hkid] using hk
  · intro v hv hclosedv
    rcases List.mem_or_eq_of_mem_set hv with hv | rfl
    · exact h.closed v hv hclosedv
    · exact w.subscription_of_closed (h.closed w (List.mem_of_getElem? hw)) i hclosedv

/-! ## Passing on -/

/-- The result only passes on whose turn it is. -/
structure Passes (a : Assembly) (r : Result) : Prop where
  relays : r.1.relays = a.relays
  channels : r.1.channels = a.channels
  watchers : r.1.watchers = a.watchers
  session : r.1.session = a.session
  closings : closings r.2 = []
  openings : openings r.2 = 0
  admits : ∀ c, r.1.work = some c → r.1.admits c

lemma Passes.books {r : Result} (h : Passes a r) (hbooks : Books a notes none) :
    Books r.1 (notes ++ r.2) none :=
  have hcurrent : r.1.current? = a.current? := by rw [current?, current?, h.session]
  (hbooks.congr h.relays h.channels h.watchers hcurrent).append h.closings h.openings

lemma passes_call (caller : Caller) {c : Call} (hc : a.admits c) : Passes a (a.call caller c) :=
  ⟨rfl, rfl, rfl, rfl, rfl, rfl, fun _ h => by cases h; exact hc⟩

lemma passes_askHost (caller : Caller) (q : Question) : Passes a (a.askHost caller q) :=
  ⟨rfl, rfl, rfl, rfl, rfl, rfl, fun _ h => by cases h⟩

lemma passes_settle (o : Outcome) : Passes a (a.settle o) := by
  unfold settle
  split <;> exact ⟨rfl, rfl, rfl, rfl, rfl, rfl, fun _ h => by cases h <;> rfl⟩

lemma passes_watcherAsks (hrelayed : ∀ c ∈ a.channels, c = .relayed) (id : Nat)
    (q : Watcher.Question) : Passes a (a.watcherAsks id q) := by
  cases q with
  | attach channel kind g =>
      rw [watcherAsks]
      split
      · rename_i s hs
        cases hrelayed _ (List.mem_of_getElem? hs)
      · exact passes_askHost _ _
  | read path => exact passes_askHost _ _
  | comment | trigger | ready | error =>
      rw [watcherAsks]
      split
      · exact passes_call _ rfl
      · exact passes_askHost _ _

/-! ## Turnovers -/

/-- How far the session is in turning over its watcher. -/
inductive Phase (a : Assembly) : Prop
  /-- It is not about to. -/
  | steady (hsteady : ∀ s, a.session = some s → Session.IsSteady s.tasks)
      (hwork : ∀ c, a.work = some c → a.admits c)
  /-- The present watcher will be closed next. -/
  | closing {s : Session} {t : Session.Task} {ts : List Session.Task} {id : Nat}
      {rest : List Caller} (hsession : a.session = some s) (htasks : s.tasks = t :: ts)
      (hturns : t.turnsOver) (hsteady : Session.IsSteady ts) (hwatcher : s.watcher = some id)
      (hwork : a.work = some (.watcher id .close)) (hcallers : a.callers = .session :: rest)
  /-- Nothing is held, and the session goes on next. -/
  | closed {s : Session} {t : Session.Task} {ts : List Session.Task} {o : Outcome}
      (hsession : a.session = some s) (htasks : s.tasks = t :: ts) (hturns : t.turnsOver)
      (hsteady : Session.IsSteady ts) (hwork : a.work = some (.session (.answer o)))
      (hopen : a.open? = none)

/-- The books are right, and whatever turnover there is keeps to its phases. -/
def Sound (a : Assembly) (notes : List Note) : Prop :=
  Books a notes none ∧ Phase a

lemma Passes.sound {r : Result} (h : Passes a r) (hbooks : Books a notes none)
    (hsteady : ∀ s, a.session = some s → Session.IsSteady s.tasks) :
    Sound r.1 (notes ++ r.2) :=
  ⟨h.books hbooks, .steady (by rw [h.session]; exact hsteady) h.admits⟩

lemma stepWatcher_eq {id : Nat} {w : Watcher} {i : Watcher.Input} {opening : List Note}
    (hw : a.watchers[id]? = some w)
    (habsorb : absorb opening (a.withWatcher id (w.step i).state) (w.step i).notes =
      (a.withWatcher id (w.step i).state, more)) :
    a.stepWatcher id opening i = Result.after more (match (w.step i).turn with
      | .ends o => (a.withWatcher id (w.step i).state).settle o
      | .asks q => (a.withWatcher id (w.step i).state).watcherAsks id q) := by
  unfold stepWatcher
  rw [hw]
  exact congrArg (fun done : Result => Result.after done.2 (match (w.step i).turn with
    | .ends o => done.1.settle o
    | .asks q => done.1.watcherAsks id q)) habsorb

lemma sound_stepWatcher {id : Nat} {w : Watcher} {i : Watcher.Input} {opening : List Note}
    (h : Books a notes i.opened?)
    (hsteady : ∀ s, a.session = some s → Session.IsSteady s.tasks)
    (hw : a.watchers[id]? = some w) (hcurrent : i.opened? = none ∨ a.current? = some id)
    (hclosings : closings opening = [])
    (hopenings : i.isWatch → openings opening = i.opened?.toList.length) :
    Sound (a.stepWatcher id opening i).1 (notes ++ (a.stepWatcher id opening i).2) := by
  obtain ⟨more, habsorb, hbooks⟩ := h.withWatcher hw hcurrent hclosings hopenings
  rw [stepWatcher_eq hw habsorb]
  have hpasses : Passes (a.withWatcher id (w.step i).state) (match (w.step i).turn with
      | .ends o => (a.withWatcher id (w.step i).state).settle o
      | .asks q => (a.withWatcher id (w.step i).state).watcherAsks id q) := by
    cases (w.step i).turn with
    | ends o => exact passes_settle o
    | asks q => exact passes_watcherAsks hbooks.channels id q
  have hsound := hpasses.sound hbooks hsteady
  rwa [List.append_assoc] at hsound

lemma openChannel_relayed (hrelays : a.relays = true) (root : String) (o : Notifier.Options) :
    (∃ why, a.openChannel root o = (a, [], .error why)) ∨
      a.openChannel root o = ({ a with channels := a.channels ++ [.relayed] },
        [.subscribed root o], .ok a.channels.length) := by
  rw [openChannel, if_pos hrelays, openRelayed]
  split
  · exact Or.inl ⟨_, rfl⟩
  · exact Or.inr rfl

lemma Books.openRelayed (h : Books a notes none) :
    Books { a with channels := a.channels ++ [.relayed] } notes (some a.channels.length) := by
  refine ⟨h.relays, ?_, ?_, ?_, h.others, h.closed⟩
  · intro c hc
    rcases List.mem_append.1 hc with hc | hc
    · exact h.channels c hc
    · exact List.mem_singleton.1 hc
  · simpa using h.opened
  · have hcustody := h.custody
    rw [Option.toList_none, List.append_nil] at hcustody
    rw [List.length_append, List.length_singleton, List.range_succ, ← List.append_assoc]
    exact hcustody.append_right [a.channels.length]

/-- Watching opens a subscription, or fails to, and hands it to the present watcher. -/
lemma sound_watch {id : Nat} {root : String} (h : Books a notes none)
    (hsteady : ∀ s, a.session = some s → Session.IsSteady s.tasks)
    (hcurrent : a.current? = some id) :
    Sound (a.watch id root).1 (notes ++ (a.watch id root).2) := by
  unfold watch
  cases hw : a.watchers[id]? with
  | none => exact (passes_settle _).sound h hsteady
  | some w =>
      rcases openChannel_relayed h.relays root w.options.forNotifier with ⟨why, hopen⟩ | hopen
      · simp only [hopen]
        exact sound_stepWatcher (i := .watch root (.error why)) h hsteady hw (Or.inl rfl) rfl
          fun _ => rfl
      · simp only [hopen]
        exact sound_stepWatcher (i := .watch root (.ok a.channels.length)) h.openRelayed hsteady hw
          (Or.inr hcurrent) rfl fun _ => rfl

/-! ### Steps of the session -/

lemma makeWatcher_cases (a : Assembly) (o : Watcher.Options) :
    ∃ ws outcome, (∀ w ∈ ws, w.Unused) ∧
      a.makeWatcher o = ({ a with
        watchers := a.watchers ++ ws, work := some (.session (.answer outcome)) }, []) := by
  unfold makeWatcher
  cases hmake : Watcher.make o {} a.surroundings.home with
  | ok w =>
      refine ⟨[w], _, ?_, rfl⟩
      intro v hv
      rw [List.mem_singleton.1 hv]
      exact Watcher.unused_of_make hmake
  | error e => exact ⟨[], .raised (.pattern e), fun v hv => absurd hv List.not_mem_nil, by simp⟩

/-- The next watcher is made while nothing is held. -/
lemma sound_makeWatcher {s : Session} {ts : List Session.Task} {o : Watcher.Options}
    {root : String} (h : Books a notes none) (hopen : a.open? = none)
    (hsession : a.session = some s) (htasks : s.tasks = .making root :: ts)
    (hsteady : Session.IsSteady ts) :
    Sound (a.makeWatcher o).1 (notes ++ (a.makeWatcher o).2) := by
  obtain ⟨ws, outcome, hws, hmake⟩ := makeWatcher_cases a o
  have hnone : ∀ w ∈ a.watchers ++ ws, w.subscription = none := by
    intro w hw
    rcases List.mem_append.1 hw with hw | hw
    · exact h.forall_eq_none hopen w hw
    · exact (hws w hw).subscription
  rw [hmake, List.append_nil]
  exact ⟨h.congr_of_forall hopen rfl rfl hnone,
    .closed hsession htasks rfl hsteady rfl (open?_eq_none_of_forall hnone)⟩

/-- The assembly with the session replaced. -/
def withSession (a : Assembly) (s : Session) : Assembly :=
  { a with session := some s }

lemma passes_sessionAsks {q : Session.Question} (hq : q.isPlain) : Passes a (a.sessionAsks q) := by
  cases q with
  | pause | resume => exact passes_call _ rfl
  | deliver | notify => exact passes_askHost _ _
  | make | watch | close => cases hq

/-- A session that stays with its watcher leaves the books alone. -/
lemma sound_of_stays {s : Session} {ts : List Session.Task} {r : Session.Result}
    (hstays : Session.Stays s ts r) (hsession : a.session = some s) (h : Books a notes none)
    (hsteady : Session.IsSteady ts) :
    let next := match r.turn with
      | .ends o => (a.withSession r.state).settle o
      | .asks q => (a.withSession r.state).sessionAsks q
    Sound next.1 (notes ++ next.2) := by
  obtain ⟨hwatcher, hturn⟩ := hstays
  have hcurrent : (a.withSession r.state).current? = a.current? :=
    hwatcher.trans (current?_of_session hsession).symm
  have hbooks : Books (a.withSession r.state) notes none := h.congr rfl rfl rfl hcurrent
  rcases hturn with ⟨o, hends, htasks⟩ | ⟨q, t, hasks, hplain, htasks, ht⟩
  · simp only [hends]
    refine (passes_settle o).sound hbooks fun s' hs' => ?_
    cases hs'
    rw [htasks]
    exact hsteady
  · simp only [hasks]
    refine (passes_sessionAsks hplain).sound hbooks fun s' hs' => ?_
    cases hs'
    rw [htasks]
    exact hsteady.cons ht

lemma stepSession_eq {s : Session} (hsession : a.session = some s) (i : Session.Input) :
    a.stepSession i = Result.after ((s.step i).notes.map .log) (match (s.step i).turn with
      | .ends o => (a.withSession (s.step i).state).settle o
      | .asks q => (a.withSession (s.step i).state).sessionAsks q) := by
  unfold stepSession
  rw [hsession]
  rfl

/-- **A step of a steady session** is sound: a turnover begins with closing the watcher, or with
making one when there is none. -/
lemma sound_stepSession_of_steady {i : Session.Input} (h : Books a notes none)
    (hsteady : ∀ s, a.session = some s → Session.IsSteady s.tasks) :
    Sound (a.stepSession i).1 (notes ++ (a.stepSession i).2) := by
  cases hsession : a.session with
  | none =>
      rw [stepSession, hsession]
      exact (passes_settle _).sound h hsteady
  | some s =>
      have hs := hsteady s hsession
      have hupon : Session.IsSteady (s.tasksUpon i) := by
        cases i with
        | answer o => exact fun t ht => hs t (List.mem_of_mem_tail ht)
        | _ => exact hs
      have hlogs : Books a (notes ++ (s.step i).notes.map .log) none :=
        h.append (closings_logs _) (openings_logs _)
      rw [stepSession_eq hsession, Result.after, ← List.append_assoc]
      rcases s.step_of_steady hs i with hstays | ⟨hnone, hmakes⟩ | hcloses
      · exact sound_of_stays hstays hsession hlogs hupon
      · obtain ⟨hwatcher, o, root, hasks, htasks⟩ := hmakes
        have hcurrent : (a.withSession (s.step i).state).current? = a.current? :=
          hwatcher.trans (current?_of_session hsession).symm
        have hopen : (a.withSession (s.step i).state).open? = none :=
          open?_of_current? none (hwatcher.trans hnone)
        simp only [hasks]
        exact sound_makeWatcher (hlogs.congr rfl rfl rfl hcurrent) hopen rfl htasks hupon
      · obtain ⟨hwatcher, id, t, hid, hasks, htasks, ht⟩ := hcloses
        have hcurrent : (a.withSession (s.step i).state).current? = a.current? :=
          hwatcher.trans (current?_of_session hsession).symm
        have hpasses : Passes (a.withSession (s.step i).state)
            ((a.withSession (s.step i).state).sessionAsks (.close id)) := passes_call _ rfl
        simp only [hasks]
        exact ⟨hpasses.books (hlogs.congr rfl rfl rfl hcurrent),
          .closing rfl htasks ht hupon (hwatcher.trans hid) rfl rfl⟩

/-- **A turnover goes on** while nothing is held. -/
lemma sound_stepSession_of_closed {s : Session} {t : Session.Task} {ts : List Session.Task}
    {o : Outcome} (h : Books a notes none) (hsession : a.session = some s)
    (htasks : s.tasks = t :: ts) (hturns : t.turnsOver) (hsteady : Session.IsSteady ts)
    (hopen : a.open? = none) :
    Sound (a.stepSession (.answer o)).1 (notes ++ (a.stepSession (.answer o)).2) := by
  have hlogs : Books a (notes ++ (s.step (.answer o)).notes.map .log) none :=
    h.append (closings_logs _) (openings_logs _)
  -- Whoever will be the present watcher, the books are right.
  have hbooks : Books (a.withSession (s.step (.answer o)).state)
      (notes ++ (s.step (.answer o)).notes.map .log) none :=
    hlogs.congr_of_forall hopen rfl rfl (h.forall_eq_none hopen)
  rw [stepSession_eq hsession, Result.after, ← List.append_assoc]
  rcases s.step_of_turningOver htasks hturns o with hstays | hmakes | htakes | hleaves
  · exact sound_of_stays hstays hsession hlogs hsteady
  · obtain ⟨-, options, root, hasks, hmaking⟩ := hmakes
    simp only [hasks]
    exact sound_makeWatcher hbooks (open?_eq_none_of_forall (h.forall_eq_none hopen)) rfl hmaking
      hsteady
  · obtain ⟨id, root, hwatcher, hasks, hwaiting⟩ := htakes
    have hpasses : Passes (a.withSession (s.step (.answer o)).state)
        ((a.withSession (s.step (.answer o)).state).sessionAsks (.watch id root)) :=
      passes_call _ (decide_eq_true hwatcher)
    simp only [hasks]
    refine hpasses.sound hbooks fun s' hs' => ?_
    cases hs'
    rw [hwaiting]
    exact hsteady.cons rfl
  · obtain ⟨-, o', hends, hleft⟩ := hleaves
    simp only [hends]
    refine (passes_settle o').sound hbooks fun s' hs' => ?_
    cases hs'
    rw [hleft]
    exact hsteady

/-! ## Steps of the assembly -/

/-- The assembly with another turn: those that wait, and what is to be done. -/
def withTurn (a : Assembly) (callers : List Caller) (work : Option Call) : Assembly :=
  { a with callers, work }

/-- The present watcher is closed for a turnover: nothing is held any more, and the session is
told. -/
lemma stepWatcher_close {id : Nat} {rest : List Caller} (h : Books a notes none)
    (hcurrent : a.current? = some id) (hcallers : a.callers = .session :: rest) :
    ∃ ws more, a.stepWatcher id [] .close =
        ({ a with watchers := ws }.withTurn rest (some (.session (.answer .returned))), more) ∧
      Books { a with watchers := ws } (notes ++ more) none ∧
      { a with watchers := ws }.open? = none := by
  have hsettle (b : Assembly) (hb : b.callers = .session :: rest) (o : Outcome) :
      b.settle o = (b.withTurn rest (some (.session (.answer o))), []) := by
    rw [settle, hb]
    rfl
  cases hw : a.watchers[id]? with
  | none =>
      have hopen : a.open? = none := by simp [open?_of_current? _ hcurrent, hw]
      refine ⟨a.watchers, [], ?_, by rwa [List.append_nil], hopen⟩
      rw [stepWatcher, hw]
      exact hsettle a hcallers .returned
  | some w =>
      have hquiet : closings [] = [] := rfl
      obtain ⟨more, habsorb, hbooks⟩ :=
        Books.withWatcher (i := .close) h hw (Or.inl rfl) hquiet fun hwatch => by cases hwatch
      have hends : (w.step .close).turn = .ends .returned := by
        obtain ⟨ns, hclose⟩ := Watcher.close_eq w
        rw [Watcher.step, hclose]
        rfl
      refine ⟨(a.withWatcher id (w.step .close).state).watchers, more, ?_, hbooks, ?_⟩
      · rw [stepWatcher_eq hw habsorb, hends]
        simp only [Result.after]
        rw [hsettle (a.withWatcher id (w.step .close).state) hcallers, List.append_nil]
        rfl
      · refine (open?_withWatcher hw).trans ?_
        rw [if_pos hcurrent]
        exact (Watcher.sameCourse_step w .close).subscription

lemma sound_perform {c : Call} (hwork : a.work = some c) (h : Sound a notes) :
    Sound (a.perform c).1 (notes ++ (a.perform c).2) := by
  obtain ⟨hbooks, hphase⟩ := h
  cases hphase with
  | steady hsteady hadmits =>
      have hadmits := hadmits c hwork
      cases c with
      | session i => exact sound_stepSession_of_steady hbooks hsteady
      | watch id root => exact sound_watch hbooks hsteady (of_decide_eq_true hadmits)
      | watcher id i =>
          have hopened : i.opened? = none := by
            cases i with
            | watch => cases hadmits
            | _ => rfl
          cases hw : a.watchers[id]? with
          | none =>
              rw [perform, stepWatcher, hw]
              exact (passes_settle _).sound hbooks hsteady
          | some w =>
              refine sound_stepWatcher (by rwa [hopened]) hsteady hw (Or.inl hopened) rfl ?_
              intro hwatch
              rw [admits, hwatch] at hadmits
              cases hadmits
      | subscription id i =>
          rw [perform, stepSubscription]
          split
          · rename_i s hs
            cases hbooks.channels _ (List.mem_of_getElem? hs)
          · exact (passes_settle _).sound hbooks hsteady
      | subscribe paths o => cases hadmits
  | closing hsession htasks hturns hsteady hwatcher hclose hcallers =>
      obtain rfl := Option.some.inj (hclose.symm.trans hwork)
      have hcurrent := (current?_of_session hsession).trans hwatcher
      obtain ⟨ws, more, hclosing, hleft, hopen⟩ := stepWatcher_close hbooks hcurrent hcallers
      rw [perform, hclosing]
      exact ⟨hleft.congr rfl rfl rfl rfl, .closed hsession htasks hturns hsteady rfl hopen⟩
  | closed hsession htasks hturns hsteady hanswer hopen =>
      obtain rfl := Option.some.inj (hanswer.symm.trans hwork)
      exact sound_stepSession_of_closed hbooks hsession htasks hturns hsteady hopen

/-- **A step of the assembly keeps the books right.** -/
theorem sound_step (h : Sound a notes) {i : Input} (hi : a.permits i) :
    Sound (a.step i).1 (notes ++ (a.step i).2) := by
  cases hwork : a.work with
  | some c =>
      cases i with
      | proceed =>
          have hstep : a.step .proceed = a.perform c := by simp only [step, hwork]
          rw [hstep]
          exact sound_perform hwork h
      | call | answer | wait | refuse =>
          simp only [step, hwork, List.append_nil]
          exact h
  | none =>
      obtain ⟨hbooks, hphase⟩ := h
      have hsteady : ∀ s, a.session = some s → Session.IsSteady s.tasks := by
        cases hphase with
        | steady hsteady _ => exact hsteady
        | closing _ _ _ _ _ hclose _ => cases hclose.symm.trans hwork
        | closed _ _ _ _ hanswer _ => cases hanswer.symm.trans hwork
      cases i with
      | call c =>
          simp only [step, hwork]
          exact (passes_call .host hi).sound hbooks hsteady
      | answer o =>
          simp only [step, hwork]
          exact (passes_settle o).sound hbooks hsteady
      | proceed =>
          simp only [step, hwork, List.append_nil]
          exact ⟨hbooks, hphase⟩
      | wait | refuse =>
          simp only [step, hwork, List.append_nil]
          exact ⟨hbooks.congr rfl rfl rfl rfl, .steady hsteady fun c hc => by cases hc⟩

/-- **The books stay right in a run.** -/
theorem sound_after (begins : a.Begins) {h : History} (hpermitted : a.permitted h) :
    Sound (a.after h) (a.seen h) := by
  induction h with
  | nil =>
      rcases begins with ⟨around, o, c, w, made, rfl⟩ | ⟨around, settings, notifies, logger, rfl⟩
      · have hw := Watcher.unused_of_make made
        have hnone : ∀ v ∈ [w], v.subscription = none := by
          intro v hv
          rw [List.mem_singleton.1 hv]
          exact hw.subscription
        refine ⟨⟨rfl, fun c hc => absurd hc List.not_mem_nil, rfl, ?_,
          fun k v hk _ => hnone v (List.mem_of_getElem? hk), fun v hv _ => hnone v hv⟩,
          .steady (fun s hs => by cases hs) fun c hc => by cases hc⟩
        rw [after, open?_eq_none_of_forall hnone]
        exact List.Perm.refl _
      · refine ⟨⟨rfl, fun c hc => absurd hc List.not_mem_nil, rfl, List.Perm.refl _,
          fun k v hk _ => absurd (List.mem_of_getElem? hk) List.not_mem_nil,
          fun v hv _ => absurd hv List.not_mem_nil⟩, ?_⟩
        refine .steady (fun s hs => ?_) fun c hc => by cases hc
        cases hs
        exact fun t ht => absurd ht List.not_mem_nil
  | cons i h ih =>
      obtain ⟨hi, hpermitted⟩ := Bool.and_eq_true_iff.1 hpermitted
      exact sound_step (ih hpermitted) hi

/-! ## Shutting down -/

lemma step_proceed {c : Call} (hwork : a.work = some c) : a.step .proceed = a.perform c := by
  simp only [step, hwork]

lemma settle_of_host {rest : List Caller} (hcallers : a.callers = .host :: rest) (o : Outcome) :
    a.settle o = (a.withTurn rest none, [.ended o]) := by
  rw [settle, hcallers]
  rfl

section Shutdown

variable {s : Session} {rest : List Caller} (hsession : a.session = some s)
include hsession

/-- Without a watcher the session has nothing to close. -/
lemma proceed_shutdown_of_none (hwork : a.work = some (.session .shutdown))
    (hcallers : a.callers = .host :: rest) (hwatcher : s.watcher = none) :
    a.step .proceed =
      ((a.withSession { s with cwd := none }).withTurn rest none, [.ended .returned]) := by
  have hstep : s.step .shutdown = { s with cwd := none }.finish [] := by
    rw [Session.step, Session.shutdown, hwatcher]
  rw [step_proceed hwork, perform, stepSession_eq hsession, hstep]
  exact settle_of_host (a := a.withSession _) hcallers .returned

/-- The session has its watcher closed. -/
lemma proceed_shutdown_of_some {id : Nat} (hwork : a.work = some (.session .shutdown))
    (hwatcher : s.watcher = some id) :
    a.step .proceed =
      ((a.withSession { s with tasks := .ending :: s.tasks }).withTurn (.session :: a.callers)
        (some (.watcher id .close)), []) := by
  have hstep : s.step .shutdown = s.ask [] (.close id) .ending := by
    rw [Session.step, Session.shutdown, hwatcher]
  rw [step_proceed hwork, perform, stepSession_eq hsession, hstep]
  rfl

/-- The session lets go of its watcher. -/
lemma proceed_ending {ts : List Session.Task}
    (hwork : a.work = some (.session (.answer .returned))) (hcallers : a.callers = .host :: rest)
    (htasks : s.tasks = .ending :: ts) :
    a.step .proceed =
      ((a.withSession { s with watcher := none, cwd := none, tasks := ts }).withTurn rest none,
        [.ended .returned]) := by
  have hstep : s.step (.answer .returned) =
      { s with watcher := none, cwd := none, tasks := ts }.finish [] := by
    simp only [Session.step, htasks]
    rfl
  rw [step_proceed hwork, perform, stepSession_eq hsession, hstep]
  exact settle_of_host (a := a.withSession _) hcallers .returned

/-- Once its watcher is to be closed the session comes to its end. -/
lemma closing_ends {id : Nat} {ts : List Session.Task} (h : Books a notes none)
    (hwatcher : s.watcher = some id) (htasks : s.tasks = .ending :: ts)
    (hwork : a.work = some (.watcher id .close))
    (hcallers : a.callers = .session :: .host :: rest) :
    ∃ b more, a.after [.proceed, .proceed] = b ∧
      a.seen [.proceed, .proceed] = more ++ [.ended .returned] ∧
      b.work = none ∧ b.callers = rest ∧ ∃ s', b.session = some s' ∧ s'.watcher = none := by
  have hcurrent := (current?_of_session hsession).trans hwatcher
  obtain ⟨ws, more, hclose, -, -⟩ := stepWatcher_close h hcurrent hcallers
  have hfirst := (step_proceed hwork).trans hclose
  have hsecond := proceed_ending
    (a := { a with watchers := ws }.withTurn (.host :: rest) (some (.session (.answer .returned))))
    hsession rfl rfl htasks
  refine ⟨_, more, rfl, ?_, ?_⟩
  · simp only [seen, after, hfirst, hsecond, List.nil_append]
  · simp only [after, hfirst, hsecond]
    exact ⟨rfl, rfl, _, rfl, rfl⟩

/-- A shutdown comes to its end, and leaves the session without a watcher. -/
lemma shutdown_ends (h : Books a notes none) (hturn : a.work = none) :
    ∃ n b more, a.after (List.replicate n Input.proceed ++ [Input.call (.session .shutdown)]) = b ∧
      a.seen (List.replicate n Input.proceed ++ [Input.call (.session .shutdown)]) =
        more ++ [.ended .returned] ∧
      b.work = none ∧ b.callers = a.callers ∧ ∃ s', b.session = some s' ∧ s'.watcher = none := by
  have hcall : a.step (.call (.session .shutdown)) =
      (a.withTurn (.host :: a.callers) (some (.session .shutdown)), []) := by
    simp only [step, hturn]
    rfl
  cases hwatcher : s.watcher with
  | none =>
      have hends := proceed_shutdown_of_none
        (a := a.withTurn (.host :: a.callers) (some (.session .shutdown))) hsession rfl rfl hwatcher
      refine ⟨1, _, [], rfl, ?_, ?_⟩
      · simp only [List.replicate, List.cons_append, List.nil_append, seen, after, hcall, hends]
      · simp only [List.replicate, List.cons_append, List.nil_append, after, hcall, hends]
        exact ⟨rfl, rfl, _, rfl, hwatcher⟩
  | some id =>
      have hfirst := proceed_shutdown_of_some
        (a := a.withTurn (.host :: a.callers) (some (.session .shutdown))) hsession rfl hwatcher
      obtain ⟨b, more, hafter, hseen, hb⟩ := closing_ends
        (a := ((a.withTurn (.host :: a.callers) (some (.session .shutdown))).withSession
          { s with tasks := .ending :: s.tasks }).withTurn (.session :: .host :: a.callers)
            (some (.watcher id .close)))
        rfl (h.congr rfl rfl rfl (current?_of_session hsession).symm) hwatcher rfl rfl rfl
      have hsplit : List.replicate 3 Input.proceed ++ [Input.call (.session .shutdown)] =
          [Input.proceed, Input.proceed] ++ [Input.proceed, Input.call (.session .shutdown)] := rfl
      refine ⟨3, b, more, ?_, ?_, hb⟩
      · rw [hsplit, after_append, ← hafter]
        simp only [after, hcall, hfirst]
        rfl
      · rw [hsplit, seen_append, ← hseen]
        simp only [seen, after, hcall, hfirst, List.nil_append]
        rfl

end Shutdown

/-! ## Whole runs -/

lemma permitted_proceed (n : Nat) {h : History} (hpermitted : a.permitted h) :
    a.permitted (List.replicate n .proceed ++ h) := by
  induction n with
  | zero => exact hpermitted
  | succ n ih => exact ih

/-- Each subscription that was opened is closed or held by the present watcher, and not both. -/
lemma Books.count_closings (h : Books a notes none) {id : Nat} (hid : id < openings notes) :
    (closings notes).count id = if a.open? = some id then 0 else 1 := by
  have hcount := h.custody.count_eq id
  have hlength : openings notes = a.channels.length := h.opened
  have honce : (List.range a.channels.length).count id = 1 :=
    List.count_eq_one_of_mem List.nodup_range (List.mem_range.2 (hlength ▸ hid))
  rw [honce, Option.toList_none, List.append_nil, List.count_append] at hcount
  split
  · rename_i hopen
    rw [hopen, Option.toList_some, List.count_singleton_self] at hcount
    omega
  · rename_i hopen
    have hnone : a.open?.toList.count id = 0 :=
      List.count_eq_zero.2 fun hmem => hopen (Option.mem_toList.1 hmem)
    omega

lemma Books.lt_openings (h : Books a notes none) {id : Nat}
    (hid : id ∈ closings notes ∨ a.open? = some id) : id < openings notes := by
  have hlength : openings notes = a.channels.length := h.opened
  have hmem : id ∈ closings notes ++ (a.open?.toList ++ (none : Option Nat).toList) := by
    rcases hid with hid | hid
    · exact List.mem_append_left _ hid
    · rw [hid]
      exact List.mem_append_right _ (List.mem_cons_self ..)
  rw [hlength]
  exact List.mem_range.1 (h.custody.subset hmem)

lemma Books.not_mem_closings_iff (h : Books a notes none) {id : Nat} (hid : id < openings notes) :
    id ∉ closings notes ↔ a.open? = some id := by
  rw [← List.count_eq_zero, h.count_closings hid]
  split <;> simp_all

/-- The present watcher is watching, be it in a pause, exactly when it holds a subscription. -/
lemma Books.isSome_open?_iff (h : Books a notes none) :
    a.open?.isSome ↔ ∃ w, a.present? = some w ∧ (w.status = .watching ∨ w.status = .paused) := by
  cases hpresent : a.present? with
  | none => simp [open?, hpresent]
  | some w =>
      obtain ⟨id, -, hid⟩ := Option.bind_eq_some_iff.1 hpresent
      have hopen : a.open? = w.subscription := by rw [open?, hpresent]; rfl
      rw [hopen, ← w.status_of_open (h.closed w (List.mem_of_getElem? hid))]
      simp

/-- A session without a watcher leaves no subscription open. -/
lemma count_closings_of_watcher (begins : a.Begins) {h : History} (hpermitted : a.permitted h)
    {s : Session} (hsession : (a.after h).session = some s) (hwatcher : s.watcher = none) :
    ∀ id < openings (a.seen h), (closings (a.seen h)).count id = 1 := by
  intro id hid
  obtain ⟨hbooks, -⟩ := sound_after begins hpermitted
  have hopen : (a.after h).open? = none :=
    open?_of_current? none ((current?_of_session hsession).trans hwatcher)
  rw [hbooks.count_closings hid, hopen, if_neg (Option.some_ne_none id).symm]

/-- When the host now calls for a shutdown, that comes to its end, and it leaves the session
without a watcher and each subscription closed once. -/
def ShutsDown (a : Assembly) (h : History) : Prop :=
  ∃ n more,
    let h' := List.replicate n Input.proceed ++ Input.call (.session .shutdown) :: h
    a.seen h' = a.seen h ++ more ++ [.ended .returned] ∧ (a.after h').isHostsTurn ∧
      (a.after h').callers = (a.after h).callers ∧
      (∃ s, (a.after h').session = some s ∧ s.watcher = none) ∧
      ∀ id < openings (a.seen h'), (closings (a.seen h')).count id = 1

lemma shutsDown_of_isHostsTurn (begins : a.Begins) {h : History} (hpermitted : a.permitted h)
    (hturn : (a.after h).isHostsTurn) (hsome : (a.after h).session.isSome) : a.ShutsDown h := by
  obtain ⟨hbooks, -⟩ := sound_after begins hpermitted
  obtain ⟨s, hsession⟩ := Option.isSome_iff_exists.1 hsome
  obtain ⟨n, b, more, hafter, hseen, hwork, hcallers, s', hs', hwatcher⟩ :=
    shutdown_ends hsession hbooks (Option.isNone_iff_eq_none.1 hturn)
  have hb :
      a.after (List.replicate n Input.proceed ++ Input.call (.session .shutdown) :: h) = b := by
    rw [List.append_cons, after_append, hafter]
  have hpermitted' :
      a.permitted (List.replicate n Input.proceed ++ Input.call (.session .shutdown) :: h) :=
    permitted_proceed n hpermitted
  refine ⟨n, more, ?_, ?_, ?_, ⟨s', ?_, hwatcher⟩, ?_⟩
  · rw [List.append_cons, seen_append, hseen, List.append_assoc]
  · rw [hb, isHostsTurn, hwork]
    rfl
  · rw [hb, hcallers]
  · rw [hb, hs']
  · exact count_closings_of_watcher begins hpermitted' (by rw [hb]; exact hs') hwatcher

/-- **Every subscription is closed once, but for the open one.**  The subscriptions are numbered in
the order in which they were opened.  In whatever order the host calls, from wherever it calls, and
however its opening of subscriptions fails, each of them was closed once, except the one that the
present watcher holds, which was not closed.  So at most one is open, and one is exactly as long as
the present watcher watches or pauses.  A shutdown comes to its end, and none is open then. -/
theorem subscriptions_closed_once (begins : a.Begins) {h : History} (hpermitted : a.permitted h) :
    (∀ id < openings (a.seen h),
        (closings (a.seen h)).count id = if (a.after h).open? = some id then 0 else 1) ∧
      (∀ id, id ∈ closings (a.seen h) ∨ (a.after h).open? = some id → id < openings (a.seen h)) ∧
      (∀ id < openings (a.seen h), ∀ id' < openings (a.seen h),
        id ∉ closings (a.seen h) → id' ∉ closings (a.seen h) → id = id') ∧
      ((∃ id < openings (a.seen h), id ∉ closings (a.seen h)) ↔
        ∃ w, (a.after h).present? = some w ∧ (w.status = .watching ∨ w.status = .paused)) ∧
      (∀ s, (a.after h).session = some s → s.watcher = none →
        ∀ id < openings (a.seen h), (closings (a.seen h)).count id = 1) ∧
      ((a.after h).isHostsTurn → (a.after h).session.isSome → a.ShutsDown h) := by
  obtain ⟨hbooks, -⟩ := sound_after begins hpermitted
  refine ⟨fun id hid => hbooks.count_closings hid, fun id hid => hbooks.lt_openings hid, ?_, ?_,
    fun s hs hwatcher => count_closings_of_watcher begins hpermitted hs hwatcher,
    shutsDown_of_isHostsTurn begins hpermitted⟩
  · intro id hid id' hid' hopen hopen'
    have hsame := ((hbooks.not_mem_closings_iff hid).1 hopen).symm.trans
      ((hbooks.not_mem_closings_iff hid').1 hopen')
    exact Option.some.inj hsame
  · rw [← hbooks.isSome_open?_iff, Option.isSome_iff_exists]
    constructor
    · rintro ⟨id, hid, hopen⟩
      exact ⟨id, (hbooks.not_mem_closings_iff hid).1 hopen⟩
    · rintro ⟨id, hopen⟩
      have hid := hbooks.lt_openings (Or.inr hopen)
      exact ⟨id, hid, (hbooks.not_mem_closings_iff hid).2 hopen⟩

/-- A session that is started again by a callback, while its first watcher is being attached. -/
theorem subscriptions_closed_once_of_restart :
    let a : Assembly :=
      { surroundings := { home := "/w", realPath := id }, relays := true
        session := some { settings := { ignoredPatterns := [] }, home := "/w" } }
    let start : Input := .call (.session (.start (some "/w")))
    let h : History := List.replicate 5 .proceed ++ start :: List.replicate 3 .proceed ++ [start]
    a.Begins ∧ a.permitted h ∧ (a.after h).isHostsTurn ∧ (a.after h).session.isSome ∧
      openings (a.seen h) = 2 ∧ (a.after h).open? = some 1 ∧
      (closings (a.seen h)).count 0 = 1 ∧ (closings (a.seen h)).count 1 = 0 ∧ a.ShutsDown h := by
  intro a start h
  have begins : a.Begins := Or.inr ⟨_, _, _, _, rfl⟩
  have hpermitted : a.permitted h := by decide
  have hturn : (a.after h).isHostsTurn := by decide
  have hsession : (a.after h).session.isSome := by decide
  have hcount : openings (a.seen h) = 2 := by decide
  have hopen : (a.after h).open? = some 1 := by decide
  obtain ⟨hclosings, -, -, -, -, hshutdown⟩ := subscriptions_closed_once begins hpermitted
  refine ⟨begins, hpermitted, hturn, hsession, hcount, hopen, ?_, ?_, hshutdown hturn hsession⟩
  · rw [hclosings 0 (by rw [hcount]; decide), hopen]
    decide
  · rw [hclosings 1 (by rw [hcount]; decide), hopen]
    decide

end Assembly

end Marginalia
