import Marginalia.Proofs.Watcher.Step

/-!
# Histories of a watcher

A `History` is what has been put into a watcher so far, the latest input first; `after` is the
watcher that it leads to.  What a history says about the course of a watcher is read off the inputs
themselves, without the machine:

* `generationOf` counts the watches and closes, and so numbers the subscriptions;
* `openGeneration` is the number of the subscription that is open: the latest of the watches and
  closes has to be a watch that succeeded;
* `pausedBy` says whether the latest of the pauses and resumes is a pause;
* `rootBy` is the directory of the latest watch.

`after_isCurrent`, `after_paused` and `after_root` say that a watcher that was just made keeps to
this reading.  `accepts` puts the three together: an event of a change is accepted when it comes
from the open subscription, the watcher is not paused, and the path is not ignored.
-/

namespace Marginalia.Watcher

/-- The inputs of a watcher so far, the latest first. -/
abbrev History := List Input

/-- The watcher that a history leads to. -/
def after (w : Watcher) (h : History) : Watcher := w.run h.reverse

@[simp] lemma after_nil (w : Watcher) : w.after [] = w := rfl

@[simp] lemma after_cons (w : Watcher) (i : Input) (h : History) :
    w.after (i :: h) = ((w.after h).step i).state := by
  simp [after, run, List.foldl_append]

/-! ## Reading a history -/

/-- The input begins a watch, whatever comes of it. -/
def Input.isWatch : Input → Bool
  | .watch .. => true
  | _ => false

/-- The input turns over the subscription. -/
def Input.turnsOver : Input → Bool
  | .watch .. | .close => true
  | _ => false

/-- The input sets or lifts the pause. -/
def Input.setsPause : Input → Bool
  | .pause | .resume => true
  | _ => false

/-- The directory that an input watches. -/
def Input.watched? : Input → Option String
  | .watch root _ => some root
  | _ => none

/-- The number of the latest watch or close. -/
def generationOf (h : History) : Nat :=
  h.countP Input.turnsOver

/-- The number of the subscription that a history leaves open, if it leaves one open. -/
def openGeneration (h : History) : Option Nat :=
  match h.find? Input.turnsOver with
  | some (.watch _ (.ok _)) => some (generationOf h)
  | _ => none

/-- The latest of the pauses and resumes is a pause. -/
def pausedBy (h : History) : Bool :=
  match h.find? Input.setsPause with
  | some .pause => true
  | _ => false

/-- The directory of the latest watch, followed from the one of the options. -/
def rootBy (o : Options) (h : History) : Option String :=
  (h.findSome? Input.watched?).map (rootOf o)

/-- After the history an event of subscription `g` that the file at `path` has changed is accepted:
the subscription is the open one, there is no pause, and the path is not ignored. -/
def accepts (w : Watcher) (h : History) (g : Nat) (path : String) : Prop :=
  openGeneration h = some g ∧ pausedBy h = false ∧
    Ignore.isIgnoredBy w.patterns w.home path (rootBy w.options h) = false

instance (w : Watcher) (h : History) (g : Nat) (path : String) :
    Decidable (w.accepts h g path) :=
  inferInstanceAs (Decidable (_ ∧ _ ∧ _))

lemma generationOf_append (k h : History) :
    generationOf (k ++ h) = generationOf k + generationOf h :=
  List.countP_append

/-- Only the latest subscription is open. -/
lemma generationOf_of_open {h : History} {g : Nat} (hopen : openGeneration h = some g) :
    g = generationOf h := by
  unfold openGeneration at hopen
  split at hopen
  · exact (Option.some.inj hopen).symm
  · cases hopen

/-! ## Watchers that were just made -/

/-- Nothing has happened to the watcher yet. -/
structure Unused (w : Watcher) : Prop where
  pending : w.pending = .empty
  subscription : w.subscription = none
  root : w.root = none
  generation : w.generation = 0
  readyGeneration : w.readyGeneration = 0
  paused : w.paused = false
  closed : w.closed = false
  tasks : w.tasks = []

lemma unused_of_make {o : Options} {c : Callbacks} {home : String} {w : Watcher}
    (h : make o c home = .ok w) : w.Unused := by
  unfold make at h
  cases hp : Ignore.readAll o.ignored with
  | error e => rw [hp] at h; cases h
  | ok patterns =>
      rw [hp] at h
      cases h
      exact ⟨rfl, rfl, rfl, rfl, rfl, rfl, rfl, rfl⟩

lemma callbacks_of_make {o : Options} {c : Callbacks} {home : String} {w : Watcher}
    (h : make o c home = .ok w) : w.callbacks = c := by
  unfold make at h
  cases hp : Ignore.readAll o.ignored with
  | error e => rw [hp] at h; cases h
  | ok patterns =>
      rw [hp] at h
      cases h
      rfl

variable {w : Watcher}

/-! ## What never changes -/

lemma courseUpon_constants (w : Watcher) (i : Input) :
    (w.courseUpon i).options = w.options ∧ (w.courseUpon i).callbacks = w.callbacks ∧
      (w.courseUpon i).patterns = w.patterns ∧ (w.courseUpon i).home = w.home := by
  cases i <;> exact ⟨rfl, rfl, rfl, rfl⟩

/-- What a watcher was made with stays. -/
lemma after_constants (w : Watcher) (h : History) :
    (w.after h).options = w.options ∧ (w.after h).callbacks = w.callbacks ∧
      (w.after h).patterns = w.patterns ∧ (w.after h).home = w.home := by
  induction h with
  | nil => exact ⟨rfl, rfl, rfl, rfl⟩
  | cons i h ih =>
      have hcourse := sameCourse_step (w.after h) i
      have hconst := courseUpon_constants (w.after h) i
      rw [after_cons, hcourse.options, hcourse.callbacks, hcourse.patterns, hcourse.home,
        hconst.1, hconst.2.1, hconst.2.2.1, hconst.2.2.2]
      exact ih

lemma after_options (w : Watcher) (h : History) : (w.after h).options = w.options :=
  (after_constants w h).1

lemma after_callbacks (w : Watcher) (h : History) : (w.after h).callbacks = w.callbacks :=
  (after_constants w h).2.1

lemma after_patterns (w : Watcher) (h : History) : (w.after h).patterns = w.patterns :=
  (after_constants w h).2.2.1

lemma after_home (w : Watcher) (h : History) : (w.after h).home = w.home :=
  (after_constants w h).2.2.2

/-! ## The machine keeps to the reading -/

lemma after_generation (hw : w.Unused) (h : History) :
    (w.after h).generation = generationOf h := by
  induction h with
  | nil => exact hw.generation
  | cons i h ih =>
      rw [after_cons, (sameCourse_step (w.after h) i).generation, generationOf, List.countP_cons,
        ← generationOf, ← ih]
      cases i <;> rfl

/-- A subscription is open exactly when the latest watch or close is a watch that succeeded. -/
lemma after_subscription (hw : w.Unused) (h : History) :
    (w.after h).subscription =
      match h.find? Input.turnsOver with
      | some (.watch _ (.ok id)) => some id
      | _ => none := by
  induction h with
  | nil => exact hw.subscription
  | cons i h ih =>
      rw [after_cons, (sameCourse_step (w.after h) i).subscription]
      cases i with
      | watch root opened => cases opened <;> rfl
      | close => rfl
      | _ => exact ih

/-- **The present generation** is the number of the open subscription. -/
lemma after_isCurrent (hw : w.Unused) (h : History) (g : Nat) :
    (w.after h).isCurrent g = true ↔ openGeneration h = some g := by
  rw [isCurrent, after_generation hw, after_subscription hw, openGeneration]
  split <;> simp [eq_comm]

lemma after_paused (hw : w.Unused) (h : History) : (w.after h).paused = pausedBy h := by
  induction h with
  | nil => exact hw.paused
  | cons i h ih =>
      rw [after_cons, (sameCourse_step (w.after h) i).paused]
      cases i <;> first | rfl | exact ih

lemma after_root (hw : w.Unused) (h : History) : (w.after h).root = rootBy w.options h := by
  induction h with
  | nil => exact hw.root
  | cons i h ih =>
      rw [after_cons, (sameCourse_step (w.after h) i).root]
      cases i with
      | watch root opened =>
          simp only [courseUpon, after_options, rootBy, List.findSome?_cons, Input.watched?,
            Option.map_some]
      | _ => exact ih

lemma after_ignores (hw : w.Unused) (h : History) (path : String) :
    (w.after h).ignores path =
      Ignore.isIgnoredBy w.patterns w.home path (rootBy w.options h) := by
  rw [ignores, after_patterns, after_home, after_root hw]

/-- **A file is read** exactly when the event of its change is accepted. -/
theorem after_asks_read_iff (hw : w.Unused) (h : History) (g : Nat) (path : String) :
    ((w.after h).step (.event g (.change path))).turn = .asks (.read path) ↔
      w.accepts h g path := by
  rw [step_event_asks_iff, after_isCurrent hw, questionOfEvent?, after_paused hw,
    after_ignores hw, accepts]
  by_cases hp : pausedBy h = true ∨
      Ignore.isIgnoredBy w.patterns w.home path (rootBy w.options h) = true
  · rw [if_pos hp]
    rcases hp with hp | hp <;> simp [hp]
  · rw [if_neg hp]
    simp only [not_or, Bool.not_eq_true] at hp
    simp [hp]

/-! ## A plain watcher

The concrete histories of the library are those of one watcher, which ignores nothing and has all
callbacks. -/

/-- A watcher that ignores nothing, at the directory `/w`. -/
def plain : Watcher :=
  { options := { ignored := [] }, callbacks := {}, patterns := [], home := "/w" }

lemma make_plain : make { ignored := [] } {} "/w" = .ok plain := rfl

/-- The directory `/w` is watched, and the listeners are attached. -/
def watching : History :=
  [.answer .returned, .answer .returned, .answer .returned, .watch "/w" (.ok 0)]

/-- A file has changed, and its content was read. -/
def saved (path content : String) : History :=
  [.answer (.text content), .event 1 (.change path)]

end Marginalia.Watcher
