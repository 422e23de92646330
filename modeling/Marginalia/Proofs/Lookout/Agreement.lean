import Marginalia.Proofs.Lookout.Basic
import Marginalia.Proofs.Notifier.Opening
import Marginalia.Proofs.Notifier.Roots
import Marginalia.Proofs.Notifier.Step

/-!
# Two filters for ignored paths

A path is looked at twice: a subscription drops the raw events of ignored paths, and the watcher
drops the changes of ignored paths that it is told.  Both show their patterns the part of the path
inside the watched directory.  But the subscription knows the directory under two names, as it is
given and as it is once its links are followed, and the watcher knows it under the first alone.

`agree_iff` says when the two come to the same: the path lies inside the directory as it is given,
or outside the real one too, or the patterns find as much in the whole path as in the part inside
the real directory.  `filters_disagree_behind_link` has a path for which they do not, in either
way.
-/

namespace Marginalia

open Notifier (Subscription Surroundings)
open Watcher (Callbacks History Input Options openGeneration pausedBy)

/-! ## What the patterns see -/

namespace Notifier.Subscription

variable {ℓ : Type}

/-- **The subscription's patterns** see the part of a path inside the directory, or else the part
inside the real directory, or else the whole path. -/
lemma ignores_eq_isFoundBy {s : Subscription ℓ} {around : Surroundings} {root : String}
    (hsame : s.home = around.home) (hhome : Path.isAbsolute around.home)
    (hroots : s.roots = rootsOf around [root]) (hreal : around.realPath root ≠ "") {path : String}
    (hpath : path ≠ "") :
    s.ignores path = Ignore.isFoundBy s.patterns
      ((Path.insideRoot? around.home path root <|>
        Path.insideRoot? around.home path (around.realPath root)).getD path) := by
  have hgiven := Path.insideRoot?_absoluteText hhome hpath root
  have hlinked := Path.insideRoot?_absoluteText_left hhome hpath (around.realPath root)
  have hpair : s.roots =
      [Path.absoluteText around.home root, around.realPath root].eraseDups := hroots
  have hne : ∀ name ∈ s.roots, name ≠ "" := by
    rw [hpair]
    intro name hname
    rcases List.mem_cons.1 (List.mem_eraseDups.1 hname) with rfl | hname
    · exact Path.absoluteText_ne_empty hhome root
    · rw [List.mem_singleton.1 hname]
      exact hreal
  rw [ignores_eq_isFoundBy_inside hne, hpair, findSome?_eraseDups, List.findSome?_cons,
    List.findSome?_singleton, hsame, hgiven, hlinked]
  cases Path.insideRoot? around.home path root <;> rfl

end Notifier.Subscription

namespace Lookout

variable {o : Options} {c : Callbacks} {around : Surroundings} {root path : String} {w : Watcher}

/-! ## The two filters -/

/-- A subscription accepts a path when its patterns find nothing in what they see of it. -/
lemma mem_dirty_record_iff_of_start {ℓ : Type} (made : Watcher.make o c around.home = .ok w)
    (sources : ∃ texts : List String, o.ignored = texts.map .source)
    (home : Path.isAbsolute around.home) (hreal : around.realPath (Watcher.rootOf o root) ≠ "")
    {notes : List Notifier.Note} {s : Subscription ℓ}
    (hstart : Subscription.start ℓ around [root] o.forNotifier = (notes, .ok s))
    {inputs : List (Int × Notifier.Input ℓ)} (hopen : (s.run inputs).closed = false) (now : Int)
    (hpath : path ≠ "") :
    path ∈ ((s.run inputs).record now path).dirty.map Prod.fst ↔
      Ignore.isFoundBy w.patterns
        ((Path.insideRoot? around.home path (Watcher.rootOf o root) <|>
          Path.insideRoot? around.home path (around.realPath (Watcher.rootOf o root))).getD path) =
        false := by
  obtain ⟨patterns, hpatterns, hmade⟩ := watcher_of_make made
  obtain ⟨hread, hroots, hsame, hclean, -⟩ := Subscription.fields_of_start hstart
  rw [readAll_forNotifier sources, hpatterns] at hread
  rw [locate_forNotifier] at hroots
  have hshared : s.patterns = w.patterns := by
    rw [hmade]
    exact (Except.ok.inj hread).symm
  rw [Subscription.mem_dirty_record_iff hclean (Subscription.goesOn_run s inputs) hopen,
    Subscription.ignores_eq_isFoundBy hsame home hroots hreal hpath, hshared]

/-- A watcher reads the file of a change when its patterns find nothing in what they see of it. -/
lemma asks_read_iff_of_make (made : Watcher.make o c around.home = .ok w) (hroot : root ≠ "")
    {h : History} {g : Nat} (hcurrent : openGeneration h = some g)
    (hwatched : h.findSome? Input.watched? = some root) (hpaused : pausedBy h = false)
    (path : String) :
    ((w.after h).step (.event g (.change path))).turn = .asks (.read path) ↔
      Ignore.isFoundBy w.patterns
        ((Path.insideRoot? around.home path (Watcher.rootOf o root)).getD path) = false := by
  obtain ⟨patterns, -, hmade⟩ := watcher_of_make made
  have hoptions : w.options = o := by rw [hmade]
  have hhome : w.home = around.home := by rw [hmade]
  rw [Watcher.after_asks_read_iff (Watcher.unused_of_make made), Watcher.accepts, Watcher.rootBy,
    hwatched, Option.map_some, hoptions, hhome,
    Ignore.isIgnoredBy_eq_isFoundBy _ _ _ (rootOf_ne_empty hroot)]
  exact ⟨fun h => h.2.2, fun h => ⟨hcurrent, hpaused, h⟩⟩

/-- The subscription accepts the path exactly when the watcher, told of a change, reads the file. -/
def Agree {ℓ : Type} (s : Subscription ℓ) (now : Int) (w : Watcher) (g : Nat) (path : String) :
    Prop :=
  path ∈ (s.record now path).dirty.map Prod.fst ↔
    (w.step (.event g (.change path))).turn = .asks (.read path)

/-- **The filters agree but for links.**  Take a subscription that a watch has opened and that is
still open, and the watcher in that watch, without a pause.  If no link leads away from the
directory they agree on every path.  In general they agree on a path exactly when it lies inside
the directory as it is given, or the patterns find something in the whole path exactly when they do
in the part of it inside the real directory, if it lies there. -/
theorem agree_iff {ℓ : Type} (made : Watcher.make o c around.home = .ok w)
    (sources : ∃ texts : List String, o.ignored = texts.map .source)
    (home : Path.isAbsolute around.home) (hroot : root ≠ "")
    (hreal : around.realPath (Watcher.rootOf o root) ≠ "") {notes : List Notifier.Note}
    {s : Subscription ℓ}
    (hstart : Subscription.start ℓ around [root] o.forNotifier = (notes, .ok s))
    (inputs : List (Int × Notifier.Input ℓ)) (hopen : (s.run inputs).closed = false) {h : History}
    {g : Nat} (hcurrent : openGeneration h = some g)
    (hwatched : h.findSome? Input.watched? = some root) (hpaused : pausedBy h = false) (now : Int)
    (hpath : path ≠ "") :
    (around.realPath (Watcher.rootOf o root) =
        Path.absoluteText around.home (Watcher.rootOf o root) →
          Agree (s.run inputs) now (w.after h) g path) ∧
      (Agree (s.run inputs) now (w.after h) g path ↔
        (Path.insideRoot? around.home path (Watcher.rootOf o root)).isSome ∨
          ∀ way, Path.insideRoot? around.home path (around.realPath (Watcher.rootOf o root)) =
              some way →
            Ignore.isFoundBy w.patterns way = Ignore.isFoundBy w.patterns path) := by
  have haccepts := mem_dirty_record_iff_of_start made sources home hreal hstart hopen now hpath
  have hreads := asks_read_iff_of_make made hroot hcurrent hwatched hpaused path
  constructor
  · intro hlink
    rw [hlink, Path.insideRoot?_absoluteText_right home] at haccepts
    rw [Agree, haccepts, hreads]
    cases Path.insideRoot? around.home path (Watcher.rootOf o root) <;> rfl
  · rw [Agree, haccepts, hreads]
    cases Path.insideRoot? around.home path (Watcher.rootOf o root) with
    | some way => simp
    | none =>
        cases Path.insideRoot? around.home path (around.realPath (Watcher.rootOf o root)) with
        | none => simp
        | some way =>
            cases hway : Ignore.isFoundBy w.patterns way <;>
              cases hwhole : Ignore.isFoundBy w.patterns path <;> simp [hway, hwhole]

/-! ## Behind a link -/

/-- The directory `/link` is a link to `/build/app`. -/
def linked : Surroundings where
  home := "/w"
  realPath path := if path = "/link" then "/build/app" else path

lemma isFoundBy_of_make {home : String} (made : Watcher.make o c home = .ok w) {text : String}
    {b : Bool} (h : (Ignore.readAll o.ignored).toOption.map (Ignore.isFoundBy · text) = some b) :
    Ignore.isFoundBy w.patterns text = b := by
  obtain ⟨patterns, hpatterns, rfl⟩ := watcher_of_make made
  rw [hpatterns] at h
  exact Option.some.inj h

/-- Inside the link as it is given the filters agree. -/
theorem agree_iff_of_linked :
    let o : Options := { ignored := [.source "build"] }
    let h : History := [.watch "/link" (.ok 0)]
    ∃ w notes s, Watcher.make o {} linked.home = .ok w ∧
      (∃ texts : List String, o.ignored = texts.map .source) ∧ Path.isAbsolute linked.home ∧
      linked.realPath (Watcher.rootOf o "/link") ≠ "" ∧
      Subscription.start Unit linked ["/link"] o.forNotifier = (notes, .ok s) ∧
      (s.run []).closed = false ∧ openGeneration h = some 1 ∧
      h.findSome? Input.watched? = some "/link" ∧ pausedBy h = false ∧
      Agree (s.run []) 0 (w.after h) 1 "/link/build/a.py" := by
  intro o h
  obtain ⟨w, made⟩ : ∃ w, Watcher.make o {} linked.home = .ok w := ⟨_, rfl⟩
  obtain ⟨notes, s, hstart⟩ : ∃ notes s,
      Subscription.start Unit linked ["/link"] o.forNotifier = (notes, .ok s) := ⟨_, _, rfl⟩
  have hopen : (s.run []).closed = false := (Subscription.fields_of_start hstart).2.2.2.2
  have sources : ∃ texts : List String, o.ignored = texts.map .source := ⟨["build"], rfl⟩
  have hreal : linked.realPath (Watcher.rootOf o "/link") ≠ "" := by decide
  have hcurrent : openGeneration h = some 1 := by decide
  have hwatched : h.findSome? Input.watched? = some "/link" := rfl
  have hpath : "/link/build/a.py" ≠ "" := by decide
  have hinside :
      (Path.insideRoot? linked.home "/link/build/a.py" (Watcher.rootOf o "/link")).isSome := by
    decide
  have hagree := (agree_iff made sources (by decide) (by decide) hreal hstart [] hopen hcurrent
    hwatched (by decide) 0 hpath).2.2 (Or.inl hinside)
  exact ⟨w, notes, s, made, sources, by decide, hreal, hstart, hopen, hcurrent, hwatched, by decide,
    hagree⟩

/-- What the two filters see of the real path of a file behind the link. -/
lemma filters_behind_link {texts : List String}
    (made : Watcher.make { ignored := texts.map .source } {} linked.home = .ok w)
    {notes : List Notifier.Note} {s : Subscription Unit}
    (hstart : Subscription.start Unit linked ["/link"]
      ({ ignored := texts.map .source } : Options).forNotifier = (notes, .ok s)) :
    ("/build/app/a.py" ∈ (s.record 0 "/build/app/a.py").dirty.map Prod.fst ↔
        Ignore.isFoundBy w.patterns "a.py" = false) ∧
      (((w.after [.watch "/link" (.ok 0)]).step (.event 1 (.change "/build/app/a.py"))).turn =
          .asks (.read "/build/app/a.py") ↔
        Ignore.isFoundBy w.patterns "/build/app/a.py" = false) := by
  have hopen : (s.run []).closed = false := (Subscription.fields_of_start hstart).2.2.2.2
  have hroot : Watcher.rootOf { ignored := texts.map .source } "/link" = "/link" := rfl
  have hto : linked.realPath "/link" = "/build/app" := rfl
  have hreal : linked.realPath (Watcher.rootOf { ignored := texts.map .source } "/link") ≠ "" := by
    rw [hroot, hto]
    decide
  have hpath : "/build/app/a.py" ≠ "" := by decide
  have haccepts := mem_dirty_record_iff_of_start made ⟨texts, rfl⟩ (by decide) hreal hstart hopen 0
    hpath
  have hcurrent : openGeneration [.watch "/link" (.ok 0)] = some 1 := by decide
  have hreads := asks_read_iff_of_make made (by decide) hcurrent rfl (by decide) "/build/app/a.py"
  have hgiven : Path.insideRoot? linked.home "/build/app/a.py" "/link" = none := by decide
  have hlinked : Path.insideRoot? linked.home "/build/app/a.py" "/build/app" = some "a.py" := by
    decide
  rw [hroot, hto, hgiven, hlinked] at haccepts
  rw [hroot, hgiven] at hreads
  exact ⟨haccepts, hreads⟩

/-- **Behind a link the filters disagree**, in both ways: with the pattern `build` a path is
accepted that the watcher drops, and with the pattern `^a` the watcher would read a file that is
dropped. -/
theorem filters_disagree_behind_link :
    let path := "/build/app/a.py"
    let told : Input := .event 1 (.change path)
    (∃ w notes s, Watcher.make { ignored := [.source "build"] } {} linked.home = .ok w ∧
        Subscription.start Unit linked ["/link"]
          ({ ignored := [.source "build"] } : Options).forNotifier = (notes, .ok s) ∧
        path ∈ (s.record 0 path).dirty.map Prod.fst ∧
        ((w.after [.watch "/link" (.ok 0)]).step told).turn ≠ .asks (.read path)) ∧
      ∃ w notes s, Watcher.make { ignored := [.source "^a"] } {} linked.home = .ok w ∧
        Subscription.start Unit linked ["/link"]
          ({ ignored := [.source "^a"] } : Options).forNotifier = (notes, .ok s) ∧
        path ∉ (s.record 0 path).dirty.map Prod.fst ∧
        ((w.after [.watch "/link" (.ok 0)]).step told).turn = .asks (.read path) := by
  intro path told
  constructor
  · obtain ⟨w, made⟩ : ∃ w, Watcher.make { ignored := ["build"].map .source } {} linked.home =
        .ok w := ⟨_, rfl⟩
    obtain ⟨notes, s, hstart⟩ : ∃ notes s, Subscription.start Unit linked ["/link"]
        ({ ignored := ["build"].map .source } : Options).forNotifier = (notes, .ok s) := ⟨_, _, rfl⟩
    obtain ⟨haccepts, hreads⟩ := filters_behind_link made hstart
    have hpart : Ignore.isFoundBy w.patterns "a.py" = false :=
      isFoundBy_of_make made (by decide +kernel)
    have hwhole : Ignore.isFoundBy w.patterns path = true :=
      isFoundBy_of_make made (by decide +kernel)
    refine ⟨w, notes, s, made, hstart, haccepts.2 hpart, fun hread => ?_⟩
    exact Bool.false_ne_true ((hreads.1 hread).symm.trans hwhole)
  · obtain ⟨w, made⟩ : ∃ w, Watcher.make { ignored := ["^a"].map .source } {} linked.home =
        .ok w := ⟨_, rfl⟩
    obtain ⟨notes, s, hstart⟩ : ∃ notes s, Subscription.start Unit linked ["/link"]
        ({ ignored := ["^a"].map .source } : Options).forNotifier = (notes, .ok s) := ⟨_, _, rfl⟩
    obtain ⟨haccepts, hreads⟩ := filters_behind_link made hstart
    have hpart : Ignore.isFoundBy w.patterns "a.py" = true :=
      isFoundBy_of_make made (by decide +kernel)
    have hwhole : Ignore.isFoundBy w.patterns path = false :=
      isFoundBy_of_make made (by decide +kernel)
    refine ⟨w, notes, s, made, hstart, fun haccepted => ?_, hreads.2 hwhole⟩
    exact Bool.false_ne_true ((haccepts.1 haccepted).symm.trans hpart)

end Lookout

end Marginalia
