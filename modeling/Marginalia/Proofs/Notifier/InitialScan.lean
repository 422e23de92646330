import Marginalia.Proofs.Notifier.Opening
import Marginalia.Proofs.Notifier.Step

/-!
# The files that are there at the start

A subscription that tells the files that are there walks through its directory once, and after that
it tells what the observer sees.  Both leave out what is ignored, but not in the same way: a raw
event is dropped when the path of the file is ignored, and the walk does not enter a directory whose
own path is.  A pattern may find something in the path of a directory and nothing in the path of a
file below it.

`scan_agrees_iff` says that the walk tells no file twice and none that a raw event would not be
taken for, and that it tells all of them exactly when no file that is not ignored lies behind a
directory that is.  `scan_misses_accepted` has a file that does.
-/

namespace Marginalia.Notifier

variable {ℓ : Type}

namespace Subscription

/-- The subscription takes the path of a touched file for a dirty one. -/
def Accepts (s : Subscription ℓ) (now : Int) (path : String) : Prop :=
  path ∈ (s.record now path).dirty.map Prod.fst

instance (s : Subscription ℓ) (now : Int) (path : String) : Decidable (s.Accepts now path) :=
  inferInstanceAs (Decidable (_ ∈ _))

variable {around : Surroundings} {paths : List String} {o : Options} {notes : List Note}
  {s : Subscription ℓ} {root : String}

/-- **What is told at the start** are the files with nothing ignored on the way to them. -/
lemma mem_changes_queue_iff (hstart : start ℓ around paths o = (notes, .ok s))
    (hinitial : o.ignoreInitial = false) (hroot : s.paths = [root]) (place : String) :
    place ∈ s.queue.filterMap Event.changed? ↔
      ∃ names, (around.tree root).Holds names ∧ place = Path.below root names ∧
        Tree.KeptOn (fun place => !s.ignores place) root names := by
  rw [changes_queue_of_start_of_walks hstart hinitial, hroot, List.flatMap_singleton,
    Tree.mem_places_iff, Tree.mem_walk_iff]

/-- A path is accepted as long as the subscription is open, unless it is ignored. -/
lemma accepts_iff (hstart : start ℓ around paths o = (notes, .ok s))
    (inputs : List (Int × Input ℓ)) (hopen : (s.run inputs).closed = false) (now : Int)
    (path : String) : (s.run inputs).Accepts now path ↔ s.ignores path = false :=
  mem_dirty_record_iff (isNew_of_start hstart).dirty (goesOn_run s inputs) hopen now path

/-- **The walk and the raw events agree** but for the directories that the walk passes over.  Take
a subscription for one directory that tells the files that are there, and any course of it that
leaves it open.

The walk tells no file twice.  It tells exactly the files such that neither they nor any directory
on the way to them is ignored, and so only files that a raw event is taken for.  It tells all of
these exactly when there is no file that is not ignored behind a directory that is. -/
theorem scan_agrees_iff (hstart : start ℓ around paths o = (notes, .ok s))
    (hinitial : o.ignoreInitial = false) (hroot : s.paths = [root])
    (hproper : (around.tree root).Proper) (inputs : List (Int × Input ℓ))
    (hopen : (s.run inputs).closed = false) (now : Int) :
    (s.queue.filterMap Event.changed?).Nodup ∧
      (∀ place, place ∈ s.queue.filterMap Event.changed? ↔
        ∃ names, (around.tree root).Holds names ∧ place = Path.below root names ∧
          Tree.KeptOn (fun place => !s.ignores place) root names) ∧
      (∀ place ∈ s.queue.filterMap Event.changed?, (s.run inputs).Accepts now place) ∧
      ((∀ place, place ∈ s.queue.filterMap Event.changed? ↔
          (∃ names, (around.tree root).Holds names ∧ place = Path.below root names) ∧
            (s.run inputs).Accepts now place) ↔
        ∀ names, (around.tree root).Holds names →
          s.ignores (Path.below root names) = false →
          Tree.KeptOn (fun place => !s.ignores place) root names) := by
  have htold := mem_changes_queue_iff hstart hinitial hroot
  have haccepts := accepts_iff hstart inputs hopen now
  have hsound (place : String) (hplace : place ∈ s.queue.filterMap Event.changed?) :
      (s.run inputs).Accepts now place := by
    obtain ⟨names, hholds, rfl, hkept⟩ := (htold place).1 hplace
    rw [haccepts]
    have hfile := hkept names (List.prefix_refl _) hholds.ne_nil
    simpa using hfile
  refine ⟨?_, htold, hsound, ?_, ?_⟩
  · rw [changes_queue_of_start_of_walks hstart hinitial, hroot, List.flatMap_singleton]
    exact Tree.nodup_walk _ root _ hproper
  · intro hagree names hholds hignored
    have hplace : Path.below root names ∈ s.queue.filterMap Event.changed? :=
      (hagree _).2 ⟨⟨names, hholds, rfl⟩, (haccepts _).2 hignored⟩
    obtain ⟨others, hothers, hsame, hkept⟩ := (htold _).1 hplace
    have hnames : names = others := hproper.below_injective hholds hothers root hsame
    rw [hnames]
    exact hkept
  · intro hclear place
    constructor
    · intro hplace
      obtain ⟨names, hholds, hbelow, -⟩ := (htold place).1 hplace
      exact ⟨⟨names, hholds, hbelow⟩, hsound place hplace⟩
    · rintro ⟨⟨names, hholds, rfl⟩, hplace⟩
      have hkept := hclear names hholds ((haccepts _).1 hplace)
      exact (htold _).2 ⟨names, hholds, rfl, hkept⟩

/-! ## A directory that is passed over -/

/-- With the pattern `build` the directory is passed over, and the file in it is ignored, too. -/
theorem scan_agrees_iff_of_build :
    let o : Options := { ignored := ["build"], ignoreInitial := false }
    ∃ notes s, start Unit workshop ["/w"] o = (notes, .ok s) ∧ o.ignoreInitial = false ∧
      s.paths = ["/w"] ∧ (workshop.tree "/w").Proper ∧ (s.run []).closed = false ∧
      ∀ place, place ∈ s.queue.filterMap Event.changed? ↔
        (∃ names, (workshop.tree "/w").Holds names ∧ place = Path.below "/w" names) ∧
          (s.run []).Accepts 0 place := by
  intro o
  obtain ⟨notes, s, hstart⟩ : ∃ notes s, start Unit workshop ["/w"] o = (notes, .ok s) :=
    ⟨_, _, rfl⟩
  have hroot : s.paths = ["/w"] := paths_of_start hstart
  have hopen : (s.run []).closed = false := (isNew_of_start hstart).closed
  have hagrees := scan_agrees_iff hstart rfl hroot proper_workshop [] hopen 0
  refine ⟨notes, s, hstart, rfl, hroot, proper_workshop, hopen, hagrees.2.2.2.2 ?_⟩
  intro names hholds hignored
  have hignores (place : String) (b : Bool)
      (h : (start Unit workshop ["/w"] o).2.toOption.map (·.ignores place) = some b) :
      s.ignores place = b := by
    rw [hstart] at h
    exact Option.some.inj h
  rcases Tree.holds_listed_iff.1 hholds with ⟨name, hname, rfl⟩ | ⟨name, t, rest, hmem, hrest, rfl⟩
  · rw [Tree.keptOn_singleton_iff]
    simpa using hignored
  · obtain ⟨rfl, rfl⟩ := Prod.mk.inj (List.mem_singleton.1 hmem)
    rcases Tree.holds_listed_iff.1 hrest with ⟨name, hname, rfl⟩ | ⟨_, _, _, hmem, -, -⟩
    · obtain rfl := List.mem_singleton.1 hname
      have hfile := hignores (Path.below "/w" ["build", "b.py"]) true (by decide +kernel)
      exact absurd (hfile.symm.trans hignored) (by decide)
    · exact absurd hmem List.not_mem_nil

/-- **The walk misses an accepted file.** With the pattern `build$` the directory is passed over,
and the file in it is not ignored. -/
theorem scan_misses_accepted :
    ∃ notes s, start Unit workshop ["/w"] { ignored := ["build$"], ignoreInitial := false } =
        (notes, .ok s) ∧
      s.paths = ["/w"] ∧ (workshop.tree "/w").Holds ["build", "b.py"] ∧
      s.Accepts 0 (Path.below "/w" ["build", "b.py"]) ∧
      Path.below "/w" ["build", "b.py"] ∉ s.queue.filterMap Event.changed? := by
  refine ⟨_, _, rfl, rfl, ?_, by decide +kernel, by decide +kernel⟩
  exact .deeper (List.mem_singleton.2 rfl) (.here (List.mem_singleton.2 rfl))

end Subscription

end Marginalia.Notifier
