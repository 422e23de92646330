import Marginalia.Proofs.Notifier.Opening
import Marginalia.Proofs.Notifier.Roots
import Marginalia.Proofs.Notifier.Step

/-!
# Several watched directories

A subscription for several directories shows its patterns the part of a path inside the first of
them that holds the path.  So it decides as the subscription for that directory alone would,
`ignores_eq_first`, and the order in which the directories are given may matter when one of them
lies in another.

`ignored_in_any_order_iff` says when it does not: all the directories that hold the path would
decide alike.  `dropped_for_outer_directory` has a directory in which nothing is ignored, and a file
in it that is dropped because a directory around it comes first.
-/

namespace Marginalia.Notifier.Subscription

variable {ℓ : Type}

/-! ## The first directory -/

/-- One of the directories holds the path, under one of its names. -/
def holds (s : Subscription ℓ) (path : String) : Bool :=
  s.roots.any fun root => (Path.insideRoot? s.home (Path.absoluteText s.home path) root).isSome

/-- Of the names of several directories the first that holds a path is a name of the first directory
that holds it. -/
lemma find?_flatMap_eq_bind (p : String → Bool) (names : String → List String)
    (directories : List String) :
    (directories.flatMap names).find? p =
      (directories.find? fun directory => (names directory).any p).bind fun directory =>
        (names directory).find? p := by
  induction directories with
  | nil => rfl
  | cons directory rest ih =>
      rw [List.flatMap_cons, List.find?_append, ih, List.find?_cons, ← isSome_find?]
      cases hfound : (names directory).find? p with
      | none => rfl
      | some root => exact hfound.symm

section Made

variable {around : Surroundings} {o : Options} {paths : List String} {s : Subscription ℓ}

lemma locate_eq_map (o : Options) : ∃ place : String → String, ∀ paths : List String,
    locate o paths = paths.map place := by
  unfold locate
  cases o.cwd with
  | none => exact ⟨id, fun paths => (List.map_id paths).symm⟩
  | some cwd =>
      by_cases hcwd : cwd = ""
      · exact ⟨id, fun paths => by simp [hcwd]⟩
      · exact ⟨Path.join cwd, fun paths => by simp [hcwd]⟩

/-- Subscriptions for the same directories or others have the same patterns. -/
lemma patterns_of_make {others : List String} {t : Subscription ℓ}
    (h : make ℓ around paths o = .ok s) (k : make ℓ around others o = .ok t) :
    t.patterns = s.patterns := by
  have hread := (fields_of_make k).1
  rw [(fields_of_make h).1] at hread
  exact (Except.ok.inj hread).symm

variable {alone : String → Subscription ℓ}
  (halone : ∀ directory, make ℓ around [directory] o = .ok (alone directory))

include halone

/-- **The first directory** that holds a path has the root that decides. -/
lemma deciding?_eq_bind (hmake : make ℓ around paths o = .ok s) (path : String) :
    s.deciding? path =
      (paths.find? fun directory => (alone directory).holds path).bind fun directory =>
        (alone directory).deciding? path := by
  obtain ⟨place, hplace⟩ := locate_eq_map o
  let names (directory : String) : List String :=
    [Path.absoluteText around.home (place directory), around.realPath (place directory)]
  let inside (root : String) : Bool :=
    (Path.insideRoot? around.home (Path.absoluteText around.home path) root).isSome
  have hall {directories : List String} {t : Subscription ℓ}
      (ht : make ℓ around directories o = .ok t) :
      t.deciding? path = (directories.flatMap names).find? inside := by
    obtain ⟨-, hroots, hhome, -⟩ := fields_of_make ht
    rw [deciding?, hroots, hhome, hplace, rootsOf, find?_eraseDups, List.flatMap_map]
  have hone (directory : String) :
      (alone directory).deciding? path = (names directory).find? inside := by
    rw [hall (halone directory), List.flatMap_singleton]
  have hholds (directory : String) :
      (alone directory).holds path = (names directory).any inside := by
    rw [← isSome_find?, ← hone, holds, ← isSome_find?, deciding?]
  simp only [hall hmake, hone, hholds]
  exact find?_flatMap_eq_bind inside names paths

/-- **A subscription for several directories** decides as the one for the first of them that holds
the path; if none does the patterns see the whole path. -/
lemma ignores_eq_first (hmake : make ℓ around paths o = .ok s) (path : String) :
    s.ignores path =
      match paths.find? fun directory => (alone directory).holds path with
      | some directory => (alone directory).ignores path
      | none => Ignore.isFoundBy s.patterns path := by
  rw [ignores_eq, deciding?_eq_bind halone hmake]
  cases paths.find? fun directory => (alone directory).holds path with
  | none => rfl
  | some directory =>
      obtain ⟨-, -, hhome, -⟩ := fields_of_make hmake
      obtain ⟨-, -, hhome', -⟩ := fields_of_make (halone directory)
      rw [Option.bind_some]
      dsimp only
      rw [ignores_eq, patterns_of_make hmake (halone directory), hhome, hhome']

/-- A directory that holds the path decides when it comes first. -/
lemma ignores_of_head {directory path : String} (hholds : (alone directory).holds path)
    (hmake : make ℓ around (directory :: paths) o = .ok s) :
    s.ignores path = (alone directory).ignores path := by
  rw [ignores_eq_first halone hmake, List.find?_cons, hholds]

/-- **The order of the directories** matters for a path exactly when two of them that hold it would
decide on it in different ways.

In any order the first of the directories that hold a path decides, at any time, as a subscription
for it alone would; where none holds it the patterns see the whole path.  So a path is dropped if
its part inside the first of them is ignored, whatever the others would say. -/
theorem ignored_in_any_order_iff (hmake : make ℓ around paths o = .ok s) (path : String) :
    (∀ inputs, (s.run inputs).ignores path =
        match paths.find? fun directory => (alone directory).holds path with
        | some directory => (alone directory).ignores path
        | none => Ignore.isFoundBy s.patterns path) ∧
      ((∀ paths', paths.Perm paths' →
          ∃ t, make ℓ around paths' o = .ok t ∧ t.ignores path = s.ignores path) ↔
        ∀ directory ∈ paths, ∀ other ∈ paths,
          (alone directory).holds path → (alone other).holds path →
            (alone directory).ignores path = (alone other).ignores path) := by
  refine ⟨fun inputs => ?_, ?_, ?_⟩
  · rw [(goesOn_run s inputs).ignores]
    exact ignores_eq_first halone hmake path
  · intro hany directory hdirectory other hother hholds hholds'
    have hfirst {directory : String} (hmem : directory ∈ paths)
        (hholds : (alone directory).holds path) :
        s.ignores path = (alone directory).ignores path := by
      obtain ⟨t, ht, hsame⟩ := hany (directory :: paths.erase directory)
        (List.perm_cons_erase hmem)
      rw [← hsame]
      exact ignores_of_head halone hholds ht
    exact (hfirst hdirectory hholds).symm.trans (hfirst hother hholds')
  · intro halike paths' hperm
    obtain ⟨t, ht⟩ : ∃ t, make ℓ around paths' o = .ok t :=
      exists_make (fields_of_make hmake).1 paths'
    refine ⟨t, ht, ?_⟩
    rw [ignores_eq_first halone ht, ignores_eq_first halone hmake, patterns_of_make hmake ht]
    cases hfound : paths.find? fun directory => (alone directory).holds path with
    | none =>
        have hnone : (paths'.find? fun directory => (alone directory).holds path) = none :=
          List.find?_eq_none.2 fun directory hmem =>
            List.find?_eq_none.1 hfound directory (hperm.mem_iff.2 hmem)
        rw [hnone]
    | some directory =>
        have hmem := List.mem_of_find?_eq_some hfound
        have hholds := List.find?_some (p := fun directory => (alone directory).holds path) hfound
        cases hfound' : paths'.find? fun directory => (alone directory).holds path with
        | none =>
            have hmem' := hperm.mem_iff.1 hmem
            exact absurd hholds (List.find?_eq_none.1 hfound' directory hmem')
        | some other =>
            have hmem' := hperm.mem_iff.2 (List.mem_of_find?_eq_some hfound')
            have hholds' := List.find?_some (p := fun other => (alone other).holds path) hfound'
            exact halike other hmem' directory hmem hholds' hholds

end Made

/-! ## One directory in another -/

/-- An example without links. -/
def unlinked : Surroundings where
  home := "/w"
  realPath := Path.absoluteText "/w"

/-- What holds of a subscription that is made can be computed. -/
lemma of_make {around : Surroundings} {paths : List String} {o : Options} {s : Subscription ℓ}
    (p : Subscription ℓ → Prop) [DecidablePred p] (hmake : make ℓ around paths o = .ok s)
    (h : (match make ℓ around paths o with
      | .ok s => decide (p s)
      | .error _ => false) = true) : p s := by
  rw [hmake] at h
  exact of_decide_eq_true h

/-- The file `build.py` in `/r/build` is dropped by `/r` for the name of the directory and by
`/r/build` for its own: so it is dropped whichever of the two is given first. -/
theorem ignored_in_any_order_iff_of_nested :
    let o : Options := { ignored := ["build"] }
    let path := "/r/build/build.py"
    ∃ (s : Subscription Unit) (alone : String → Subscription Unit),
      make Unit unlinked ["/r", "/r/build", "/s"] o = .ok s ∧
      (∀ directory, make Unit unlinked [directory] o = .ok (alone directory)) ∧
      (alone "/r").holds path ∧ (alone "/r/build").holds path ∧ ¬ (alone "/s").holds path ∧
      s.ignores path = true ∧
      ∃ t, make Unit unlinked ["/s", "/r/build", "/r"] o = .ok t ∧
        t.ignores path = s.ignores path := by
  intro o path
  obtain ⟨s, hmake⟩ : ∃ s, make Unit unlinked ["/r", "/r/build", "/s"] o = .ok s := ⟨_, rfl⟩
  have hmakes (directory : String) : ∃ t, make Unit unlinked [directory] o = .ok t :=
    exists_make (fields_of_make hmake).1 [directory]
  choose alone halone using hmakes
  have houter : (alone "/r").holds path ∧ (alone "/r").ignores path = true :=
    of_make (fun t => t.holds path ∧ t.ignores path = true) (halone _) (by decide +kernel)
  have hinner : (alone "/r/build").holds path ∧ (alone "/r/build").ignores path = true :=
    of_make (fun t => t.holds path ∧ t.ignores path = true) (halone _) (by decide +kernel)
  have hother : ¬ (alone "/s").holds path :=
    of_make (fun t => ¬ t.holds path) (halone _) (by decide +kernel)
  have hdropped : ∀ directory ∈ ["/r", "/r/build", "/s"], (alone directory).holds path →
      (alone directory).ignores path = true := by
    simp only [List.forall_mem_cons]
    exact ⟨fun _ => houter.2, fun _ => hinner.2, fun h => absurd h hother,
      fun _ hmem => absurd hmem List.not_mem_nil⟩
  have hs : s.ignores path = true :=
    of_make (fun s => s.ignores path = true) hmake (by decide +kernel)
  have hsame := (ignored_in_any_order_iff halone hmake path).2.2
    (fun directory hmem other hmem' hholds hholds' =>
      (hdropped directory hmem hholds).trans (hdropped other hmem' hholds').symm)
    ["/s", "/r/build", "/r"] (by decide)
  exact ⟨s, alone, hmake, halone, houter.1, hinner.1, hother, hs, hsame⟩

/-- **A directory around another one** takes part of it away: with the pattern `build` the file
`a.py` in `/r/build` is dropped if `/r` is given first, although nothing is found in its name, and
not if `/r/build` is given first or alone. -/
theorem dropped_for_outer_directory :
    let o : Options := { ignored := ["build"] }
    let path := "/r/build/a.py"
    ∃ s t alone : Subscription Unit, make Unit unlinked ["/r", "/r/build"] o = .ok s ∧
      make Unit unlinked ["/r/build", "/r"] o = .ok t ∧
      make Unit unlinked ["/r/build"] o = .ok alone ∧
      Path.insideRoot? unlinked.home path "/r/build" = some "a.py" ∧
      Ignore.isFoundBy s.patterns "a.py" = false ∧
      alone.ignores path = false ∧ t.ignores path = false ∧ s.ignores path = true := by
  intro o path
  obtain ⟨s, hs⟩ : ∃ s, make Unit unlinked ["/r", "/r/build"] o = .ok s := ⟨_, rfl⟩
  obtain ⟨t, ht⟩ : ∃ t, make Unit unlinked ["/r/build", "/r"] o = .ok t := ⟨_, rfl⟩
  obtain ⟨alone, halone⟩ : ∃ alone, make Unit unlinked ["/r/build"] o = .ok alone := ⟨_, rfl⟩
  have houter : Ignore.isFoundBy s.patterns "a.py" = false ∧ s.ignores path = true :=
    of_make (fun s => Ignore.isFoundBy s.patterns "a.py" = false ∧ s.ignores path = true) hs
      (by decide +kernel)
  have hinner : t.ignores path = false :=
    of_make (fun t => t.ignores path = false) ht (by decide +kernel)
  have hsingle : alone.ignores path = false :=
    of_make (fun t => t.ignores path = false) halone (by decide +kernel)
  exact ⟨s, t, alone, hs, ht, halone, by decide, houter.1, hsingle, hinner, houter.2⟩

end Marginalia.Notifier.Subscription
