import Marginalia.Proofs.Notifier.Opening
import Marginalia.Proofs.Notifier.Roots
import Marginalia.Proofs.Notifier.Step

/-!
# Moving a watched directory

What is ignored does not depend on where the watched directory lies.  `Ignore.SeesInside` says this
of one rule: the decision on a path rests on the names that lead to it from the directory.  A
subscription for one directory, which no link leads away from, obeys the rule as well
(`Watches.sees`), although it compares absolute paths and keeps a list of directories.

`ignored_alike_wherever` puts the two together for any two places of the directory.
-/

namespace Marginalia.Notifier.Subscription

variable {ℓ : Type}

/-- The subscription was opened with some patterns for one directory, which no link leads away
from. -/
structure Watches (s : Subscription ℓ) (around : Surroundings) (sources : List String)
    (root : String) : Prop where
  opened : ∃ paths o notes, o.ignored = sources ∧ start ℓ around paths o = (notes, .ok s)
  single : s.paths = [root]
  home : Path.isAbsolute around.home
  unlinked : around.realPath root = Path.absoluteText around.home root

namespace Watches

variable {s : Subscription ℓ} {around : Surroundings} {sources : List String} {root : String}

/-- The patterns of the subscription are read from its sources. -/
lemma patterns (h : s.Watches around sources root) :
    Ignore.readAll (sources.map .source) = .ok s.patterns := by
  obtain ⟨paths, o, notes, rfl, hstart⟩ := h.opened
  exact (fields_of_start hstart).1

/-- The directory has one name for the subscription, its absolute path. -/
lemma ignores_eq (h : s.Watches around sources root) (path : String) :
    s.ignores path = Ignore.isFoundBy s.patterns
      ((Path.insideRoot? around.home (Path.absoluteText around.home path)
        (Path.absoluteText around.home root)).getD path) := by
  obtain ⟨paths, o, notes, -, hstart⟩ := h.opened
  obtain ⟨-, hroots, hhome, -, -⟩ := fields_of_start hstart
  have hone : s.roots = [Path.absoluteText around.home root] := by
    rw [hroots, ← paths_of_start hstart, h.single]
    simp [rootsOf, h.unlinked, List.eraseDups_cons]
  have hne : ∀ name ∈ s.roots, name ≠ "" := by
    rw [hone, List.forall_mem_singleton]
    exact Path.absoluteText_ne_empty h.home root
  rw [ignores_eq_isFoundBy_inside hne, hone, hhome, List.findSome?_singleton]

/-- **A subscription's decision** rests on what lies inside its directory. -/
lemma sees (h : s.Watches around sources root) (hroot : root ≠ "") :
    Ignore.SeesInside around.home root s.ignores (Ignore.isFoundBy s.patterns) := by
  have hleads (names : List String) (path : String) (hnames : ∀ name ∈ names, Path.Plain name)
      (hpath : Path.LeadsTo around.home root names path) :
      s.ignores path = Ignore.isFoundBy s.patterns (Path.ofNames names) := by
    have habsolute : Path.LeadsTo around.home (Path.absoluteText around.home root) names
        (Path.absoluteText around.home path) := by
      refine ⟨Path.absoluteText_ne_empty h.home path, ?_⟩
      rw [Path.absolute_absoluteText h.home, Path.absolute_absoluteText h.home]
      exact hpath.names_eq
    rw [h.ignores_eq, Path.insideRoot?_of_leadsTo hnames habsolute]
    rfl
  refine ⟨fun names hnames => ?_, fun names hnames => ?_, hleads, fun path hout => ?_⟩
  · exact hleads names _ hnames (Path.leadsTo_below hroot hnames around.home)
  · exact hleads names _ hnames (Path.leadsTo_append hroot hnames around.home)
  · have habsolute : ¬ Path.Within around.home (Path.absoluteText around.home root)
        (Path.absoluteText around.home path) := by
      rw [Path.Within, Path.absolute_absoluteText h.home, Path.absolute_absoluteText h.home]
      exact hout
    rw [h.ignores_eq, Path.insideRoot?_of_not_within habsolute]
    rfl

end Watches

/-- **Moving a directory** changes nothing about what is ignored in it.  Take any searches, and two
places of a directory, each with a current directory of its own.

The paths that the same names lead to from the two places are ignored alike: what counts is what the
searches find in the names with slashes between them, however the paths are spelled.  In a path that
lies outside the searches see the path as it is.

The same holds of two subscriptions with the same patterns, for the directory at the one place and
at the other, at any time. -/
theorem ignored_alike_wherever (searches : List (String → Bool)) {root₁ root₂ : String}
    (h₁ : root₁ ≠ "") (h₂ : root₂ ≠ "") (cwd₁ cwd₂ : String) :
    (∀ names, (∀ name ∈ names, Path.Plain name) →
      Ignore.isIgnored searches cwd₁ (Path.below root₁ names) (some root₁) =
        Ignore.isIgnored searches cwd₂ (Path.below root₂ names) (some root₂)) ∧
      Ignore.SeesInside cwd₁ root₁ (fun path => Ignore.isIgnored searches cwd₁ path (some root₁))
        (fun text => searches.any fun search => search text) ∧
      ∀ (around₁ around₂ : Surroundings) (sources : List String) (s₁ s₂ : Subscription ℓ),
        s₁.Watches around₁ sources root₁ → s₂.Watches around₂ sources root₂ →
        ∀ inputs₁ inputs₂ : List (Int × Input ℓ),
          (∀ names, (∀ name ∈ names, Path.Plain name) →
            (s₁.run inputs₁).ignores (Path.below root₁ names) =
              (s₂.run inputs₂).ignores (Path.below root₂ names)) ∧
            Ignore.SeesInside around₁.home root₁ (s₁.run inputs₁).ignores
              (Ignore.isFoundBy s₁.patterns) := by
  refine ⟨?_, Ignore.sees_isIgnored searches cwd₁ h₁, ?_⟩
  · intro names hnames
    have hsees₁ := (Ignore.sees_isIgnored searches cwd₁ h₁).below names hnames
    have hsees₂ := (Ignore.sees_isIgnored searches cwd₂ h₂).below names hnames
    exact hsees₁.trans hsees₂.symm
  · intro around₁ around₂ sources s₁ s₂ hs₁ hs₂ inputs₁ inputs₂
    have hsame : s₁.patterns = s₂.patterns :=
      Except.ok.inj (hs₁.patterns.symm.trans hs₂.patterns)
    have hstays (s : Subscription ℓ) (inputs : List (Int × Input ℓ)) :
        (s.run inputs).ignores = s.ignores :=
      funext (goesOn_run s inputs).ignores
    rw [hstays, hstays]
    refine ⟨fun names hnames => ?_, hs₁.sees h₁⟩
    rw [(hs₁.sees h₁).below names hnames, (hs₂.sees h₂).below names hnames, hsame]

/-- The project `build/app` is not ignored for the name of its directory, neither there nor below
`/srv`. -/
theorem ignored_alike_wherever_of_build_app :
    let around : Surroundings := { home := "/home/u", realPath := Path.absoluteText "/home/u" }
    let o : Options := { ignored := ["build"] }
    let search (text : String) : Bool := text = "build/app/src/a.py"
    "build/./app/" ≠ "" ∧ "/srv//x/.." ≠ "" ∧
      Ignore.isIgnored [search] "/home/u" "build/./app/src/a.py" (some "build/./app/") =
        Ignore.isIgnored [search] "/" "/srv//x/../src/a.py" (some "/srv//x/..") ∧
      ∃ notes₁ s₁ notes₂ s₂, start Unit around ["build/./app/"] o = (notes₁, .ok s₁) ∧
        start Unit around ["/srv//x/.."] o = (notes₂, .ok s₂) ∧
        s₁.ignores "build/./app/src/a.py" = s₂.ignores "/srv//x/../src/a.py" ∧
        s₁.ignores "build/./app/src/a.py" = false ∧ s₁.ignores "/tmp/build/a.py" = true := by
  intro around o search
  obtain ⟨notes₁, s₁, hstart₁⟩ : ∃ notes s, start Unit around ["build/./app/"] o = (notes, .ok s) :=
    ⟨_, _, rfl⟩
  obtain ⟨notes₂, s₂, hstart₂⟩ : ∃ notes s, start Unit around ["/srv//x/.."] o = (notes, .ok s) :=
    ⟨_, _, rfl⟩
  have hreal (path : String) : around.realPath path = Path.absoluteText around.home path := rfl
  have hs₁ : s₁.Watches around ["build"] "build/./app/" :=
    ⟨⟨_, o, notes₁, rfl, hstart₁⟩, paths_of_start hstart₁, by decide, hreal _⟩
  have hs₂ : s₂.Watches around ["build"] "/srv//x/.." :=
    ⟨⟨_, o, notes₂, rfl, hstart₂⟩, paths_of_start hstart₂, by decide, hreal _⟩
  have hfound (text : String) (b : Bool)
      (h : (Ignore.readAll [.source "build"]).toOption.map (Ignore.isFoundBy · text) = some b) :
      Ignore.isFoundBy s₁.patterns text = b := by
    have hread : Ignore.readAll [.source "build"] = .ok s₁.patterns := hs₁.patterns
    rw [hread] at h
    exact Option.some.inj h
  have hnames : ∀ name ∈ ["src", "a.py"], Path.Plain name := by decide
  have h₁ : "build/./app/" ≠ "" := by decide
  have h₂ : "/srv//x/.." ≠ "" := by decide
  obtain ⟨hsearch, -, hmoved⟩ := ignored_alike_wherever [search] h₁ h₂ "/home/u" "/"
  obtain ⟨halike, hsees⟩ := hmoved around around ["build"] s₁ s₂ hs₁ hs₂ [] []
  have hpath₁ : Path.below "build/./app/" ["src", "a.py"] = "build/./app/src/a.py" := by decide
  have hpath₂ : Path.below "/srv//x/.." ["src", "a.py"] = "/srv//x/../src/a.py" := by decide
  have hsame := hsearch _ hnames
  have hlike := halike _ hnames
  have hpart := hsees.below _ hnames
  rw [hpath₁, hpath₂] at hsame hlike
  rw [hpath₁] at hpart
  have houtside : ¬ Path.Within around.home "build/./app/" "/tmp/build/a.py" := by decide
  have hwhole := hsees.outside _ houtside
  have hnone : Ignore.isFoundBy s₁.patterns (Path.ofNames ["src", "a.py"]) = false :=
    hfound _ false (by decide +kernel)
  have hthere : Ignore.isFoundBy s₁.patterns "/tmp/build/a.py" = true :=
    hfound _ true (by decide +kernel)
  exact ⟨h₁, h₂, hsame, notes₁, s₁, notes₂, s₂, hstart₁, hstart₂, hlike, hpart.trans hnone,
    hwhole.trans hthere⟩

end Marginalia.Notifier.Subscription
