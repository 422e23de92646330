import Marginalia.Proofs.Ignore

/-!
# Containment by components

Whether a path lies inside a directory is decided on the text of the way from the one to the
other: it must not be `..` nor begin with `../`.  This module says what that comes to.  The
components of an absolute path are the names between its slashes, and a path lies inside a
directory exactly when its components begin with those of the directory; what is seen of it are
the components that remain.

`components_absoluteText` finds the components in the normal form, where following the two paths has
left plain names only, and `insideRoot?_iff_components` is the result.
-/

namespace Marginalia.Path

/-- The components of a path, the names between its slashes. -/
def components (path : String) : List String :=
  (pieces path).filter (· ≠ "")

variable {cwd path root : String}

lemma filter_of_plain {names : List String} (h : ∀ name ∈ names, Plain name) :
    names.filter (· ≠ "") = names :=
  List.filter_eq_self.2 fun name hname => decide_eq_true (h name hname).ne_empty

/-- The slashes that a normal form begins with hold no components. -/
lemma components_render {n : Normal} (h : n.IsRooted) : components n.render = n.names := by
  have hfront : (List.replicate n.slashes "").filter (· ≠ "") = [] :=
    List.filter_eq_nil_iff.2 fun name hname => by simp [List.eq_of_mem_replicate hname]
  rw [components, pieces_render h, List.filter_append, hfront, List.nil_append]
  by_cases hnil : n.names = []
  · rw [if_pos hnil, hnil]
    rfl
  · rw [if_neg hnil, filter_of_plain h.plain]

lemma components_absoluteText (h : isAbsolute cwd) (path : String) :
    components (absoluteText cwd path) = (absolute cwd path).names :=
  components_render (isRooted_absolute h path)

/-- The components of an absolute path are plain names. -/
lemma plain_of_mem_components (h : isAbsolute cwd) {name : String}
    (hname : name ∈ components (absoluteText cwd path)) : Plain name := by
  rw [components_absoluteText h] at hname
  exact (isRooted_absolute h path).plain name hname

/-- A path whose components begin with those of the root is seen as the components that remain. -/
lemma insideRoot?_of_components_eq (hcwd : isAbsolute cwd) (hpath : path ≠ "") {rest : List String}
    (hrest : components (absoluteText cwd path) = components (absoluteText cwd root) ++ rest) :
    insideRoot? cwd path root = some (ofNames rest) := by
  have hplain : ∀ name ∈ rest, Plain name := by
    intro name hname
    have hmem : name ∈ components (absoluteText cwd path) := by
      rw [hrest]
      exact List.mem_append_right _ hname
    exact plain_of_mem_components hcwd hmem
  rw [components_absoluteText hcwd, components_absoluteText hcwd] at hrest
  exact insideRoot?_of_leadsTo hplain ⟨hpath, hrest⟩

/-- A path whose components do not begin with those of the root is not seen. -/
lemma insideRoot?_of_components_ne (hcwd : isAbsolute cwd)
    (hout : ¬ components (absoluteText cwd root) <+: components (absoluteText cwd path)) :
    insideRoot? cwd path root = none := by
  rw [components_absoluteText hcwd, components_absoluteText hcwd] at hout
  exact insideRoot?_of_not_within hout

/-- A list that goes on with another name does not begin with the first list. -/
lemma not_begins_of_ne {front tail : List String} {name other : String} (h : name ≠ other) :
    ¬ front ++ [name] <+: front ++ other :: tail := by
  rw [List.prefix_append_right_inj, List.cons_prefix_cons]
  exact fun hstarts => h hstarts.1

/-- **Containment goes by components.** A path is seen from a root exactly when the components of
its absolute path begin with those of the root's; what is seen is what remains of them, with slashes
between, or `.` if nothing does.

So a name that goes on where the name of the root ends lies outside, and a name inside the root may
begin with two dots. -/
theorem insideRoot?_iff_components (hcwd : isAbsolute cwd) (hpath : path ≠ "") (root : String) :
    (∀ way, insideRoot? cwd path root = some way ↔
        ∃ rest, components (absoluteText cwd path) = components (absoluteText cwd root) ++ rest ∧
          way = if rest = [] then "." else "/".intercalate rest) ∧
      (insideRoot? cwd path root = none ↔
        ¬ components (absoluteText cwd root) <+: components (absoluteText cwd path)) ∧
      (∀ front name more tail, more ≠ "" →
        components (absoluteText cwd root) = front ++ [name] →
        components (absoluteText cwd path) = front ++ (name ++ more) :: tail →
        insideRoot? cwd path root = none) ∧
      ∀ more tail,
        components (absoluteText cwd path) =
          components (absoluteText cwd root) ++ (".." ++ more) :: tail →
        insideRoot? cwd path root = some ("/".intercalate ((".." ++ more) :: tail)) := by
  have hinside {rest : List String}
      (hrest : components (absoluteText cwd path) = components (absoluteText cwd root) ++ rest) :
      insideRoot? cwd path root = some (if rest = [] then "." else "/".intercalate rest) := by
    rw [insideRoot?_of_components_eq hcwd hpath hrest, ofNames]
    simp only [List.isEmpty_iff]
  refine ⟨fun way => ⟨fun hway => ?_, ?_⟩, ⟨fun hnone hstarts => ?_, ?_⟩, ?_, ?_⟩
  · by_cases hstarts :
        components (absoluteText cwd root) <+: components (absoluteText cwd path)
    · obtain ⟨rest, hrest⟩ := hstarts
      rw [hinside hrest.symm] at hway
      exact ⟨rest, hrest.symm, (Option.some.inj hway).symm⟩
    · rw [insideRoot?_of_components_ne hcwd hstarts] at hway
      cases hway
  · rintro ⟨rest, hrest, rfl⟩
    exact hinside hrest
  · obtain ⟨rest, hrest⟩ := hstarts
    rw [hinside hrest.symm] at hnone
    cases hnone
  · exact insideRoot?_of_components_ne hcwd
  · intro front name more tail hmore hroot hlonger
    have hne : name ≠ name ++ more := fun hsame => hmore (String.append_eq_left_iff.1 hsame.symm)
    refine insideRoot?_of_components_ne hcwd ?_
    rw [hroot, hlonger]
    exact not_begins_of_ne hne
  · intro more tail hdots
    rw [hinside hdots, if_neg (List.cons_ne_nil _ _)]

/-- Below `/w`, the directory `proj` holds `..build` but not the files of `proj2`. -/
theorem insideRoot?_iff_components_of_siblings :
    isAbsolute "/w" ∧ "proj/./..build//x.py" ≠ "" ∧ "/w/proj2/b.py" ≠ "" ∧ "../w/proj" ≠ "" ∧
      insideRoot? "/w" "proj/./..build//x.py" "//w/a/../proj/" = some "..build/x.py" ∧
      insideRoot? "/w" "/w/proj2/b.py" "proj" = none ∧
      insideRoot? "/w" "../w/proj" "proj" = some "." := by
  have hcwd : isAbsolute "/w" := by decide
  have hdots : "proj/./..build//x.py" ≠ "" := by decide
  have hsibling : "/w/proj2/b.py" ≠ "" := by decide
  have hself : "../w/proj" ≠ "" := by decide
  obtain ⟨-, -, -, hbelow⟩ := insideRoot?_iff_components hcwd hdots "//w/a/../proj/"
  obtain ⟨-, -, hbeside, -⟩ := insideRoot?_iff_components hcwd hsibling "proj"
  obtain ⟨hat, -, -, -⟩ := insideRoot?_iff_components hcwd hself "proj"
  have hway : "/".intercalate [".." ++ "build", "x.py"] = "..build/x.py" := by decide
  refine ⟨hcwd, hdots, hsibling, hself, ?_, ?_, ?_⟩
  · rw [← hway]
    exact hbelow "build" ["x.py"] (by decide +kernel)
  · exact hbeside ["w"] "proj" "2" ["b.py"] (by decide) (by decide +kernel) (by decide +kernel)
  · exact (hat ".").2 ⟨[], by decide +kernel, rfl⟩

end Marginalia.Path
