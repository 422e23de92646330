import Marginalia.Ignore
import Marginalia.Proofs.Tree

/-!
# What patterns see of a path

With a root, patterns see the names that lead to a path from the root, and a path outside the root
as it is written.  This module says so without the relative path that the program computes:
`Path.LeadsTo` compares the names of two absolute paths, and `Path.Within` says that one begins with
the other.  `Path.leadsTo_below` and `Path.leadsTo_append` show that this is what it means to write
names behind a directory, whatever dots and slashes the directory itself is written with;
`Path.insideRoot?_of_leadsTo` and `Path.insideRoot?_of_not_within` are the two cases.

`Ignore.SeesInside` is the rule that follows for a decision on paths, and `Ignore.sees_isIgnored`
says that ignoring paths by any searches obeys it.
-/

namespace Marginalia

namespace Path

/-! ## Names behind a directory -/

lemma pieces_append (front back : String) :
    pieces (front ++ "/" ++ back) = pieces front ++ pieces back := by
  have hcut : (front ++ "/" ++ back).toList = front.toList ++ '/' :: back.toList := by simp
  rw [pieces, hcut, List.splitOn_append_cons_self, List.map_append]
  rfl

lemma pieces_empty : pieces "" = [""] := rfl

/-- A slash at the end is followed by an empty piece. -/
lemma pieces_slash (front : String) : pieces (front ++ "/") = pieces front ++ [""] := by
  rw [← pieces_empty, ← pieces_append, String.append_empty]

lemma exists_append_slash {path : String} (h : path.toList.getLast? = some '/') :
    ∃ front, path = front ++ "/" := by
  obtain ⟨cs, hcs⟩ := List.getLast?_eq_some_iff.1 h
  exact ⟨String.ofList cs, String.toList_inj.1 (by simp [hcs])⟩

lemma follow_empty (rooted : Bool) (names : List String) : follow rooted names "" = names :=
  if_pos (Or.inl rfl)

/-- Following the pieces of plain names goes down all of them. -/
lemma foldl_follow_pieces {names : List String} (h : ∀ name ∈ names, Plain name) (rooted : Bool)
    (before : List String) :
    (pieces ("/".intercalate names)).foldl (follow rooted) before = names.reverse ++ before := by
  rw [pieces_intercalate fun name hname => (h name hname).no_slash]
  by_cases hnil : names = []
  · rw [if_pos hnil, hnil, List.foldl_cons, follow_empty]
    rfl
  · rw [if_neg hnil, foldl_follow_of_plain h]

/-- A path is followed from the root exactly when it begins there. -/
lemma rooted_iff (path : String) : decide (0 < leadingSlashes path.toList) = isAbsolute path := by
  rw [isAbsolute]
  unfold leadingSlashes
  cases hcs : path.toList with
  | nil => rfl
  | cons c cs =>
      by_cases hc : c = '/'
      · subst hc
        split <;> simp_all
      · simp [hc]

lemma isAbsolute_append {front : String} (h : front ≠ "") (back : String) :
    isAbsolute (front ++ back) = isAbsolute front := by
  have hne : front.toList ≠ [] := fun hnil => h (String.toList_eq_nil_iff.1 hnil)
  rw [isAbsolute, isAbsolute, String.toList_append, List.head?_append_of_ne_nil _ hne]

/-- The normal form, with the pieces followed one after the other. -/
lemma names_normalize (path : String) :
    (normalize path).names = ((pieces path).foldl (follow (isAbsolute path)) []).reverse := by
  rw [← rooted_iff]
  rfl

/-- **Plain names behind a slash** are the last names of the normal form. -/
lemma names_normalize_append {names : List String} (h : ∀ name ∈ names, Plain name)
    (front : String) :
    (normalize (front ++ "/" ++ "/".intercalate names)).names =
      (normalize (front ++ "/")).names ++ names := by
  have hne : front ++ "/" ≠ "" := by simp
  rw [names_normalize, names_normalize, isAbsolute_append hne, pieces_append, pieces_slash,
    List.foldl_append, List.foldl_append, foldl_follow_pieces h, List.foldl_cons, follow_empty,
    List.reverse_append, List.reverse_reverse]
  rfl

/-- A slash at the end makes no difference. -/
lemma names_normalize_slash {path : String} (h : path ≠ "") :
    (normalize (path ++ "/")).names = (normalize path).names := by
  rw [names_normalize, names_normalize, isAbsolute_append h, pieces_slash, List.foldl_append,
    List.foldl_cons, follow_empty]
  rfl

/-- A path is followed from the current directory from its beginning on: whatever stands behind it
does not matter. -/
lemma exists_absolute_append (cwd : String) {path : String} (h : path ≠ "") :
    ∃ start, ∀ back, absolute cwd (path ++ back) = normalize (start ++ path ++ back) := by
  by_cases habsolute : isAbsolute path = true
  · refine ⟨"", fun back => ?_⟩
    rw [absolute, isAbsolute_append h, if_pos habsolute, String.empty_append]
  · refine ⟨if cwd = "" || cwd.toList.getLast? = some '/' then cwd else cwd ++ "/", fun back => ?_⟩
    rw [absolute, isAbsolute_append h, if_neg habsolute, join, isAbsolute_append h,
      if_neg habsolute]
    split <;> simp only [String.append_assoc]

/-- The path leads from the directory over some names. -/
structure LeadsTo (cwd directory : String) (names : List String) (path : String) : Prop where
  ne_empty : path ≠ ""
  names_eq : (absolute cwd path).names = (absolute cwd directory).names ++ names

variable {cwd directory : String} {names : List String}

/-- Names written behind a directory and a slash lead from the directory. -/
lemma leadsTo_append (hdirectory : directory ≠ "") (h : ∀ name ∈ names, Plain name) (cwd : String) :
    LeadsTo cwd directory names (directory ++ "/" ++ "/".intercalate names) := by
  obtain ⟨start, hstart⟩ := exists_absolute_append cwd hdirectory
  refine ⟨by simp, ?_⟩
  have hempty := hstart ""
  rw [String.append_empty, String.append_empty] at hempty
  rw [String.append_assoc, hstart, hempty, ← String.append_assoc, names_normalize_append h,
    names_normalize_slash]
  simp [hdirectory]

/-- Names that are followed from a directory lead from it. -/
lemma leadsTo_below (hdirectory : directory ≠ "") (h : ∀ name ∈ names, Plain name) (cwd : String) :
    LeadsTo cwd directory names (below directory names) := by
  by_cases hnil : names = []
  · rw [hnil]
    exact ⟨hdirectory, (List.append_nil _).symm⟩
  by_cases hslash : directory.toList.getLast? = some '/'
  · -- The directory ends with the slash that the names stand behind.
    obtain ⟨front, rfl⟩ := exists_append_slash hslash
    have htext : below (front ++ "/") names = front ++ "/" ++ "/".intercalate names := by
      apply String.toList_inj.1
      rw [toList_below h hnil, stem, if_pos (Or.inr hslash)]
      simp [String.toList_intercalate]
    obtain ⟨start, hstart⟩ := exists_absolute_append cwd hdirectory
    have hempty := hstart ""
    rw [String.append_empty, String.append_empty] at hempty
    refine ⟨by rw [htext]; simp, ?_⟩
    rw [htext, hstart, hempty, ← String.append_assoc, names_normalize_append h]
  · have htext : below directory names = directory ++ "/" ++ "/".intercalate names := by
      apply String.toList_inj.1
      rw [toList_below h hnil, stem, if_neg (by simp [hdirectory, hslash])]
      simp [String.toList_intercalate]
    rw [htext]
    exact leadsTo_append hdirectory h cwd

/-! ## Inside a directory -/

lemma dropShared_append (ns ms : List String) : dropShared ns (ns ++ ms) = ([], ms) := by
  induction ns with
  | nil => cases ms <;> rfl
  | cons n ns ih => simp [dropShared, ih]

/-- Nothing is left of the first list exactly when the second begins with it. -/
lemma fst_dropShared_eq_nil_iff {ns ms : List String} :
    (dropShared ns ms).1 = [] ↔ ns <+: ms := by
  induction ns generalizing ms with
  | nil => cases ms <;> simp [dropShared]
  | cons n ns ih =>
      cases ms with
      | nil => simp [dropShared]
      | cons m ms =>
          by_cases hnm : n = m
          · simp [dropShared, hnm, ih]
          · simp [dropShared, hnm]

/-- A text goes on with `../` from its beginning only if `..` stands before its first slash. -/
lemma up_prefix_iff {front : List Char} (h : '/' ∉ front) (back : List Char) :
    ['.', '.', '/'] <+: front ++ '/' :: back ↔ front = ['.', '.'] := by
  constructor
  · rintro ⟨rest, hrest⟩
    match front, h with
    | [], _ => simp at hrest
    | [a], _ => simp at hrest
    | [a, b], _ =>
        simp only [List.cons_append, List.cons.injEq] at hrest
        rw [← hrest.1, ← hrest.2.1]
    | a :: b :: c :: cs, h => simp_all
  · rintro rfl
    exact ⟨back, rfl⟩

/-- **A way leads up** when its first piece does. -/
lemma leadsUp_iff (way : String) :
    (way = ".." || "../".toList.isPrefixOf way.toList) = true ↔
      (pieces way).head? = some ".." := by
  have hup : "../".toList = ['.', '.', '/'] := rfl
  have hdots : way = ".." ↔ way.toList = ['.', '.'] := String.toList_inj.symm
  rw [Bool.or_eq_true, decide_eq_true_iff, List.isPrefixOf_iff_prefix, hup, hdots]
  by_cases hslash : '/' ∈ way.toList
  · obtain ⟨front, back, hway, hfront⟩ := List.eq_append_cons_of_mem hslash
    have hpieces : (pieces way).head? = some (String.ofList front) := by
      rw [pieces, hway, List.splitOn_append_cons_self, List.splitOn_eq_singleton hfront]
      rfl
    have hlong : way.toList ≠ ['.', '.'] := by
      intro hshort
      rw [hshort] at hslash
      simp at hslash
    rw [hpieces, hway, up_prefix_iff hfront, Option.some.injEq, ← String.toList_inj,
      String.toList_ofList, ← hway]
    exact or_iff_right hlong
  · have hpieces : (pieces way).head? = some way := by
      rw [pieces, List.splitOn_eq_singleton hslash, List.map_singleton, String.ofList_toList]
      rfl
    have hnone : ¬ ['.', '.', '/'] <+: way.toList :=
      fun hstarts => hslash (hstarts.subset (by simp))
    rw [hpieces, Option.some.injEq, hdots]
    exact or_iff_left hnone

/-- Names whose first one is `..` lead up. -/
lemma head?_pieces_ofNames_up (names : List String) :
    (pieces (ofNames (".." :: names))).head? = some ".." := by
  rw [ofNames, if_neg (by simp)]
  by_cases hnil : names = []
  · rw [hnil, String.intercalate_singleton]
    rfl
  · rw [String.intercalate_cons_of_ne_nil hnil, pieces_append]
    rfl

/-- Plain names do not. -/
lemma head?_pieces_ofNames_ne {names : List String} (h : ∀ name ∈ names, Plain name) :
    (pieces (ofNames names)).head? ≠ some ".." := by
  by_cases hnil : names = []
  · rw [hnil]
    decide
  · rw [ofNames, if_neg (by simpa using hnil),
      pieces_intercalate fun name hname => (h name hname).no_slash, if_neg hnil]
    intro hup
    exact (h ".." (List.mem_of_head? hup)).ne_dots rfl

/-- The path lies at the directory or below it. -/
def Within (cwd directory path : String) : Prop :=
  (absolute cwd directory).names <+: (absolute cwd path).names

instance (cwd directory path : String) : Decidable (Within cwd directory path) :=
  inferInstanceAs (Decidable (_ <+: _))

/-- **A path inside a directory** is seen from there as the names that lead to it. -/
lemma insideRoot?_of_leadsTo (h : ∀ name ∈ names, Plain name) {path : String}
    (hleads : LeadsTo cwd directory names path) :
    insideRoot? cwd path directory = some (ofNames names) := by
  have hway : relative? cwd path directory = some (ofNames names) := by
    rw [relative?, if_neg hleads.ne_empty, hleads.names_eq, dropShared_append]
    rfl
  have hdown := (leadsUp_iff (ofNames names)).not.2 (head?_pieces_ofNames_ne h)
  rw [insideRoot?, hway]
  exact if_neg hdown

/-- **A path outside** is not seen from the directory. -/
lemma insideRoot?_of_not_within {path : String} (h : ¬ Within cwd directory path) :
    insideRoot? cwd path directory = none := by
  by_cases hempty : path = ""
  · rw [insideRoot?, relative?, if_pos hempty]
  rw [Within, ← fst_dropShared_eq_nil_iff] at h
  obtain ⟨name, names, hrest⟩ := List.exists_cons_of_ne_nil h
  have hway : ∃ more, relative? cwd path directory = some (ofNames (".." :: more)) := by
    rw [relative?, if_neg hempty]
    dsimp only
    rw [hrest]
    exact ⟨_, rfl⟩
  obtain ⟨more, hmore⟩ := hway
  have hup := (leadsUp_iff (ofNames (".." :: more))).2 (head?_pieces_ofNames_up more)
  rw [insideRoot?, hmore]
  exact if_pos hup

end Path

namespace Ignore

/-! ## Ignored paths -/

/-- One of the patterns is found in the text. -/
def isFoundBy (patterns : List Pattern) (text : String) : Bool :=
  patterns.any (·.isFoundIn text)

/-- Patterns decide by what is found in the visible part of the path. -/
lemma isIgnoredBy_eq (patterns : List Pattern) (cwd path : String) (root : Option String) :
    isIgnoredBy patterns cwd path root = isFoundBy patterns (visiblePart cwd path root) := by
  simp [isIgnoredBy, isIgnored, isFoundBy, List.any_map, Function.comp_def]

/-- Patterns see the part of a path inside the root, or else the whole path. -/
lemma isIgnoredBy_eq_isFoundBy (patterns : List Pattern) (home path : String) {root : String}
    (hroot : root ≠ "") :
    isIgnoredBy patterns home path (some root) =
      isFoundBy patterns ((Path.insideRoot? home path root).getD path) := by
  rw [isIgnoredBy_eq, visiblePart, if_neg hroot]

lemma isIgnoredBy_none (patterns : List Pattern) (home path : String) :
    isIgnoredBy patterns home path none = isFoundBy patterns path :=
  isIgnoredBy_eq patterns home path none

/-- The decision on a path rests on what is found in the names that lead to it from a directory, and
on what is found in the path itself when it lies outside. -/
structure SeesInside (cwd root : String) (ignores found : String → Bool) : Prop where
  below (names : List String) : (∀ name ∈ names, Path.Plain name) →
    ignores (Path.below root names) = found (Path.ofNames names)
  append (names : List String) : (∀ name ∈ names, Path.Plain name) →
    ignores (root ++ "/" ++ "/".intercalate names) = found (Path.ofNames names)
  /-- However the path is spelled. -/
  leadsTo (names : List String) (path : String) : (∀ name ∈ names, Path.Plain name) →
    Path.LeadsTo cwd root names path → ignores path = found (Path.ofNames names)
  outside (path : String) : ¬ Path.Within cwd root path → ignores path = found path

/-- **Ignoring paths by some searches** rests on what lies inside the root. -/
lemma sees_isIgnored {root : String} (searches : List (String → Bool)) (cwd : String)
    (hroot : root ≠ "") :
    SeesInside cwd root (fun path => isIgnored searches cwd path (some root))
      (fun text => searches.any fun search => search text) := by
  have hvisible (path : String) : visiblePart cwd path (some root) =
      (Path.insideRoot? cwd path root).getD path := if_neg hroot
  have hleads (names : List String) (path : String) (h : ∀ name ∈ names, Path.Plain name)
      (hpath : Path.LeadsTo cwd root names path) :
      isIgnored searches cwd path (some root) =
        searches.any fun search => search (Path.ofNames names) := by
    rw [isIgnored, hvisible, Path.insideRoot?_of_leadsTo h hpath]
    rfl
  refine ⟨fun names h => hleads names _ h (Path.leadsTo_below hroot h cwd),
    fun names h => hleads names _ h (Path.leadsTo_append hroot h cwd), hleads, ?_⟩
  intro path hout
  rw [isIgnored, hvisible, Path.insideRoot?_of_not_within hout]
  rfl

end Ignore

end Marginalia
