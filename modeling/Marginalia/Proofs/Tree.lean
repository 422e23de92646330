import Marginalia.Proofs.Path
import Marginalia.Tree

/-!
# What a walk finds

A walk through a directory passes over what `keeps` refuses, and it refuses directories as well as
files.  This module says what is left.  `Tree.Holds` is the tree as it stands: the names that lead
from the directory down to a file, through directories that can be listed.  `Path.below` is the path
of the place that some names lead to.

`mem_walk_iff` says that a walk finds a file exactly when neither the file nor any directory on the
way to it is refused, and `nodup_walk` that it finds no file twice.  For the latter the tree has to
be `Proper`, with names that name one thing each; `below_injective` is the fact about paths behind
it.
-/

namespace Marginalia

/-! ## Places below a directory -/

namespace Path

/-- The place that some names lead to from a directory. -/
def below (directory : String) (names : List String) : String :=
  names.foldl join directory

@[simp] lemma below_nil (directory : String) : below directory [] = directory := rfl

@[simp] lemma below_cons (directory name : String) (names : List String) :
    below directory (name :: names) = below (join directory name) names := rfl

/-- The text of a directory, with the slash that a name is put behind. -/
def stem (directory : String) : List Char :=
  if directory = "" ∨ directory.toList.getLast? = some '/' then directory.toList
  else directory.toList ++ ['/']

instance (name : String) : Decidable (Plain name) :=
  decidable_of_iff (name ≠ "" ∧ name ≠ "." ∧ name ≠ ".." ∧ '/' ∉ name.toList)
    ⟨fun ⟨hempty, hdot, hdots, hslash⟩ => ⟨hempty, hdot, hdots, hslash⟩,
      fun h => ⟨h.ne_empty, h.ne_dot, h.ne_dots, h.no_slash⟩⟩

lemma Plain.not_isAbsolute {name : String} (h : Plain name) : ¬ isAbsolute name = true := by
  intro habsolute
  obtain ⟨cs, hcs⟩ := isAbsolute_iff.1 habsolute
  have hslash : '/' ∈ name.toList := by simp [hcs]
  exact h.no_slash hslash

lemma toList_join {name : String} (h : Plain name) (directory : String) :
    (join directory name).toList = stem directory ++ name.toList := by
  unfold join stem
  rw [if_neg h.not_isAbsolute]
  by_cases hd : directory = "" ∨ directory.toList.getLast? = some '/'
  · have hb : (directory = "" || directory.toList.getLast? = some '/') = true := by simpa using hd
    rw [if_pos hb, if_pos hd, String.toList_append]
  · have hb : ¬ (directory = "" || directory.toList.getLast? = some '/') = true := by simpa using hd
    rw [if_neg hb, if_neg hd, String.toList_append, String.toList_append]
    rfl

/-- A name stands alone behind the slash, so that another one follows behind a further slash. -/
lemma stem_join {name : String} (h : Plain name) (directory : String) :
    stem (join directory name) = stem directory ++ name.toList ++ ['/'] := by
  have hjoin := toList_join h directory
  have hne : name.toList ≠ [] := fun hnil => h.ne_empty (String.toList_eq_nil_iff.1 hnil)
  have hempty : ¬ join directory name = "" := by
    intro hnil
    rw [hnil] at hjoin
    have hboth := List.append_eq_nil_iff.1 hjoin.symm
    exact hne hboth.2
  have hlast : ¬ (join directory name).toList.getLast? = some '/' := by
    rw [hjoin, List.getLast?_append_of_ne_nil _ hne]
    intro hslash
    exact h.no_slash (List.mem_of_getLast? hslash)
  unfold stem
  rw [if_neg (by simp [hempty, hlast]), hjoin]
  rfl

/-- A place below a directory, letter by letter. -/
lemma toList_below {names : List String} (h : ∀ name ∈ names, Plain name) (hne : names ≠ [])
    (directory : String) :
    (below directory names).toList =
      stem directory ++ ['/'].intercalate (names.map String.toList) := by
  induction names generalizing directory with
  | nil => exact absurd rfl hne
  | cons name names ih =>
      rw [List.forall_mem_cons] at h
      cases names with
      | nil => simpa using toList_join h.1 directory
      | cons second names =>
          have hrest := ih h.2 (List.cons_ne_nil _ _) (join directory name)
          rw [below_cons, hrest, stem_join h.1]
          simp

/-- **Different names** lead to different places. -/
lemma below_injective {names others : List String} (h : ∀ name ∈ names, Plain name)
    (k : ∀ name ∈ others, Plain name) (hne : names ≠ []) (kne : others ≠ []) {directory : String}
    (heq : below directory names = below directory others) : names = others := by
  have htexts := congrArg String.toList heq
  rw [toList_below h hne, toList_below k kne] at htexts
  have hinner := List.append_cancel_left htexts
  have hcut (ns : List String) (hns : ∀ name ∈ ns, Plain name) (hnil : ns ≠ []) :
      (['/'].intercalate (ns.map String.toList)).splitOn '/' = ns.map String.toList := by
    apply List.splitOn_intercalate
    · intro cs hcs
      obtain ⟨name, hname, rfl⟩ := List.mem_map.1 hcs
      exact (hns name hname).no_slash
    · simpa using hnil
  have hmaps : names.map String.toList = others.map String.toList := by
    rw [← hcut names h hne, ← hcut others k kne, hinner]
  exact List.map_injective_iff.2 (fun _ _ => String.toList_inj.1) hmaps

end Path

/-! ## What a tree holds -/

/-- The path of a file that was found. -/
def Found.place? : Found → Option String
  | .file path => some path
  | .failure _ => none

namespace Tree

/-- Some names lead from a directory to a file in it or below it, through directories that can be
listed. -/
inductive Holds : Tree → List String → Prop
  /-- The file is in the directory itself. -/
  | here {files : List String} {directories : List (String × Tree)} {name : String} :
      name ∈ files → Holds (.listed files directories) [name]
  /-- The file is below one of the directories in the directory. -/
  | deeper {files : List String} {directories : List (String × Tree)} {name : String} {t : Tree}
      {names : List String} :
      (name, t) ∈ directories → Holds t names → Holds (.listed files directories) (name :: names)

lemma Holds.ne_nil {t : Tree} {names : List String} (h : t.Holds names) : names ≠ [] := by
  cases h <;> simp

lemma not_holds_unlistable {why : Failure} {names : List String} :
    ¬ (Tree.unlistable why).Holds names := by
  intro h
  cases h

lemma holds_listed_iff {files : List String} {directories : List (String × Tree)}
    {names : List String} :
    (Tree.listed files directories).Holds names ↔
      (∃ name ∈ files, names = [name]) ∨
        ∃ name t rest, (name, t) ∈ directories ∧ t.Holds rest ∧ names = name :: rest := by
  constructor
  · intro h
    cases h with
    | here hname => exact Or.inl ⟨_, hname, rfl⟩
    | deeper hmem hrest => exact Or.inr ⟨_, _, _, hmem, hrest, rfl⟩
  · rintro (⟨name, hname, rfl⟩ | ⟨name, t, rest, hmem, hrest, rfl⟩)
    · exact .here hname
    · exact .deeper hmem hrest

/-- None of the directories on the way from `path` to the file is refused, and the file is not. -/
def KeptOn (keeps : String → Bool) (path : String) (names : List String) : Prop :=
  ∀ front, front <+: names → front ≠ [] → keeps (Path.below path front) = true

variable {keeps : String → Bool} {path : String}

lemma keptOn_singleton_iff {name : String} :
    KeptOn keeps path [name] ↔ keeps (Path.join path name) = true := by
  constructor
  · intro h
    exact h [name] (List.prefix_refl _) (List.cons_ne_nil _ _)
  · intro h front hfront hne
    have hsingle : front = [name] := by
      obtain ⟨first, others, rfl⟩ := List.exists_cons_of_ne_nil hne
      rw [List.cons_prefix_cons, List.prefix_nil] at hfront
      rw [hfront.1, hfront.2]
    rw [hsingle]
    exact h

lemma keptOn_cons_iff {name : String} {names : List String} :
    KeptOn keeps path (name :: names) ↔
      keeps (Path.join path name) = true ∧ KeptOn keeps (Path.join path name) names := by
  constructor
  · intro h
    constructor
    · have hfirst := h [name] (by simp) (List.cons_ne_nil _ _)
      exact hfirst
    · intro front hfront _
      exact h (name :: front) (List.cons_prefix_cons.2 ⟨rfl, hfront⟩) (List.cons_ne_nil _ _)
  · rintro ⟨hname, hrest⟩ front hfront hne
    obtain ⟨first, others, rfl⟩ := List.exists_cons_of_ne_nil hne
    rw [List.cons_prefix_cons] at hfront
    obtain ⟨rfl, hothers⟩ := hfront
    by_cases hnil : others = []
    · rw [hnil]
      exact hname
    · exact hrest others hothers hnil

/-! ## What a walk finds -/

mutual

/-- **A walk finds a file** exactly when the tree holds it and nothing on the way is refused. -/
theorem mem_walk_iff (keeps : String → Bool) (path place : String) :
    ∀ t : Tree, Found.file place ∈ t.walk keeps path ↔
      ∃ names, t.Holds names ∧ place = Path.below path names ∧ KeptOn keeps path names
  | .unlistable why => by simp [walk, not_holds_unlistable]
  | .listed files directories => by
      have heach := mem_walkEach_iff keeps path place directories
      rw [walk, List.mem_append, heach]
      constructor
      · rintro (hfile | ⟨name, t, rest, hmem, hrest, rfl, hkept⟩)
        · obtain ⟨found, hfound, heq⟩ := List.mem_map.1 hfile
          obtain rfl := Found.file.inj heq
          obtain ⟨hnames, hkeeps⟩ := List.mem_filter.1 hfound
          obtain ⟨name, hname, rfl⟩ := List.mem_map.1 hnames
          exact ⟨[name], .here hname, rfl, keptOn_singleton_iff.2 hkeeps⟩
        · exact ⟨name :: rest, .deeper hmem hrest, rfl, hkept⟩
      · rintro ⟨names, hholds, rfl, hkept⟩
        rcases holds_listed_iff.1 hholds with ⟨name, hname, rfl⟩ | ⟨name, t, rest, hmem, hrest, rfl⟩
        · have hkeeps := keptOn_singleton_iff.1 hkept
          refine Or.inl (List.mem_map_of_mem (List.mem_filter.2 ⟨?_, hkeeps⟩))
          exact List.mem_map_of_mem hname
        · exact Or.inr ⟨name, t, rest, hmem, hrest, rfl, hkept⟩

theorem mem_walkEach_iff (keeps : String → Bool) (path place : String) :
    ∀ directories : List (String × Tree), Found.file place ∈ walkEach keeps path directories ↔
      ∃ name t rest, (name, t) ∈ directories ∧ t.Holds rest ∧
        place = Path.below path (name :: rest) ∧ KeptOn keeps path (name :: rest)
  | [] => by simp [walkEach]
  | (name, t) :: others => by
      have hfirst := mem_walk_iff keeps (Path.join path name) place t
      have hothers := mem_walkEach_iff keeps path place others
      rw [walkEach, List.mem_append, hothers]
      constructor
      · rintro (hfound | ⟨other, u, rest, hmem, hrest, hplace, hkept⟩)
        · by_cases hkeeps : keeps (Path.join path name) = true
          · rw [if_pos hkeeps, hfirst] at hfound
            obtain ⟨rest, hrest, hplace, hkept⟩ := hfound
            exact ⟨name, t, rest, List.mem_cons_self .., hrest, hplace,
              keptOn_cons_iff.2 ⟨hkeeps, hkept⟩⟩
          · rw [if_neg hkeeps] at hfound
            exact absurd hfound List.not_mem_nil
        · exact ⟨other, u, rest, List.mem_cons_of_mem _ hmem, hrest, hplace, hkept⟩
      · rintro ⟨other, u, rest, hmem, hrest, hplace, hkept⟩
        rcases List.mem_cons.1 hmem with heq | hmem
        · obtain ⟨rfl, rfl⟩ := Prod.mk.inj heq
          obtain ⟨hkeeps, hkept⟩ := keptOn_cons_iff.1 hkept
          rw [if_pos hkeeps, hfirst]
          exact Or.inl ⟨rest, hrest, hplace, hkept⟩
        · exact Or.inr ⟨other, u, rest, hmem, hrest, hplace, hkept⟩

end

/-! ## No file is found twice -/

/-- Every directory has a name of its own for each thing in it. -/
inductive Proper : Tree → Prop
  | unlistable (why : Failure) : Proper (.unlistable why)
  | listed {files : List String} {directories : List (String × Tree)} :
      (files ++ directories.map Prod.fst).Nodup →
      (∀ name ∈ files ++ directories.map Prod.fst, Path.Plain name) →
      (∀ name t, (name, t) ∈ directories → Proper t) →
      Proper (.listed files directories)

variable {files : List String} {directories : List (String × Tree)}

/-- In a proper tree the names on the way to a file are plain. -/
lemma Proper.plain {t : Tree} (ht : t.Proper) {names : List String} (h : t.Holds names) :
    ∀ name ∈ names, Path.Plain name := by
  induction h with
  | here hname =>
      cases ht with
      | listed _ hplain _ =>
          intro other hother
          rw [List.mem_singleton.1 hother]
          exact hplain _ (List.mem_append_left _ hname)
  | deeper hmem _ ih =>
      cases ht with
      | listed _ hplain hdeeper =>
          rw [List.forall_mem_cons]
          constructor
          · exact hplain _ (List.mem_append_right _ (List.mem_map_of_mem hmem))
          · exact ih (hdeeper _ _ hmem)

/-- In a proper tree files of different names are at different places. -/
lemma Proper.below_injective {t : Tree} (ht : t.Proper) {names others : List String}
    (h : t.Holds names) (k : t.Holds others) (path : String)
    (heq : Path.below path names = Path.below path others) : names = others :=
  Path.below_injective (ht.plain h) (ht.plain k) h.ne_nil k.ne_nil heq

lemma Proper.directory (h : (Tree.listed files directories).Proper) {name : String} {t : Tree}
    (hmem : (name, t) ∈ directories) : t.Proper := by
  cases h with
  | listed _ _ hdeeper => exact hdeeper name t hmem

/-- Without its files, or without one of its directories, a tree stays proper. -/
lemma Proper.of_sublist (h : (Tree.listed files directories).Proper) {fewer : List String}
    {others : List (String × Tree)} (hfiles : fewer.Sublist files)
    (hothers : others.Sublist directories) : (Tree.listed fewer others).Proper := by
  cases h with
  | listed hnodup hplain hdeeper =>
      have hsub := hfiles.append (hothers.map Prod.fst)
      refine .listed (hnodup.sublist hsub) ?_ ?_
      · intro name hname
        exact hplain name (hsub.subset hname)
      · intro name t hmem
        exact hdeeper name t (hothers.subset hmem)

lemma mem_places_iff {fs : List Found} {place : String} :
    place ∈ fs.filterMap Found.place? ↔ Found.file place ∈ fs := by
  rw [List.mem_filterMap]
  constructor
  · rintro ⟨found, hfound, hplace⟩
    cases found with
    | file path =>
        obtain rfl := Option.some.inj hplace
        exact hfound
    | failure why => cases hplace
  · intro h
    exact ⟨_, h, rfl⟩

lemma places_files (paths : List String) :
    (paths.map Found.file).filterMap Found.place? = paths := by
  simp [List.filterMap_map, Function.comp_def, Found.place?]

/-- The files of a directory are at places of their own. -/
lemma nodup_files (h : (Tree.listed files directories).Proper) (keeps : String → Bool)
    (path : String) :
    ((files.map (Path.join path)).filter keeps).Nodup := by
  apply List.Nodup.filter
  have hnames : files.Nodup := by
    cases h with
    | listed hnodup _ _ => exact (List.nodup_append.1 hnodup).1
  apply List.Nodup.map_on _ hnames
  intro name hname other hother heq
  have hone := h.below_injective (.here hname) (.here hother) path heq
  exact (List.cons.inj hone).1

mutual

/-- **A walk finds no file twice** in a proper tree. -/
theorem nodup_walk (keeps : String → Bool) (path : String) :
    ∀ t : Tree, t.Proper → ((t.walk keeps path).filterMap Found.place?).Nodup
  | .unlistable why, _ => by simp [walk, Found.place?, List.filterMap_cons]
  | .listed files directories, h => by
      have heach := nodup_walkEach keeps path directories
        (h.of_sublist (List.nil_sublist _) (List.Sublist.refl _))
      rw [walk, List.filterMap_append, places_files]
      refine List.nodup_append.2 ⟨nodup_files h keeps path, heach, ?_⟩
      intro place hplace other hother heq
      obtain ⟨hnames, -⟩ := List.mem_filter.1 hplace
      obtain ⟨name, hname, rfl⟩ := List.mem_map.1 hnames
      rw [mem_places_iff, mem_walkEach_iff] at hother
      obtain ⟨directory, t, rest, hmem, hrest, hplace, -⟩ := hother
      have hone := h.below_injective (.here hname) (.deeper hmem hrest) path
        (heq.trans hplace)
      exact hrest.ne_nil (List.cons.inj hone).2.symm

theorem nodup_walkEach (keeps : String → Bool) (path : String) :
    ∀ directories : List (String × Tree), (listed [] directories).Proper →
      ((walkEach keeps path directories).filterMap Found.place?).Nodup
  | [], _ => by simp [walkEach]
  | (name, t) :: others, h => by
      have hmem : (name, t) ∈ (name, t) :: others := List.mem_cons_self ..
      have hfirst : ((if keeps (Path.join path name) then walk keeps (Path.join path name) t
          else []).filterMap Found.place?).Nodup := by
        split
        · exact nodup_walk keeps (Path.join path name) t (h.directory hmem)
        · exact List.nodup_nil
      have hothers := nodup_walkEach keeps path others
        (h.of_sublist (List.Sublist.refl _) (List.sublist_cons_self _ _))
      rw [walkEach, List.filterMap_append]
      refine List.nodup_append.2 ⟨hfirst, hothers, ?_⟩
      intro place hplace other hother heq
      rw [mem_places_iff, mem_walkEach_iff] at hother
      obtain ⟨second, u, more, hsecond, hmore, hother, -⟩ := hother
      split at hplace
      · rw [mem_places_iff, mem_walk_iff] at hplace
        obtain ⟨rest, hrest, hplace, -⟩ := hplace
        have hsame := h.below_injective (.deeper hmem hrest)
          (.deeper (List.mem_cons_of_mem _ hsecond) hmore) path
          (hplace.symm.trans (heq.trans hother))
        have hname : name = second := (List.cons.inj hsame).1
        cases h with
        | listed hnodup _ _ =>
            rw [List.nil_append, List.map_cons, List.nodup_cons, hname] at hnodup
            have hagain : second ∈ others.map Prod.fst := List.mem_map_of_mem hsecond
            exact hnodup.1 hagain
      · exact absurd hplace List.not_mem_nil

end

end Tree

end Marginalia
