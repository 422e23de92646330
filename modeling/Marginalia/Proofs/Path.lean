import Marginalia.Path
import Marginalia.Proofs.Text

/-!
# Absolute paths

The absolute path of a path is in normal form, and following it from the current directory again
changes nothing.  `Plain` names are those that a normal form is made of, and `IsRooted` normal forms
are those of absolute paths: `isRooted_normalize` says that `normalize` leads there, and
`normalize_render` that the text of such a normal form has it for its own.

It follows that a path and its absolute text lie at the same place inside a directory,
`insideRoot?_absoluteText`.
-/

namespace Marginalia.Path

/-! ## Plain names -/

/-- The name is one that a place can have: no way up, no way to itself, and not two names. -/
structure Plain (name : String) : Prop where
  ne_empty : name ≠ ""
  ne_dot : name ≠ "."
  ne_dots : name ≠ ".."
  no_slash : '/' ∉ name.toList

lemma no_slash_of_mem_pieces {path piece : String} (h : piece ∈ pieces path) :
    '/' ∉ piece.toList := by
  obtain ⟨cs, hcs, rfl⟩ := List.mem_map.1 h
  rw [String.toList_ofList]
  exact Text.not_mem_of_mem_splitOn hcs

/-- The pieces of names that were put together are these. -/
lemma pieces_intercalate {names : List String} (h : ∀ name ∈ names, '/' ∉ name.toList) :
    pieces ("/".intercalate names) = if names = [] then [""] else names := by
  by_cases hnil : names = []
  · rw [if_pos hnil, hnil]
    rfl
  · have hslash : ∀ cs ∈ names.map String.toList, '/' ∉ cs := by
      intro cs hcs
      obtain ⟨name, hname, rfl⟩ := List.mem_map.1 hcs
      exact h name hname
    have hne : names.map String.toList ≠ [] := by simpa using hnil
    have htext : ("/".intercalate names).toList = ['/'].intercalate (names.map String.toList) :=
      String.toList_intercalate
    rw [if_neg hnil, pieces, htext, List.splitOn_intercalate _ hslash hne, List.map_map]
    simp [Function.comp_def]

/-- Below the root of the file system, following a piece leaves plain names. -/
lemma plain_follow {names : List String} (h : ∀ name ∈ names, Plain name) {piece : String}
    (hpiece : '/' ∉ piece.toList) : ∀ name ∈ follow true names piece, Plain name := by
  intro name hname
  unfold follow at hname
  split at hname
  · exact h name hname
  · rename_i hdot
    rw [not_or] at hdot
    split at hname
    · cases names with
      | nil => exact absurd hname List.not_mem_nil
      | cons last before =>
          have hlast : ¬ last = ".." := (h last (List.mem_cons_self ..)).ne_dots
          simp only [if_neg hlast] at hname
          exact h name (List.mem_cons_of_mem _ hname)
    · rename_i hdots
      rcases List.mem_cons.1 hname with rfl | hname
      · exact ⟨hdot.1, hdot.2, hdots, hpiece⟩
      · exact h name hname

lemma plain_foldl_follow {ps names : List String} (hps : ∀ piece ∈ ps, '/' ∉ piece.toList)
    (h : ∀ name ∈ names, Plain name) : ∀ name ∈ ps.foldl (follow true) names, Plain name := by
  induction ps generalizing names with
  | nil => exact h
  | cons piece ps ih =>
      rw [List.forall_mem_cons] at hps
      exact ih hps.2 (plain_follow h hps.1)

/-- Following plain names goes down all of them. -/
lemma foldl_follow_of_plain {rooted : Bool} {ps : List String} (h : ∀ piece ∈ ps, Plain piece)
    (names : List String) : ps.foldl (follow rooted) names = ps.reverse ++ names := by
  induction ps generalizing names with
  | nil => rfl
  | cons piece ps ih =>
      rw [List.forall_mem_cons] at h
      have hfollow : follow rooted names piece = piece :: names := by
        unfold follow
        rw [if_neg (by simp [h.1.ne_empty, h.1.ne_dot]), if_neg h.1.ne_dots]
      rw [List.foldl_cons, hfollow, ih h.2, List.reverse_cons, List.append_assoc]
      rfl

/-! ## Normal forms of absolute paths -/

/-- The normal form is one of an absolute path. -/
structure Normal.IsRooted (n : Normal) : Prop where
  slashes : n.slashes = 1 ∨ n.slashes = 2
  plain : ∀ name ∈ n.names, Plain name

lemma isAbsolute_iff {path : String} :
    isAbsolute path = true ↔ ∃ cs, path.toList = '/' :: cs := by
  rw [isAbsolute, decide_eq_true_iff]
  cases path.toList <;> simp

lemma leadingSlashes_of_isAbsolute {path : String} (h : isAbsolute path) :
    leadingSlashes path.toList = 1 ∨ leadingSlashes path.toList = 2 := by
  obtain ⟨cs, hcs⟩ := isAbsolute_iff.1 h
  rw [hcs]
  unfold leadingSlashes
  split <;> simp_all

/-- **An absolute path** has a normal form below the root of the file system. -/
lemma isRooted_normalize {path : String} (h : isAbsolute path) : (normalize path).IsRooted := by
  have hslashes := leadingSlashes_of_isAbsolute h
  refine ⟨hslashes, ?_⟩
  have hrooted : decide (0 < leadingSlashes path.toList) = true := by
    rcases hslashes with hs | hs <;> simp [hs]
  intro name hname
  simp only [normalize, hrooted, List.mem_reverse] at hname
  exact plain_foldl_follow (fun piece => no_slash_of_mem_pieces)
    (fun _ hmem => absurd hmem List.not_mem_nil) name hname

/-! ## The text of a normal form -/

/-- The names with slashes between them. -/
def inner (n : Normal) : List Char :=
  ['/'].intercalate (n.names.map String.toList)

lemma toList_render {n : Normal} (h : n.IsRooted) :
    n.render.toList = List.replicate n.slashes '/' ++ inner n := by
  have hne : ¬ n.slashes = 0 := by rcases h.slashes with hs | hs <;> omega
  rw [Normal.render, if_neg hne, String.toList_append, String.toList_ofList,
    String.toList_intercalate]
  rfl

/-- After the leading slashes there is no further one. -/
lemma inner_ne_slash_cons {n : Normal} (h : n.IsRooted) (cs : List Char) :
    inner n ≠ '/' :: cs := by
  unfold inner
  cases hn : n.names with
  | nil => simp
  | cons name names =>
      have hplain := h.plain name (by rw [hn]; exact List.mem_cons_self ..)
      obtain ⟨c, ds, hname⟩ := List.exists_cons_of_ne_nil
        (fun hnil => hplain.ne_empty (String.toList_eq_nil_iff.1 hnil))
      have hc : c ≠ '/' :=
        fun hc => hplain.no_slash (by rw [hname, hc]; exact List.mem_cons_self ..)
      cases names with
      | nil => simp [hname, hc]
      | cons second names => simp [hname, hc]

lemma leadingSlashes_render {n : Normal} (h : n.IsRooted) :
    leadingSlashes n.render.toList = n.slashes := by
  have hne := inner_ne_slash_cons h
  rw [toList_render h]
  rcases h.slashes with hs | hs <;> rw [hs] <;> cases hi : inner n with
  | nil => rfl
  | cons c cs =>
      have hc : c ≠ '/' := fun hc => hne cs (by rw [hi, hc])
      simp [List.replicate, leadingSlashes, hc]

lemma isAbsolute_render {n : Normal} (h : n.IsRooted) : isAbsolute n.render := by
  rw [isAbsolute_iff, toList_render h]
  rcases h.slashes with hs | hs <;> exact ⟨_, by rw [hs]; rfl⟩

lemma pieces_render {n : Normal} (h : n.IsRooted) :
    pieces n.render =
      List.replicate n.slashes "" ++ (if n.names = [] then [""] else n.names) := by
  have hinner : ((inner n).splitOn '/').map String.ofList =
      if n.names = [] then [""] else n.names := by
    rw [← pieces_intercalate fun name hname => (h.plain name hname).no_slash, pieces,
      String.toList_intercalate]
    rfl
  have hslash (cs : List Char) : (('/' :: cs).splitOn '/') = [] :: cs.splitOn '/' := by
    rw [List.splitOn_cons_eq_if_modifyHead, if_pos (beq_self_eq_true '/')]
  rw [pieces, toList_render h]
  rcases h.slashes with hs | hs
  · rw [hs]
    simp only [List.replicate, List.cons_append, List.nil_append, hslash, List.map_cons, hinner]
  · rw [hs]
    simp only [List.replicate, List.cons_append, List.nil_append, hslash, List.map_cons, hinner]

/-- **The text of a normal form** of an absolute path has that normal form. -/
lemma normalize_render {n : Normal} (h : n.IsRooted) : normalize n.render = n := by
  have hrooted : decide (0 < n.slashes) = true := by
    rcases h.slashes with hs | hs <;> simp [hs]
  have hempty (names : List String) : follow true names "" = names := by
    unfold follow
    exact if_pos (Or.inl rfl)
  have hslashes (names : List String) (k : Nat) :
      (List.replicate k "").foldl (follow true) names = names := by
    induction k with
    | zero => rfl
    | succ k ih => rw [List.replicate_succ, List.foldl_cons, hempty, ih]
  have hnames : (pieces n.render).foldl (follow true) [] = n.names.reverse := by
    rw [pieces_render h, List.foldl_append, hslashes]
    by_cases hn : n.names = []
    · rw [if_pos hn, hn, List.foldl_cons, hempty]
      rfl
    · rw [if_neg hn, foldl_follow_of_plain h.plain, List.append_nil]
  simp only [normalize, leadingSlashes_render h, hrooted, hnames, List.reverse_reverse]

/-! ## Absolute paths -/

lemma isAbsolute_join {cwd : String} (h : isAbsolute cwd) (path : String) :
    isAbsolute (join cwd path) := by
  obtain ⟨cs, hcs⟩ := isAbsolute_iff.1 h
  unfold join
  split
  · assumption
  · split
    · exact isAbsolute_iff.2 ⟨cs ++ path.toList, by rw [String.toList_append, hcs]; rfl⟩
    · refine isAbsolute_iff.2 ⟨cs ++ "/".toList ++ path.toList, ?_⟩
      rw [String.toList_append, String.toList_append, hcs]
      rfl

lemma join_ne_empty {path : String} (h : path ≠ "") (directory : String) :
    join directory path ≠ "" := by
  unfold join
  split
  · exact h
  · split <;> simp [h]

lemma isRooted_absolute {cwd : String} (h : isAbsolute cwd) (path : String) :
    (absolute cwd path).IsRooted := by
  unfold absolute
  split
  · exact isRooted_normalize ‹_›
  · exact isRooted_normalize (isAbsolute_join h path)

lemma isAbsolute_absoluteText {cwd : String} (h : isAbsolute cwd) (path : String) :
    isAbsolute (absoluteText cwd path) :=
  isAbsolute_render (isRooted_absolute h path)

/-- **Following an absolute path** leads where following the path did. -/
lemma absolute_absoluteText {cwd : String} (h : isAbsolute cwd) (path : String) :
    absolute cwd (absoluteText cwd path) = absolute cwd path := by
  rw [absolute, if_pos (isAbsolute_absoluteText h path), absoluteText,
    normalize_render (isRooted_absolute h path)]

lemma absoluteText_ne_empty {cwd : String} (h : isAbsolute cwd) (path : String) :
    absoluteText cwd path ≠ "" := by
  obtain ⟨cs, hcs⟩ := isAbsolute_iff.1 (isAbsolute_absoluteText h path)
  intro hempty
  rw [hempty] at hcs
  cases hcs

/-- Where a path lies inside a directory does not depend on whether it is given as absolute. -/
lemma insideRoot?_absoluteText_left {cwd path : String} (h : isAbsolute cwd) (hpath : path ≠ "")
    (root : String) : insideRoot? cwd (absoluteText cwd path) root = insideRoot? cwd path root := by
  have hrelative : relative? cwd (absoluteText cwd path) root = relative? cwd path root := by
    rw [relative?, relative?, if_neg (absoluteText_ne_empty h path), if_neg hpath,
      absolute_absoluteText h]
  rw [insideRoot?, insideRoot?, hrelative]

lemma insideRoot?_absoluteText_right {cwd : String} (h : isAbsolute cwd) (path root : String) :
    insideRoot? cwd path (absoluteText cwd root) = insideRoot? cwd path root := by
  have hrelative : relative? cwd path (absoluteText cwd root) = relative? cwd path root := by
    rw [relative?, relative?, absolute_absoluteText h]
  rw [insideRoot?, insideRoot?, hrelative]

/-- A path lies inside a directory where its absolute path lies inside the absolute directory. -/
lemma insideRoot?_absoluteText {cwd path : String} (h : isAbsolute cwd) (hpath : path ≠ "")
    (root : String) :
    insideRoot? cwd (absoluteText cwd path) (absoluteText cwd root) =
      insideRoot? cwd path root := by
  rw [insideRoot?_absoluteText_left h hpath, insideRoot?_absoluteText_right h]

end Marginalia.Path
