import Marginalia.Message
import Marginalia.Proofs.Ignore

/-!
# Headings lead back to their files

A file is named in a message by the way that leads to it from a base directory.  Followed from there
the way ends at the file again, and two files have the same way only if they are one file.

A way goes up from the directory as often as it has names that the file does not share, and then
down: `Path.exists_shared` splits the two lists of names where they part, `Path.foldl_follow_up`
goes up and `Path.foldl_follow_of_plain` down.  `Path.names_join_relative?` puts the three
together.  What normal forms lose of a path is how many slashes it begins with, so that the
results are about `Path.SamePlace`.
-/

namespace Marginalia

namespace Path

/-! ## Places -/

/-- Two absolute paths that differ in no more than how many slashes they begin with. -/
structure SamePlace (path other : String) : Prop where
  left : isAbsolute path
  right : isAbsolute other
  behind_slashes : path.toList.dropWhile (· = '/') = other.toList.dropWhile (· = '/')

section Places

variable {n m : Normal}

lemma dropWhile_render (h : n.IsRooted) : n.render.toList.dropWhile (· = '/') = inner n := by
  have hinner : (inner n).dropWhile (· = '/') = inner n := by
    cases hi : inner n with
    | nil => rfl
    | cons c cs =>
        have hc : c ≠ '/' := fun hc => inner_ne_slash_cons h cs (by rw [hi, hc])
        exact List.dropWhile_cons_of_neg (by simpa using hc)
  rw [toList_render h]
  rcases h.slashes with hs | hs <;> rw [hs] <;> simpa [List.replicate] using hinner

/-- The names can be read off what stands behind the slashes. -/
lemma names_eq_of_inner_eq (hn : n.IsRooted) (hm : m.IsRooted) (h : inner n = inner m) :
    n.names = m.names := by
  have hone {k : Normal} (hk : k.IsRooted) : k.names ≠ [""] := by
    intro hnames
    exact (hk.plain "" (by rw [hnames]; exact List.mem_singleton_self _)).ne_empty rfl
  have htext : "/".intercalate n.names = "/".intercalate m.names := by
    apply String.toList_inj.1
    rw [String.toList_intercalate, String.toList_intercalate]
    exact h
  have hpieces := congrArg pieces htext
  rw [pieces_intercalate fun name hname => (hn.plain name hname).no_slash,
    pieces_intercalate fun name hname => (hm.plain name hname).no_slash] at hpieces
  by_cases hnnil : n.names = [] <;> by_cases hmnil : m.names = []
  · rw [hnnil, hmnil]
  · rw [if_pos hnnil, if_neg hmnil] at hpieces
    exact absurd hpieces.symm (hone hm)
  · rw [if_neg hnnil, if_pos hmnil] at hpieces
    exact absurd hpieces (hone hn)
  · rwa [if_neg hnnil, if_neg hmnil] at hpieces

/-- **A place is known by its names.** -/
lemma samePlace_render_iff (hn : n.IsRooted) (hm : m.IsRooted) :
    SamePlace n.render m.render ↔ n.names = m.names := by
  constructor
  · intro h
    have hbehind := h.behind_slashes
    rw [dropWhile_render hn, dropWhile_render hm] at hbehind
    exact names_eq_of_inner_eq hn hm hbehind
  · intro h
    refine ⟨isAbsolute_render hn, isAbsolute_render hm, ?_⟩
    rw [dropWhile_render hn, dropWhile_render hm, inner, inner, h]

end Places

/-! ## Ways -/

/-- The two lists have a beginning in common, and part behind it. -/
lemma exists_shared (ns ms : List String) :
    ∃ shared, ns = shared ++ (dropShared ns ms).1 ∧ ms = shared ++ (dropShared ns ms).2 := by
  induction ns generalizing ms with
  | nil => cases ms <;> exact ⟨[], rfl, rfl⟩
  | cons n ns ih =>
      cases ms with
      | nil => exact ⟨[], rfl, rfl⟩
      | cons m ms =>
          by_cases hnm : n = m
          · obtain ⟨shared, hns, hms⟩ := ih ms
            refine ⟨n :: shared, ?_, ?_⟩
            · rw [dropShared, if_pos hnm, List.cons_append, ← hns]
            · rw [dropShared, if_pos hnm, List.cons_append, ← hms, hnm]
          · refine ⟨[], ?_, ?_⟩ <;> rw [dropShared, if_neg hnm] <;> rfl

/-- Going up drops one name after the other, the last one first. -/
lemma foldl_follow_up {names : List String} (h : ∀ name ∈ names, Plain name) (k : Nat) :
    (List.replicate k "..").foldl (follow true) names = names.drop k := by
  induction k generalizing names with
  | zero => rfl
  | succ k ih =>
      have hup : follow true names ".." = names.drop 1 := by
        cases names with
        | nil => rfl
        | cons name names =>
            have hname := (h name (List.mem_cons_self ..)).ne_dots
            simp [follow, hname]
      rw [List.replicate_succ, List.foldl_cons, hup,
        ih fun name hname => h name (List.mem_of_mem_drop hname), List.drop_drop, Nat.add_comm]

lemma pieces_ofNames {names : List String} (h : ∀ name ∈ names, '/' ∉ name.toList) :
    pieces (ofNames names) = if names = [] then ["."] else names := by
  by_cases hnil : names = []
  · rw [hnil]
    rfl
  · rw [ofNames, if_neg (by simpa using hnil), pieces_intercalate h, if_neg hnil, if_neg hnil]

/-- Following the text of a way follows its names; the dot, which stands for none, goes nowhere. -/
lemma foldl_follow_ofNames {names : List String} (h : ∀ name ∈ names, '/' ∉ name.toList)
    (rooted : Bool) (before : List String) :
    (pieces (ofNames names)).foldl (follow rooted) before = names.foldl (follow rooted) before := by
  rw [pieces_ofNames h]
  by_cases hnil : names = []
  · have hdot : follow rooted before "." = before := if_pos (Or.inr rfl)
    rw [if_pos hnil, hnil, List.foldl_cons, hdot]
  · rw [if_neg hnil]

/-- The pieces of an absolute path begin with an empty one. -/
lemma head?_pieces_of_isAbsolute {path : String} (h : isAbsolute path) :
    (pieces path).head? = some "" := by
  obtain ⟨cs, hcs⟩ := isAbsolute_iff.1 h
  rw [pieces, hcs, List.splitOn_cons_eq_if_modifyHead, if_pos (beq_self_eq_true '/')]
  rfl

/-- A way does not begin at the root of the file system. -/
lemma not_isAbsolute_ofNames {names : List String} (h : ∀ name ∈ names, '/' ∉ name.toList)
    (hne : "" ∉ names) : ¬ isAbsolute (ofNames names) = true := by
  intro habsolute
  have hhead := head?_pieces_of_isAbsolute habsolute
  rw [pieces_ofNames h] at hhead
  by_cases hnil : names = []
  · rw [if_pos hnil] at hhead
    exact absurd hhead (by decide)
  · rw [if_neg hnil] at hhead
    exact hne (List.mem_of_head? hhead)

/-- The names of a way, up and then down. -/
lemma names_of_way {down : List String} (h : ∀ name ∈ down, Plain name) (k : Nat) {name : String}
    (hname : name ∈ List.replicate k ".." ++ down) : '/' ∉ name.toList ∧ name ≠ "" := by
  rcases List.mem_append.1 hname with hname | hname
  · rw [List.eq_of_mem_replicate hname]
    decide
  · exact ⟨(h name hname).no_slash, (h name hname).ne_empty⟩

/-- A way is followed from where the directory ends. -/
lemma names_normalize_join {directory way : String} (hdirectory : isAbsolute directory)
    (hway : ¬ isAbsolute way = true) :
    (normalize (join directory way)).names =
      ((pieces way).foldl (follow true) (normalize directory).names.reverse).reverse := by
  have hbehind (front : String) : (pieces (front ++ "/" ++ way)).foldl (follow true) [] =
      (pieces way).foldl (follow true) ((pieces front).foldl (follow true) []) := by
    rw [pieces_append, List.foldl_append]
  have hjoin := isAbsolute_join hdirectory way
  rw [names_normalize, names_normalize, hdirectory, hjoin, List.reverse_reverse]
  refine congrArg List.reverse ?_
  rw [join, if_neg hway]
  by_cases hslash : directory.toList.getLast? = some '/'
  · obtain ⟨front, rfl⟩ := exists_append_slash hslash
    rw [if_pos (by simp), hbehind, pieces_slash, List.foldl_append, List.foldl_cons, follow_empty]
    rfl
  · have hne : directory ≠ "" := by
      rintro rfl
      exact absurd hdirectory (by decide)
    rw [if_neg (by simp [hslash, hne]), hbehind]

/-- **A way leads back.** Followed from where it starts, it ends where the path is. -/
lemma names_join_relative? {cwd path start way : String} (hcwd : isAbsolute cwd)
    (hway : relative? cwd path start = some way) :
    (normalize (join (absoluteText cwd start) way)).names = (absolute cwd path).names := by
  -- The two places part behind the names that they share: the way goes up from there to here.
  obtain ⟨shared, hstart, hpath⟩ :=
    exists_shared (absolute cwd start).names (absolute cwd path).names
  set up := (dropShared (absolute cwd start).names (absolute cwd path).names).1
  set down := (dropShared (absolute cwd start).names (absolute cwd path).names).2
  have hplain : ∀ name ∈ (absolute cwd start).names.reverse, Plain name := fun name hname =>
    (isRooted_absolute hcwd start).plain name (List.mem_reverse.1 hname)
  have hdown : ∀ name ∈ down, Plain name := fun name hname =>
    (isRooted_absolute hcwd path).plain name (hpath ▸ List.mem_append_right _ hname)
  have hnames : way = ofNames (List.replicate up.length ".." ++ down) := by
    rw [relative?] at hway
    split at hway
    · cases hway
    · exact (Option.some.inj hway).symm
  have hslash : ∀ name ∈ List.replicate up.length ".." ++ down, '/' ∉ name.toList :=
    fun name hname => (names_of_way hdown _ hname).1
  have hrelative : ¬ isAbsolute way = true := by
    rw [hnames]
    exact not_isAbsolute_ofNames hslash fun hname => (names_of_way hdown _ hname).2 rfl
  have hparted : (absolute cwd start).names.reverse.drop up.length = shared.reverse := by
    rw [hstart, List.reverse_append, ← List.length_reverse, List.drop_left]
  rw [names_normalize_join (isAbsolute_absoluteText hcwd start) hrelative, absoluteText,
    normalize_render (isRooted_absolute hcwd start), hnames, foldl_follow_ofNames hslash,
    List.foldl_append, foldl_follow_up hplain, hparted, foldl_follow_of_plain hdown,
    List.reverse_append, List.reverse_reverse, List.reverse_reverse]
  exact hpath.symm

/-- The dot is the current directory. -/
lemma names_absolute_dot {cwd : String} (h : isAbsolute cwd) :
    (absolute cwd ".").names = (absolute cwd cwd).names := by
  have hdot : ¬ isAbsolute "." = true := by decide
  have hnone : ∀ name ∈ ([] : List String), '/' ∉ name.toList := nofun
  have hstay : (pieces ".").foldl (follow true) (normalize cwd).names.reverse =
      (normalize cwd).names.reverse := foldl_follow_ofNames hnone true _
  rw [absolute, absolute, if_neg hdot, if_pos h, names_normalize_join h hdot, hstay,
    List.reverse_reverse]

end Path

namespace Message

/-- The directory that headings are seen from: the current one, unless another one is given. -/
def viewpoint (cwd : String) (base : Option String) : String :=
  match base with
  | some b => if b = "" then cwd else b
  | none => cwd

lemma relativePath_eq {cwd : String} (hcwd : Path.isAbsolute cwd) (base : Option String)
    (path : String) :
    relativePath cwd path base = (Path.relative? cwd path (viewpoint cwd base)).getD path := by
  have hdot : Path.relative? cwd path "." = Path.relative? cwd path cwd := by
    rw [Path.relative?, Path.relative?, Path.names_absolute_dot hcwd]
  cases base with
  | none => exact congrArg (Option.getD · path) hdot
  | some b =>
      by_cases hb : b = ""
      · simp only [relativePath, viewpoint, if_pos hb, hdot]
      · simp only [relativePath, viewpoint, if_neg hb]

/-- A way leads to every path but the empty one. -/
lemma relative?_eq_some_relativePath {cwd path : String} (hcwd : Path.isAbsolute cwd)
    (hpath : path ≠ "") (base : Option String) :
    Path.relative? cwd path (viewpoint cwd base) = some (relativePath cwd path base) := by
  obtain ⟨way, hway⟩ : ∃ way, Path.relative? cwd path (viewpoint cwd base) = some way :=
    ⟨_, if_neg hpath⟩
  rw [relativePath_eq hcwd, hway, Option.getD_some]

/-- **A heading leads back to its file,** and to no other.  The path in it, followed from the base
directory, is the absolute path of the file, and two files have the same path in their headings
exactly when their absolute paths are the same, but for the number of slashes at the front. -/
theorem relativePath_leads_back {cwd : String} (hcwd : Path.isAbsolute cwd)
    (base : Option String) :
    (∀ path, path ≠ "" →
      Path.SamePlace
        (Path.normalize (Path.join (Path.absoluteText cwd (viewpoint cwd base))
          (relativePath cwd path base))).render
        (Path.absoluteText cwd path)) ∧
      ∀ path other, path ≠ "" → other ≠ "" →
        (relativePath cwd path base = relativePath cwd other base ↔
          Path.SamePlace (Path.absoluteText cwd path) (Path.absoluteText cwd other)) := by
  have hnames (path : String) (hpath : path ≠ "") :
      (Path.normalize (Path.join (Path.absoluteText cwd (viewpoint cwd base))
        (relativePath cwd path base))).names = (Path.absolute cwd path).names :=
    Path.names_join_relative? hcwd (relative?_eq_some_relativePath hcwd hpath base)
  refine ⟨fun path hpath => ?_, fun path other hpath hother => ?_⟩
  · have hjoin := Path.isAbsolute_join
      (Path.isAbsolute_absoluteText hcwd (viewpoint cwd base)) (relativePath cwd path base)
    exact (Path.samePlace_render_iff (Path.isRooted_normalize hjoin)
      (Path.isRooted_absolute hcwd path)).2 (hnames path hpath)
  · rw [Path.absoluteText, Path.absoluteText, Path.samePlace_render_iff
      (Path.isRooted_absolute hcwd path) (Path.isRooted_absolute hcwd other)]
    constructor
    · intro hsame
      rw [← hnames path hpath, ← hnames other hother, hsame]
    · intro hsame
      have hways : Path.relative? cwd path (viewpoint cwd base) =
          Path.relative? cwd other (viewpoint cwd base) := by
        rw [Path.relative?, Path.relative?, if_neg hpath, if_neg hother, hsame]
      rw [relative?_eq_some_relativePath hcwd hpath, relative?_eq_some_relativePath hcwd hother]
        at hways
      exact Option.some.inj hways

/-- The way goes up from a base below the file, which is spelled in two ways. -/
theorem relativePath_leads_back_of_deep_base :
    let base := some "src/./core/..//"
    Path.isAbsolute "/w" ∧ "a.py" ≠ "" ∧ "//w/b/../a.py" ≠ "" ∧
      relativePath "/w" "a.py" base = "../a.py" ∧
      Path.SamePlace (Path.normalize (Path.join (Path.absoluteText "/w" "src/./core/..//")
        "../a.py")).render (Path.absoluteText "/w" "a.py") ∧
      Path.SamePlace (Path.absoluteText "/w" "a.py") (Path.absoluteText "/w" "//w/b/../a.py") ∧
      relativePath "/w" "//w/b/../a.py" base = "../a.py" := by
  intro base
  have hcwd : Path.isAbsolute "/w" := by decide
  have hpath : "a.py" ≠ "" := by decide
  have hother : "//w/b/../a.py" ≠ "" := by decide
  have hway : relativePath "/w" "a.py" base = "../a.py" := by decide +kernel
  obtain ⟨hback, honly⟩ := relativePath_leads_back hcwd base
  have hreturn := hback "a.py" hpath
  rw [hway] at hreturn
  have hplace : Path.SamePlace (Path.absoluteText "/w" "a.py")
      (Path.absoluteText "/w" "//w/b/../a.py") :=
    ⟨by decide +kernel, by decide +kernel, by decide +kernel⟩
  have hsame := (honly "a.py" "//w/b/../a.py" hpath hother).2 hplace
  exact ⟨hcwd, hpath, hother, hway, hreturn, hplace, hsame.symm.trans hway⟩

end Message

end Marginalia
