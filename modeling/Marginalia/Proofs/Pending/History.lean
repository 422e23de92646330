import Marginalia.Proofs.Pending

/-!
# The pending set as its history tells it

Two operations change a pending set: the blocks of a file are replaced, and everything is cleared.
This module reads every view of the set off the operations alone.  `given` is the list that the
latest replacement since the last clearing gave a file, and a file is present when that list is not
empty.  `arrivedAt` is the number of the operation by which a file was last made present; as long
as the file stays present, further replacements do not count.

`views_of_history` is the main result: after any operations the set shows the lists of the present
files, in the order in which these arrived, through whichever view it is looked at, and a
replacement answers with the list that was there before it.  It has two parts.  A tidy set `Shows`
its files in the order in which it lists them (`Tidy.shows`), and that is the order of their arrival
(`pairwise_arrivedAt`): a new file is put behind those that are there, which all arrived earlier
(`arrivedAt_le`).
-/

namespace Marginalia.Pending

/-! ## The files of a set -/

/-- The files of a set, in its order. -/
def files (p : Pending) : List String :=
  p.entries.map Prod.fst

/-- In a tidy set exactly the files with blocks are listed. -/
lemma Tidy.mem_files_iff {p : Pending} (hp : p.Tidy) (path : String) :
    path ∈ p.files ↔ p.get path ≠ [] := by
  rw [files, List.mem_map]
  constructor
  · rintro ⟨⟨q, blocks⟩, he, rfl⟩
    obtain ⟨hget, hne⟩ := (hp.mem_entries_iff q blocks).1 he
    rw [hget]
    exact hne
  · intro hne
    have he := (hp.mem_entries_iff path (p.get path)).2 ⟨rfl, hne⟩
    exact ⟨_, he, rfl⟩

/-- **A replacement leaves the files where they are**, but that a file without blocks goes, and a
new one comes at the end. -/
lemma files_replace (p : Pending) (path : String) (blocks : List Block) :
    (p.replace path blocks).files =
      if blocks = [] then p.files.filter (· ≠ path)
      else if path ∈ p.files then p.files else p.files ++ [path] := by
  by_cases hb : blocks = []
  · rw [if_pos hb, replace, if_pos (by simp [hb]), files, files, Entries.remove, List.filter_map]
    rfl
  · rw [if_neg hb, replace, if_neg (by simpa using hb)]
    by_cases hp : path ∈ p.files
    · rw [if_pos hp]
      exact Entries.map_fst_put_of_mem blocks hp
    · rw [if_neg hp, files, files, Entries.put_of_not_mem blocks hp, List.map_append]
      rfl

/-- The blocks of the files, one file after the other. -/
lemma Tidy.flatMap_files {p : Pending} (hp : p.Tidy) (keep : String → Bool) :
    (p.entries.filter (keep ·.1)).flatMap (·.2) = (p.files.filter keep).flatMap p.get := by
  rw [files, List.filter_map, List.flatMap_map]
  apply List.flatMap_congr
  intro e he
  have hentry := (hp.mem_entries_iff e.1 e.2).1 (List.mem_of_mem_filter he)
  exact hentry.1.symm

lemma size_eq_length_snapshot (p : Pending) : p.size = p.snapshot.length := by
  obtain ⟨entries⟩ := p
  rw [size, snapshot]
  induction entries with
  | nil => rfl
  | cons e entries ih => rw [List.foldr_cons, ih, List.flatMap_cons, List.length_append]

lemma contains_iff (p : Pending) (path : String) : p.contains path = true ↔ path ∈ p.files := by
  rw [contains, List.any_eq_true, files, List.mem_map]
  simp only [decide_eq_true_eq]

/-! ## Views -/

/-- A pending set shows the lists that were given to some files, in the order of the files, through
each of its views. -/
structure Shows (p : Pending) (files : List String) (given : String → List Block) : Prop where
  get (path : String) : p.get path = given path
  contains (path : String) : p.contains path = true ↔ given path ≠ []
  snapshot : p.snapshot = files.flatMap given
  /-- The blocks of one file are cut out of the rest, which keeps its order. -/
  others (path : String) : ∃ front back : List String,
    files.filter (· ≠ path) = front ++ back ∧
    p.snapshot = front.flatMap given ++ given path ++ back.flatMap given ∧
    p.others path = front.flatMap given ++ back.flatMap given
  size : p.size = p.snapshot.length
  fileCount : p.fileCount = files.length

/-- A file stands in one place of a list without repetitions, or nowhere. -/
lemma exists_split {files : List String} (hnodup : files.Nodup) (path : String) :
    ∃ front back, files.filter (· ≠ path) = front ++ back ∧
      files = front ++ (if path ∈ files then [path] else []) ++ back := by
  by_cases hmem : path ∈ files
  · obtain ⟨front, back, rfl⟩ := List.append_of_mem hmem
    obtain ⟨-, hback, happart⟩ := List.nodup_append.1 hnodup
    have hfront : path ∉ front := fun hin => happart path hin path (List.mem_cons_self ..) rfl
    have hbehind : path ∉ back := (List.nodup_cons.1 hback).1
    refine ⟨front, back, ?_, by rw [if_pos hmem, List.append_assoc]; rfl⟩
    rw [List.filter_append, List.filter_cons_of_neg (by simp),
      List.filter_eq_self.2 fun q hq => by simpa using ne_of_mem_of_not_mem hq hfront,
      List.filter_eq_self.2 fun q hq => by simpa using ne_of_mem_of_not_mem hq hbehind]
  · refine ⟨files, [], ?_, by rw [if_neg hmem, List.append_nil, List.append_nil]⟩
    rw [List.append_nil]
    exact List.filter_eq_self.2 fun q hq => by simpa using ne_of_mem_of_not_mem hq hmem

/-- **A tidy set shows its blocks** file by file. -/
lemma Tidy.shows {p : Pending} (hp : p.Tidy) : p.Shows p.files p.get := by
  have hsnapshot : p.snapshot = p.files.flatMap p.get := by
    have hall := hp.flatMap_files fun _ => true
    rwa [List.filter_true, List.filter_true] at hall
  refine ⟨fun path => rfl, ?_, hsnapshot, ?_, size_eq_length_snapshot p, ?_⟩
  · intro path
    rw [contains_iff, hp.mem_files_iff]
  · intro path
    have hnodup : p.files.Nodup := hp.nodup
    obtain ⟨front, back, hothers, hfiles⟩ := exists_split hnodup path
    refine ⟨front, back, hothers, ?_, ?_⟩
    · have hsegment : (if path ∈ p.files then [path] else []).flatMap p.get = p.get path := by
        split_ifs with hmem
        · exact List.flatMap_singleton ..
        · rw [hp.mem_files_iff, not_not] at hmem
          exact hmem.symm
      rw [hsnapshot, ← hsegment, ← List.flatMap_append, ← List.flatMap_append]
      exact congrArg (List.flatMap p.get) hfiles
    · have hrest := hp.flatMap_files fun q => decide (q ≠ path)
      rw [← List.flatMap_append, ← hothers]
      exact hrest
  · rw [fileCount, files, List.length_map]

/-! ## Reading a history -/

/-- The operations on a pending set so far, the latest first. -/
abbrev History := List Operation

/-- The pending set that a history leads to. -/
def after : History → Pending
  | [] => .empty
  | o :: h => ((after h).perform o).2

/-- The operation clears the set. -/
def Operation.isClear : Operation → Bool
  | .clear => true
  | .replace .. => false

/-- The list that an operation gives a file. -/
def Operation.givenTo? (path : String) : Operation → Option (List Block)
  | .replace q blocks => if q = path then some blocks else none
  | .clear => none

/-- The list that the latest replacement since the last clearing gave a file. -/
def given (path : String) (h : History) : List Block :=
  ((h.takeWhile (!·.isClear)).findSome? (Operation.givenTo? path)).getD []

/-- The latest operation makes the file present, which was absent before. -/
def Arrives (path : String) (h : History) : Prop :=
  given path h ≠ [] ∧ given path h.tail = []

instance (path : String) (h : History) : Decidable (Arrives path h) :=
  inferInstanceAs (Decidable (_ ∧ _))

/-- The number of the operation by which a file was last made present. -/
def arrivedAt (path : String) (h : History) : Nat :=
  ((h.tails.find? fun s => decide (Arrives path s)).map List.length).getD 0

/-! ## The lists that were given -/

section Given

variable (path : String) (h : History)

lemma given_replace (q : String) (blocks : List Block) :
    given path (.replace q blocks :: h) = if path = q then blocks else given path h := by
  have hlatest : (Operation.replace q blocks :: h).takeWhile (!·.isClear) =
      .replace q blocks :: h.takeWhile (!·.isClear) :=
    List.takeWhile_cons_of_pos rfl
  rw [given, hlatest, List.findSome?_cons, Operation.givenTo?]
  by_cases hq : path = q
  · rw [if_pos hq.symm, if_pos hq]
    rfl
  · rw [if_neg (Ne.symm hq), if_neg hq]
    rfl

/-- **The blocks of a file** are those that the history gave it. -/
lemma get_after : (after h).get path = given path h := by
  induction h with
  | nil => rfl
  | cons o h ih =>
      cases o with
      | clear => rfl
      | replace q blocks => rw [after, perform, get_replace, given_replace, ih]

lemma tidy_after : (after h).Tidy := by
  induction h with
  | nil => exact tidy_empty
  | cons o h ih =>
      cases o with
      | clear => exact tidy_empty
      | replace q blocks => exact ih.replace q blocks

end Given

/-! ## The order of arrival -/

section Arrival

variable {path : String} {h : History}

lemma arrivedAt_nil : arrivedAt path [] = 0 := by
  have hnever : ¬ Arrives path [] := fun ha => ha.1 rfl
  rw [arrivedAt, List.tails, List.find?_singleton, if_neg (by simpa using hnever)]
  rfl

lemma arrivedAt_cons (path : String) (o : Operation) (h : History) :
    arrivedAt path (o :: h) =
      if Arrives path (o :: h) then h.length + 1 else arrivedAt path h := by
  rw [arrivedAt, List.tails_cons, List.find?_cons]
  by_cases ha : Arrives path (o :: h)
  · simp [ha]
  · simp [ha, arrivedAt]

/-- No file arrived later than the latest operation. -/
lemma arrivedAt_le (path : String) (h : History) : arrivedAt path h ≤ h.length := by
  induction h with
  | nil => exact arrivedAt_nil.le
  | cons o h ih =>
      rw [arrivedAt_cons, List.length_cons]
      split
      · exact Nat.le_refl _
      · exact Nat.le_succ_of_le ih

/-- A file that was present keeps the number of its arrival. -/
lemma arrivedAt_cons_of_present (o : Operation) (hp : given path h ≠ []) :
    arrivedAt path (o :: h) = arrivedAt path h := by
  have hno : ¬ Arrives path (o :: h) := fun ha => hp ha.2
  rw [arrivedAt_cons, if_neg hno]

/-- A file that was absent and gets blocks arrives. -/
lemma arrivedAt_replace_of_absent {blocks : List Block} (hblocks : blocks ≠ [])
    (hp : given path h = []) : arrivedAt path (.replace path blocks :: h) = h.length + 1 := by
  have hnow : given path (.replace path blocks :: h) = blocks := by
    rw [given_replace, if_pos rfl]
  have ha : Arrives path (.replace path blocks :: h) := ⟨by rwa [hnow], hp⟩
  rw [arrivedAt_cons, if_pos ha]

lemma mem_files_after_iff : path ∈ (after h).files ↔ given path h ≠ [] := by
  rw [(tidy_after h).mem_files_iff, get_after]

/-- **The files stand in the order of their arrival.** -/
theorem pairwise_arrivedAt (h : History) :
    (after h).files.Pairwise (arrivedAt · h < arrivedAt · h) := by
  induction h with
  | nil => exact List.Pairwise.nil
  | cons o h ih =>
      have hkept : (after h).files.Pairwise (arrivedAt · (o :: h) < arrivedAt · (o :: h)) := by
        refine ih.imp_of_mem fun ha hb hab => ?_
        rwa [arrivedAt_cons_of_present o (mem_files_after_iff.1 ha),
          arrivedAt_cons_of_present o (mem_files_after_iff.1 hb)]
      cases o with
      | clear => exact List.Pairwise.nil
      | replace q blocks =>
          rw [after, perform, files_replace]
          split_ifs with hblocks hq
          · -- The file is taken out.
            exact hkept.filter _
          · -- The file keeps its place.
            exact hkept
          · -- The file is put behind the others.
            refine List.pairwise_append.2 ⟨hkept, List.pairwise_singleton _ _, ?_⟩
            intro a ha b hb
            rw [mem_files_after_iff] at ha hq
            rw [List.mem_singleton.1 hb, arrivedAt_cons_of_present _ ha,
              arrivedAt_replace_of_absent hblocks (not_not.1 hq)]
            exact Nat.lt_succ_of_le (arrivedAt_le a h)

end Arrival

/-! ## What the set shows -/

/-- **The views of a pending set** after any operations.  There is one list of the present files in
the order of their arrival, and what the set shows are the lists that the history gave them.  A
replacement answers with the list that the history gave the file until then. -/
theorem views_of_history (h : History) :
    (∃ files : List String, (∀ path, path ∈ files ↔ given path h ≠ []) ∧
      files.Pairwise (arrivedAt · h < arrivedAt · h) ∧ (after h).Shows files (given · h)) ∧
      ∀ path blocks, ((after h).perform (.replace path blocks)).1 = some (given path h) := by
  have hgiven : (after h).get = (given · h) := funext fun path => get_after path h
  constructor
  · refine ⟨(after h).files, fun path => mem_files_after_iff, pairwise_arrivedAt h, ?_⟩
    rw [← hgiven]
    exact (tidy_after h).shows
  · intro path blocks
    rw [perform, get_after]

/-- A file keeps its place when it gets other blocks, and comes last once it was without any. -/
example (a b c : Block) :
    (after [.replace "a" [c], .replace "a" [], .replace "b" [b], .replace "a" [a]]).snapshot =
        [b, c] ∧
      (after [.replace "a" [c], .replace "b" [b], .replace "a" [a]]).snapshot = [c, b] :=
  ⟨rfl, rfl⟩

end Marginalia.Pending
