import Marginalia.Message
import Marginalia.Proofs.Grouping
import Marginalia.Proofs.Text

/-!
# What a message says

A message gathers the blocks of each file under one heading.  `sectionOf` is what stands about a
file: its heading, and each line of its blocks with its number.  The sections come in the order of
the first blocks of their files (`InOrder`), and whatever the order of the blocks is, all their
lines are among the sections, each once and under its own file (`perm_tagged`).

The message is put together with line feeds and then trimmed.  Every line of a section holds a
colon, so the trimming goes no further than the last line (`trim_append_feed`).  The main result is
`ofBlocks_eq_sections`.
-/

namespace Marginalia.Message

/-! ## Sections -/

/-- The heading of a file. -/
def heading (cwd : String) (base : Option String) (path : String) : String :=
  relativePath cwd path base ++ ":"

/-- A numbered line as it is shown. -/
def shown (p : Int × String) : String :=
  toString p.1 ++ ": " ++ p.2

/-- The numbered lines of the blocks of a file. -/
def linesOf (blocks : List Block) (path : String) : List (Int × String) :=
  (blocks.filter (·.path = path)).flatMap (·.numberedLines)

/-- What stands about a file: its heading, and the lines of its blocks. -/
def sectionOf (cwd : String) (base : Option String) (blocks : List Block) (path : String) :
    List String :=
  heading cwd base path :: (linesOf blocks path).map shown

/-- The lines about all files, with an empty line between two files. -/
def body (cwd : String) (base : Option String) (blocks : List Block) : List String :=
  [""].intercalate ((filesOf blocks).map (sectionOf cwd base blocks))

/-- The line without the blanks at its end. -/
def trimEnd (line : String) : String :=
  String.ofList (Text.trimRight line.toList)

/-- The numbered lines of the blocks, each with the path of its file. -/
def tagged (blocks : List Block) : List (String × Int × String) :=
  blocks.flatMap fun b => b.numberedLines.map (b.path, ·)

/-- Each of the paths is listed once, the one that comes first before the others. -/
structure InOrder (paths files : List String) : Prop where
  nodup : files.Nodup
  mem_iff : ∀ path, path ∈ files ↔ path ∈ paths
  first : files.Pairwise fun p q => paths.idxOf p < paths.idxOf q

/-! ## Files -/

lemma inOrder_eraseDups (paths : List String) : InOrder paths paths.eraseDups := by
  induction paths using List.reverseRecOn with
  | nil => exact ⟨List.nodup_nil, by simp, List.Pairwise.nil⟩
  | append_singleton paths path ih =>
      have hmem : ∀ p ∈ paths.eraseDups, p ∈ paths := fun p hp => (ih.mem_iff p).1 hp
      -- A path that was there is found at the same place.
      have hkept {p : String} (hp : p ∈ paths.eraseDups) :
          (paths ++ [path]).idxOf p = paths.idxOf p :=
        List.idxOf_append_of_mem (hmem p hp)
      have hfirst : paths.eraseDups.Pairwise fun p q =>
          (paths ++ [path]).idxOf p < (paths ++ [path]).idxOf q := by
        refine ih.first.imp_of_mem fun hp hq hlt => ?_
        rwa [hkept hp, hkept hq]
      have hmem_iff : ∀ p, p ∈ (paths ++ [path]).eraseDups ↔ p ∈ paths ++ [path] :=
        fun p => List.mem_eraseDups
      by_cases hpath : path ∈ paths
      · have hsame : (paths ++ [path]).eraseDups = paths.eraseDups := by
          simp [List.eraseDups_append, List.removeAll, hpath]
        rw [hsame] at hmem_iff ⊢
        exact ⟨ih.nodup, hmem_iff, hfirst⟩
      · have hlonger : (paths ++ [path]).eraseDups = paths.eraseDups ++ [path] := by
          simp [List.eraseDups_append, List.removeAll, hpath, List.eraseDups_cons]
        rw [hlonger] at hmem_iff ⊢
        refine ⟨?_, hmem_iff, ?_⟩
        · rw [List.nodup_append]
          refine ⟨ih.nodup, List.nodup_singleton path, fun p hp q hq hpq => ?_⟩
          rw [List.mem_singleton.1 hq] at hpq
          exact hpath (hpq ▸ hmem p hp)
        · rw [List.pairwise_append]
          refine ⟨hfirst, List.pairwise_singleton _ _, fun p hp q hq => ?_⟩
          rw [List.mem_singleton.1 hq, hkept hp, List.idxOf_append_of_notMem hpath]
          have hbefore : paths.idxOf p < paths.length := List.idxOf_lt_length_iff.2 (hmem p hp)
          omega

lemma filesOf_ne_nil {blocks : List Block} (h : blocks ≠ []) : filesOf blocks ≠ [] := by
  obtain ⟨b, rest, rfl⟩ := List.exists_cons_of_ne_nil h
  rw [filesOf, List.map_cons, List.eraseDups_cons]
  exact List.cons_ne_nil _ _

/-- Blocks that are sorted by their files are the same blocks. -/
lemma perm_flatMap_filter {files : List String} (hnodup : files.Nodup) {blocks : List Block}
    (hall : ∀ b ∈ blocks, b.path ∈ files) :
    (files.flatMap fun path => blocks.filter (·.path = path)).Perm blocks := by
  induction files generalizing blocks with
  | nil =>
      have hnone : blocks = [] :=
        List.eq_nil_iff_forall_not_mem.2 fun b hb => List.not_mem_nil (hall b hb)
      rw [hnone]
      exact List.Perm.refl _
  | cons file files ih =>
      rw [List.nodup_cons] at hnodup
      let others := blocks.filter fun b => !decide (b.path = file)
      have hothers : ∀ b ∈ others, b.path ∈ files := fun b hb => by
        obtain ⟨hb, hne⟩ := List.mem_filter.1 hb
        exact List.mem_of_ne_of_mem (by simpa using hne) (hall b hb)
      -- The other files have the same blocks among the others.
      have hsame : (files.flatMap fun path => blocks.filter (·.path = path)) =
          files.flatMap fun path => others.filter (·.path = path) := by
        refine List.flatMap_congr fun path hpath => ?_
        rw [List.filter_filter]
        refine List.filter_congr fun b _ => ?_
        by_cases hb : b.path = path
        · have hne : path ≠ file := fun h => hnodup.1 (h ▸ hpath)
          simp [hb, hne]
        · simp [hb]
      rw [List.flatMap_cons, hsame]
      exact ((ih hnodup.2 hothers).append_left _).trans (List.filter_append_perm _ _)

/-- **Every line stands once** under the heading of its own file. -/
lemma perm_tagged (blocks : List Block) :
    ((filesOf blocks).flatMap fun path => (linesOf blocks path).map (path, ·)).Perm
      (tagged blocks) := by
  have hfiles := inOrder_eraseDups (blocks.map (·.path))
  have hall : ∀ b ∈ blocks, b.path ∈ filesOf blocks := fun b hb =>
    (hfiles.mem_iff _).2 (List.mem_map_of_mem hb)
  have hsorted := perm_flatMap_filter hfiles.nodup hall
  have htagged : ((filesOf blocks).flatMap fun path => (linesOf blocks path).map (path, ·)) =
      tagged ((filesOf blocks).flatMap fun path => blocks.filter (·.path = path)) := by
    rw [tagged, List.flatMap_assoc]
    refine List.flatMap_congr fun path _ => ?_
    rw [linesOf, List.map_flatMap]
    refine List.flatMap_congr fun b hb => ?_
    rw [of_decide_eq_true (List.mem_filter.1 hb).2]
  rw [htagged]
  exact hsorted.flatMap_right _

/-! ## Lines -/

section Lines

variable (cwd : String) (base : Option String) (blocks : List Block)

lemma fileLines_eq (path : String) :
    fileLines cwd base blocks path = sectionOf cwd base blocks path ++ [""] := rfl

/-- An empty line behind every section is one between two sections and one at the end. -/
lemma flatMap_fileLines {files : List String} (h : files ≠ []) :
    files.flatMap (fileLines cwd base blocks) =
      [""].intercalate (files.map (sectionOf cwd base blocks)) ++ [""] := by
  induction files with
  | nil => exact absurd rfl h
  | cons file files ih =>
      rw [List.flatMap_cons, List.map_cons, fileLines_eq]
      by_cases hlast : files = []
      · simp [hlast]
      · rw [ih hlast, List.intercalate_cons_of_ne_nil (by simpa using hlast)]
        simp only [List.append_assoc]

lemma exists_last_line {files : List String} (h : files ≠ []) :
    ∃ front last path, [""].intercalate (files.map (sectionOf cwd base blocks)) = front ++ [last] ∧
      last ∈ sectionOf cwd base blocks path := by
  induction files with
  | nil => exact absurd rfl h
  | cons file files ih =>
      rw [List.map_cons]
      by_cases hlast : files = []
      · have hne : sectionOf cwd base blocks file ≠ [] := List.cons_ne_nil _ _
        refine ⟨(sectionOf cwd base blocks file).dropLast, _, file, ?_, List.getLast_mem hne⟩
        rw [hlast, List.map_nil, List.intercalate_singleton, List.dropLast_append_getLast]
      · obtain ⟨front, last, path, hrest, hmem⟩ := ih hlast
        refine ⟨sectionOf cwd base blocks file ++ [""] ++ front, last, path, ?_, hmem⟩
        rw [List.intercalate_cons_of_ne_nil (by simpa using hlast), hrest,
          List.append_assoc _ front]

variable {cwd base blocks}

/-- A line of a section is not blank. -/
lemma exists_colon {path line : String} (h : line ∈ sectionOf cwd base blocks path) :
    ∃ x y, line.toList = x ++ [':'] ++ y := by
  rcases List.mem_cons.1 h with rfl | h
  · exact ⟨(relativePath cwd path base).toList, [], by simp [heading]⟩
  · obtain ⟨p, -, rfl⟩ := List.mem_map.1 h
    exact ⟨(toString p.1).toList, ' ' :: p.2.toList, by simp [shown]⟩

/-- A line of a block is one line of the message. -/
lemma lines_shown (oneLine : ∀ b ∈ blocks, ∀ line ∈ b.lines, '\n' ∉ line.toList) {path : String}
    {p : Int × String} (h : p ∈ linesOf blocks path) : Text.lines (shown p) = [shown p] := by
  obtain ⟨b, hb, hp⟩ := List.mem_flatMap.1 h
  obtain ⟨q, hq, rfl⟩ := List.mem_map.1 hp
  have hline := oneLine b (List.mem_of_mem_filter hb) q.1 (List.fst_mem_of_mem_zipIdx hq)
  have hnumber := Block.not_mem_toString (c := '\n') rfl (by decide) (b.line + q.2)
  refine Text.lines_of_no_feed ?_
  simp only [shown, String.toList_append, List.mem_append, not_or]
  exact ⟨⟨hnumber, by decide⟩, hline⟩

end Lines

/-! ## Trimming -/

/-- The last one of some lines stands at the end of the text. -/
lemma exists_intercalate_eq (front : List String) :
    ∃ text, ∀ last, "\n".intercalate (front ++ [last]) = text ++ last := by
  by_cases h : front = []
  · refine ⟨"", fun last => ?_⟩
    rw [h, List.nil_append, String.intercalate_singleton, String.empty_append]
  · refine ⟨"\n".intercalate front ++ "\n", fun last => ?_⟩
    rw [String.intercalate_append_of_ne_nil h (List.cons_ne_nil _ _), String.intercalate_singleton]

/-- Trimming a text that ends with a line and a line feed takes the line feed and the blanks at the
end of the line, if there is a colon in the line. -/
lemma trim_append_feed {front last x y : List Char} (hfront : Text.trimLeft front = front)
    (hne : front ≠ []) (hlast : last = x ++ [':'] ++ y) :
    Text.trim (front ++ last ++ ['\n']) = front ++ Text.trimRight last := by
  have hleft : Text.trimLeft (front ++ (last ++ ['\n'])) = front ++ (last ++ ['\n']) := by
    rw [Text.trimLeft_append (hfront.symm ▸ hne), hfront]
  have hright : Text.trimRight (front ++ last) = front ++ Text.trimRight last := by
    rw [hlast, Text.trimRight_append rfl, ← List.append_assoc, ← List.append_assoc,
      Text.trimRight_append rfl, List.append_assoc front x, List.append_assoc front]
  rw [Text.trim, List.append_assoc, hleft, ← List.append_assoc, Text.trimRight_concat rfl, hright]

lemma trimLeft_preamble (text : List Char) :
    Text.trimLeft (preamble.toList ++ text) = preamble.toList ++ text := by
  -- The rules begin with a letter; their first line is enough to see it.
  unfold preamble
  repeat rw [String.toList_append]
  simp only [List.append_assoc]
  rw [Text.trimLeft_append]
  · exact congrArg (· ++ _) (by decide +kernel)
  · decide +kernel

/-- The parts of a message before they are trimmed. -/
lemma parts_eq (cwd : String) (base : Option String) {blocks : List Block}
    (nonempty : blocks ≠ []) :
    preamble :: (filesOf blocks).flatMap (fileLines cwd base blocks) =
      preamble :: body cwd base blocks ++ [""] := by
  rw [flatMap_fileLines cwd base blocks (filesOf_ne_nil nonempty), body, List.cons_append]

/-- **What a message says**: the preamble, an empty line, and the sections of the files, in the
order of their first blocks and with an empty line between two of them; of all this only the blanks
at the end of the last line are trimmed.  So every line of every block stands once, with its own
number, under the heading of its own file, and as a line of its own. -/
theorem ofBlocks_eq_sections (cwd : String) (base : Option String) {blocks : List Block}
    (nonempty : blocks ≠ []) (oneLine : ∀ b ∈ blocks, ∀ line ∈ b.lines, '\n' ∉ line.toList) :
    (∃ front last, body cwd base blocks = front ++ [last] ∧
        ofBlocks cwd base blocks = preamble ++ "\n" ++ "\n".intercalate (front ++ [trimEnd last]) ∧
        Text.lines (ofBlocks cwd base blocks) =
          Text.lines preamble ++ (front ++ [trimEnd last]).flatMap Text.lines) ∧
      InOrder (blocks.map (·.path)) (filesOf blocks) ∧
      ((filesOf blocks).flatMap fun path => (linesOf blocks path).map (path, ·)).Perm
        (tagged blocks) ∧
      ∀ path, ∀ p ∈ linesOf blocks path, Text.lines (shown p) = [shown p] := by
  refine ⟨?_, inOrder_eraseDups _, perm_tagged blocks, fun path p hp => lines_shown oneLine hp⟩
  obtain ⟨front, last, path, hbody, hmem⟩ :=
    exists_last_line cwd base blocks (filesOf_ne_nil nonempty)
  obtain ⟨x, y, hcolon⟩ := exists_colon hmem
  obtain ⟨text, htext⟩ := exists_intercalate_eq front
  have hwhole : "\n".intercalate (preamble :: body cwd base blocks ++ [""]) =
      preamble ++ "\n" ++ text ++ last ++ "\n" := by
    rw [List.cons_append, String.intercalate_cons_of_ne_nil (by simp),
      String.intercalate_append_of_ne_nil (by simp [body, hbody]) (List.cons_ne_nil _ _), body,
      hbody, htext, String.intercalate_singleton]
    simp only [String.append_assoc, String.append_empty]
  have htrim := trim_append_feed (trimLeft_preamble ('\n' :: text.toList)) (by simp) hcolon
  have hmessage : ofBlocks cwd base blocks =
      preamble ++ "\n" ++ "\n".intercalate (front ++ [trimEnd last]) := by
    rw [ofBlocks, if_neg (by simpa using nonempty)]
    simp only [parts_eq cwd base nonempty, hwhole, htext]
    refine String.toList_inj.1 ?_
    simpa [trimEnd] using htrim
  refine ⟨front, last, hbody, hmessage, ?_⟩
  rw [hmessage, Text.lines_append, Text.lines_intercalate (by simp)]

/-- Two blocks of one file with a block of another between them, as they were found in the files. -/
theorem ofBlocks_eq_sections_of_interleaved :
    let blocks : List Block := Block.ofContent "/w/b.py" "\n\n# one AI\n\t# two AI  " ++
      Block.ofContent "/w/src/a.py" "// three AI" ++ Block.ofContent "/w/b.py" "\n-- AI! four \r"
    blocks ≠ [] ∧ (∀ b ∈ blocks, ∀ line ∈ b.lines, '\n' ∉ line.toList) ∧
      Text.lines (ofBlocks "/w" none blocks) = Text.lines preamble ++
        ["b.py:", "3: # one AI", "4: \t# two AI  ", "2: -- AI! four \r", "", "src/a.py:",
          "1: // three AI"] := by
  intro blocks
  have nonempty : blocks ≠ [] := by decide
  have oneLine : ∀ b ∈ blocks, ∀ line ∈ b.lines, '\n' ∉ line.toList := by
    intro b hb line hline
    simp only [blocks, List.mem_append, or_assoc] at hb
    rcases hb with hb | hb | hb <;>
      exact Text.no_feed_of_mem_lines (Block.mem_lines_of_mem_ofContent hb hline)
  obtain ⟨⟨front, last, hbody, -, hlines⟩, -⟩ :=
    ofBlocks_eq_sections "/w" none nonempty oneLine
  have hseen : body "/w" none blocks = ["b.py:", "3: # one AI", "4: \t# two AI  ",
      "2: -- AI! four \r", "", "src/a.py:"] ++ ["1: // three AI"] := by decide +kernel
  obtain ⟨rfl, hlast⟩ := List.append_inj' (hbody.symm.trans hseen) rfl
  obtain rfl := List.singleton_inj.1 hlast
  have hshown : (["b.py:", "3: # one AI", "4: \t# two AI  ", "2: -- AI! four \r", "",
      "src/a.py:"] ++ [trimEnd "1: // three AI"]).flatMap Text.lines =
        ["b.py:", "3: # one AI", "4: \t# two AI  ", "2: -- AI! four \r", "", "src/a.py:",
          "1: // three AI"] := by decide +kernel
  exact ⟨nonempty, oneLine, by rw [hlines, hshown]⟩

end Marginalia.Message
