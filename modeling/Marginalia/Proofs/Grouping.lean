import Marginalia.Proofs.Block

/-!
# Blocks as runs of marked lines

`Block.ofContent` goes through the lines of a file from the last to the first.  Here its result is
described without that recursion.  `Run` says what a single block owes to its lines, and `Grouping`
what the blocks owe to the file: together they hold the marked lines with their numbers, each once
and in order, and between two neighbours there is a line that is not marked.

These conditions leave no choice.  Taking off the first marked line is what shows it:
`grouping_cons_iff` says that the groupings of the lines from it on are those of the lines behind it
with the line put before them.  The main result, `grouping_iff_eq_ofContent`, is that the blocks of
a file are its only grouping.
-/

namespace Marginalia.Block

/-- Lines with their numbers, the first of which is `n`. -/
def numbered (n : Int) (lines : List String) : List (Int × String) :=
  lines.zipIdx.map fun p => (n + p.2, p.1)

/-- The marked ones among some lines, with their numbers. -/
def markedAmong (n : Int) (lines : List String) : List (Int × String) :=
  (numbered n lines).filter fun p => Marker.ofLine? p.2 ≠ none

/-- A block of the file at `path`: it holds lines, and is a trigger if one of them is. -/
structure Run (path : String) (b : Block) : Prop where
  path_eq : b.path = path
  nonempty : b.lines ≠ []
  trigger_iff : b.trigger = true ↔ ∃ line ∈ b.lines, Marker.ofLine? line = some .trigger

/-- The blocks hold the marked lines of the file at `path`, each once and in order, and no two of
them could be one. -/
structure Grouping (path : String) (marked : List (Int × String)) (blocks : List Block) : Prop where
  lines_eq : blocks.flatMap numberedLines = marked
  runs : ∀ b ∈ blocks, b.Run path
  apart : blocks.IsChain fun b c => b.endLine + 1 < c.line

/-! ## Numbered lines -/

@[simp] lemma numbered_nil (n : Int) : numbered n [] = [] := rfl

@[simp] lemma numbered_cons (n : Int) (line : String) (lines : List String) :
    numbered n (line :: lines) = (n, line) :: numbered (n + 1) lines := by
  rw [numbered, numbered, List.zipIdx_cons', List.map_cons, List.map_map]
  refine congrArg₂ List.cons (by simp) (List.map_congr_left fun p _ => ?_)
  simp only [Function.comp_apply, Prod.map_fst, Prod.map_snd, id_eq, Prod.mk.injEq, and_true]
  omega

lemma map_snd_numbered (n : Int) (lines : List String) :
    (numbered n lines).map Prod.snd = lines := by
  induction lines generalizing n with
  | nil => rfl
  | cons line lines ih => rw [numbered_cons, List.map_cons, ih]

lemma numberedLines_eq (b : Block) : b.numberedLines = numbered b.line b.lines := rfl

lemma markedAmong_cons_of_none {line : String} (h : Marker.ofLine? line = none) (n : Int)
    (lines : List String) : markedAmong n (line :: lines) = markedAmong (n + 1) lines := by
  rw [markedAmong, numbered_cons, List.filter_cons_of_neg (by simp [h])]
  rfl

lemma markedAmong_cons_of_some {line : String} {m : Marker} (h : Marker.ofLine? line = some m)
    (n : Int) (lines : List String) :
    markedAmong n (line :: lines) = (n, line) :: markedAmong (n + 1) lines := by
  rw [markedAmong, numbered_cons, List.filter_cons_of_pos (by simp [h])]
  rfl

lemma le_of_mem_numbered {n : Int} {lines : List String} {p : Int × String}
    (hp : p ∈ numbered n lines) : n ≤ p.1 := by
  obtain ⟨q, -, rfl⟩ := List.mem_map.1 hp
  omega

/-! ## Runs -/

lemma run_of_ne_nil (path : String) (n : Int) {lines : List String} (hlines : lines ≠ []) :
    Run path ⟨path, n, lines, lines.any (Marker.ofLine? · = some .trigger)⟩ :=
  ⟨rfl, hlines, by simp⟩

section Run

variable {path line : String} {n : Int} {m : Marker}

/-- A block is known by its first line and what it holds. -/
lemma Run.eq {b c : Block} (hb : b.Run path) (hc : c.Run path) (hline : b.line = c.line)
    (hlines : b.lines = c.lines) : b = c := by
  have htrigger : b.trigger = c.trigger := by
    rw [Bool.eq_iff_iff, hb.trigger_iff, hc.trigger_iff, hlines]
  have hpath : b.path = c.path := hb.path_eq.trans hc.path_eq.symm
  cases b
  cases c
  simp_all

lemma run_alone (hm : Marker.ofLine? line = some m) :
    Run path ⟨path, n, [line], m = .trigger⟩ :=
  ⟨rfl, List.cons_ne_nil _ _, by simp [hm]⟩

lemma Run.joined {b : Block} (hb : b.Run path) (hm : Marker.ofLine? line = some m) :
    Run path { b with line := n, lines := line :: b.lines, trigger := m = .trigger || b.trigger } :=
  ⟨hb.path_eq, List.cons_ne_nil _ _, by simp [hm, hb.trigger_iff]⟩

lemma Run.mem_numberedLines {b : Block} (hb : b.Run path) :
    ∃ first, (b.line, first) ∈ b.numberedLines := by
  obtain ⟨first, more, hlines⟩ := List.exists_cons_of_ne_nil hb.nonempty
  refine ⟨first, ?_⟩
  rw [numberedLines_eq, hlines, numbered_cons]
  exact List.mem_cons_self ..

end Run

/-! ## Groupings -/

section Grouping

variable {path line : String} {n : Int} {m : Marker} {marked : List (Int × String)}

/-- The lines of the blocks are marked. -/
lemma Grouping.mem_of_mem_numberedLines {blocks : List Block} (h : Grouping path marked blocks)
    {b : Block} (hb : b ∈ blocks) {p : Int × String} (hp : p ∈ b.numberedLines) : p ∈ marked := by
  rw [← h.lines_eq]
  exact List.mem_flatMap.2 ⟨b, hb, hp⟩

/-- A block begins with a marked line. -/
lemma Grouping.exists_first {blocks : List Block} (h : Grouping path marked blocks) {b : Block}
    (hb : b ∈ blocks) : ∃ first, (b.line, first) ∈ marked := by
  obtain ⟨first, hfirst⟩ := (h.runs b hb).mem_numberedLines
  exact ⟨first, h.mem_of_mem_numberedLines hb hfirst⟩

/-- Without marked lines there are no blocks. -/
lemma grouping_nil_iff {blocks : List Block} : Grouping path [] blocks ↔ blocks = [] := by
  constructor
  · intro h
    cases blocks with
    | nil => rfl
    | cons b rest =>
        obtain ⟨first, hfirst⟩ := h.exists_first (List.mem_cons_self ..)
        exact absurd hfirst List.not_mem_nil
  · rintro rfl
    exact ⟨rfl, fun b hb => absurd hb List.not_mem_nil, List.isChain_nil⟩

/-- The first line of a grouping can be taken off. -/
lemma Grouping.behind {blocks : List Block} (hm : Marker.ofLine? line = some m)
    (h : Grouping path ((n, line) :: marked) blocks) :
    ∃ behind, Grouping path marked behind ∧ blocks = prepend path n line m behind := by
  obtain ⟨hlines, hruns, hapart⟩ := h
  cases blocks with
  | nil => cases hlines
  | cons b rest =>
      rw [List.forall_mem_cons] at hruns
      obtain ⟨hb, hrest⟩ := hruns
      obtain ⟨first, more, hmore⟩ := List.exists_cons_of_ne_nil hb.nonempty
      rw [List.flatMap_cons, numberedLines_eq, hmore, numbered_cons, List.cons_append,
        List.cons.injEq, Prod.mk.injEq] at hlines
      obtain ⟨⟨hn, rfl⟩, hlines⟩ := hlines
      by_cases hlast : more = []
      · -- The line was a block of its own, and the next block begins further down.
        subst hlast
        refine ⟨rest, ⟨hlines, hrest, hapart.of_cons⟩, ?_⟩
        have halone : b = ⟨path, n, [first], m = .trigger⟩ := hb.eq (run_alone hm) hn hmore
        cases rest with
        | nil => rw [prepend, halone]
        | cons c later =>
            have hfar : b.endLine + 1 < c.line := (List.isChain_cons_cons.1 hapart).1
            have hend : b.endLine = n := by rw [endLine, hmore, hn]; simp
            rw [prepend, if_neg (by omega), halone]
      · -- The line was the first of several of its block.
        have hleft := run_of_ne_nil path (n + 1) hlast
        refine ⟨_ :: rest, ⟨?_, List.forall_mem_cons.2 ⟨hleft, hrest⟩, ?_⟩, ?_⟩
        · rw [hn] at hlines
          exact hlines
        · cases rest with
          | nil => exact List.isChain_singleton _
          | cons c later =>
              obtain ⟨hfar, hlater⟩ := List.isChain_cons_cons.1 hapart
              refine List.isChain_cons_cons.2 ⟨?_, hlater⟩
              rw [endLine, hmore, hn, List.length_cons] at hfar
              simp only [endLine]
              omega
        · rw [prepend, if_pos rfl]
          exact congrArg (· :: rest) (hb.eq (hleft.joined hm) hn hmore)

/-- A marked line can be put before a grouping of lines that come later. -/
lemma Grouping.prepend {blocks : List Block} (h : Grouping path marked blocks)
    (hm : Marker.ofLine? line = some m) (hlater : ∀ p ∈ marked, n < p.1) :
    Grouping path ((n, line) :: marked) (prepend path n line m blocks) := by
  have hbehind : ∀ b ∈ blocks, n < b.line := fun b hb =>
    (h.exists_first hb).elim fun first hfirst => hlater _ hfirst
  obtain ⟨hlines, hruns, hapart⟩ := h
  cases blocks with
  | nil =>
      refine ⟨?_, List.forall_mem_singleton.2 (run_alone hm), List.isChain_singleton _⟩
      rw [← hlines, Block.prepend, List.flatMap_singleton, numberedLines_eq, numbered_cons]
      rfl
  | cons c rest =>
      rw [List.forall_mem_cons] at hruns
      rw [Block.prepend]
      split
      · rename_i hnext
        refine ⟨?_, List.forall_mem_cons.2 ⟨hruns.1.joined hm, hruns.2⟩, ?_⟩
        · rw [← hlines, List.flatMap_cons, List.flatMap_cons, numberedLines_eq, numberedLines_eq,
            numbered_cons, hnext]
          rfl
        · cases rest with
          | nil => exact List.isChain_singleton _
          | cons d later =>
              obtain ⟨hfar, hchain⟩ := List.isChain_cons_cons.1 hapart
              refine List.isChain_cons_cons.2 ⟨?_, hchain⟩
              simp only [endLine, List.length_cons] at hfar ⊢
              omega
      · rename_i hgap
        have hnext := hbehind c (List.mem_cons_self ..)
        refine ⟨?_, List.forall_mem_cons.2 ⟨run_alone hm, List.forall_mem_cons.2 hruns⟩,
          List.isChain_cons_cons.2 ⟨?_, hapart⟩⟩
        · rw [← hlines, List.flatMap_cons, numberedLines_eq, numbered_cons]
          rfl
        · simp only [endLine, List.length_singleton]
          omega

/-- **The first marked line**: a grouping of the lines from it on is a grouping of the lines behind
it with the line put before. -/
lemma grouping_cons_iff {blocks : List Block} (hm : Marker.ofLine? line = some m)
    (hlater : ∀ p ∈ marked, n < p.1) :
    Grouping path ((n, line) :: marked) blocks ↔
      ∃ behind, Grouping path marked behind ∧ blocks = prepend path n line m behind := by
  constructor
  · exact Grouping.behind hm
  · rintro ⟨behind, h, rfl⟩
    exact h.prepend hm hlater

end Grouping

/-- The marked lines have one grouping, the blocks that `ofLines` finds. -/
lemma grouping_iff_eq_ofLines (path : String) (n : Int) (lines : List String)
    (blocks : List Block) :
    Grouping path (markedAmong n lines) blocks ↔ blocks = ofLines path n lines := by
  induction lines generalizing n blocks with
  | nil => exact grouping_nil_iff
  | cons line lines ih =>
      rw [ofLines]
      cases hm : Marker.ofLine? line with
      | none => rw [markedAmong_cons_of_none hm, ih]
      | some m =>
          have hlater : ∀ p ∈ markedAmong (n + 1) lines, n < p.1 := fun p hp =>
            Int.lt_of_add_one_le (le_of_mem_numbered (List.mem_of_mem_filter hp))
          rw [markedAmong_cons_of_some hm, grouping_cons_iff hm hlater]
          simp only [ih, exists_eq_left]

lemma grouping_ofLines (path : String) (n : Int) (lines : List String) :
    Grouping path (markedAmong n lines) (ofLines path n lines) :=
  (grouping_iff_eq_ofLines path n lines _).2 rfl

lemma grouping_ofContent (path content : String) :
    Grouping path (markedAmong 1 (Text.lines content)) (ofContent path content) :=
  grouping_ofLines path 1 (Text.lines content)

/-- What stands in the blocks of some lines are these lines. -/
lemma mem_lines_of_mem_ofLines {path : String} {n : Int} {lines : List String} {b : Block}
    (hb : b ∈ ofLines path n lines) {line : String} (hline : line ∈ b.lines) : line ∈ lines := by
  rw [← map_snd_numbered b.line b.lines] at hline
  obtain ⟨p, hp, rfl⟩ := List.mem_map.1 hline
  have hmarked := (grouping_ofLines path n lines).mem_of_mem_numberedLines hb hp
  rw [← map_snd_numbered n lines]
  exact List.mem_map_of_mem (List.mem_of_mem_filter hmarked)

lemma mem_lines_of_mem_ofContent {path content : String} {b : Block}
    (hb : b ∈ ofContent path content) {line : String} (hline : line ∈ b.lines) :
    line ∈ Text.lines content :=
  mem_lines_of_mem_ofLines hb hline

/-- Each block of a file begins further down than the one before it. -/
lemma pairwise_line_ofContent (path content : String) :
    (ofContent path content).Pairwise (·.line < ·.line) := by
  have hgrouping := grouping_ofContent path content
  refine List.isChain_iff_pairwise.1 (hgrouping.apart.imp_of_mem_imp fun b c hb _ hfar => ?_)
  have hlength := List.length_pos_iff.2 (hgrouping.runs b hb).nonempty
  rw [endLine] at hfar
  omega

/-- No two blocks of a file have the same key. -/
lemma nodup_keys_ofContent (path content : String) :
    ((ofContent path content).map (·.key)).Nodup := by
  refine List.pairwise_map.2
    ((pairwise_line_ofContent path content).imp_of_mem fun hb hc hlt hkey => ?_)
  have hpath := (path_of_mem_ofContent hb).trans (path_of_mem_ofContent hc).symm
  exact hlt.ne ((key_eq_iff hpath).1 hkey).1

/-- **The blocks of a file are its maximal runs of marked lines**: one after the other they hold
exactly the marked lines of the file with their numbers, none is empty, each is a trigger if one of
its lines is, and before every block but the first there is a line that is not marked.  No other
list of blocks is like this. -/
theorem grouping_iff_eq_ofContent (path content : String) (blocks : List Block) :
    Grouping path (markedAmong 1 (Text.lines content)) blocks ↔ blocks = ofContent path content :=
  grouping_iff_eq_ofLines path 1 (Text.lines content) blocks

/-- The second of two runs ends with the file. -/
example : ofContent "f" "# a AI\n# AI! b\nx\n  // c ai" =
    [⟨"f", 1, ["# a AI", "# AI! b"], true⟩, ⟨"f", 4, ["  // c ai"], false⟩] := by
  decide

end Marginalia.Block
