import Marginalia.Proofs.Grouping
import Marginalia.Proofs.Text

/-!
# Blocks above and below a plain line

A line that is not marked ends the block above it, so what stands above such a line and what stands
below it have nothing to do with each other: the blocks of the whole are those of the part above and
those of the part below, the latter further down by as many lines as stand before them.

`ofLines_append` shows this for lines, by going through those above, and `ofLines_add` says that the
number of the first line only moves the blocks.  The result for files is `ofContent_stacked`.
-/

namespace Marginalia.Block

/-- The block some lines further down, or further up if the number is negative. -/
def shifted (k : Int) (b : Block) : Block :=
  { b with line := b.line + k }

/-- A text, a line below it, and another text below that. -/
def stacked (front line back : String) : String :=
  front ++ "\n" ++ line ++ "\n" ++ back

lemma line_shifted (k : Int) (b : Block) : (shifted k b).line = b.line + k := rfl

lemma shifted_shifted (j k : Int) (b : Block) :
    shifted j (shifted k b) = shifted (k + j) b := by
  simp only [shifted, Int.add_assoc]

section Lines

variable {path line : String} {n : Int} {m : Marker}

/-- A marked line that is put before some blocks leaves those alone that begin further down than on
the next line. -/
lemma prepend_append {rest : List Block} (hfar : ∀ b ∈ rest, n + 1 < b.line)
    (blocks : List Block) :
    prepend path n line m (blocks ++ rest) = prepend path n line m blocks ++ rest := by
  cases blocks with
  | nil =>
      cases rest with
      | nil => rfl
      | cons c rest =>
          have hgap : c.line ≠ n + 1 := (hfar c (List.mem_cons_self ..)).ne'
          exact if_neg hgap
  | cons b blocks =>
      rw [List.cons_append, prepend, prepend]
      split <;> rfl

lemma le_line_of_mem_ofLines {lines : List String} {b : Block} (hb : b ∈ ofLines path n lines) :
    n ≤ b.line := by
  obtain ⟨first, hfirst⟩ := (grouping_ofLines path n lines).exists_first hb
  exact le_of_mem_numbered (List.mem_of_mem_filter hfirst)

/-- The blocks of lines with a plain one among them. -/
lemma ofLines_append (hplain : Marker.ofLine? line = none) (front back : List String) :
    ofLines path n (front ++ line :: back) =
      ofLines path n front ++ ofLines path (n + (front.length + 1)) back := by
  induction front generalizing n with
  | nil =>
      have hnext : n + (([] : List String).length + 1) = n + 1 := by simp
      simp only [hnext, ofLines, hplain, List.nil_append]
  | cons first front ih =>
      have hnext : n + 1 + (front.length + 1) = n + ((first :: front).length + 1) := by
        rw [List.length_cons]
        push_cast
        omega
      rw [List.cons_append, ofLines, ofLines, ih, hnext]
      cases Marker.ofLine? first with
      | none => rfl
      | some m =>
          refine prepend_append (fun b hb => ?_) _
          have hbelow := le_line_of_mem_ofLines hb
          rw [List.length_cons] at hbelow
          push_cast at hbelow
          omega

lemma prepend_add (k : Int) (blocks : List Block) :
    prepend path (n + k) line m (blocks.map (shifted k)) =
      (prepend path n line m blocks).map (shifted k) := by
  cases blocks with
  | nil => rfl
  | cons b blocks =>
      have hnext : (shifted k b).line = n + k + 1 ↔ b.line = n + 1 := by
        rw [line_shifted]
        omega
      rw [List.map_cons, prepend, prepend]
      simp only [hnext]
      split <;> rfl

/-- Where the first line stands only moves the blocks. -/
lemma ofLines_add (k : Int) (lines : List String) :
    ofLines path (n + k) lines = (ofLines path n lines).map (shifted k) := by
  induction lines generalizing n with
  | nil => rfl
  | cons line lines ih =>
      have hnext : n + k + 1 = n + 1 + k := by omega
      rw [ofLines, ofLines, hnext, ih]
      cases Marker.ofLine? line with
      | none => rfl
      | some m => exact prepend_add k _

end Lines

/-- **A plain line keeps apart** what stands above it and what stands below it: the blocks of the
part above are as if nothing stood below them, and those of the part below as if nothing stood above
them but for the numbers of their lines.

So what is written below the line changes no block above it, and what is written above it moves the
blocks below it by the lines it adds or takes away. -/
theorem ofContent_stacked {line : String} (hplain : Marker.ofLine? line = none)
    (hfeed : '\n' ∉ line.toList) (path : String) :
    (∀ front back, ofContent path (stacked front line back) = ofContent path front ++
        (ofContent path back).map (shifted ((Text.lines front).length + 1))) ∧
      ∀ front front' back, ∃ below,
        ofContent path (stacked front line back) = ofContent path front ++ below ∧
          ofContent path (stacked front' line back) = ofContent path front' ++
            below.map (shifted ((Text.lines front').length - (Text.lines front).length)) := by
  have hparts (front back : String) : ofContent path (stacked front line back) =
      ofContent path front ++
        (ofContent path back).map (shifted ((Text.lines front).length + 1)) := by
    have hlines : Text.lines (stacked front line back) =
        Text.lines front ++ line :: Text.lines back := by
      rw [stacked, Text.lines_append, Text.lines_append, Text.lines_of_no_feed hfeed,
        List.append_assoc, List.singleton_append]
    rw [ofContent, hlines, ofLines_append hplain, ofLines_add]
    rfl
  refine ⟨hparts, fun front front' back => ⟨_, hparts front back, ?_⟩⟩
  have hmoved : shifted ((Text.lines front').length - (Text.lines front).length) ∘
      shifted ((Text.lines front).length + 1) = shifted ((Text.lines front').length + 1) := by
    funext b
    rw [Function.comp_apply, shifted_shifted]
    exact congrArg (shifted · b) (by omega)
  rw [List.map_map, hmoved, hparts]

/-- Marked lines right above and right below the plain one, and the first of them taken away. -/
theorem ofContent_stacked_of_neighbours :
    let line := "x = 1"
    let below : Block := ⟨"f", 4, ["# two AI", "# three AI!"], true⟩
    Marker.ofLine? line = none ∧ '\n' ∉ line.toList ∧
      ofContent "f" (stacked "\n# one AI" line "# two AI\n# three AI!") =
        [⟨"f", 2, ["# one AI"], false⟩, below] ∧
      ofContent "f" (stacked "" line "# two AI\n# three AI!") = [shifted (-1) below] := by
  intro line below
  have hplain : Marker.ofLine? line = none := by decide
  have hfeed : '\n' ∉ line.toList := by decide
  obtain ⟨hparts, hedits⟩ := ofContent_stacked hplain hfeed "f"
  have hwhole : ofContent "f" (stacked "\n# one AI" line "# two AI\n# three AI!") =
      [⟨"f", 2, ["# one AI"], false⟩, below] := by
    rw [hparts]
    decide
  obtain ⟨rest, hold, hnew⟩ := hedits "\n# one AI" "" "# two AI\n# three AI!"
  have hrest : [below] = rest := by
    have hfront : ofContent "f" "\n# one AI" = [⟨"f", 2, ["# one AI"], false⟩] := by decide
    rw [hwhole, hfront] at hold
    exact (List.cons.inj hold).2
  refine ⟨hplain, hfeed, hwhole, ?_⟩
  rw [hnew, ← hrest]
  decide

end Marginalia.Block
