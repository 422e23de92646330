import Marginalia.Files
import Marginalia.Proofs.Grouping
import Marginalia.Proofs.Pending
import Marginalia.Proofs.Text
import Marginalia.Proofs.Text.Utf8

/-!
# Line ends make no difference

A file holds octets, and its lines end as the program that wrote them ends lines.  Reading the file
decodes the octets and turns every line end into a line feed, so that the same lines have the same
blocks, with the same numbers, however they end.

`Text.written` puts lines and line ends together.  A carriage return is taken together with a line
feed behind it, so that what stands behind it matters: `Text.head?_written_ne_feed` is what
`Text.unifyLineEnds_written` needs where returns stand alone.  With `Utf8.decode_encode` follows
`Block.ofContent_whatever_line_ends`.
-/

namespace Marginalia

namespace Text

/-- What ends a line. -/
inductive LineEnd
  | feed
  | carriageReturn
  | returnAndFeed
  deriving DecidableEq, Repr

/-- The characters of a line end. -/
def LineEnd.text : LineEnd → String
  | .feed => "\n"
  | .carriageReturn => "\r"
  | .returnAndFeed => "\r\n"

/-- The lines one after the other, each but the last with its end. -/
def written (ends : ℕ → LineEnd) : List String → String
  | [] => ""
  | [line] => line
  | line :: next :: lines =>
    line ++ (ends 0).text ++ written (fun n => ends (n + 1)) (next :: lines)

/-! ## Unified line ends -/

lemma unifyLineEnds_append {line : List Char} (h : '\r' ∉ line) (rest : List Char) :
    unifyLineEnds (line ++ rest) = line ++ unifyLineEnds rest := by
  induction line with
  | nil => rfl
  | cons c line ih =>
      have hc : c ≠ '\r' := fun hc => h (hc ▸ List.mem_cons_self ..)
      have hcons : unifyLineEnds (c :: (line ++ rest)) = c :: unifyLineEnds (line ++ rest) := by
        simp [unifyLineEnds, hc]
      rw [List.cons_append, hcons, ih fun hmem => h (List.mem_cons_of_mem _ hmem)]
      rfl

lemma unifyLineEnds_feed (rest : List Char) :
    unifyLineEnds ('\n' :: rest) = '\n' :: unifyLineEnds rest := by
  simp [unifyLineEnds]

lemma unifyLineEnds_return_feed (rest : List Char) :
    unifyLineEnds ('\r' :: '\n' :: rest) = '\n' :: unifyLineEnds rest := by
  simp [unifyLineEnds]

/-- A carriage return is a line end of its own where no line feed follows it. -/
lemma unifyLineEnds_return {rest : List Char} (h : rest.head? ≠ some '\n') :
    unifyLineEnds ('\r' :: rest) = '\n' :: unifyLineEnds rest := by
  cases rest with
  | nil => simp [unifyLineEnds]
  | cons c rest =>
      have hc : c ≠ '\n' := by simpa using h
      simp [unifyLineEnds, hc]

section Written

variable {lines : List String}

/-- Lines that end with carriage returns do not begin with a line feed. -/
lemma head?_written_ne_feed (hfeed : ∀ line ∈ lines, '\n' ∉ line.toList) {ends : ℕ → LineEnd}
    (hends : ∀ n, ends n = .carriageReturn) : (written ends lines).toList.head? ≠ some '\n' := by
  have hfirst {line : String} (hline : line ∈ lines) : line.toList.head? ≠ some '\n' :=
    fun hhead => hfeed line hline (List.mem_of_head? hhead)
  match lines, hfeed with
  | [], _ => simp [written]
  | [line], _ => exact hfirst (List.mem_singleton_self _)
  | line :: next :: lines, _ =>
      rw [written, hends, LineEnd.text, String.append_assoc, String.toList_append,
        List.head?_append]
      cases hline : line.toList.head? with
      | none => simp
      | some c =>
          intro hc
          exact hfirst (List.mem_cons_self ..) (hline.trans hc)

/-- **Reading unifies the line ends** of a file, if returns stand alone everywhere or nowhere. -/
lemma unifyLineEnds_written
    (hlines : ∀ line ∈ lines, '\r' ∉ line.toList ∧ '\n' ∉ line.toList) {ends : ℕ → LineEnd}
    (hends : (∀ n, ends n ≠ .carriageReturn) ∨ ∀ n, ends n = .carriageReturn) :
    unifyLineEnds (written ends lines).toList = ("\n".intercalate lines).toList := by
  induction lines generalizing ends with
  | nil => rfl
  | cons line lines ih =>
      have hline := (hlines line (List.mem_cons_self ..)).1
      have hrest := fun other hother => hlines other (List.mem_cons_of_mem line hother)
      cases lines with
      | nil =>
          have halone := unifyLineEnds_append hline []
          rw [List.append_nil] at halone
          rw [written, String.intercalate_singleton, halone, unifyLineEnds, List.append_nil]
      | cons next lines =>
          have hbehind : unifyLineEnds (written (fun n => ends (n + 1)) (next :: lines)).toList =
              ("\n".intercalate (next :: lines)).toList :=
            ih hrest (hends.imp (fun h n => h (n + 1)) fun h n => h (n + 1))
          have hend : unifyLineEnds ((ends 0).text.toList ++
              (written (fun n => ends (n + 1)) (next :: lines)).toList) =
              '\n' :: ("\n".intercalate (next :: lines)).toList := by
            rw [← hbehind]
            cases hzero : ends 0 with
            | feed => exact unifyLineEnds_feed _
            | returnAndFeed => exact unifyLineEnds_return_feed _
            | carriageReturn =>
                -- Behind an empty line, a line feed as its end would be taken with this return.
                have hall : ∀ n, ends n = .carriageReturn :=
                  hends.resolve_left fun hnone => hnone 0 hzero
                exact unifyLineEnds_return (head?_written_ne_feed
                  (fun other hother => (hrest other hother).2) fun n => hall (n + 1))
          rw [written, String.append_assoc, String.toList_append, unifyLineEnds_append hline,
            String.toList_append, hend, String.intercalate_cons_of_ne_nil (List.cons_ne_nil _ _),
            String.toList_append, String.toList_append, List.append_assoc]
          rfl

end Written

end Text

namespace Files

/-- What was written to a file is read from it, with unified line ends. -/
lemma readText_set_ofText (fs : Files) (path text : String) :
    (fs.set path (ofText text)).readText path =
      .ok (String.ofList (Text.unifyLineEnds text.toList)) := by
  have hplace : (fs.set path (ofText text)).contents.lookup
      ((fs.set path (ofText text)).locate path) = some (.octets (Utf8.encode text.toList)) := by
    rw [set, Entries.lookup_put]
    exact if_pos rfl
  rw [readText, hplace]
  simp only [textOf, Utf8.decode_encode]

end Files

namespace Block

/-- The blocks of a file are those of its lines. -/
lemma ofContent_intercalate {lines : List String} (h : ∀ line ∈ lines, '\n' ∉ line.toList)
    (path : String) : ofContent path ("\n".intercalate lines) = ofLines path 1 lines := by
  by_cases hnil : lines = []
  · have hplain : Marker.ofLine? "" = none := by decide
    have hempty : Text.lines "" = [""] := rfl
    rw [hnil, String.intercalate_nil, ofContent, hempty]
    simp only [ofLines, hplain]
  · rw [ofContent, Text.lines_intercalate_of_no_feed hnil h]

/-- **Line ends make no difference to blocks.** Take any lines, and write them to a file with a
line feed, or a carriage return and a line feed, behind each line as one likes, or with a carriage
return behind all of them.  Reading the file succeeds, and its blocks are those of the lines, the
same as of the lines with line feeds between them; no carriage return is left in them. -/
theorem ofContent_whatever_line_ends {lines : List String}
    (hlines : ∀ line ∈ lines, '\r' ∉ line.toList ∧ '\n' ∉ line.toList) {ends : ℕ → Text.LineEnd}
    (hends : (∀ n, ends n ≠ .carriageReturn) ∨ ∀ n, ends n = .carriageReturn)
    (fs : Files) (path : String) :
    ∃ text, (fs.set path (Files.ofText (Text.written ends lines))).readText path = .ok text ∧
      ofContent path text = ofLines path 1 lines ∧
      ofContent path text = ofContent path ("\n".intercalate lines) ∧
      ∀ b ∈ ofContent path text, ∀ line ∈ b.lines, line ∈ lines ∧ '\r' ∉ line.toList := by
  have hfeed : ∀ line ∈ lines, '\n' ∉ line.toList := fun line hline => (hlines line hline).2
  have hread : (fs.set path (Files.ofText (Text.written ends lines))).readText path =
      .ok ("\n".intercalate lines) := by
    rw [Files.readText_set_ofText, Text.unifyLineEnds_written hlines hends, String.ofList_toList]
  refine ⟨_, hread, ofContent_intercalate hfeed path, rfl, fun b hb line hline => ?_⟩
  have hmem : line ∈ lines := by
    rw [ofContent_intercalate hfeed] at hb
    exact mem_lines_of_mem_ofLines hb hline
  exact ⟨hmem, (hlines line hmem).1⟩

/-- An empty line and one at the end, written with both kinds of line ends by turns, and with
carriage returns. -/
theorem ofContent_whatever_line_ends_of_turns :
    let lines := ["# é AI", "", "x = 1", "# 好 AI!", ""]
    let turns (n : ℕ) : Text.LineEnd := if n % 2 = 0 then .returnAndFeed else .feed
    let returns (_ : ℕ) : Text.LineEnd := .carriageReturn
    let blocks : List Block := [⟨"a.py", 1, ["# é AI"], false⟩, ⟨"a.py", 4, ["# 好 AI!"], true⟩]
    (∀ line ∈ lines, '\r' ∉ line.toList ∧ '\n' ∉ line.toList) ∧
      (∀ n, turns n ≠ .carriageReturn) ∧ (∀ n, returns n = .carriageReturn) ∧
      Text.written turns lines = "# é AI\r\n\nx = 1\r\n# 好 AI!\n" ∧
      (∃ text, (Files.set {} "a.py" (Files.ofText (Text.written turns lines))).readText "a.py" =
        .ok text ∧ ofContent "a.py" text = blocks) ∧
      ∃ text, (Files.set {} "a.py" (Files.ofText (Text.written returns lines))).readText "a.py" =
        .ok text ∧ ofContent "a.py" text = blocks := by
  intro lines turns returns blocks
  have hlines : ∀ line ∈ lines, '\r' ∉ line.toList ∧ '\n' ∉ line.toList := by decide
  have hturns (n : ℕ) : turns n ≠ .carriageReturn := by
    simp only [turns]
    split <;> decide
  have hreturns (n : ℕ) : returns n = .carriageReturn := rfl
  have hblocks : ofLines "a.py" 1 lines = blocks := by decide
  have hwritten : Text.written turns lines = "# é AI\r\n\nx = 1\r\n# 好 AI!\n" := by decide
  obtain ⟨text, hread, hturn, -⟩ :=
    ofContent_whatever_line_ends hlines (.inl hturns) {} "a.py"
  obtain ⟨text', hread', hreturn, -⟩ :=
    ofContent_whatever_line_ends hlines (.inr hreturns) {} "a.py"
  exact ⟨hlines, hturns, hreturns, hwritten, ⟨text, hread, hturn.trans hblocks⟩,
    ⟨text', hread', hreturn.trans hblocks⟩⟩

end Block

end Marginalia
