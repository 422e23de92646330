import Marginalia.Text.Blank
import Marginalia.Text.Line
import Mathlib

/-!
# Lines and blanks

The lines of texts that were joined with line feeds are the lines of the texts
(`lines_intercalate`), and trimming takes the blanks behind the last character that is none, and
nothing else (`trimRight_append`).
-/

namespace Marginalia.Text

/-! ## Lines -/

/-- Of a text that is cut at a character no piece holds it. -/
lemma not_mem_of_mem_splitOn {c : Char} {cs piece : List Char} (h : piece ∈ cs.splitOn c) :
    c ∉ piece := by
  induction cs generalizing piece with
  | nil =>
      rw [List.splitOn_nil, List.mem_singleton] at h
      rw [h]
      exact List.not_mem_nil
  | cons d cs ih =>
      rw [List.splitOn_cons_eq_if_modifyHead] at h
      by_cases hd : (d == c) = true
      · rw [if_pos hd] at h
        rcases List.mem_cons.1 h with rfl | h
        · exact List.not_mem_nil
        · exact ih h
      · rw [if_neg hd] at h
        obtain ⟨first, rest, hs⟩ := List.exists_cons_of_ne_nil (List.splitOn_ne_nil c cs)
        rw [hs, List.modifyHead_cons] at h
        rw [hs] at ih
        rcases List.mem_cons.1 h with rfl | h
        · intro hmem
          rcases List.mem_cons.1 hmem with rfl | hmem
          · exact hd (beq_self_eq_true c)
          · exact ih (List.mem_cons_self ..) hmem
        · exact ih (List.mem_cons_of_mem _ h)

lemma no_feed_of_mem_lines {text line : String} (h : line ∈ lines text) : '\n' ∉ line.toList := by
  obtain ⟨cs, hcs, rfl⟩ := List.mem_map.1 h
  rw [String.toList_ofList]
  exact not_mem_of_mem_splitOn hcs

/-- A text without a line feed is one line. -/
lemma lines_of_no_feed {text : String} (h : '\n' ∉ text.toList) : lines text = [text] := by
  rw [lines, List.splitOn_eq_singleton h, List.map_singleton, String.ofList_toList]

/-- The lines before a line feed and those behind it. -/
lemma lines_append (front back : String) :
    lines (front ++ "\n" ++ back) = lines front ++ lines back := by
  have hcut : (front ++ "\n" ++ back).toList = front.toList ++ '\n' :: back.toList := by simp
  rw [lines, hcut, List.splitOn_append_cons_self, List.map_append]
  rfl

/-- The lines of texts that were joined with line feeds. -/
lemma lines_intercalate {texts : List String} (h : texts ≠ []) :
    lines ("\n".intercalate texts) = texts.flatMap lines := by
  induction texts with
  | nil => exact absurd rfl h
  | cons text texts ih =>
      by_cases hlast : texts = []
      · rw [hlast, String.intercalate_singleton, List.flatMap_singleton]
      · rw [String.intercalate_cons_of_ne_nil hlast, lines_append, ih hlast, List.flatMap_cons]

/-- Texts without line feeds are the lines of the text that they are joined to. -/
lemma lines_intercalate_of_no_feed {texts : List String} (h : texts ≠ [])
    (hfeed : ∀ text ∈ texts, '\n' ∉ text.toList) : lines ("\n".intercalate texts) = texts := by
  rw [lines_intercalate h, List.flatMap_congr fun text hmem => lines_of_no_feed (hfeed text hmem)]
  exact List.flatMap_singleton' texts

/-! ## Blanks -/

lemma trimLeft_append {u x : List Char} (hne : trimLeft u ≠ []) :
    trimLeft (u ++ x) = trimLeft u ++ x := by
  rw [trimLeft, List.dropWhile_append, if_neg]
  · rfl
  · exact fun hempty => hne (List.isEmpty_iff.1 hempty)

/-- The blanks at the end go no further than the last character that is none. -/
lemma trimRight_append {x q : List Char} {c : Char} (hc : isBlank c = false) :
    trimRight (x ++ [c] ++ q) = x ++ [c] ++ trimRight q := by
  have hback : (x ++ [c]).reverse.dropWhile isBlank = (x ++ [c]).reverse := by
    rw [List.reverse_append]
    exact List.dropWhile_cons_of_neg (by simp [hc])
  rw [trimRight, trimRight, List.reverse_append, List.dropWhile_append, hback]
  split
  · rename_i hempty
    rw [List.isEmpty_iff.1 hempty, List.reverse_reverse, List.reverse_nil, List.append_nil]
  · rw [List.reverse_append, List.reverse_reverse]

lemma mem_of_mem_trimRight {c : Char} {q : List Char} (h : c ∈ trimRight q) : c ∈ q :=
  List.mem_reverse.1 ((List.dropWhile_sublist _).subset (List.mem_reverse.1 h))

lemma mem_of_mem_trim {c : Char} {cs : List Char} (h : c ∈ trim cs) : c ∈ cs :=
  (List.dropWhile_sublist _).subset (mem_of_mem_trimRight h)

lemma trimRight_eq_nil_iff {q : List Char} : trimRight q = [] ↔ ∀ c ∈ q, isBlank c := by
  rw [trimRight, List.reverse_eq_nil_iff, List.dropWhile_eq_nil_iff]
  simp only [List.mem_reverse]

/-- A blank at the end is trimmed with those before it. -/
lemma trimRight_concat {c : Char} (hc : isBlank c = true) (q : List Char) :
    trimRight (q ++ [c]) = trimRight q := by
  rw [trimRight, trimRight, List.reverse_append]
  exact congrArg List.reverse (List.dropWhile_cons_of_pos hc)

end Marginalia.Text
