import Marginalia.Proofs.Grouping
import Marginalia.Proofs.Text

/-!
# What a key says

The key of a block is its path, the number of its first line and a digest of its text, with colons
between them.  A path may hold colons and digits, but neither of the two others holds a colon, and
so a key can be read from its end.  The text is the lines joined with line feeds; the lines of a
block hold none, and there is at least one, and so the lines can be read from the text.

`key_eq_iff_of_mem` puts this together: as far as the digest tells texts apart, equal keys mean
equal blocks.
-/

namespace Marginalia.Block

section Found

variable {path path' content content' : String} {b b' : Block}

/-- The lines of a block are those of its text. -/
lemma lines_text (hb : b ∈ ofContent path content) : Text.lines b.text = b.lines :=
  Text.lines_intercalate_of_no_feed ((grouping_ofContent path content).runs b hb).nonempty
    fun _ hline => Text.no_feed_of_mem_lines (mem_lines_of_mem_ofContent hb hline)

/-- The lines of a block say whether it is a trigger. -/
lemma trigger_eq_of_lines_eq (hb : b ∈ ofContent path content)
    (hb' : b' ∈ ofContent path' content') (hlines : b.lines = b'.lines) :
    b.trigger = b'.trigger := by
  rw [Bool.eq_iff_iff, ((grouping_ofContent path content).runs b hb).trigger_iff,
    ((grouping_ofContent path' content').runs b' hb').trigger_iff, hlines]

/-- **Keys identify blocks**: if the digests of two blocks tell their texts apart, the blocks have
the same key exactly when they stand in the same file, begin on the same line and hold the same
lines.  Then one is a trigger if the other is. -/
theorem key_eq_iff_of_mem (hb : b ∈ ofContent path content) (hb' : b' ∈ ofContent path' content')
    (hdigest : b.text ≠ b'.text → b.digest ≠ b'.digest) :
    (b.key = b'.key ↔ b.path = b'.path ∧ b.line = b'.line ∧ b.lines = b'.lines) ∧
      (b.key = b'.key → b.trigger = b'.trigger) := by
  have hkey : b.key = b'.key ↔ b.path = b'.path ∧ b.line = b'.line ∧ b.lines = b'.lines := by
    rw [key_eq_iff_digest]
    constructor
    · rintro ⟨hpath, hline, hsame⟩
      have htext : b.text = b'.text := not_imp_not.1 hdigest hsame
      have hlines : b.lines = b'.lines := by rw [← lines_text hb, ← lines_text hb', htext]
      exact ⟨hpath, hline, hlines⟩
    · rintro ⟨hpath, hline, hlines⟩
      have hsame : b.digest = b'.digest := by rw [digest, digest, text, text, hlines]
      exact ⟨hpath, hline, hsame⟩
  exact ⟨hkey, fun h => trigger_eq_of_lines_eq hb hb' (hkey.1 h).2.2⟩

end Found

/-- Two blocks of two files, of which one is called like the other with a number behind it. -/
theorem key_eq_iff_of_mem_of_colon :
    let b : Block := ⟨"a:1", 2, ["# one AI", "# two ai!"], true⟩
    let b' : Block := ⟨"a", 1, ["# one AI"], false⟩
    b ∈ ofContent "a:1" "x\n# one AI\n# two ai!" ∧ b' ∈ ofContent "a" "# one AI\n" ∧
      (b.text ≠ b'.text → b.digest ≠ b'.digest) ∧ b.key ≠ b'.key := by
  intro b b'
  have hb : b ∈ ofContent "a:1" "x\n# one AI\n# two ai!" := by decide +kernel
  have hb' : b' ∈ ofContent "a" "# one AI\n" := by decide +kernel
  have hdigest : b.text ≠ b'.text → b.digest ≠ b'.digest := fun _ => by decide +kernel
  have hkey := (key_eq_iff_of_mem hb hb' hdigest).1
  exact ⟨hb, hb', hdigest, fun h => absurd (hkey.1 h).2.1 (by decide)⟩

end Marginalia.Block
