import Marginalia.Block
import Mathlib

/-!
# The blocks of a file

What holds of every block that `Block.ofContent` finds: it belongs to the file
(`path_of_mem_ofContent`), and it holds a trigger only if one of the lines of the file is one
(`anyTrigger_ofContent`).  Keys tell blocks apart by their files, their first lines and the digests
of their texts (`key_eq_iff_digest`).
-/

namespace Marginalia.Block

lemma path_of_mem_prepend {path line : String} {n : Int} {m : Marker} {blocks : List Block}
    (h : ∀ b ∈ blocks, b.path = path) {b : Block} (hb : b ∈ prepend path n line m blocks) :
    b.path = path := by
  cases blocks with
  | nil =>
      rw [prepend, List.mem_singleton] at hb
      rw [hb]
  | cons c rest =>
      rw [prepend] at hb
      split at hb
      · rcases List.mem_cons.1 hb with hb | hb
        · rw [hb]
          exact h c (List.mem_cons_self ..)
        · exact h b (List.mem_cons_of_mem _ hb)
      · rcases List.mem_cons.1 hb with hb | hb
        · rw [hb]
        · exact h b hb

lemma path_of_mem_ofLines {path : String} {lines : List String} {n : Int} {b : Block}
    (hb : b ∈ ofLines path n lines) : b.path = path := by
  induction lines generalizing n b with
  | nil => exact absurd hb (List.not_mem_nil)
  | cons line rest ih =>
      rw [ofLines] at hb
      cases hm : Marker.ofLine? line with
      | none =>
          rw [hm] at hb
          exact ih hb
      | some m =>
          rw [hm] at hb
          exact path_of_mem_prepend (fun _ hc => ih hc) hb

/-- The blocks of a file carry its path. -/
lemma path_of_mem_ofContent {path content : String} {b : Block}
    (hb : b ∈ ofContent path content) : b.path = path :=
  path_of_mem_ofLines hb

lemma anyTrigger_prepend (path line : String) (n : Int) (m : Marker) (blocks : List Block) :
    anyTrigger (prepend path n line m blocks) = (m = .trigger || anyTrigger blocks) := by
  cases blocks with
  | nil => simp [prepend, anyTrigger]
  | cons b rest =>
      rw [prepend]
      split <;> simp [anyTrigger, Bool.or_assoc]

lemma anyTrigger_ofLines (path : String) (n : Int) (lines : List String) :
    anyTrigger (ofLines path n lines) = lines.any (Marker.ofLine? · = some .trigger) := by
  induction lines generalizing n with
  | nil => rfl
  | cons line rest ih =>
      rw [ofLines, List.any_cons, ← ih (n + 1)]
      cases hm : Marker.ofLine? line with
      | none => simp
      | some m => simp [anyTrigger_prepend]

/-- A block of a file holds a trigger exactly if one of its lines is a trigger. -/
lemma anyTrigger_ofContent (path content : String) :
    anyTrigger (ofContent path content) =
      (Text.lines content).any (Marker.ofLine? · = some .trigger) :=
  anyTrigger_ofLines path 1 _

/-- No block of a file without a trigger holds one. -/
lemma trigger_of_mem {blocks : List Block} (h : ¬ anyTrigger blocks) {b : Block}
    (hb : b ∈ blocks) : b.trigger = false := by
  rw [anyTrigger, List.any_eq_true, not_exists] at h
  simpa [hb] using h b

/-! ## Keys -/

/-- The digest of the text of a block. -/
def digest (b : Block) : String :=
  Md5.hexDigest (Utf8.encode b.text.toList)

/-- A number is written with digits and a minus sign. -/
lemma not_mem_toString {c : Char} (hdigit : c.isDigit = false) (hminus : c ≠ '-') (n : Int) :
    c ∉ (toString n).toList := by
  have hdigits (m : Nat) : c ∉ m.repr.toList := by
    rw [Nat.repr_eq_ofList_toDigits, String.toList_ofList]
    intro hmem
    exact Bool.false_ne_true
      (hdigit.symm.trans (Nat.isDigit_of_mem_toDigits (by omega) (by omega) hmem))
  rw [Int.toString_eq_repr, Int.repr_eq_if]
  split
  · exact hdigits _
  · simpa [hminus] using hdigits _

/-- What stands before the first colon of a text, and what stands behind it, is determined. -/
lemma eq_of_append_colon {xs ys us vs : List Char} (hx : ':' ∉ xs) (hy : ':' ∉ ys)
    (h : xs ++ ':' :: us = ys ++ ':' :: vs) : xs = ys ∧ us = vs := by
  induction xs generalizing ys with
  | nil =>
      cases ys with
      | nil => exact ⟨rfl, (List.cons.inj h).2⟩
      | cons y ys => exact absurd (List.cons.inj h).1 (List.ne_of_not_mem_cons hy)
  | cons x xs ih =>
      cases ys with
      | nil => exact absurd (List.cons.inj h).1.symm (List.ne_of_not_mem_cons hx)
      | cons y ys =>
          obtain ⟨rfl, hrest⟩ := List.cons.inj h
          obtain ⟨rfl, rfl⟩ := ih (List.not_mem_of_not_mem_cons hx)
            (List.not_mem_of_not_mem_cons hy) hrest
          exact ⟨rfl, rfl⟩

/-- What stands before the last colon of a text, and what stands behind it, is determined. -/
lemma eq_of_colon_append {xs ys us vs : List Char} (hx : ':' ∉ xs) (hy : ':' ∉ ys)
    (h : us ++ ':' :: xs = vs ++ ':' :: ys) : us = vs ∧ xs = ys := by
  have hreverse : xs.reverse ++ ':' :: us.reverse = ys.reverse ++ ':' :: vs.reverse := by
    simpa using congrArg List.reverse h
  obtain ⟨hback, hfront⟩ :=
    eq_of_append_colon (mt List.mem_reverse.1 hx) (mt List.mem_reverse.1 hy) hreverse
  exact ⟨List.reverse_inj.1 hfront, List.reverse_inj.1 hback⟩

lemma colon_not_mem_hexDigest (message : List UInt8) : ':' ∉ (Md5.hexDigest message).toList := by
  have hdigit (n : Nat) : ':' ≠ Nat.digitChar n := (Nat.digitChar_ne ':' rfl).symm
  rw [Md5.hexDigest, String.toList_ofList]
  intro hmem
  obtain ⟨octet, -, hoctet⟩ := List.mem_flatMap.1 hmem
  rw [Md5.hexOctet, List.mem_cons, List.mem_singleton] at hoctet
  exact hoctet.elim (hdigit _) (hdigit _)

/-- **A key can be read from its end**: it holds the path, whatever stands in it, the number of the
first line, and the digest. -/
lemma key_eq_iff_digest {b b' : Block} :
    b.key = b'.key ↔ b.path = b'.path ∧ b.line = b'.line ∧ b.digest = b'.digest := by
  constructor
  · intro h
    have hlist : (b.path.toList ++ ':' :: (toString b.line).toList) ++ ':' :: b.digest.toList =
        (b'.path.toList ++ ':' :: (toString b'.line).toList) ++ ':' :: b'.digest.toList := by
      have h := congrArg String.toList h
      simpa [key, digest, String.toList_append] using h
    have hcolon (n : Int) : ':' ∉ (toString n).toList := not_mem_toString rfl (by decide) n
    obtain ⟨hfront, hdigest⟩ :=
      eq_of_colon_append (colon_not_mem_hexDigest _) (colon_not_mem_hexDigest _) hlist
    obtain ⟨hpath, hline⟩ := eq_of_colon_append (hcolon _) (hcolon _) hfront
    rw [String.toList_inj, Int.toString_eq_repr, Int.toString_eq_repr, Int.repr_inj] at hline
    exact ⟨String.toList_inj.1 hpath, hline, String.toList_inj.1 hdigest⟩
  · rintro ⟨hpath, hline, hdigest⟩
    rw [digest, digest] at hdigest
    rw [key, key, hpath, hline, hdigest]

/-- Blocks of one file have the same key exactly when their first lines and digests agree. -/
lemma key_eq_iff {b b' : Block} (hpath : b.path = b'.path) :
    b.key = b'.key ↔ b.line = b'.line ∧ b.digest = b'.digest := by
  rw [key_eq_iff_digest, and_iff_right hpath]

end Marginalia.Block
