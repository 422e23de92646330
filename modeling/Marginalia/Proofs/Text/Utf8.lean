import Marginalia.Text.Utf8
import Mathlib

/-!
# Reading back what was written in UTF-8

`decode_encode`: the octets of a text are read as that text.  A character is read from its first
octet, which gives the number of the others and the topmost bits (`leadOf_one` to `leadOf_four`),
and from the others, six bits each.  The range of the second octet depends on the first one, so
that a character has no second spelling and surrogates have none at all; that the octets of a
character keep to it is `readChar_of_second`'s premise.
-/

namespace Marginalia.Utf8

/-! ## Octets -/

lemma toNat_octet {k : Nat} (h : k < 0x100) : k.toUInt8.toNat = k :=
  UInt8.toNat_ofNat_of_lt' h

/-- An octet that continues a character with the last six bits of a number. -/
def tail (k : Nat) : UInt8 :=
  (0x80 + k % 0x40).toUInt8

lemma toNat_tail (k : Nat) : (tail k).toNat = 0x80 + k % 0x40 :=
  toNat_octet (by omega)

lemma isTail_tail (k : Nat) : isTail (tail k) = true := by
  have hk := toNat_tail k
  have hlow : (0x80 : UInt8).toNat = 0x80 := rfl
  have hhigh : (0xbf : UInt8).toNat = 0xbf := rfl
  simp only [isTail, Bool.and_eq_true, decide_eq_true_eq, UInt8.le_iff_toNat_le, hk, hlow, hhigh]
  omega

lemma readTail_tail (left taken bits k : Nat) (rest : List UInt8) :
    readTail (left + 1) taken bits (tail k :: rest) =
      readTail left (taken + 1) (bits * 0x40 + k % 0x40) rest := by
  rw [readTail, if_pos (isTail_tail k), toNat_tail, Nat.add_sub_cancel_left]

section Lead

variable {a : Nat}

lemma leadOf_one (h : a < 0x80) : leadOf a.toUInt8 = some (1, a) := by
  have ha := toNat_octet (k := a) (by omega)
  simp [leadOf, UInt8.lt_iff_toNat_lt, ha, h]

lemma leadOf_two (h : 0xc2 ≤ a) (h' : a ≤ 0xdf) : leadOf a.toUInt8 = some (2, a - 0xc0) := by
  have ha := toNat_octet (k := a) (by omega)
  have hone : ¬ a < 0x80 := by omega
  simp [leadOf, UInt8.lt_iff_toNat_lt, UInt8.le_iff_toNat_le, ha, h, h', hone]

lemma leadOf_three (h : 0xe0 ≤ a) (h' : a ≤ 0xef) : leadOf a.toUInt8 = some (3, a - 0xe0) := by
  have ha := toNat_octet (k := a) (by omega)
  have hone : ¬ a < 0x80 := by omega
  have htwo : ¬ a ≤ 0xdf := by omega
  simp [leadOf, UInt8.lt_iff_toNat_lt, UInt8.le_iff_toNat_le, ha, h, h', hone, htwo]

lemma leadOf_four (h : 0xf0 ≤ a) (h' : a ≤ 0xf4) : leadOf a.toUInt8 = some (4, a - 0xf0) := by
  have ha := toNat_octet (k := a) (by omega)
  have hone : ¬ a < 0x80 := by omega
  have htwo : ¬ a ≤ 0xdf := by omega
  have hthree : ¬ a ≤ 0xef := by omega
  simp [leadOf, UInt8.lt_iff_toNat_lt, UInt8.le_iff_toNat_le, ha, h, h', hone, htwo, hthree]

/-- The second octet may hold the last six bits of the number, for a character with this lead. -/
def Admits (a k : Nat) : Prop :=
  (a = 0xe0 → 0x20 ≤ k % 0x40) ∧ (a = 0xed → k % 0x40 < 0x20) ∧
    (a = 0xf0 → 0x10 ≤ k % 0x40) ∧ (a = 0xf4 → k % 0x40 < 0x10)

lemma secondRange_tail {k : Nat} (ha : a < 0x100) (h : Admits a k) :
    ((secondRange a.toUInt8).1 ≤ tail k && tail k ≤ (secondRange a.toUInt8).2) = true := by
  obtain ⟨he0, hed, hf0, hf4⟩ := h
  have heq (b : UInt8) : a.toUInt8 = b ↔ a = b.toNat := by
    rw [← UInt8.toNat_inj, toNat_octet ha]
  have hk := toNat_tail k
  rw [Bool.and_eq_true, decide_eq_true_eq, decide_eq_true_eq, UInt8.le_iff_toNat_le,
    UInt8.le_iff_toNat_le, hk, secondRange]
  simp only [heq]
  split_ifs with h1 h2 h3 h4
  · change 0xa0 ≤ 0x80 + k % 0x40 ∧ 0x80 + k % 0x40 ≤ 0xbf
    have hsix := he0 h1
    omega
  · change 0x80 ≤ 0x80 + k % 0x40 ∧ 0x80 + k % 0x40 ≤ 0x9f
    have hsix := hed h2
    omega
  · change 0x90 ≤ 0x80 + k % 0x40 ∧ 0x80 + k % 0x40 ≤ 0xbf
    have hsix := hf0 h3
    omega
  · change 0x80 ≤ 0x80 + k % 0x40 ∧ 0x80 + k % 0x40 ≤ 0x8f
    have hsix := hf4 h4
    omega
  · change 0x80 ≤ 0x80 + k % 0x40 ∧ 0x80 + k % 0x40 ≤ 0xbf
    omega

lemma readChar_of_second {size bits k : Nat} (ha : a < 0x100)
    (hlead : leadOf a.toUInt8 = some (size + 2, bits)) (h : Admits a k) (rest : List UInt8) :
    readChar a.toUInt8 (tail k :: rest) = readTail size 2 (bits * 0x40 + k % 0x40) rest := by
  have hsecond := secondRange_tail ha h
  have hsize : size + 2 - 2 = size := by omega
  simp only [readChar, hlead, hsecond, if_true, toNat_tail, Nat.add_sub_cancel_left, hsize]

end Lead

/-! ## Characters -/

/-- The numbers of characters leave out the surrogates. -/
lemma toNat_range (c : Char) : c.toNat < 0xd800 ∨ 0xdfff < c.toNat ∧ c.toNat < 0x110000 :=
  c.valid

/-- **A character is read from its octets,** whatever stands behind them. -/
lemma readChar_encodeChar (c : Char) : ∃ b bs, encodeChar c = b :: bs ∧
    ∀ rest, readChar b (bs ++ rest) = .char c (bs.length + 1) := by
  have hrange := toNat_range c
  have hread {bits : Nat} (h : bits = c.toNat) : Char.ofNat bits = c := by
    rw [h, Char.ofNat_toNat]
  by_cases hone : c.toNat < 0x80
  · refine ⟨c.toNat.toUInt8, [], by simp only [encodeChar, if_pos hone], fun rest => ?_⟩
    simp only [readChar, leadOf_one hone, hread, List.length_nil, Nat.zero_add]
  by_cases htwo : c.toNat < 0x800
  · refine ⟨(0xc0 + c.toNat / 0x40).toUInt8, [tail c.toNat],
      by simp only [encodeChar, if_neg hone, if_pos htwo]; rfl, fun rest => ?_⟩
    have hlead := leadOf_two (a := 0xc0 + c.toNat / 0x40) (by omega) (by omega)
    have hadmits : Admits (0xc0 + c.toNat / 0x40) c.toNat := by
      refine ⟨?_, ?_, ?_, ?_⟩ <;> omega
    rw [List.singleton_append, readChar_of_second (by omega) hlead hadmits, readTail, hread]
    · rfl
    · omega
  by_cases hthree : c.toNat < 0x10000
  · refine ⟨(0xe0 + c.toNat / 0x1000).toUInt8, [tail (c.toNat / 0x40), tail c.toNat],
      by simp only [encodeChar, if_neg hone, if_neg htwo, if_pos hthree]; rfl, fun rest => ?_⟩
    have hlead := leadOf_three (a := 0xe0 + c.toNat / 0x1000) (by omega) (by omega)
    have hadmits : Admits (0xe0 + c.toNat / 0x1000) (c.toNat / 0x40) := by
      refine ⟨?_, ?_, ?_, ?_⟩ <;> omega
    rw [List.cons_append, List.singleton_append, readChar_of_second (by omega) hlead hadmits,
      readTail_tail, readTail, hread]
    · rfl
    · omega
  · refine ⟨(0xf0 + c.toNat / 0x40000).toUInt8,
      [tail (c.toNat / 0x1000), tail (c.toNat / 0x40), tail c.toNat],
      by simp only [encodeChar, if_neg hone, if_neg htwo, if_neg hthree]; rfl, fun rest => ?_⟩
    have hlead := leadOf_four (a := 0xf0 + c.toNat / 0x40000) (by omega) (by omega)
    have hadmits : Admits (0xf0 + c.toNat / 0x40000) (c.toNat / 0x1000) := by
      refine ⟨?_, ?_, ?_, ?_⟩ <;> omega
    rw [List.cons_append, List.cons_append, List.singleton_append,
      readChar_of_second (by omega) hlead hadmits, readTail_tail, readTail_tail, readTail, hread]
    · rfl
    · omega

/-! ## Texts -/

lemma length_le_length_encode (cs : List Char) : cs.length ≤ (encode cs).length := by
  induction cs with
  | nil => exact Nat.le_refl 0
  | cons c cs ih =>
      obtain ⟨b, bs, hc, -⟩ := readChar_encodeChar c
      rw [encode, List.flatMap_cons, List.length_append, hc, List.length_cons, List.length_cons]
      rw [encode] at ih
      omega

lemma decodeFrom_encode {cs : List Char} {fuel : Nat} (h : cs.length ≤ fuel) (position : Nat) :
    decodeFrom fuel position (encode cs) = .ok cs := by
  induction cs generalizing fuel position with
  | nil => cases fuel <;> rfl
  | cons c cs ih =>
      cases fuel with
      | zero => exact absurd h (Nat.not_succ_le_zero _)
      | succ fuel =>
          obtain ⟨b, bs, hc, hread⟩ := readChar_encodeChar c
          have hcut : encode (c :: cs) = b :: (bs ++ encode cs) := by
            rw [encode, List.flatMap_cons, hc]
            rfl
          have hrest : (bs ++ encode cs).drop (bs.length + 1 - 1) = encode cs := by
            rw [Nat.add_sub_cancel, List.drop_left]
          rw [hcut, decodeFrom, hread]
          dsimp only
          rw [hrest, ih (Nat.le_of_succ_le_succ h)]
          rfl

/-- **What was written is read back.** -/
theorem decode_encode (cs : List Char) : decode (encode cs) = .ok cs :=
  decodeFrom_encode (length_le_length_encode cs) 0

end Marginalia.Utf8
