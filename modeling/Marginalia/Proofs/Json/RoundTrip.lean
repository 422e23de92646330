import Marginalia.Json.Printer
import Marginalia.Json.Reader
import Marginalia.Proofs.Text.Utf8

/-!
# Reading back a list of texts

Texts are written with the characters of ASCII alone, and every text is read back as it was:
`readQuoted_writeChar` reads one character, however it was escaped, and
`readQuoted_flatMap_writeChar` all of them up to the closing quote.  `read_writeTexts` says the
same of a list of texts.

The reader is bounded by a number that each part uses up: a character needs one, an item of a list
two.  As every character is written with at least one, a bound above the length of what is left to
read is enough throughout.
-/

namespace Marginalia.Json

/-! ## Code units -/

lemma hexValue?_digitChar {k : Nat} (h : k < 16) : hexValue? (Nat.digitChar k) = some k := by
  revert k
  decide

lemma readHex_hexDigits {n : Nat} (h : n < 0x10000) (rest : List Char) :
    readHex (Text.hexDigits 4 n ++ rest) = some (n, rest) := by
  have hdigit (k : Nat) : hexValue? (Nat.digitChar (k % 16)) = some (k % 16) :=
    hexValue?_digitChar (Nat.mod_lt k (by decide))
  have hvalue : (n / 16 / 16 / 16 % 16 * 16 + n / 16 / 16 % 16) * 256 + n / 16 % 16 * 16 + n % 16 =
      n := by omega
  simp only [Text.hexDigits, List.nil_append, List.cons_append, readHex, hdigit,
    Option.bind_eq_bind, Option.bind_some, Option.pure_def, hvalue]

/-- Code units are read as the character that has them. -/
lemma readUnit_codeUnits (c : Char) : ∃ n units, codeUnits c = n :: units ∧
    ∀ rest, readUnit (Text.hexDigits 4 n ++
      (units.flatMap fun n => '\\' :: 'u' :: Text.hexDigits 4 n) ++ rest) = some (c, rest) := by
  have hrange := Utf8.toNat_range c
  by_cases hone : c.toNat < 0x10000
  · refine ⟨c.toNat, [], by simp only [codeUnits, if_pos hone], fun rest => ?_⟩
    have hhigh : ¬ (0xd800 ≤ c.toNat ∧ c.toNat < 0xdc00) := by omega
    have hlow : ¬ (0xdc00 ≤ c.toNat ∧ c.toNat < 0xe000) := by omega
    rw [List.flatMap_nil, List.append_nil, readUnit, readHex_hexDigits hone]
    simp only [Option.bind_eq_bind, Option.bind_some, Bool.and_eq_true, decide_eq_true_eq,
      if_neg hhigh, if_neg hlow, Char.ofNat_toNat, Option.pure_def]
  · -- A pair of units: what exceeds `0x10000` has ten bits in each of them.
    obtain ⟨high, hh⟩ : ∃ high, high = 0xd800 + (c.toNat - 0x10000) / 0x400 := ⟨_, rfl⟩
    obtain ⟨low, hl⟩ : ∃ low, low = 0xdc00 + (c.toNat - 0x10000) % 0x400 := ⟨_, rfl⟩
    refine ⟨high, [low], by simp only [codeUnits, if_neg hone, hh, hl], fun rest => ?_⟩
    have hhigh : 0xd800 ≤ high ∧ high < 0xdc00 := by omega
    have hlow : 0xdc00 ≤ low ∧ low < 0xe000 := by omega
    have hchar : 0x10000 + (high - 0xd800) * 0x400 + (low - 0xdc00) = c.toNat := by omega
    have hmore := readHex_hexDigits (n := low) (by omega) rest
    rw [List.flatMap_singleton, List.append_assoc, readUnit, readHex_hexDigits (by omega)]
    simp only [List.cons_append, Option.bind_eq_bind, Option.bind_some, Bool.and_eq_true,
      decide_eq_true_eq, if_pos hhigh, hmore, if_pos hlow, hchar, Char.ofNat_toNat, Option.pure_def]

/-! ## Texts -/

section Quoted

variable (fuel : Nat) (before : List Char) (rest : List Char)

lemma readQuoted_escape {e c : Char} (hescape : escape? e = some c) :
    readQuoted (fuel + 1) before ('\\' :: e :: rest) = readQuoted fuel (c :: before) rest := by
  have hunit : e ≠ 'u' := by
    rintro rfl
    cases hescape
  simp [readQuoted, hescape]

lemma readQuoted_unit {cs : List Char} {c : Char} (h : readUnit cs = some (c, rest)) :
    readQuoted (fuel + 1) before ('\\' :: 'u' :: cs) = readQuoted fuel (c :: before) rest := by
  simp [readQuoted, h]

lemma readQuoted_plain {c : Char} (hcontrol : ¬ c.toNat < 0x20) (hquote : c ≠ '"')
    (hslash : c ≠ '\\') :
    readQuoted (fuel + 1) before (c :: rest) = readQuoted fuel (c :: before) rest := by
  simp [readQuoted, hcontrol, hslash]

/-- **A character is read back,** in whichever way it was written. -/
lemma readQuoted_writeChar (c : Char) :
    readQuoted (fuel + 1) before (writeChar c ++ rest) = readQuoted fuel (c :: before) rest := by
  unfold writeChar
  split
  case h_1 => exact readQuoted_escape fuel before rest rfl
  case h_2 => exact readQuoted_escape fuel before rest rfl
  case h_3 => exact readQuoted_escape fuel before rest rfl
  case h_4 => exact readQuoted_escape fuel before rest rfl
  case h_5 => exact readQuoted_escape fuel before rest rfl
  case h_6 => exact readQuoted_escape fuel before rest rfl
  case h_7 => exact readQuoted_escape fuel before rest rfl
  case h_8 hquote hslash _ _ _ _ _ =>
    split
    · rename_i hprintable
      have hcontrol : ¬ c.toNat < 0x20 := by
        simp only [Bool.and_eq_true, decide_eq_true_eq] at hprintable
        omega
      exact readQuoted_plain fuel before rest hcontrol hquote hslash
    · obtain ⟨n, units, hunits, hread⟩ := readUnit_codeUnits c
      rw [hunits, List.flatMap_cons]
      exact readQuoted_unit fuel before rest (hread rest)

end Quoted

/-- The characters of a text are read up to the quote behind them. -/
lemma readQuoted_flatMap_writeChar {cs : List Char} {fuel : Nat} (h : cs.length < fuel)
    (before rest : List Char) :
    readQuoted fuel before (cs.flatMap writeChar ++ '"' :: rest) =
      .ok (String.ofList (before.reverse ++ cs), rest) := by
  induction cs generalizing fuel before with
  | nil =>
      obtain ⟨fuel, rfl⟩ := Nat.exists_eq_add_of_lt h
      simp [readQuoted]
      rfl
  | cons c cs ih =>
      cases fuel with
      | zero => exact absurd h (Nat.not_lt_zero _)
      | succ fuel =>
          rw [List.flatMap_cons, List.append_assoc, readQuoted_writeChar,
            ih (Nat.lt_of_succ_lt_succ h), List.reverse_cons, List.append_assoc]
          rfl

/-! ## Lists of texts -/

/-- A list of texts in JSON. -/
def writeTexts (texts : List String) : String :=
  "[" ++ ", ".intercalate (texts.map writeText) ++ "]"

/-- The items of a list of texts, up to the closing bracket. -/
def closedItems : List String → List Char
  | [] => [']']
  | [s] => '"' :: (s.toList.flatMap writeChar ++ ['"', ']'])
  | s :: t :: texts =>
    '"' :: (s.toList.flatMap writeChar ++ '"' :: ',' :: ' ' :: closedItems (t :: texts))

lemma toList_writeTexts (texts : List String) :
    (writeTexts texts).toList = '[' :: closedItems texts := by
  have hinner : (", ".intercalate (texts.map writeText)).toList ++ [']'] = closedItems texts := by
    induction texts using closedItems.induct with
    | case1 => rfl
    | case2 s => simp [closedItems, writeText]
    | case3 s t texts ih =>
        rw [List.map_cons, String.intercalate_cons_of_ne_nil (by simp), closedItems, ← ih]
        simp [writeText]
  rw [writeTexts, String.toList_append, String.toList_append, ← hinner]
  rfl

lemma exists_closedItems {texts : List String} (hne : texts ≠ []) :
    ∃ rest, closedItems texts = '"' :: rest := by
  match texts, hne with
  | [_], _ => exact ⟨_, rfl⟩
  | _ :: _ :: _, _ => exact ⟨_, rfl⟩

lemma length_le_length_flatMap (cs : List Char) : cs.length ≤ (cs.flatMap writeChar).length := by
  have hne (c : Char) : 1 ≤ (writeChar c).length := by
    unfold writeChar
    split
    case h_8 =>
      split
      · exact Nat.le_refl 1
      · obtain ⟨n, units, hunits, -⟩ := readUnit_codeUnits c
        rw [hunits, List.flatMap_cons, List.length_append]
        exact Nat.le_add_right_of_le (Nat.succ_le_succ (Nat.zero_le _))
    all_goals exact Nat.succ_le_succ (Nat.zero_le _)
  induction cs with
  | nil => exact Nat.le_refl 0
  | cons c cs ih =>
      have hc := hne c
      rw [List.flatMap_cons, List.length_append, List.length_cons]
      omega

lemma readValue_text {fuel : Nat} {s : String} (level : Nat) (rest : List Char)
    (h : (s.toList.flatMap writeChar).length < fuel) :
    readValue (fuel + 1) level ('"' :: (s.toList.flatMap writeChar ++ '"' :: rest)) =
      .ok (.text s, rest) := by
  rw [readValue, readQuoted_flatMap_writeChar
    (Nat.lt_of_le_of_lt (length_le_length_flatMap s.toList) h), List.reverse_nil, List.nil_append,
    String.ofList_toList]
  rfl

/-- The items go on behind a comma, up to the closing bracket. -/
lemma readItems_closedItems {texts : List String} (hne : texts ≠ []) {fuel : Nat}
    (h : (closedItems texts).length < fuel) (level : Nat) (before : List Json) :
    readItems fuel level before (closedItems texts) =
      .ok (before.reverse ++ texts.map .text, []) := by
  induction texts using closedItems.induct generalizing fuel before with
  | case1 => exact absurd rfl hne
  | case2 s =>
      -- One of the two goes to the item, the other to the value in it.
      simp only [closedItems, List.length_cons, List.length_append] at h
      obtain ⟨fuel, rfl⟩ : ∃ k, fuel = k + 2 := ⟨fuel - 2, by omega⟩
      rw [closedItems, readItems, readValue_text level [']'] (by omega)]
      simp [skipBlanks, isBlank, Bind.bind, Except.bind, Pure.pure, Except.pure]
  | case3 s t texts ih =>
      obtain ⟨rest, hrest⟩ := exists_closedItems (List.cons_ne_nil t texts)
      have hblanks : skipBlanks (' ' :: closedItems (t :: texts)) = closedItems (t :: texts) := by
        rw [hrest]
        rfl
      simp only [closedItems, List.length_cons, List.length_append] at h
      obtain ⟨fuel, rfl⟩ : ∃ k, fuel = k + 2 := ⟨fuel - 2, by omega⟩
      have hfuel : (closedItems (t :: texts)).length < fuel + 1 := by omega
      have hlater := ih (List.cons_ne_nil t texts) hfuel (.text s :: before)
      rw [closedItems, readItems, readValue_text level _ (by omega)]
      have hcomma (cs : List Char) : skipBlanks (',' :: cs) = ',' :: cs := rfl
      simp only [Bind.bind, Except.bind, hcomma, hblanks, hlater]
      simp

lemma readValue_closedItems {texts : List String} {fuel level : Nat}
    (h : (closedItems texts).length < fuel) (hlevel : level < mostLevels) :
    readValue (fuel + 1) level ('[' :: closedItems texts) = .ok (.list (texts.map .text), []) := by
  have hdeep : ¬ mostLevels ≤ level := Nat.not_le_of_lt hlevel
  by_cases hnil : texts = []
  · rw [hnil, closedItems, readValue]
    simp [hdeep, skipBlanks, isBlank, Pure.pure, Except.pure]
  · obtain ⟨rest, hrest⟩ := exists_closedItems hnil
    have hitems := readItems_closedItems hnil h (level + 1) []
    have hblanks : skipBlanks ('"' :: rest) = '"' :: rest := rfl
    rw [hrest] at hitems
    rw [hrest, readValue, hblanks]
    simp [hdeep, hitems, Bind.bind, Except.bind, Pure.pure, Except.pure]

/-- **A list of texts is read back.** -/
theorem read_writeTexts (texts : List String) :
    read (writeTexts texts) = .ok (.list (texts.map .text)) := by
  have hbracket (cs : List Char) : skipBlanks ('[' :: cs) = '[' :: cs := rfl
  have hfuel : (closedItems texts).length < 2 * ('[' :: closedItems texts).length + 1 := by
    rw [List.length_cons]
    omega
  have hlevel : 0 < mostLevels := by decide
  have hlist := readValue_closedItems hfuel hlevel
  rw [read, toList_writeTexts, hbracket, hlist]
  rfl

end Marginalia.Json
