import Marginalia.Marker
import Marginalia.Proofs.Text

/-!
# The grammar of marked lines

`Marker.ofLine?` reads a line from both ends.  Here the marked lines are described without reading
them: a line is a comment sign and a body, and `Leads` and `Trails` say how a body can be put
together from blanks, the letters of the marker, a text and closing characters.  Both are stated as
the existence of a split, and the letters and the closing characters are listed.

A split is determined by the body: blanks are no letters, and neither are closing characters
(`leads_iff`, `trails_iff`).  Therefore reading from the ends misses none.  The main results are
`ofLine?_ne_none_iff` and `ofLine?_eq_trigger_iff`; they are about lines without a line feed, as the
lines of a file are.
-/

namespace Marginalia.Marker

/-! ## The grammar -/

/-- The signs that begin a comment. -/
def signs : List (List Char) := [['#'], ['/', '/'], ['-', '-']]

/-- The trimmed line is a comment sign and the body. -/
def HasBody (line : String) (body : List Char) : Prop :=
  ∃ sign ∈ signs, Text.trim line.toList = sign ++ body

/-- The two letters of the marker, in any case. -/
def IsLetters (m : List Char) : Prop :=
  ∃ a ∈ ['a', 'A'], ∃ i ∈ ['i', 'I', 'İ', 'ı'], m = [a, i]

/-- The character may follow a marker at the end. -/
def Closes (c : Char) : Prop :=
  Text.isBlank c ∨ c ∈ [':', '.', ',', ';', '!', '?']

/-- A marker leads the body: before it stand blanks only, and `rest` follows, which begins outside
of a word. -/
def Leads (body rest : List Char) : Prop :=
  ∃ blanks m, body = blanks ++ m ++ rest ∧ (∀ c ∈ blanks, Text.isBlank c) ∧ IsLetters m ∧
    ∃ c cs, rest = c :: cs ∧ ¬ Text.isWord c

/-- A marker trails the body: before it stands a text that ends outside of a word, and only closing
characters follow. -/
def Trails (body closing : List Char) : Prop :=
  ∃ text c m, body = text ++ [c] ++ m ++ closing ∧ ¬ Text.isWord c ∧ IsLetters m ∧
    ∀ d ∈ closing, Closes d

/-! ## Characters -/

lemma isFirstLetter_iff (c : Char) : isFirstLetter c ↔ c ∈ ['a', 'A'] := by
  simp [isFirstLetter]

lemma isSecondLetter_iff (c : Char) : isSecondLetter c ↔ c ∈ ['i', 'I', 'İ', 'ı'] := by
  simp [isSecondLetter, or_assoc]

lemma isClosing_iff (c : Char) : isClosing c ↔ Closes c := by
  simp [isClosing, Closes, or_assoc]

lemma isLetters_iff (m : List Char) :
    IsLetters m ↔ ∃ a i, m = [a, i] ∧ isFirstLetter a ∧ isSecondLetter i := by
  constructor
  · rintro ⟨a, ha, i, hi, rfl⟩
    exact ⟨a, i, rfl, (isFirstLetter_iff a).2 ha, (isSecondLetter_iff i).2 hi⟩
  · rintro ⟨a, i, rfl, ha, hi⟩
    exact ⟨a, (isFirstLetter_iff a).1 ha, i, (isSecondLetter_iff i).1 hi, rfl⟩

/-- The letters of the marker are of a word. -/
lemma isWord_of_isFirstLetter {a : Char} (h : isFirstLetter a) : Text.isWord a := by
  rw [isFirstLetter_iff] at h
  fin_cases h <;> decide

lemma isWord_of_isSecondLetter {i : Char} (h : isSecondLetter i) : Text.isWord i := by
  rw [isSecondLetter_iff] at h
  fin_cases h <;> decide +kernel

/-- The code points of the blanks. -/
def blankCodes : List Nat :=
  [0x9, 0xa, 0xb, 0xc, 0xd, 0x1c, 0x1d, 0x1e, 0x1f, 0x20, 0x85, 0xa0, 0x1680, 0x2000, 0x2001,
   0x2002, 0x2003, 0x2004, 0x2005, 0x2006, 0x2007, 0x2008, 0x2009, 0x200a, 0x2028, 0x2029, 0x202f,
   0x205f, 0x3000]

lemma toNat_mem_blankCodes {c : Char} (h : Text.isBlank c) : c.toNat ∈ blankCodes := by
  simp only [Text.isBlank, Bool.or_eq_true, Bool.and_eq_true, decide_eq_true_eq, beq_iff_eq] at h
  simp only [blankCodes, List.mem_cons, List.not_mem_nil, or_false]
  omega

/-- What may follow a marker is no part of a word. -/
lemma not_isWord_of_closes {c : Char} (h : Closes c) : Text.isWord c = false := by
  have hblanks : ∀ n ∈ blankCodes, Text.isWord (Char.ofNat n) = false := by decide +kernel
  rcases h with hblank | hmem
  · rw [← Char.ofNat_toNat c]
    exact hblanks _ (toNat_mem_blankCodes hblank)
  · fin_cases hmem <;> rfl

section Word

variable {c : Char} (h : Text.isWord c)
include h

lemma not_isClosing_of_isWord : isClosing c = false := by
  rw [Bool.eq_false_iff]
  intro hc
  rw [not_isWord_of_closes ((isClosing_iff c).1 hc)] at h
  cases h

lemma not_isBlank_of_isWord : Text.isBlank c = false := by
  rw [Bool.eq_false_iff]
  intro hc
  rw [not_isWord_of_closes (Or.inl hc)] at h
  cases h

lemma not_isPause_of_isWord : isPause c = false := by
  have hcolon : c ≠ ':' := by
    rintro rfl
    exact absurd h (by decide)
  simp [isPause, not_isBlank_of_isWord h, hcolon]

end Word

/-! ## Splits -/

/-- **Where a marker leads** is determined: it begins behind the blanks at the front. -/
lemma leads_iff (body rest : List Char) :
    Leads body rest ↔ ∃ a i, Text.trimLeft body = a :: i :: rest ∧ isFirstLetter a ∧
      isSecondLetter i ∧ ∃ c cs, rest = c :: cs ∧ ¬ Text.isWord c := by
  constructor
  · rintro ⟨blanks, m, rfl, hblanks, hm, hrest⟩
    obtain ⟨a, i, rfl, ha, hi⟩ := (isLetters_iff m).1 hm
    refine ⟨a, i, ?_, ha, hi, hrest⟩
    rw [Text.trimLeft, List.append_assoc, List.dropWhile_append_of_pos hblanks, List.cons_append,
      List.dropWhile_cons_of_neg (by simp [not_isBlank_of_isWord (isWord_of_isFirstLetter ha)])]
    rfl
  · rintro ⟨a, i, htrim, ha, hi, hrest⟩
    refine ⟨body.takeWhile Text.isBlank, [a, i], ?_, fun c hc => List.mem_takeWhile_imp hc,
      (isLetters_iff _).2 ⟨a, i, rfl, ha, hi⟩, hrest⟩
    rw [List.append_assoc]
    exact (List.takeWhile_append_dropWhile (p := Text.isBlank)).symm.trans
      (congrArg (body.takeWhile Text.isBlank ++ ·) htrim)

section Back

variable (text : List Char) (a : Char) {closing : List Char} {i : Char} (hi : isSecondLetter i)
  (hclosing : ∀ d ∈ closing, Closes d)
include hi hclosing

/-- Read from the end, the letters stand behind the closing characters. -/
lemma dropWhile_isClosing : (text ++ [a, i] ++ closing).reverse.dropWhile isClosing =
    i :: a :: text.reverse := by
  have hall : ∀ d ∈ closing.reverse, isClosing d := fun d hd =>
    (isClosing_iff d).2 (hclosing d (List.mem_reverse.1 hd))
  have hi' : ¬ isClosing i := by simp [not_isClosing_of_isWord (isWord_of_isSecondLetter hi)]
  rw [List.reverse_append, List.dropWhile_append_of_pos hall, List.reverse_append]
  exact List.dropWhile_cons_of_neg hi'

lemma takeWhile_isClosing :
    (text ++ [a, i] ++ closing).reverse.takeWhile isClosing = closing.reverse := by
  have hall : ∀ d ∈ closing.reverse, isClosing d := fun d hd =>
    (isClosing_iff d).2 (hclosing d (List.mem_reverse.1 hd))
  have hi' : ¬ isClosing i := by simp [not_isClosing_of_isWord (isWord_of_isSecondLetter hi)]
  have hnone : (text ++ [a, i]).reverse.takeWhile isClosing = [] := by
    rw [List.reverse_append]
    exact List.takeWhile_cons_of_neg hi'
  rw [List.reverse_append, List.takeWhile_append_of_pos hall, hnone, List.append_nil]

end Back

/-- **Where a marker trails** is determined: it ends before the closing characters at the back. -/
lemma trails_iff (body closing : List Char) :
    Trails body closing ↔ ∃ i a c text, body.reverse.dropWhile isClosing = i :: a :: c :: text ∧
      isFirstLetter a ∧ isSecondLetter i ∧ ¬ Text.isWord c ∧
      body.reverse.takeWhile isClosing = closing.reverse := by
  constructor
  · rintro ⟨text, c, m, rfl, hc, hm, hclosing⟩
    obtain ⟨a, i, rfl, ha, hi⟩ := (isLetters_iff m).1 hm
    refine ⟨i, a, c, text.reverse, ?_, ha, hi, hc, takeWhile_isClosing _ _ hi hclosing⟩
    rw [dropWhile_isClosing _ _ hi hclosing, List.reverse_append]
    rfl
  · rintro ⟨i, a, c, text, hdrop, ha, hi, hc, htake⟩
    refine ⟨text.reverse, c, [a, i], ?_, hc, (isLetters_iff _).2 ⟨a, i, rfl, ha, hi⟩, ?_⟩
    · have hsplit := List.takeWhile_append_dropWhile (p := isClosing) (l := body.reverse)
      rw [hdrop, htake] at hsplit
      have hback := congrArg List.reverse hsplit
      simpa using hback.symm
    · intro d hd
      rw [← List.mem_reverse, ← htake] at hd
      exact (isClosing_iff d).1 (List.mem_takeWhile_imp hd)

lemma Leads.unique {body rest rest' : List Char} (h : Leads body rest) (h' : Leads body rest') :
    rest = rest' := by
  obtain ⟨a, i, htrim, -⟩ := (leads_iff body rest).1 h
  obtain ⟨a', i', htrim', -⟩ := (leads_iff body rest').1 h'
  rw [htrim] at htrim'
  cases htrim'
  rfl

lemma Trails.unique {body closing closing' : List Char} (h : Trails body closing)
    (h' : Trails body closing') : closing = closing' := by
  obtain ⟨-, -, -, -, -, -, -, -, htake⟩ := (trails_iff body closing).1 h
  obtain ⟨-, -, -, -, -, -, -, -, htake'⟩ := (trails_iff body closing').1 h'
  exact List.reverse_injective (htake.symm.trans htake')

/-! ## The body -/

lemma commentBody?_eq_some_iff (text body : List Char) :
    commentBody? text = some body ↔ ∃ sign ∈ signs, text = sign ++ body := by
  simp only [signs, List.mem_cons, List.not_mem_nil, or_false, exists_eq_or_imp, exists_eq_left,
    List.cons_append, List.nil_append]
  unfold commentBody?
  split <;> simp_all [eq_comm]

lemma hasBody_iff (line : String) (body : List Char) :
    HasBody line body ↔ commentBody? (Text.trim line.toList) = some body :=
  (commentBody?_eq_some_iff _ _).symm

lemma HasBody.unique {line : String} {body body' : List Char} (h : HasBody line body)
    (h' : HasBody line body') : body = body' := by
  rw [hasBody_iff] at h h'
  exact Option.some.inj (h.symm.trans h')

lemma HasBody.oneLine {line : String} {body : List Char} (h : HasBody line body)
    (oneLine : '\n' ∉ line.toList) : '\n' ∉ body := by
  obtain ⟨sign, -, htrim⟩ := h
  refine fun hmem => oneLine (Text.mem_of_mem_trim ?_)
  rw [htrim]
  exact List.mem_append_right sign hmem

/-! ## Reading from the ends -/

/-- A text behind some pauses is the last line, and further pauses in front of it. -/
lemma endsInText_iff (r : List Char) :
    endsInText r ↔
      ∃ pauses text, r = pauses ++ text ∧ (∀ c ∈ pauses, isPause c) ∧ text ≠ [] ∧ '\n' ∉ text := by
  simp only [endsInText, Bool.and_eq_true, Bool.not_eq_true', List.isEmpty_eq_false_iff,
    List.all_eq_true]
  constructor
  · rintro ⟨hne, hpauses⟩
    refine ⟨(r.reverse.dropWhile (· != '\n')).reverse, (r.reverse.takeWhile (· != '\n')).reverse,
      ?_, fun c hc => hpauses c (List.mem_reverse.1 hc), by simpa using hne, fun hmem => ?_⟩
    · rw [← List.reverse_append, List.takeWhile_append_dropWhile, List.reverse_reverse]
    · have hline := List.mem_takeWhile_imp (List.mem_reverse.1 hmem)
      exact absurd rfl (bne_iff_ne.1 hline)
  · rintro ⟨pauses, text, rfl, hpauses, hne, oneLine⟩
    have hline : ∀ c ∈ text.reverse, (c != '\n') = true := by
      intro c hc
      rw [bne_iff_ne]
      rintro rfl
      exact oneLine (List.mem_reverse.1 hc)
    rw [List.reverse_append, List.takeWhile_append_of_pos hline, List.dropWhile_append_of_pos hline]
    refine ⟨by simp [hne], fun c hc => hpauses c ?_⟩
    exact List.mem_reverse.1 ((List.dropWhile_sublist _).subset hc)

lemma endsInText_of_oneLine {rest : List Char} (oneLine : '\n' ∉ rest) :
    endsInText rest = !rest.isEmpty := by
  rw [Bool.eq_iff_iff, endsInText_iff, Bool.not_eq_true', List.isEmpty_eq_false_iff]
  constructor
  · rintro ⟨pauses, text, rfl, -, hne, -⟩
    simp [hne]
  · exact fun hne => ⟨[], rest, rfl, nofun, hne, oneLine⟩
lemma holdsOneLine_of_oneLine {text : List Char} (hne : text ≠ []) (oneLine : '\n' ∉ text) :
    holdsOneLine text = true := by
  have hall {cs : List Char} (hcs : ∀ c ∈ cs, c ∈ text) : cs.all (· != '\n') = true := by
    rw [List.all_eq_true]
    intro c hc
    rw [bne_iff_ne]
    rintro rfl
    exact oneLine (hcs _ hc)
  rw [holdsOneLine]
  split
  · obtain ⟨c, cs, rfl⟩ := List.exists_cons_of_ne_nil hne
    have hfirst := List.all_eq_true.1 (hall fun _ hd => hd) c (List.mem_cons_self ..)
    exact List.any_eq_true.2 ⟨c, List.mem_cons_self .., hfirst⟩
  · exact hall fun c hc => Text.mem_of_mem_trim hc

/-- What follows the letters is read off its first character. -/
lemma afterLetters?_of_oneLine {c : Char} {cs : List Char} (oneLine : '\n' ∉ c :: cs) :
    afterLetters? (c :: cs) =
      if c = '!' then some .trigger else if Text.isWord c then none else some .collect := by
  by_cases hc : c = '!'
  · subst hc
    have htail : '\n' ∉ cs := List.not_mem_of_not_mem_cons oneLine
    simp [afterLetters?, endsInText_of_oneLine htail]
  · rw [afterLetters?.eq_3 _ _ (fun h => hc h), endsInText_of_oneLine oneLine, if_neg hc]
    cases Text.isWord c <;> rfl

/-- A marker that leads is found, and `!` behind it makes it a trigger. -/
lemma leading?_of_leads {body : List Char} {c : Char} {cs : List Char}
    (h : Leads body (c :: cs)) (oneLine : '\n' ∉ body) :
    leading? body = if c = '!' then some .trigger else some .collect := by
  obtain ⟨blanks, m, hbody, -⟩ := id h
  have htail : '\n' ∉ c :: cs := fun hmem =>
    oneLine (hbody ▸ List.mem_append_right (blanks ++ m) hmem)
  obtain ⟨a, i, htrim, ha, hi, d, ds, hd, hword⟩ := (leads_iff body (c :: cs)).1 h
  obtain ⟨rfl, rfl⟩ := List.cons.inj hd
  rw [leading?, htrim]
  simp only [ha, hi, Bool.and_self, if_true]
  rw [afterLetters?_of_oneLine htail, if_neg hword]

/-- No other marker is found at the front. -/
lemma exists_leads {body : List Char} (oneLine : '\n' ∉ body) (h : leading? body ≠ none) :
    ∃ rest, Leads body rest := by
  rw [leading?] at h
  split at h
  · rename_i a i rest htrim
    split at h
    · rename_i hletters
      rw [Bool.and_eq_true] at hletters
      cases rest with
      | nil => exact absurd rfl h
      | cons c cs =>
          have hsub : '\n' ∉ c :: cs := by
            intro hmem
            have htail : '\n' ∈ Text.trimLeft body := by
              rw [htrim]
              exact List.mem_cons_of_mem _ (List.mem_cons_of_mem _ hmem)
            exact oneLine ((List.dropWhile_sublist _).subset htail)
          refine ⟨c :: cs,
            (leads_iff body _).2 ⟨a, i, htrim, hletters.1, hletters.2, c, cs, rfl, ?_⟩⟩
          intro hword
          rw [afterLetters?_of_oneLine hsub, if_pos hword] at h
          split at h
          · rename_i hc
            subst hc
            cases hword
          · exact h rfl
    · exact absurd rfl h
  · exact absurd rfl h

/-- A marker that trails is found where the text before it lies on one line, and `!` behind it makes
it a trigger. -/
lemma trailing?_of_split {text m closing : List Char} {c : Char} (hc : ¬ Text.isWord c)
    (hm : IsLetters m) (hclosing : ∀ d ∈ closing, Closes d) (oneLine : '\n' ∉ text ++ [c]) :
    trailing? (text ++ [c] ++ m ++ closing) =
      if closing.head? = some '!' then some .trigger else some .collect := by
  obtain ⟨a, i, rfl, ha, hi⟩ := (isLetters_iff m).1 hm
  have hline := holdsOneLine_of_oneLine (by simp) oneLine
  have hoff : Text.isWord c = false := Bool.eq_false_iff.2 hc
  rw [trailing?, dropWhile_isClosing _ _ hi hclosing, takeWhile_isClosing _ _ hi hclosing,
    List.getLast?_reverse, List.reverse_append]
  simp [ha, hi, hoff, hline]

lemma trailing?_of_trails {body closing : List Char} (h : Trails body closing)
    (oneLine : '\n' ∉ body) :
    trailing? body = if closing.head? = some '!' then some .trigger else some .collect := by
  obtain ⟨text, c, m, rfl, hc, hm, hclosing⟩ := h
  exact trailing?_of_split hc hm hclosing fun hmem =>
    oneLine (List.mem_append_left _ (List.mem_append_left m hmem))

/-- No other marker is found at the back. -/
lemma exists_trails {body : List Char} (h : trailing? body ≠ none) :
    ∃ closing, Trails body closing := by
  rw [trailing?] at h
  split at h
  · rename_i i a c text hdrop
    split at h
    · rename_i hmarker
      simp only [Bool.and_eq_true, Bool.not_eq_true'] at hmarker
      obtain ⟨⟨⟨hi, ha⟩, hc⟩, -⟩ := hmarker
      exact ⟨(body.reverse.takeWhile isClosing).reverse, (trails_iff body _).2
        ⟨i, a, c, text, hdrop, ha, hi, by simp [hc], (List.reverse_reverse _).symm⟩⟩
    · exact absurd rfl h
  · exact absurd rfl h

/-! ## The two readings together -/

lemma join_none (m : Option Marker) : join m none = m := by
  rcases m with _ | ⟨_ | _⟩ <;> rfl

lemma join_ne_none_iff (m n : Option Marker) : join m n ≠ none ↔ m ≠ none ∨ n ≠ none := by
  rcases m with _ | ⟨_ | _⟩ <;> rcases n with _ | ⟨_ | _⟩ <;> simp [join]

lemma join_eq_trigger_iff (m n : Option Marker) :
    join m n = some .trigger ↔ m = some .trigger ∨ n = some .trigger := by
  rcases m with _ | ⟨_ | _⟩ <;> rcases n with _ | ⟨_ | _⟩ <;> simp [join]

section OneLine

variable {body : List Char} (oneLine : '\n' ∉ body)
include oneLine

lemma leading?_ne_none_iff : leading? body ≠ none ↔ ∃ rest, Leads body rest := by
  refine ⟨exists_leads oneLine, ?_⟩
  rintro ⟨rest, h⟩
  obtain ⟨-, -, -, -, -, c, cs, rfl, -⟩ := id h
  rw [leading?_of_leads h oneLine]
  split <;> nofun

lemma leading?_eq_trigger_iff :
    leading? body = some .trigger ↔ ∃ rest, Leads body ('!' :: rest) := by
  constructor
  · intro htrigger
    obtain ⟨rest, h⟩ := exists_leads oneLine (by rw [htrigger]; nofun)
    obtain ⟨-, -, -, -, -, c, cs, rfl, -⟩ := id h
    rw [leading?_of_leads h oneLine] at htrigger
    split at htrigger
    · rename_i hc
      exact ⟨cs, hc ▸ h⟩
    · cases htrigger
  · rintro ⟨rest, h⟩
    rw [leading?_of_leads h oneLine, if_pos rfl]

lemma trailing?_ne_none_iff : trailing? body ≠ none ↔ ∃ closing, Trails body closing := by
  refine ⟨exists_trails, ?_⟩
  rintro ⟨closing, h⟩
  rw [trailing?_of_trails h oneLine]
  split <;> nofun

lemma trailing?_eq_trigger_iff :
    trailing? body = some .trigger ↔ ∃ closing, Trails body ('!' :: closing) := by
  constructor
  · intro htrigger
    obtain ⟨closing, h⟩ := exists_trails (by rw [htrigger]; nofun)
    rw [trailing?_of_trails h oneLine] at htrigger
    split at htrigger
    · rename_i hhead
      obtain ⟨rest, rfl⟩ := List.head?_eq_some_iff.1 hhead
      exact ⟨rest, h⟩
    · cases htrigger
  · rintro ⟨closing, h⟩
    rw [trailing?_of_trails h oneLine, List.head?_cons, if_pos rfl]

end OneLine

/-- A line without a comment sign is not marked; any other is read as its body is. -/
lemma ofLine?_cases (line : String) :
    ((∀ body, ¬ HasBody line body) ∧ ofLine? line = none) ∨
      ∃ body, HasBody line body ∧ ofLine? line = join (leading? body) (trailing? body) := by
  rw [ofLine?]
  cases h : commentBody? (Text.trim line.toList) with
  | none =>
      refine Or.inl ⟨fun body hbody => ?_, rfl⟩
      rw [hasBody_iff, h] at hbody
      cases hbody
  | some body => exact Or.inr ⟨body, (hasBody_iff line body).2 h, rfl⟩

/-- **A line is marked** exactly when a marker leads or trails its body. -/
lemma ofLine?_ne_none_iff {line : String} (oneLine : '\n' ∉ line.toList) :
    ofLine? line ≠ none ↔
      ∃ body, HasBody line body ∧ ((∃ rest, Leads body rest) ∨ ∃ closing, Trails body closing) := by
  rcases ofLine?_cases line with ⟨hnone, hline⟩ | ⟨body, hbody, hline⟩
  · rw [hline]
    exact iff_of_false (fun h => h rfl) fun ⟨body, hbody, _⟩ => hnone body hbody
  · rw [hline, join_ne_none_iff, leading?_ne_none_iff (hbody.oneLine oneLine),
      trailing?_ne_none_iff (hbody.oneLine oneLine)]
    refine ⟨fun h => ⟨body, hbody, h⟩, fun ⟨body', hbody', h⟩ => ?_⟩
    rwa [hbody.unique hbody']

/-- **A line is a trigger** exactly when `!` follows a marker that leads or trails its body. -/
lemma ofLine?_eq_trigger_iff {line : String} (oneLine : '\n' ∉ line.toList) :
    ofLine? line = some .trigger ↔
      ∃ body, HasBody line body ∧
        ((∃ rest, Leads body ('!' :: rest)) ∨ ∃ closing, Trails body ('!' :: closing)) := by
  rcases ofLine?_cases line with ⟨hnone, hline⟩ | ⟨body, hbody, hline⟩
  · rw [hline]
    exact iff_of_false nofun fun ⟨body, hbody, _⟩ => hnone body hbody
  · rw [hline, join_eq_trigger_iff, leading?_eq_trigger_iff (hbody.oneLine oneLine),
      trailing?_eq_trigger_iff (hbody.oneLine oneLine)]
    refine ⟨fun h => ⟨body, hbody, h⟩, fun ⟨body', hbody', h⟩ => ?_⟩
    rwa [hbody.unique hbody']

end Marginalia.Marker
