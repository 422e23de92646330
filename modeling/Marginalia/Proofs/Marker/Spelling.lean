import Marginalia.Proofs.Marker.Grammar

/-!
# The spelling of a marker

A marker at the end of a comment may be written in any case, and any run of blanks and punctuation
may follow it.  `spelled sign u m q` is such a line: a comment sign, a text `u`, the letters `m` of
the marker, and the run `q`.  Here the marker of these lines is read off `u` and `q`.

The spelling `m` never matters.  The run matters in two places.  A *bare* marker, with no text
before it, is read at the front only, and there the pattern asks for some text behind the marker:
the punctuation may serve as this text, but where nothing follows the marker, it is missed
(`bare_marker_missed`), although it is a marker with a blank before it, or with a colon behind.
Furthermore a line feed within the run, which a line of a file does not have, hides a marker at the
front of `u`.

The main result, `ofLine?_spelled`, gives the marker for every run.
-/

namespace Marginalia.Marker

/-- The spellings of the marker in ASCII. -/
def spellings : List (List Char) := [['a', 'i'], ['a', 'I'], ['A', 'i'], ['A', 'I']]

/-- The text is empty or ends outside of a word. -/
def EndsOffWord (u : List Char) : Prop :=
  u = [] ∨ ∃ text c, u = text ++ [c] ∧ ¬ Text.isWord c

/-- The character may follow a marker at the end without making it a trigger. -/
def Quiet (c : Char) : Prop :=
  Closes c ∧ c ≠ '!'

/-- Behind some pauses the run goes on with a text on one line, blanks at its end apart. -/
def HoldsText (q : List Char) : Prop :=
  ∃ pauses text, Text.trimRight q = pauses ++ text ∧ (∀ c ∈ pauses, isPause c) ∧ text ≠ [] ∧
    '\n' ∉ text

/-- A line with a marker behind a text. -/
def spelled (sign u m q : List Char) : String :=
  String.ofList (sign ++ u ++ m ++ q)

/-! ## Characters -/

lemma isLetters_of_mem_spellings {m : List Char} (h : m ∈ spellings) : IsLetters m := by
  rw [isLetters_iff]
  fin_cases h
  exacts [⟨'a', 'i', rfl, rfl, rfl⟩, ⟨'a', 'I', rfl, rfl, rfl⟩, ⟨'A', 'i', rfl, rfl, rfl⟩,
    ⟨'A', 'I', rfl, rfl, rfl⟩]

/-! ## Reading a spelled line -/

section Reading

variable {sign u m q : List Char} (hsign : sign ∈ signs) (hm : IsLetters m)
include hsign hm

lemma hasBody_spelled : HasBody (spelled sign u m q) (u ++ m ++ Text.trimRight q) := by
  obtain ⟨a, i, rfl, -, hi⟩ := (isLetters_iff m).1 hm
  have hfront : Text.trimLeft (sign ++ u ++ [a, i] ++ q) = sign ++ u ++ [a, i] ++ q := by
    fin_cases hsign <;> rfl
  have hblank := not_isBlank_of_isWord (isWord_of_isSecondLetter hi)
  have hback := Text.trimRight_append (x := sign ++ u ++ [a]) (q := q) hblank
  refine ⟨sign, hsign, ?_⟩
  rw [spelled, String.toList_ofList, Text.trim, hfront]
  simpa using hback

lemma ofLine?_spelled_eq : ofLine? (spelled sign u m q) =
    join (leading? (u ++ m ++ Text.trimRight q)) (trailing? (u ++ m ++ Text.trimRight q)) := by
  rw [ofLine?, (hasBody_iff _ _).1 (hasBody_spelled hsign hm)]

end Reading

/-- With no text before it a marker does not trail. -/
lemma trailing?_bare {m r : List Char} (hm : IsLetters m) (hr : ∀ c ∈ r, Closes c) :
    trailing? (m ++ r) = none := by
  obtain ⟨a, i, rfl, -, hi⟩ := (isLetters_iff m).1 hm
  have hdrop : ([a, i] ++ r).reverse.dropWhile isClosing = [i, a] :=
    dropWhile_isClosing [] a hi hr
  rw [trailing?, hdrop]

lemma trailing?_spelled {u m r : List Char} (hu : EndsOffWord u) (oneLine : '\n' ∉ u)
    (hm : IsLetters m) (hr : ∀ c ∈ r, Closes c) :
    trailing? (u ++ m ++ r) =
      if u = [] then none else if r.head? = some '!' then some .trigger else some .collect := by
  rcases hu with rfl | ⟨text, c, rfl, hc⟩
  · rw [if_pos rfl]
    exact trailing?_bare hm hr
  · rw [if_neg (by simp)]
    exact trailing?_of_split hc hm hr oneLine

/-- Behind a marker at the front a quiet run counts when it may serve as the text. -/
lemma afterLetters?_of_quiet {r : List Char} (hr : ∀ c ∈ r, Quiet c) :
    afterLetters? r = if endsInText r then some .collect else none := by
  cases r with
  | nil => rfl
  | cons c cs =>
      obtain ⟨hcloses, hbang⟩ := hr c (List.mem_cons_self ..)
      rw [afterLetters?.eq_3 _ _ fun h => hbang h, not_isWord_of_closes hcloses]
      rfl

lemma leading?_of_blanks {u m r : List Char} (hu : ∀ c ∈ u, Text.isBlank c) (hm : IsLetters m) :
    leading? (u ++ m ++ r) = afterLetters? r := by
  obtain ⟨a, i, rfl, ha, hi⟩ := (isLetters_iff m).1 hm
  have hfront : Text.trimLeft (u ++ [a, i] ++ r) = a :: i :: r := by
    rw [Text.trimLeft, List.append_assoc, List.dropWhile_append_of_pos hu]
    exact List.dropWhile_cons_of_neg (by simp [not_isBlank_of_isWord (isWord_of_isFirstLetter ha)])
  rw [leading?, hfront]
  simp [ha, hi]

lemma afterLetters?_eq_trigger_iff (r : List Char) :
    afterLetters? r = some .trigger ↔ ∃ rest, r = '!' :: rest ∧ (rest = [] ∨ endsInText rest) := by
  match r with
  | [] => simp [afterLetters?]
  | c :: cs =>
      by_cases hc : c = '!'
      · subst hc
        simp [afterLetters?, or_iff_not_imp_left]
      · rw [afterLetters?.eq_3 _ _ fun h => hc h]
        simp [hc]

lemma leading?_eq_trigger_iff_trimLeft (body : List Char) :
    leading? body = some .trigger ↔ ∃ a i rest, Text.trimLeft body = a :: i :: '!' :: rest ∧
      isFirstLetter a ∧ isSecondLetter i ∧ (rest = [] ∨ endsInText rest) := by
  rw [leading?]
  constructor
  · intro h
    split at h
    · rename_i a i r htrim
      split at h
      · rename_i hletters
        rw [Bool.and_eq_true] at hletters
        obtain ⟨rest, rfl, hrest⟩ := (afterLetters?_eq_trigger_iff r).1 h
        exact ⟨a, i, rest, htrim, hletters.1, hletters.2, hrest⟩
      · cases h
    · cases h
  · rintro ⟨a, i, rest, htrim, ha, hi, hrest⟩
    rw [htrim]
    simp only [ha, hi, Bool.and_self, if_true]
    exact (afterLetters?_eq_trigger_iff _).2 ⟨rest, rfl, hrest⟩

lemma not_mem_of_isLetters {m : List Char} (hm : IsLetters m) : '\n' ∉ m := by
  obtain ⟨a, i, rfl, ha, hi⟩ := (isLetters_iff m).1 hm
  have hblank : Text.isBlank '\n' := rfl
  simp only [List.mem_cons, List.not_mem_nil, or_false]
  rintro (rfl | rfl)
  · simp [not_isBlank_of_isWord (isWord_of_isFirstLetter ha)] at hblank
  · simp [not_isBlank_of_isWord (isWord_of_isSecondLetter hi)] at hblank

/-- Behind the letters of a marker a text ends where no line feed follows. -/
lemma endsInText_append_iff {x m r : List Char} (oneLine : '\n' ∉ x) (hm : IsLetters m) :
    endsInText (x ++ m ++ r) ↔ '\n' ∉ r := by
  have hletters := not_mem_of_isLetters hm
  obtain ⟨a, i, rfl, -, hi⟩ := (isLetters_iff m).1 hm
  constructor
  · intro h hmem
    obtain ⟨pauses, text, heq, hpauses, -, hline⟩ := (endsInText_iff _).1 h
    rcases List.append_eq_append_iff.1 heq with ⟨z, rfl, rfl⟩ | ⟨z, hz, rfl⟩
    · have hpause := hpauses i (by simp)
      rw [not_isPause_of_isWord (isWord_of_isSecondLetter hi)] at hpause
      cases hpause
    · exact hline (List.mem_append_right z hmem)
  · intro hr
    have hline : '\n' ∉ x ++ [a, i] ++ r := by
      simp only [List.mem_append, not_or]
      exact ⟨⟨oneLine, hletters⟩, hr⟩
    rw [endsInText_of_oneLine hline]
    simp

/-- Without its blanks the text still ends outside of a word. -/
lemma EndsOffWord.trimLeft {u : List Char} (hu : EndsOffWord u) :
    EndsOffWord (Text.trimLeft u) := by
  rcases hu with rfl | ⟨text, c, rfl, hc⟩
  · exact Or.inl rfl
  · rw [Text.trimLeft, List.dropWhile_append]
    split
    · by_cases hblank : Text.isBlank c
      · exact Or.inl (List.dropWhile_eq_nil_iff.2 (by simpa using hblank))
      · exact Or.inr ⟨[], c, List.dropWhile_cons_of_neg hblank, hc⟩
    · exact Or.inr ⟨_, c, rfl, hc⟩

/-- Letters in front of a text that ends outside of a word do not reach beyond its end. -/
lemma EndsOffWord.exists_of_append {u x rest : List Char} {a i : Char} (hu : EndsOffWord u)
    (hne : u ≠ []) (ha : isFirstLetter a) (hi : isSecondLetter i)
    (heq : u ++ x = a :: i :: rest) :
    ∃ c cs, u = a :: i :: c :: cs ∧ rest = c :: (cs ++ x) := by
  obtain ⟨text, c, rfl, hc⟩ := hu.resolve_left hne
  rcases text with _ | ⟨d, _ | ⟨e, text⟩⟩
  · cases heq
    exact absurd (isWord_of_isFirstLetter ha) hc
  · cases heq
    exact absurd (isWord_of_isSecondLetter hi) hc
  · simp only [List.cons_append, List.cons.injEq] at heq
    obtain ⟨rfl, rfl, rfl⟩ := heq
    obtain ⟨f, more, hmore⟩ := List.exists_cons_of_ne_nil (l := text ++ [c]) (by simp)
    exact ⟨f, more, by simp [hmore], by rw [hmore, List.cons_append]⟩

/-- **A marker at the front** of the text makes the line a trigger, unless a line feed follows. -/
lemma leading?_spelled_eq_trigger_iff {u m r : List Char} (hu : EndsOffWord u) (oneLine : '\n' ∉ u)
    (hm : IsLetters m) (hr : ∀ c ∈ r, Quiet c) :
    leading? (u ++ m ++ r) = some .trigger ↔ '\n' ∉ r ∧ ∃ rest, Leads u ('!' :: rest) := by
  by_cases hblanks : ∀ c ∈ u, Text.isBlank c
  · have htrim : Text.trimLeft u = [] := List.dropWhile_eq_nil_iff.2 hblanks
    rw [leading?_of_blanks hblanks hm, afterLetters?_of_quiet hr]
    refine iff_of_false (by split <;> simp) ?_
    rintro ⟨-, rest, h⟩
    obtain ⟨a, i, hfront, -⟩ := (leads_iff u _).1 h
    rw [htrim] at hfront
    cases hfront
  · have hne : Text.trimLeft u ≠ [] := fun h => hblanks (List.dropWhile_eq_nil_iff.1 h)
    have hoff {a i : Char} {rest : List Char} (htrim : Text.trimLeft u = a :: i :: '!' :: rest) :
        '\n' ∉ rest := by
      intro hmem
      have htail : '\n' ∈ Text.trimLeft u := by simp [htrim, hmem]
      exact oneLine ((List.dropWhile_sublist _).subset htail)
    rw [leading?_eq_trigger_iff_trimLeft, List.append_assoc, Text.trimLeft_append hne]
    constructor
    · rintro ⟨a, i, rest, htrim, ha, hi, hrest⟩
      obtain ⟨_, cs, hu', heq⟩ := hu.trimLeft.exists_of_append hne ha hi htrim
      obtain ⟨rfl, rfl⟩ := List.cons.inj heq
      have hends : endsInText (cs ++ m ++ r) := by
        rw [List.append_assoc]
        refine hrest.resolve_left fun hnil => ?_
        obtain ⟨a', i', rfl, -⟩ := (isLetters_iff m).1 hm
        simp at hnil
      exact ⟨(endsInText_append_iff (hoff hu') hm).1 hends, cs,
        (leads_iff u _).2 ⟨a, i, hu', ha, hi, '!', cs, rfl, by decide⟩⟩
    · rintro ⟨hline, rest, h⟩
      obtain ⟨a, i, htrim, ha, hi, -⟩ := (leads_iff u _).1 h
      refine ⟨a, i, rest ++ (m ++ r), by rw [htrim]; rfl, ha, hi, Or.inr ?_⟩
      rw [← List.append_assoc]
      exact (endsInText_append_iff (hoff htrim) hm).2 hline

/-! ## The marker of a spelled line -/

lemma holdsText_iff (q : List Char) : HoldsText q ↔ endsInText (Text.trimRight q) :=
  (endsInText_iff _).symm

/-- On one line everything but blanks is a text. -/
lemma holdsText_iff_of_oneLine {q : List Char} (oneLine : '\n' ∉ Text.trimRight q) :
    HoldsText q ↔ ¬ ∀ c ∈ q, Text.isBlank c := by
  rw [holdsText_iff, endsInText_of_oneLine oneLine, Bool.not_eq_true', List.isEmpty_eq_false_iff,
    Ne, Text.trimRight_eq_nil_iff]

/-- Two lines that are marked are marked alike when both are triggers or none is. -/
lemma eq_of_trigger_iff {m n : Option Marker} (hm : m ≠ none) (hn : n ≠ none)
    (h : m = some .trigger ↔ n = some .trigger) : m = n := by
  rcases m with _ | ⟨_ | _⟩ <;> rcases n with _ | ⟨_ | _⟩ <;> simp_all

section Spelled

variable {sign u m q : List Char} (hsign : sign ∈ signs) (oneLine : '\n' ∉ u)
  (hu : EndsOffWord u) (hm : IsLetters m)
include hsign oneLine hu hm

/-- Before a quiet run a marker is missed only when it is bare and nothing follows that may serve as
a text. -/
lemma ofLine?_spelled_eq_none_iff (hq : ∀ c ∈ q, Quiet c) :
    ofLine? (spelled sign u m q) = none ↔ u = [] ∧ ¬ HoldsText q := by
  have hr : ∀ c ∈ Text.trimRight q, Quiet c := fun c hc => hq c (Text.mem_of_mem_trimRight hc)
  rw [ofLine?_spelled_eq hsign hm, trailing?_spelled hu oneLine hm fun c hc => (hr c hc).1]
  by_cases hbare : u = []
  · subst hbare
    rw [if_pos rfl, join_none, leading?_of_blanks (by simp) hm, afterLetters?_of_quiet hr,
      holdsText_iff]
    by_cases hends : endsInText (Text.trimRight q) <;> simp [hends]
  · have hmarked : join (leading? (u ++ m ++ Text.trimRight q)) (if (Text.trimRight q).head? =
        some '!' then some .trigger else some .collect) ≠ none :=
      (join_ne_none_iff _ _).2 (Or.inr (by split <;> nofun))
    rw [if_neg hbare]
    exact iff_of_false hmarked fun h => hbare h.1

/-- Before a quiet run the line is a trigger when a marker with `!` is at the front of its text. -/
lemma ofLine?_spelled_eq_trigger_iff (hq : ∀ c ∈ q, Quiet c) :
    ofLine? (spelled sign u m q) = some .trigger ↔
      '\n' ∉ Text.trimRight q ∧ ∃ rest, Leads u ('!' :: rest) := by
  have hr : ∀ c ∈ Text.trimRight q, Quiet c := fun c hc => hq c (Text.mem_of_mem_trimRight hc)
  have hquiet : (Text.trimRight q).head? ≠ some '!' := fun hhead =>
    (hr '!' (List.mem_of_mem_head? hhead)).2 rfl
  rw [ofLine?_spelled_eq hsign hm, trailing?_spelled hu oneLine hm fun c hc => (hr c hc).1,
    join_eq_trigger_iff, leading?_spelled_eq_trigger_iff hu oneLine hm hr, if_neg hquiet]
  refine or_iff_left ?_
  split <;> nofun

/-- Before `!` and a run of any kind the line is a trigger, unless the marker is bare and the run,
which is then not blank, holds no text. -/
lemma ofLine?_spelled_bang (hq : ∀ c ∈ q, Closes c) :
    ofLine? (spelled sign u m ('!' :: q)) = some .trigger ↔
      u ≠ [] ∨ (∀ c ∈ q, Text.isBlank c) ∨ HoldsText q := by
  have htrim : Text.trimRight ('!' :: q) = '!' :: Text.trimRight q :=
    Text.trimRight_append (x := []) rfl
  have hr : ∀ c ∈ '!' :: Text.trimRight q, Closes c := by
    rintro c (_ | ⟨_, hc⟩)
    · exact Or.inr (by simp)
    · exact hq c (Text.mem_of_mem_trimRight hc)
  rw [ofLine?_spelled_eq hsign hm, htrim, trailing?_spelled hu oneLine hm hr, join_eq_trigger_iff]
  by_cases hbare : u = []
  · subst hbare
    rw [leading?_of_blanks (by simp) hm, afterLetters?_eq_trigger_iff, holdsText_iff,
      ← Text.trimRight_eq_nil_iff]
    simp
  · simp [hbare]

end Spelled

/-- **The spelling of a marker.**  For a text `u` on one line, empty or ending outside of a word:

* before a quiet run the marker behind `u` is missed only when it is bare and the run holds no text;
* the line is then a trigger exactly when a marker with `!` is at the front of `u`, unless the run
  has a line feed before its last character, blanks at its end apart; so any two spellings and runs
  without such a line feed give one result where none of the two markers is missed;
* before `!` and a run of any kind the line is a trigger, unless the marker is bare and the run,
  which is then not blank, holds no text.

A run without such a line feed holds a text when it is not blank. -/
theorem ofLine?_spelled {sign u : List Char} (hsign : sign ∈ signs) (oneLine : '\n' ∉ u)
    (hu : EndsOffWord u) :
    (∀ m ∈ spellings, ∀ q, (∀ c ∈ q, Quiet c) →
      (ofLine? (spelled sign u m q) = none ↔ u = [] ∧ ¬ HoldsText q) ∧
      (ofLine? (spelled sign u m q) = some .trigger ↔
        '\n' ∉ Text.trimRight q ∧ ∃ rest, Leads u ('!' :: rest))) ∧
    (∀ m ∈ spellings, ∀ m' ∈ spellings, ∀ q q', (∀ c ∈ q, Quiet c) → (∀ c ∈ q', Quiet c) →
      '\n' ∉ Text.trimRight q → '\n' ∉ Text.trimRight q' →
      ofLine? (spelled sign u m q) ≠ none → ofLine? (spelled sign u m' q') ≠ none →
      ofLine? (spelled sign u m q) = ofLine? (spelled sign u m' q')) ∧
    (∀ m ∈ spellings, ∀ q, (∀ c ∈ q, Closes c) →
      (ofLine? (spelled sign u m ('!' :: q)) = some .trigger ↔
        u ≠ [] ∨ (∀ c ∈ q, Text.isBlank c) ∨ HoldsText q)) ∧
    (∀ q, '\n' ∉ Text.trimRight q → (HoldsText q ↔ ¬ ∀ c ∈ q, Text.isBlank c)) := by
  have htrigger {m q : List Char} (hm : m ∈ spellings) (hq : ∀ c ∈ q, Quiet c) :=
    ofLine?_spelled_eq_trigger_iff hsign oneLine hu (isLetters_of_mem_spellings hm) hq
  refine ⟨fun m hm q hq => ⟨?_, htrigger hm hq⟩, ?_, fun m hm q hq => ?_, fun q hline => ?_⟩
  · exact ofLine?_spelled_eq_none_iff hsign oneLine hu (isLetters_of_mem_spellings hm) hq
  · intro m hm m' hm' q q' hq hq' hline hline' hmarked hmarked'
    have hsame : ofLine? (spelled sign u m q) = some .trigger ↔
        ofLine? (spelled sign u m' q') = some .trigger := by
      rw [htrigger hm hq, htrigger hm' hq', and_iff_right hline, and_iff_right hline']
    exact eq_of_trigger_iff hmarked hmarked' hsame
  · exact ofLine?_spelled_bang hsign oneLine hu (isLetters_of_mem_spellings hm) hq
  · exact holdsText_iff_of_oneLine hline

/-- Two ways to close a request, and two more that make it a trigger. -/
theorem ofLine?_spelled_of_request :
    let u := " refactor this ".toList
    ['#'] ∈ signs ∧ '\n' ∉ u ∧ EndsOffWord u ∧
      ofLine? (spelled ['#'] u ['A', 'I'] ['.']) ≠ none ∧
      ofLine? (spelled ['#'] u ['A', 'I'] ['.']) =
        ofLine? (spelled ['#'] u ['a', 'i'] [' ', ':', '?']) ∧
      ofLine? (spelled ['#'] u ['a', 'I'] ['!']) = some .trigger ∧
      ofLine? (spelled ['#'] u ['A', 'i'] ['!', '.', '\n', '.']) = some .trigger := by
  intro u
  have hsign : ['#'] ∈ signs := by decide
  have oneLine : '\n' ∉ u := by decide
  have hu : EndsOffWord u := Or.inr ⟨" refactor this".toList, ' ', by decide, by decide⟩
  obtain ⟨hquiet, hsame, hbang, -⟩ := ofLine?_spelled hsign oneLine hu
  have hne : u ≠ [] := by decide
  have hmarked {m q : List Char} (hm : m ∈ spellings) (hq : ∀ c ∈ q, Quiet c) :
      ofLine? (spelled ['#'] u m q) ≠ none := fun hnone =>
    hne ((hquiet m hm q hq).1.1 hnone).1
  have hdot : ∀ c ∈ ['.'], Quiet c := by simp [Quiet, Closes]
  have hrun : ∀ c ∈ [' ', ':', '?'], Quiet c := by simp [Quiet, Closes, Text.isBlank]
  refine ⟨hsign, oneLine, hu, hmarked (by decide) hdot, ?_, ?_, ?_⟩
  · exact hsame _ (by decide) _ (by decide) _ _ hdot hrun (by decide) (by decide)
      (hmarked (by decide) hdot) (hmarked (by decide) hrun)
  · exact (hbang _ (by decide) _ (by simp [Closes, Text.isBlank])).2 (Or.inl hne)
  · exact (hbang _ (by decide) _ (by simp [Closes, Text.isBlank])).2 (Or.inl hne)

/-- A bare marker is missed where nothing follows it, although a blank before it, a colon behind it
or `!` would do. -/
theorem bare_marker_missed :
    spelled ['#'] [] ['A', 'I'] [] = "#AI" ∧ ofLine? (spelled ['#'] [] ['A', 'I'] []) = none ∧
      ofLine? (spelled ['#'] [' '] ['A', 'I'] []) = some .collect ∧
      ofLine? (spelled ['#'] [] ['A', 'I'] [':']) = some .collect ∧
      ofLine? (spelled ['#'] [] ['A', 'I'] ['!']) = some .trigger := by
  decide

end Marginalia.Marker
