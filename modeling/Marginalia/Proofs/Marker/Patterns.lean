import Marginalia.Pattern.Basic
import Marginalia.Proofs.Marker.Grammar

/-!
# Marked lines as two patterns

The marked lines are given by two regular expressions, one for a marker at the end of a comment and
one for a marker at its beginning.  A line is marked when one of them matches it, and a trigger when
the group around the marker ends with `!` or is followed by it.

`Expr.ways` is matching as a search with an order of preference: a repetition takes as many or as
few characters as it can and gives way one character at a time, an alternative is tried before the
next one, and the first way through the whole pattern is the match.  `ofPatterns?` reads a line so.

The order of preference does not matter here.  Every way through one of the patterns is a split in
the sense of the grammar (`trails_of_way`, `leads_of_way`), and a body has one split of each kind at
most, so all ways give the same answer; and every split is a way (`exists_way_of_trails`,
`exists_way_of_leads`).

The main result, `ofLine?_grammar`, puts the grammar, the patterns and the reading from both ends
together.
-/

namespace Marginalia.Marker

/-! ## Matching with an order of preference -/

/-- A place in a text: what stands before it, the nearest character first, and what stands behind
it; further what the latest group has matched, and what stood behind that. -/
structure Place where
  before : List Char := []
  rest : List Char
  group : List Char := []
  behind : List Char := []

/-- A regular expression over kinds of characters. -/
inductive Expr
  | nothing
  | one (holds : Char → Bool)
  /-- As many characters of a kind as possible. -/
  | many (holds : Char → Bool)
  /-- As few characters of a kind as possible. -/
  | few (holds : Char → Bool)
  /-- Between a character of a word and one that is none. -/
  | boundary
  /-- The end of the text, or before a line feed that ends it. -/
  | finish
  | group (e : Expr)
  | seq (first second : Expr)
  | either (first second : Expr)

/-- The beginnings of a text that consist of characters of one kind, the longest first. -/
def spans (holds : Char → Bool) : List Char → List (List Char)
  | [] => [[]]
  | c :: cs => (if holds c then (spans holds cs).map (c :: ·) else []) ++ [[]]

namespace Place

/-- The place behind some characters that stand here. -/
def pass (s : Place) (x : List Char) : Place :=
  { s with before := x.reverse ++ s.before, rest := s.rest.drop x.length }

/-- The place lies between a character of a word and one that is none. -/
def isBoundary (s : Place) : Bool :=
  s.before.head?.any Text.isWord != s.rest.head?.any Text.isWord

/-- The latest group ends with `!`, or `!` stands behind it. -/
def calls (s : Place) : Bool :=
  s.group.getLast? = some '!' || s.behind.head? = some '!'

end Place

/-- The places that a match may lead to, in the order of preference. -/
def Expr.ways : Expr → Place → List Place
  | .nothing, s => [s]
  | .one holds, s => if s.rest.head?.any holds then [s.pass (s.rest.take 1)] else []
  | .many holds, s => (spans holds s.rest).map s.pass
  | .few holds, s => (spans holds s.rest).reverse.map s.pass
  | .boundary, s => if s.isBoundary then [s] else []
  | .finish, s => if s.rest = [] ∨ s.rest = ['\n'] then [s] else []
  | .group e, s => (e.ways s).map fun t =>
    { t with group := s.rest.take (s.rest.length - t.rest.length), behind := t.rest }
  | .seq first second, s => (first.ways s).flatMap second.ways
  | .either first second, s => first.ways s ++ second.ways s

/-- One expression after the other. -/
def Expr.all : List Expr → Expr
  | [] => .nothing
  | e :: es => .seq e (all es)

/-! ## The two patterns

Letters match in either case, as the items of a `Pattern` do that is read so. -/

/-- A character that is written out. -/
def letter (c : Char) : Char → Bool :=
  Pattern.Item.holds { fold := true } (.one c)

/-- A blank, `\s`. -/
def blank : Char → Bool :=
  Pattern.Item.holds { fold := true } (.named .blank false)

/-- One of a set: a blank, or a character that is written out. -/
def blankOr (cs : List Char) (d : Char) : Bool :=
  blank d || cs.any (letter · d)

/-- Any character but a line feed. -/
def ordinary (c : Char) : Bool := c != '\n'

/-- `#|//|--` -/
def signExpr : Expr :=
  .either (.all [.one (letter '#')])
    (.either (.all [.one (letter '/'), .one (letter '/')])
      (.all [.one (letter '-'), .one (letter '-')]))

/-- `ai!?` -/
def trailingMarker : Expr :=
  .all [.one (letter 'a'), .one (letter 'i'), .either (.one (letter '!')) .nothing]

/-- `ai!|ai\b` -/
def leadingMarker : Expr :=
  .either (.all [.one (letter 'a'), .one (letter 'i'), .one (letter '!')])
    (.all [.one (letter 'a'), .one (letter 'i'), .boundary])

/-- `^(?:#|//|--)\s*(?P<text>.+?)\s*\b(?P<marker>ai!?)[\s:.,;!?]*$` -/
def trailingPattern : Expr :=
  .all [signExpr, .many blank, .one ordinary, .few ordinary, .many blank, .boundary,
    .group trailingMarker, .many (blankOr [':', '.', ',', ';', '!', '?']), .finish]

/-- `^(?:#|//|--)\s*(?P<marker>ai!|ai\b)[\s:]*(?P<text>.+)$` -/
def leadingPattern : Expr :=
  .all [signExpr, .many blank, .group leadingMarker, .many (blankOr [':']), .one ordinary,
    .many ordinary, .finish]

/-- The first match of a pattern at the beginning of a text. -/
def firstMatch? (e : Expr) (text : List Char) : Option Place :=
  (e.ways { rest := text }).head?

/-- A line with a match is marked, and it is a trigger when one of the matches calls. -/
def ofMatches? (found : List Place) : Option Marker :=
  if found.isEmpty then none else if found.any Place.calls then some .trigger else some .collect

/-- The marker of a line by the first matches of the two patterns. -/
def ofPatterns? (line : String) : Option Marker :=
  ofMatches? ([trailingPattern, leadingPattern].filterMap (firstMatch? · (Text.trim line.toList)))

/-! ## Letters in either case -/

section Folding

open Text (smallForm kinOf capitalRuns)

/-- Only the dotted capital and the sign of a unit have a small form in ASCII. -/
lemma runs_below : ∀ r ∈ capitalRuns,
    128 ≤ (r.first : Int) + r.shift ∨ (r.first = 0x130 ∧ r.last = 0x130 ∧ r.shift = -199) ∨
      (r.first = 0x212a ∧ r.last = 0x212a ∧ r.shift = -8383) := by
  decide +kernel

/-- No capital has the dotless small letter for its small form. -/
lemma runs_dotless : ∀ r ∈ capitalRuns, r.holds (0x131 - r.shift).toNat = false := by
  decide +kernel

/-- Beyond ASCII the small form of a character is beyond ASCII, too, but for two characters. -/
lemma smallForm_cases {n : Nat} (hn : 128 ≤ n) :
    (128 ≤ smallForm n ∧ (smallForm n = 0x131 → n = 0x131)) ∨ (n = 0x130 ∧ smallForm n = 0x69) ∨
      (n = 0x212a ∧ smallForm n = 0x6b) := by
  rw [smallForm, if_neg (by omega)]
  split
  · rename_i r hr
    have hmem := List.mem_of_find?_eq_some hr
    have hholds : r.holds n = true := List.find?_some (p := fun r : Text.CapitalRun => r.holds n) hr
    have hrange : r.first ≤ n ∧ n ≤ r.last := by
      simp only [Text.CapitalRun.holds, Bool.and_eq_true, decide_eq_true_eq] at hholds
      exact hholds.1
    rcases runs_below r hmem with hbeyond | ⟨hfirst, hlast, hshift⟩ | ⟨hfirst, hlast, hshift⟩
    · refine Or.inl ⟨by omega, fun hdotless => ?_⟩
      have hsource : n = (0x131 - r.shift).toNat := by omega
      have hnot := runs_dotless r hmem
      rw [← hsource, hholds] at hnot
      cases hnot
    · exact Or.inr (Or.inl ⟨by omega, by omega⟩)
    · exact Or.inr (Or.inr ⟨by omega, by omega⟩)
  · exact Or.inl ⟨hn, id⟩

lemma smallForm_of_lt {n : Nat} (hn : n < 128) :
    smallForm n = if 65 ≤ n ∧ n ≤ 90 then n + 32 else n := by
  rw [smallForm, if_pos hn]
  simp only [Bool.and_eq_true, decide_eq_true_eq]

lemma letter_iff (d c : Char) : letter d c ↔ smallForm c.toNat ∈ kinOf (smallForm d.toNat) := by
  have hsame : letter d c = Text.sameLetter d c := rfl
  rw [hsame, Text.sameLetter, List.contains_iff_mem]

/-- What is written out and no letter stands for itself. -/
lemma letter_iff_eq {d : Char} (hd : d.toNat < 65) (hkin : kinOf (smallForm d.toNat) = [d.toNat])
    (c : Char) : letter d c ↔ c = d := by
  rw [letter_iff, hkin, List.mem_singleton, ← Char.toNat_inj]
  by_cases hc : c.toNat < 128
  · rw [smallForm_of_lt hc]
    split <;> omega
  · rcases smallForm_cases (Nat.le_of_not_lt hc) with ⟨h, -⟩ | ⟨-, h⟩ | ⟨-, h⟩ <;> omega

lemma letter_a_iff (c : Char) : letter 'a' c ↔ isFirstLetter c := by
  have hkin : kinOf (smallForm ('a'.toNat)) = ['a'.toNat] := by decide
  rw [letter_iff, hkin, List.mem_singleton, isFirstLetter_iff]
  simp only [List.mem_cons, List.not_mem_nil, or_false, ← Char.toNat_inj, Char.reduceToNat]
  by_cases hc : c.toNat < 128
  · rw [smallForm_of_lt hc]
    split <;> omega
  · rcases smallForm_cases (Nat.le_of_not_lt hc) with ⟨h, -⟩ | ⟨-, h⟩ | ⟨-, h⟩ <;> omega

lemma letter_i_iff (c : Char) : letter 'i' c ↔ isSecondLetter c := by
  rw [isSecondLetter_iff]
  constructor
  · have hkin : kinOf (smallForm ('i'.toNat)) = ['i'.toNat, 'ı'.toNat] := by decide
    rw [letter_iff, hkin]
    simp only [List.mem_cons, List.not_mem_nil, or_false, ← Char.toNat_inj, Char.reduceToNat]
    by_cases hc : c.toNat < 128
    · rw [smallForm_of_lt hc]
      split <;> omega
    · rcases smallForm_cases (Nat.le_of_not_lt hc) with ⟨h, h'⟩ | ⟨h, h'⟩ | ⟨h, h'⟩ <;> omega
  · intro hmem
    fin_cases hmem <;> decide

lemma blank_iff (c : Char) : blank c ↔ Text.isBlank c := by
  simp [blank, Pattern.Item.holds, Pattern.CharClass.holds]

lemma closes_iff (c : Char) : blankOr [':', '.', ',', ';', '!', '?'] c ↔ Closes c := by
  simp only [blankOr, Bool.or_eq_true, List.any_cons, List.any_nil, Bool.or_false, blank_iff,
    Closes, List.mem_cons, List.not_mem_nil, or_false]
  rw [letter_iff_eq (by decide) (by decide), letter_iff_eq (by decide) (by decide),
    letter_iff_eq (by decide) (by decide), letter_iff_eq (by decide) (by decide),
    letter_iff_eq (by decide) (by decide), letter_iff_eq (by decide) (by decide)]

end Folding

/-! ## Ways -/

/-- Between two places stand the characters `x`; the groups stay as they are. -/
structure Place.Passes (s : Place) (x : List Char) (t : Place) : Prop where
  rest : s.rest = x ++ t.rest
  before : t.before = x.reverse ++ s.before
  group : t.group = s.group
  behind : t.behind = s.behind

/-- The characters `x` that stand between two places are the latest group. -/
structure Place.Groups (s : Place) (x : List Char) (t : Place) : Prop where
  rest : s.rest = x ++ t.rest
  before : t.before = x.reverse ++ s.before
  group : t.group = x
  behind : t.behind = t.rest

namespace Place.Passes

variable {s m t : Place} {x y : List Char}

lemma nil (s : Place) : s.Passes [] s := ⟨rfl, rfl, rfl, rfl⟩

lemma trans (h : s.Passes x m) (k : m.Passes y t) : s.Passes (x ++ y) t := by
  refine ⟨?_, ?_, k.group.trans h.group, k.behind.trans h.behind⟩
  · rw [h.rest, k.rest, List.append_assoc]
  · rw [k.before, h.before, List.reverse_append, List.append_assoc]

lemma append_iff : s.Passes (x ++ y) t ↔ ∃ m, s.Passes x m ∧ m.Passes y t := by
  refine ⟨fun h => ⟨⟨x.reverse ++ s.before, y ++ t.rest, s.group, s.behind⟩, ?_, ?_⟩,
    fun ⟨m, h, k⟩ => h.trans k⟩
  · exact ⟨by rw [h.rest, List.append_assoc], rfl, rfl, rfl⟩
  · refine ⟨rfl, ?_, h.group, h.behind⟩
    rw [h.before, List.reverse_append, List.append_assoc]

lemma nil_iff : s.Passes [] t ↔ t = s := by
  refine ⟨fun h => ?_, fun h => h ▸ nil s⟩
  obtain ⟨before, rest, group, behind⟩ := t
  obtain ⟨rfl, rfl, rfl, rfl⟩ := h
  rfl

lemma pass_iff : s.Passes x t ↔ x <+: s.rest ∧ t = s.pass x := by
  obtain ⟨before, rest, group, behind⟩ := t
  constructor
  · rintro ⟨hrest, rfl, rfl, rfl⟩
    refine ⟨⟨_, hrest.symm⟩, ?_⟩
    rw [Place.pass, hrest, List.drop_left]
  · rintro ⟨⟨y, hy⟩, heq⟩
    cases heq
    exact ⟨by rw [← hy, List.drop_left], rfl, rfl, rfl⟩

/-- The place behind characters that stand here. -/
lemma exists_of_rest (hrest : s.rest = x ++ y) : ∃ t, s.Passes x t ∧ t.rest = y :=
  ⟨⟨x.reverse ++ s.before, y, s.group, s.behind⟩, ⟨hrest, rfl, rfl, rfl⟩, rfl⟩

end Place.Passes

lemma Place.Groups.exists_of_rest {s : Place} {x y : List Char} (hrest : s.rest = x ++ y) :
    ∃ t, s.Groups x t ∧ t.rest = y :=
  ⟨⟨x.reverse ++ s.before, y, x, y⟩, ⟨hrest, rfl, rfl, rfl⟩, rfl⟩

lemma mem_spans_iff {holds : Char → Bool} {x text : List Char} :
    x ∈ spans holds text ↔ x <+: text ∧ ∀ c ∈ x, holds c := by
  induction text generalizing x with
  | nil =>
      rw [spans, List.mem_singleton, List.prefix_nil]
      exact ⟨fun h => ⟨h, by simp [h]⟩, And.left⟩
  | cons c cs ih =>
      rw [spans, List.mem_append, List.mem_singleton]
      cases x with
      | nil => simp
      | cons d ds =>
          by_cases hc : holds c
          · simp only [if_pos hc, List.mem_map, ih, List.cons.injEq, reduceCtorEq, or_false,
              List.cons_prefix_cons, List.forall_mem_cons]
            constructor
            · rintro ⟨ds', ⟨hstart, hall⟩, rfl, rfl⟩
              exact ⟨⟨rfl, hstart⟩, hc, hall⟩
            · rintro ⟨⟨rfl, hstart⟩, -, hall⟩
              exact ⟨ds, ⟨hstart, hall⟩, rfl, rfl⟩
          · simp only [if_neg hc, List.not_mem_nil, reduceCtorEq, or_false, false_iff,
              List.cons_prefix_cons, List.forall_mem_cons]
            rintro ⟨⟨rfl, -⟩, hd, -⟩
            exact hc hd

section Ways

variable {s t : Place} {holds : Char → Bool}

lemma mem_ways_one : t ∈ (Expr.one holds).ways s ↔ ∃ c, holds c ∧ s.Passes [c] t := by
  simp only [Place.Passes.pass_iff, Expr.ways]
  cases hs : s.rest with
  | nil => simp
  | cons d ds =>
      by_cases hd : holds d
      · simp only [List.head?_cons, Option.any_some, hd, if_true, List.take_succ_cons,
          List.take_zero, List.mem_singleton, List.cons_prefix_cons]
        constructor
        · rintro rfl
          exact ⟨d, hd, ⟨rfl, List.nil_prefix⟩, rfl⟩
        · rintro ⟨c, -, ⟨rfl, -⟩, rfl⟩
          rfl
      · simp only [List.head?_cons, Option.any_some, hd, Bool.false_eq_true, if_false,
          List.not_mem_nil, List.cons_prefix_cons, false_iff]
        rintro ⟨c, hc, ⟨rfl, -⟩, -⟩
        exact hd hc

lemma mem_ways_many :
    t ∈ (Expr.many holds).ways s ↔ ∃ x, (∀ c ∈ x, holds c) ∧ s.Passes x t := by
  simp only [Expr.ways, List.mem_map, mem_spans_iff, Place.Passes.pass_iff]
  constructor
  · rintro ⟨x, ⟨hstart, hall⟩, rfl⟩
    exact ⟨x, hall, hstart, rfl⟩
  · rintro ⟨x, hall, hstart, rfl⟩
    exact ⟨x, ⟨hstart, hall⟩, rfl⟩

/-- As few as possible are as many as possible, tried the other way round. -/
lemma mem_ways_few : t ∈ (Expr.few holds).ways s ↔ t ∈ (Expr.many holds).ways s := by
  simp only [Expr.ways, List.mem_map, List.mem_reverse]

lemma mem_ways_boundary : t ∈ Expr.boundary.ways s ↔ s.isBoundary ∧ t = s := by
  rw [Expr.ways]
  split <;> simp_all

lemma mem_ways_finish : t ∈ Expr.finish.ways s ↔ (s.rest = [] ∨ s.rest = ['\n']) ∧ t = s := by
  rw [Expr.ways]
  split <;> simp_all

lemma mem_ways_either {first second : Expr} :
    t ∈ (Expr.either first second).ways s ↔ t ∈ first.ways s ∨ t ∈ second.ways s :=
  List.mem_append

lemma mem_ways_nil : t ∈ (Expr.all []).ways s ↔ t = s :=
  List.mem_singleton

lemma mem_ways_cons {e : Expr} {es : List Expr} :
    t ∈ (Expr.all (e :: es)).ways s ↔ ∃ m ∈ e.ways s, t ∈ (Expr.all es).ways m :=
  List.mem_flatMap

/-- A group around a marker keeps the letters and the `!` that is passed with them; which one is
passed may depend on what stands behind. -/
lemma mem_ways_group {e : Expr} (Bang : List Char → List Char → Prop)
    (hways : ∀ p, p ∈ e.ways s ↔
      ∃ m bang, IsLetters m ∧ Bang bang p.rest ∧ s.Passes (m ++ bang) p) :
    t ∈ (Expr.group e).ways s ↔
      ∃ m bang, IsLetters m ∧ Bang bang t.rest ∧ s.Groups (m ++ bang) t := by
  rw [Expr.ways, List.mem_map]
  constructor
  · rintro ⟨p, hp, rfl⟩
    obtain ⟨m, bang, hm, hbang, h⟩ := (hways p).1 hp
    refine ⟨m, bang, hm, hbang, h.rest, h.before, ?_, rfl⟩
    rw [h.rest, List.length_append, Nat.add_sub_cancel, List.take_left]
  · rintro ⟨m, bang, hm, hbang, h⟩
    refine ⟨{ t with group := s.group, behind := s.behind },
      (hways _).2 ⟨m, bang, hm, hbang, h.rest, h.before, rfl, rfl⟩, ?_⟩
    obtain ⟨before, rest, group, behind⟩ := t
    obtain ⟨hrest, hbefore, hgroup, hbehind⟩ := h
    dsimp only at hrest hbefore hgroup hbehind ⊢
    rw [hrest, List.length_append, Nat.add_sub_cancel, List.take_left, hgroup,
      hbehind]

lemma mem_ways_nothing : t ∈ Expr.nothing.ways s ↔ t = s :=
  List.mem_singleton

lemma mem_ways_sign : t ∈ signExpr.ways s ↔ ∃ x ∈ signs, s.Passes x t := by
  have hhash (c : Char) : letter '#' c ↔ c = '#' := letter_iff_eq (by decide) (by decide) c
  have hslash (c : Char) : letter '/' c ↔ c = '/' := letter_iff_eq (by decide) (by decide) c
  have hdash (c : Char) : letter '-' c ↔ c = '-' := letter_iff_eq (by decide) (by decide) c
  have htwice (c : Char) : s.Passes [c, c] t ↔ ∃ m, s.Passes [c] m ∧ m.Passes [c] t :=
    Place.Passes.append_iff (x := [c]) (y := [c])
  simp only [signExpr, mem_ways_either, mem_ways_cons, mem_ways_nil, mem_ways_one, hhash, hslash,
    hdash, signs, List.mem_cons, List.not_mem_nil, or_false, exists_eq_or_imp, exists_eq_left,
    exists_eq_right', htwice]

end Ways

/-! ## Ways are splits -/

/-- Between two characters a boundary is where exactly one of them is of a word. -/
lemma isBoundary_iff {s : Place} {c d : Char} {before rest : List Char}
    (hbefore : s.before = c :: before) (hrest : s.rest = d :: rest) :
    s.isBoundary ↔ (Text.isWord c ↔ ¬ Text.isWord d) := by
  rw [Place.isBoundary, hbefore, hrest, List.head?_cons, List.head?_cons]
  cases hc : Text.isWord c <;> cases hd : Text.isWord d <;> simp [hc, hd]

/-- The marker at the back is the letters, and `!` if it is there. -/
lemma mem_ways_trailingMarker {s t : Place} :
    t ∈ trailingMarker.ways s ↔
      ∃ m bang, IsLetters m ∧ (bang = ['!'] ∨ bang = []) ∧ s.Passes (m ++ bang) t := by
  have hbang (c : Char) : letter '!' c ↔ c = '!' := letter_iff_eq (by decide) (by decide) c
  simp only [trailingMarker, mem_ways_cons, mem_ways_nil, mem_ways_one, mem_ways_either,
    mem_ways_nothing, letter_a_iff, letter_i_iff, hbang, isLetters_iff]
  constructor
  · rintro ⟨p, ⟨a, ha, h₁⟩, q, ⟨i, hi, h₂⟩, r, ⟨c, rfl, h₃⟩ | rfl, rfl⟩
    · exact ⟨[a, i], ['!'], ⟨a, i, rfl, ha, hi⟩, Or.inl rfl, (h₁.trans h₂).trans h₃⟩
    · exact ⟨[a, i], [], ⟨a, i, rfl, ha, hi⟩, Or.inr rfl, h₁.trans h₂⟩
  · rintro ⟨m, bang, ⟨a, i, rfl, ha, hi⟩, hb, h⟩
    obtain ⟨q, h', h₃⟩ := Place.Passes.append_iff.1 h
    obtain ⟨p, h₁, h₂⟩ := (Place.Passes.append_iff (x := [a]) (y := [i])).1 h'
    refine ⟨p, ⟨a, ha, h₁⟩, q, ⟨i, hi, h₂⟩, t, ?_, rfl⟩
    rcases hb with rfl | rfl
    · exact Or.inl ⟨'!', rfl, h₃⟩
    · exact Or.inr (Place.Passes.nil_iff.1 h₃)

/-- The marker at the front is the letters and `!`, or the letters where a word ends. -/
lemma mem_ways_leadingMarker {s t : Place} :
    t ∈ leadingMarker.ways s ↔
      ∃ m bang, IsLetters m ∧ (bang = ['!'] ∨ bang = [] ∧ ¬ t.rest.head?.any Text.isWord) ∧
        s.Passes (m ++ bang) t := by
  have hbang (c : Char) : letter '!' c ↔ c = '!' := letter_iff_eq (by decide) (by decide) c
  simp only [leadingMarker, mem_ways_cons, mem_ways_nil, mem_ways_one, mem_ways_either,
    mem_ways_boundary, letter_a_iff, letter_i_iff, hbang, isLetters_iff]
  -- behind the letters a boundary is where no character of a word follows
  have hboundary {q r : Place} {i : Char} (hi : isSecondLetter i) (h : q.Passes [i] r) :
      r.isBoundary ↔ ¬ r.rest.head?.any Text.isWord := by
    rw [Place.isBoundary, h.before]
    simp [isWord_of_isSecondLetter hi]
  constructor
  · rintro (⟨p, ⟨a, ha, h₁⟩, q, ⟨i, hi, h₂⟩, r, ⟨c, rfl, h₃⟩, rfl⟩ |
      ⟨p, ⟨a, ha, h₁⟩, q, ⟨i, hi, h₂⟩, r, ⟨hend, rfl⟩, rfl⟩)
    · exact ⟨[a, i], ['!'], ⟨a, i, rfl, ha, hi⟩, Or.inl rfl, (h₁.trans h₂).trans h₃⟩
    · exact ⟨[a, i], [], ⟨a, i, rfl, ha, hi⟩, Or.inr ⟨rfl, (hboundary hi h₂).1 hend⟩,
        h₁.trans h₂⟩
  · rintro ⟨m, bang, ⟨a, i, rfl, ha, hi⟩, hb, h⟩
    obtain ⟨q, h', h₃⟩ := Place.Passes.append_iff.1 h
    obtain ⟨p, h₁, h₂⟩ := (Place.Passes.append_iff (x := [a]) (y := [i])).1 h'
    rcases hb with rfl | ⟨rfl, hend⟩
    · exact Or.inl ⟨p, ⟨a, ha, h₁⟩, q, ⟨i, hi, h₂⟩, t, ⟨'!', rfl, h₃⟩, rfl⟩
    · obtain rfl := Place.Passes.nil_iff.1 h₃
      exact Or.inr ⟨p, ⟨a, ha, h₁⟩, t, ⟨i, hi, h₂⟩, t, ⟨(hboundary hi h₂).2 hend, rfl⟩, rfl⟩

lemma mem_ways_group_trailingMarker {s t : Place} :
    t ∈ (Expr.group trailingMarker).ways s ↔
      ∃ m bang, IsLetters m ∧ (bang = ['!'] ∨ bang = []) ∧ s.Groups (m ++ bang) t :=
  mem_ways_group (fun bang _ => bang = ['!'] ∨ bang = []) fun _ => mem_ways_trailingMarker

lemma mem_ways_group_leadingMarker {s t : Place} :
    t ∈ (Expr.group leadingMarker).ways s ↔
      ∃ m bang, IsLetters m ∧ (bang = ['!'] ∨ bang = [] ∧ ¬ t.rest.head?.any Text.isWord) ∧
        s.Groups (m ++ bang) t :=
  mem_ways_group (fun bang rest => bang = ['!'] ∨ bang = [] ∧ ¬ rest.head?.any Text.isWord)
    fun _ => mem_ways_leadingMarker

/-- The marker calls when `!` is the first character behind its letters. -/
lemma calls_iff {s : Place} {m bang : List Char} (hm : IsLetters m)
    (hbang : bang = ['!'] ∨ bang = []) (hgroup : s.group = m ++ bang) :
    s.calls ↔ (bang ++ s.behind).head? = some '!' := by
  obtain ⟨a, i, rfl, -, hi⟩ := (isLetters_iff m).1 hm
  have hsecond : i ≠ '!' := by
    rintro rfl
    exact absurd hi (by decide)
  rcases hbang with rfl | rfl
  · simp [Place.calls, hgroup]
  · simp [Place.calls, hgroup, hsecond]

/-- **A way through the trailing pattern** is a split with the marker at the back, and tells whether
`!` follows it. -/
lemma trails_of_way {text : List Char} {t : Place} (h : t ∈ trailingPattern.ways { rest := text }) :
    ∃ sign ∈ signs, ∃ body closing, text = sign ++ body ∧ Trails body closing ∧
      (t.calls ↔ closing.head? = some '!') := by
  simp only [trailingPattern, mem_ways_cons, mem_ways_nil, mem_ways_sign, mem_ways_few,
    mem_ways_many, mem_ways_one, mem_ways_boundary, mem_ways_finish, closes_iff,
    mem_ways_group_trailingMarker] at h
  obtain ⟨p₀, ⟨sign, hsign, h₀⟩, p₁, ⟨blanks, -, h₁⟩, p₂, ⟨c, -, h₂⟩, p₃, ⟨more, -, h₃⟩,
    _, ⟨gap, -, h₄⟩, p₄, ⟨hboundary, rfl⟩, p₅, ⟨m, bang, hm, hbang, h₅⟩, p₆,
    ⟨closings, hclosings, h₆⟩, _, ⟨hfinish, rfl⟩, rfl⟩ := h
  have hpassed := ((h₁.trans h₂).trans h₃).trans h₄
  -- the text in front of the marker is not empty
  obtain ⟨front, d, hfront⟩ : ∃ front d, blanks ++ [c] ++ more ++ gap = front ++ [d] :=
    (List.eq_nil_or_concat' _).resolve_left (by simp)
  rw [hfront] at hpassed
  have hword : ¬ Text.isWord d := by
    obtain ⟨a, i, rfl, ha, -⟩ := (isLetters_iff m).1 hm
    have hbefore : p₄.before = d :: (front.reverse ++ p₀.before) := by
      rw [hpassed.before]
      simp
    have hrest : p₄.rest = a :: i :: (bang ++ p₅.rest) := h₅.rest
    rw [isBoundary_iff hbefore hrest] at hboundary
    simp [hboundary, isWord_of_isFirstLetter ha]
  refine ⟨sign, hsign, _, bang ++ p₅.rest, ?_, ⟨front, d, m, rfl, hword, hm, ?_⟩, ?_⟩
  · have htext : text = sign ++ p₀.rest := h₀.rest
    rw [htext, hpassed.rest, h₅.rest]
    simp
  · rw [h₆.rest]
    have hbang' : ∀ e ∈ bang, Closes e := by
      rcases hbang with rfl | rfl <;> simp [Closes]
    have hfinish' : ∀ e ∈ t.rest, Closes e := by
      rcases hfinish with h | h <;> rw [h] <;> simp [Closes, Text.isBlank]
    simp only [List.forall_mem_append]
    exact ⟨hbang', hclosings, hfinish'⟩
  · rw [calls_iff hm hbang (h₆.group.trans h₅.group), h₆.behind, h₅.behind]

/-- **A way through the leading pattern** is a split with the marker at the front, and tells whether
`!` follows it. -/
lemma leads_of_way {text : List Char} {t : Place} (h : t ∈ leadingPattern.ways { rest := text }) :
    ∃ sign ∈ signs, ∃ body rest, text = sign ++ body ∧ Leads body rest ∧
      (t.calls ↔ rest.head? = some '!') := by
  simp only [leadingPattern, mem_ways_cons, mem_ways_nil, mem_ways_sign, mem_ways_many,
    mem_ways_one, mem_ways_finish, mem_ways_group_leadingMarker, blank_iff] at h
  obtain ⟨p₀, ⟨sign, hsign, h₀⟩, p₁, ⟨blanks, hblanks, h₁⟩, p₂, ⟨m, bang, hm, hbang, h₂⟩,
    p₃, ⟨pauses, -, h₃⟩, p₄, ⟨c, -, h₄⟩, p₅, ⟨more, -, h₅⟩, _, ⟨-, rfl⟩, rfl⟩ := h
  have hrest : p₂.rest = pauses ++ [c] ++ more ++ t.rest := ((h₃.trans h₄).trans h₅).rest
  refine ⟨sign, hsign, _, bang ++ p₂.rest, ?_, ⟨blanks, m, rfl, hblanks, hm, ?_⟩, ?_⟩
  · have htext : text = sign ++ p₀.rest := h₀.rest
    rw [htext, h₁.rest, h₂.rest]
    simp
  · rcases hbang with rfl | ⟨rfl, hend⟩
    · exact ⟨'!', p₂.rest, rfl, by decide⟩
    · obtain ⟨d, ds, hd⟩ := List.exists_cons_of_ne_nil (l := p₂.rest) (by simp [hrest])
      rw [hd, List.head?_cons, Option.any_some] at hend
      exact ⟨d, ds, hd, hend⟩
  · have hgroup : t.group = m ++ bang :=
      (h₅.group.trans (h₄.group.trans h₃.group)).trans h₂.group
    rw [calls_iff hm (hbang.imp id And.left) hgroup, h₅.behind, h₄.behind, h₃.behind, h₂.behind]

/-! ## Splits are ways -/

lemma ordinary_of_oneLine {cs : List Char} (oneLine : '\n' ∉ cs) : ∀ c ∈ cs, ordinary c := by
  intro c hc
  rw [ordinary, bne_iff_ne]
  rintro rfl
  exact oneLine hc

section OneLine

variable {sign body : List Char} (hsign : sign ∈ signs) (oneLine : '\n' ∉ body)
include hsign oneLine

lemma exists_way_of_trails {closing : List Char} (h : Trails body closing) :
    ∃ t, t ∈ trailingPattern.ways { rest := sign ++ body } := by
  obtain ⟨text, c, m, rfl, hc, hm, hclosing⟩ := h
  obtain ⟨first, more, hfront⟩ := List.exists_cons_of_ne_nil (l := text ++ [c]) (by simp)
  have hline : '\n' ∉ first :: more := fun hmem =>
    oneLine (List.mem_append_left _ (List.mem_append_left m (hfront ▸ hmem)))
  obtain ⟨hfirst, hmore⟩ := List.forall_mem_cons.1 (ordinary_of_oneLine hline)
  -- the text in front of the marker, from its first character on, is what `.+?` takes
  obtain ⟨p₀, h₀, hrest₀⟩ := Place.Passes.exists_of_rest
    (s := { rest := sign ++ (text ++ [c] ++ m ++ closing) }) rfl
  rw [hfront, List.append_assoc, List.cons_append, ← List.singleton_append] at hrest₀
  obtain ⟨p₁, h₁, hrest₁⟩ := Place.Passes.exists_of_rest hrest₀
  obtain ⟨p₂, h₂, hrest₂⟩ := Place.Passes.exists_of_rest hrest₁
  obtain ⟨p₃, h₃, hrest₃⟩ := Place.Groups.exists_of_rest hrest₂
  obtain ⟨p₄, h₄, hrest₄⟩ := Place.Passes.exists_of_rest (hrest₃.trans (List.append_nil _).symm)
  have hboundary : p₂.isBoundary := by
    obtain ⟨a, i, rfl, ha, -⟩ := (isLetters_iff m).1 hm
    have hpassed : p₀.Passes (text ++ [c]) p₂ := hfront ▸ h₁.trans h₂
    have hbefore : p₂.before = c :: (text.reverse ++ p₀.before) := by
      rw [hpassed.before]
      simp
    rw [isBoundary_iff hbefore hrest₂]
    simp [hc, isWord_of_isFirstLetter ha]
  refine ⟨p₄, ?_⟩
  simp only [trailingPattern, mem_ways_cons, mem_ways_nil, mem_ways_sign, mem_ways_few,
    mem_ways_many, mem_ways_one, mem_ways_boundary, mem_ways_finish, closes_iff,
    mem_ways_group_trailingMarker]
  exact ⟨p₀, ⟨sign, hsign, h₀⟩, p₀, ⟨[], nofun, .nil p₀⟩, p₁, ⟨first, hfirst, h₁⟩,
    p₂, ⟨more, hmore, h₂⟩, p₂, ⟨[], nofun, .nil p₂⟩, p₂, ⟨hboundary, rfl⟩,
    p₃, ⟨m, [], hm, Or.inr rfl, (List.append_nil m).symm ▸ h₃⟩, p₄, ⟨closing, hclosing, h₄⟩,
    p₄, ⟨Or.inl hrest₄, rfl⟩, rfl⟩

lemma exists_way_of_leads {rest : List Char} (h : Leads body rest) :
    ∃ t, t ∈ leadingPattern.ways { rest := sign ++ body } := by
  obtain ⟨blanks, m, rfl, hblanks, hm, c, cs, rfl, hc⟩ := h
  have hline : '\n' ∉ c :: cs := fun hmem => oneLine (List.mem_append_right (blanks ++ m) hmem)
  obtain ⟨hfirst, hmore⟩ := List.forall_mem_cons.1 (ordinary_of_oneLine hline)
  obtain ⟨p₀, h₀, hrest₀⟩ := Place.Passes.exists_of_rest
    (s := { rest := sign ++ (blanks ++ m ++ c :: cs) }) rfl
  rw [List.append_assoc] at hrest₀
  obtain ⟨p₁, h₁, hrest₁⟩ := Place.Passes.exists_of_rest hrest₀
  obtain ⟨p₂, h₂, hrest₂⟩ := Place.Groups.exists_of_rest hrest₁
  obtain ⟨p₃, h₃, hrest₃⟩ := Place.Passes.exists_of_rest
    (hrest₂.trans (List.singleton_append (x := c) (l := cs)).symm)
  obtain ⟨p₄, h₄, hrest₄⟩ := Place.Passes.exists_of_rest (hrest₃.trans (List.append_nil _).symm)
  have hend : ¬ p₂.rest.head?.any Text.isWord := by
    rw [hrest₂, List.head?_cons, Option.any_some]
    exact hc
  refine ⟨p₄, ?_⟩
  simp only [leadingPattern, mem_ways_cons, mem_ways_nil, mem_ways_sign, mem_ways_many,
    mem_ways_one, mem_ways_finish, mem_ways_group_leadingMarker, blank_iff]
  exact ⟨p₀, ⟨sign, hsign, h₀⟩, p₁, ⟨blanks, hblanks, h₁⟩,
    p₂, ⟨m, [], hm, Or.inr ⟨rfl, hend⟩, (List.append_nil m).symm ▸ h₂⟩,
    p₂, ⟨[], nofun, .nil p₂⟩, p₃, ⟨c, hfirst, h₃⟩, p₄, ⟨cs, hmore, h₄⟩,
    p₄, ⟨Or.inl hrest₄, rfl⟩, rfl⟩

end OneLine

/-! ## The first match -/

/-- What a match asks for. -/
def Place.marker (s : Place) : Marker :=
  if s.calls then .trigger else .collect

/-- Of two matches the trigger wins. -/
lemma ofPatterns?_eq_join (line : String) :
    ofPatterns? line =
      join ((firstMatch? leadingPattern (Text.trim line.toList)).map Place.marker)
        ((firstMatch? trailingPattern (Text.trim line.toList)).map Place.marker) := by
  simp only [ofPatterns?, List.filterMap_cons, List.filterMap_nil]
  generalize firstMatch? trailingPattern (Text.trim line.toList) = t
  generalize firstMatch? leadingPattern (Text.trim line.toList) = s
  rcases s with _ | s <;> rcases t with _ | t
  · rfl
  · cases ht : t.calls <;> simp [ofMatches?, join, Place.marker, ht]
  · cases hs : s.calls <;> simp [ofMatches?, join, Place.marker, hs]
  · cases hs : s.calls <;> cases ht : t.calls <;> simp [ofMatches?, join, Place.marker, hs, ht]

lemma mem_ways_of_firstMatch? {e : Expr} {text : List Char} {t : Place}
    (h : firstMatch? e text = some t) : t ∈ e.ways { rest := text } :=
  List.mem_of_mem_head? h

lemma firstMatch?_ne_none {e : Expr} {text : List Char} {t : Place}
    (h : t ∈ e.ways { rest := text }) : firstMatch? e text ≠ none := by
  rw [firstMatch?, Ne, List.head?_eq_none_iff]
  exact List.ne_nil_of_mem h

section Matches

variable {line : String} {body : List Char} (hbody : HasBody line body) (oneLine : '\n' ∉ body)
include hbody oneLine

/-- The leading pattern reads what is read off the front. -/
lemma firstMatch?_leadingPattern :
    (firstMatch? leadingPattern (Text.trim line.toList)).map Place.marker = leading? body := by
  obtain ⟨sign, hsign, htrim⟩ := id hbody
  cases hmatch : firstMatch? leadingPattern (Text.trim line.toList) with
  | none =>
      by_contra hleading
      obtain ⟨rest, h⟩ := exists_leads oneLine (Ne.symm hleading)
      obtain ⟨t, ht⟩ := exists_way_of_leads hsign oneLine h
      exact firstMatch?_ne_none (htrim ▸ ht) hmatch
  | some t =>
      obtain ⟨sign', hsign', body', rest, htrim', h, hcalls⟩ :=
        leads_of_way (mem_ways_of_firstMatch? hmatch)
      obtain rfl := hbody.unique ⟨sign', hsign', htrim'⟩
      obtain ⟨-, -, -, -, -, c, cs, rfl, -⟩ := id h
      rw [leading?_of_leads h oneLine, Option.map_some, Place.marker]
      simp [hcalls, apply_ite some]

/-- The trailing pattern reads what is read off the back. -/
lemma firstMatch?_trailingPattern :
    (firstMatch? trailingPattern (Text.trim line.toList)).map Place.marker = trailing? body := by
  obtain ⟨sign, hsign, htrim⟩ := id hbody
  cases hmatch : firstMatch? trailingPattern (Text.trim line.toList) with
  | none =>
      by_contra htrailing
      obtain ⟨closing, h⟩ := exists_trails (Ne.symm htrailing)
      obtain ⟨t, ht⟩ := exists_way_of_trails hsign oneLine h
      exact firstMatch?_ne_none (htrim ▸ ht) hmatch
  | some t =>
      obtain ⟨sign', hsign', body', closing, htrim', h, hcalls⟩ :=
        trails_of_way (mem_ways_of_firstMatch? hmatch)
      obtain rfl := hbody.unique ⟨sign', hsign', htrim'⟩
      rw [trailing?_of_trails h oneLine, Option.map_some, Place.marker]
      simp [hcalls, apply_ite some]

end Matches

/-- The two patterns mark the lines that are marked when read from both ends. -/
lemma ofPatterns?_eq_ofLine? {line : String} (oneLine : '\n' ∉ line.toList) :
    ofPatterns? line = ofLine? line := by
  rw [ofPatterns?_eq_join]
  rcases ofLine?_cases line with ⟨hnone, hline⟩ | ⟨body, hbody, hline⟩
  · have hleading : firstMatch? leadingPattern (Text.trim line.toList) = none := by
      by_contra hsome
      obtain ⟨t, ht⟩ := Option.ne_none_iff_exists'.1 hsome
      obtain ⟨sign, hsign, body, -, htrim, -⟩ := leads_of_way (mem_ways_of_firstMatch? ht)
      exact hnone body ⟨sign, hsign, htrim⟩
    have htrailing : firstMatch? trailingPattern (Text.trim line.toList) = none := by
      by_contra hsome
      obtain ⟨t, ht⟩ := Option.ne_none_iff_exists'.1 hsome
      obtain ⟨sign, hsign, body, -, htrim, -⟩ := trails_of_way (mem_ways_of_firstMatch? ht)
      exact hnone body ⟨sign, hsign, htrim⟩
    rw [hleading, htrailing, hline]
    rfl
  · have hoff := hbody.oneLine oneLine
    rw [firstMatch?_leadingPattern hbody hoff, firstMatch?_trailingPattern hbody hoff, hline]

/-- **The grammar of marked lines.**  A line without a line feed is marked exactly when it is a
comment whose body has a marker at the front or at the back, and it is a trigger exactly when `!`
follows such a marker.  The two patterns say the same. -/
theorem ofLine?_grammar {line : String} (oneLine : '\n' ∉ line.toList) :
    (ofLine? line ≠ none ↔
      ∃ body, HasBody line body ∧ ((∃ rest, Leads body rest) ∨ ∃ closing, Trails body closing)) ∧
    (ofLine? line = some .trigger ↔
      ∃ body, HasBody line body ∧
        ((∃ rest, Leads body ('!' :: rest)) ∨ ∃ closing, Trails body ('!' :: closing))) ∧
    ofPatterns? line = ofLine? line :=
  ⟨ofLine?_ne_none_iff oneLine, ofLine?_eq_trigger_iff oneLine, ofPatterns?_eq_ofLine? oneLine⟩

/-- Markers at both ends: the one at the front only collects, the one at the back calls. -/
theorem ofLine?_grammar_of_both_ends :
    '\n' ∉ "-- AI: tidy up, aI!?".toList ∧ ofLine? "-- AI: tidy up, aI!?" = some .trigger ∧
    (∃ body, HasBody "-- AI: tidy up, aI!?" body ∧
      ((∃ rest, Leads body ('!' :: rest)) ∨ ∃ closing, Trails body ('!' :: closing))) ∧
    ofPatterns? "-- AI: tidy up, aI!?" = some .trigger := by
  have oneLine : '\n' ∉ "-- AI: tidy up, aI!?".toList := by decide
  have hline : ofLine? "-- AI: tidy up, aI!?" = some .trigger := by decide
  obtain ⟨-, htrigger, hpatterns⟩ := ofLine?_grammar oneLine
  exact ⟨oneLine, hline, htrigger.1 hline, hpatterns.trans hline⟩

end Marginalia.Marker
