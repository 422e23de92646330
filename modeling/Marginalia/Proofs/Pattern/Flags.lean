import Marginalia.Pattern.Reader
import Mathlib

/-!
# What flags do to a pattern

A source with other flags is found in other texts.  Letters in either case, lines with ends of their
own and a line feed like any other character let an expression match in more texts; but a set that
is negated and a negated look at what is near turn this round, and the characters of ASCII alone are
more or fewer depending on where they are asked for.  `Expr.Grows` keeps track of it along an
expression, and `isFoundIn_of_grows` says that a pattern is then found wherever it is found with the
other flags.  Where nothing is negated an expression grows with the first three flags
(`Expr.grows_of_isPlain`).  The flags that a pattern has in the end grow with those that it is given
(`flags_within_of_compile`).

Behind it is that the places from which a route leads somewhere grow with those that it leads to.
The repetitions make this a matter of iteration: `IsAdditive` steps take unions to unions, so that
only the newest places need another step (`reachBack_eq`), and `additive_starts` says that every
route is such a step.
-/

namespace Marginalia

namespace Pattern

/-! ## Sets of places -/

/-- All places of the first set are in the second. -/
def Inside (a b : Places) : Prop :=
  ∀ i, a.testBit i = true → b.testBit i = true

namespace Inside

variable {a b c d : Places}

lemma refl (a : Places) : Inside a a := fun _ h => h

lemma trans (h : Inside a b) (k : Inside b c) : Inside a c := fun i hi => k i (h i hi)

lemma or (h : Inside a c) (k : Inside b d) : Inside (a ||| b) (c ||| d) := by
  intro i hi
  rw [Nat.testBit_or, Bool.or_eq_true] at hi ⊢
  exact hi.imp (h i) (k i)

lemma or_left (h : Inside a c) (k : Inside b c) : Inside (a ||| b) c := by
  rw [← Nat.or_self c]
  exact h.or k

lemma and (h : Inside a c) (k : Inside b d) : Inside (a &&& b) (c &&& d) := by
  intro i hi
  rw [Nat.testBit_and, Bool.and_eq_true] at hi ⊢
  exact ⟨h i hi.1, k i hi.2⟩

lemma and_left (h : Inside a c) (b : Places) : Inside (a &&& b) c := by
  intro i hi
  rw [Nat.testBit_and, Bool.and_eq_true] at hi
  exact h i hi.1

lemma shiftLeft (h : Inside a b) (n : Nat) : Inside (a <<< n) (b <<< n) := by
  intro i hi
  rw [Nat.testBit_shiftLeft, Bool.and_eq_true] at hi ⊢
  exact ⟨hi.1, h _ hi.2⟩

lemma or_eq (h : Inside a b) : a ||| b = b := by
  apply Nat.eq_of_testBit_eq
  intro i
  rw [Nat.testBit_or]
  cases ha : a.testBit i with
  | false => rfl
  | true => rw [h i ha]; rfl

/-- A set around one that is not empty is not empty. -/
lemma ne_zero (h : Inside a b) (ha : a ≠ 0) : b ≠ 0 := by
  rintro rfl
  apply ha
  apply Nat.eq_of_testBit_eq
  intro i
  cases hi : a.testBit i with
  | false => exact (Nat.zero_testBit i).symm
  | true => exact (h i hi).symm

end Inside

lemma testBit_allPlaces (size i : Nat) : (allPlaces size).testBit i = decide (i ≤ size) := by
  rw [allPlaces, Nat.one_shiftLeft, Nat.testBit_two_pow_sub_one]
  exact decide_eq_decide.2 Nat.lt_succ_iff

/-- What the larger set leaves out the smaller one leaves out, too. -/
lemma Inside.others {a b : Places} {size : Nat} (h : Inside a b) (hb : Inside b (allPlaces size)) :
    Inside (b ^^^ allPlaces size) (a ^^^ allPlaces size) := by
  intro i hi
  rw [Nat.testBit_xor] at hi ⊢
  have hab := h i
  have hall := hb i
  revert hi hab hall
  cases a.testBit i <;> cases b.testBit i <;> cases (allPlaces size).testBit i <;> simp

lemma testBit_placesWhere (holds : Nat → Bool) (first n i : Nat) :
    (placesWhere holds first n).testBit i = (decide (i < n) && holds (first + i)) := by
  induction n generalizing first i with
  | zero => simp [placesWhere]
  | succ n ih =>
      cases i with
      | zero =>
          have hparity (x : Nat) : (2 * x + if holds first then 1 else 0) % 2 =
              if holds first then 1 else 0 := by
            split <;> omega
          rw [placesWhere, Nat.testBit_zero, hparity, Nat.add_zero]
          cases holds first <;> simp
      | succ i =>
          have hhalf (x : Nat) : (2 * x + if holds first then 1 else 0) / 2 = x := by
            split <;> omega
          rw [placesWhere, Nat.testBit_succ, hhalf, ih]
          have hplace : first + 1 + i = first + (i + 1) := by omega
          rw [hplace]
          congr 1
          exact decide_eq_decide.2 (by omega)

lemma inside_placesWhere {holds more : Nat → Bool} (h : ∀ i, holds i = true → more i = true)
    (first n : Nat) : Inside (placesWhere holds first n) (placesWhere more first n) := by
  intro i hi
  rw [testBit_placesWhere, Bool.and_eq_true] at hi ⊢
  exact ⟨hi.1, h _ hi.2⟩

/-! ## Steps that take unions to unions -/

/-- A step from some places to others goes from each of them on its own. -/
structure IsAdditive (step : Places → Places) : Prop where
  zero : step 0 = 0
  or (a b : Places) : step (a ||| b) = step a ||| step b

namespace IsAdditive

variable {step : Places → Places}

lemma inside (h : IsAdditive step) {a b : Places} (hab : Inside a b) :
    Inside (step a) (step b) := by
  intro i hi
  rw [← hab.or_eq, h.or, Nat.testBit_or, hi]
  rfl

lemma comp {first : Places → Places} (h : IsAdditive first) (k : IsAdditive step) :
    IsAdditive fun a => first (step a) where
  zero := by rw [k.zero, h.zero]
  or a b := by rw [k.or, h.or]

lemma union {other : Places → Places} (h : IsAdditive step) (k : IsAdditive other) :
    IsAdditive fun a => step a ||| other a where
  zero := by rw [h.zero, k.zero, Nat.or_self]
  or a b := by
    rw [h.or, k.or, Nat.or_assoc, Nat.or_assoc, Nat.or_left_comm (step b)]

lemma iterate (h : IsAdditive step) (n : Nat) : IsAdditive step^[n] := by
  induction n with
  | zero => exact ⟨rfl, fun _ _ => rfl⟩
  | succ n ih => exact ih.comp h

/-- Steps that start over at the same places again and again. -/
lemma iterate_restart (h : IsAdditive step) (n : Nat) :
    IsAdditive fun ends => (fun a => ends ||| step a)^[n] ends := by
  induction n with
  | zero => exact ⟨rfl, fun _ _ => rfl⟩
  | succ n ih =>
      have hid : IsAdditive fun a : Places => a := ⟨rfl, fun _ _ => rfl⟩
      simp only [Function.iterate_succ_apply']
      exact hid.union (h.comp ih)

end IsAdditive

lemma stepBack_eq {step : Places → Places} (h : IsAdditive step) (n : Nat) (places : Places) :
    stepBack step n places = step^[n] places := by
  induction n generalizing places with
  | zero => rfl
  | succ n ih =>
      rw [stepBack]
      split
      · rename_i hzero
        rw [hzero, (h.iterate _).zero]
      · exact ih (step places)

/-- **Only the newest places** need another step: those before have had theirs. -/
lemma reachBack_eq {step : Places → Places} (h : IsAdditive step) (ends : Places) (n : Nat)
    {known newest : Places} (hnewest : ends ||| step known = known ||| step newest) :
    reachBack step n known newest = (fun a => ends ||| step a)^[n] known := by
  induction n generalizing known newest with
  | zero => rfl
  | succ n ih =>
      rw [reachBack]
      split
      · -- Nothing new was reached, and nothing will be.
        rename_i hall
        have hfixed : (fun a => ends ||| step a) known = known := hnewest.trans hall
        exact (Function.iterate_fixed hfixed _).symm
      · have hparts : known ||| ((known ||| step newest) ^^^ known) = known ||| step newest := by
          apply Nat.eq_of_testBit_eq
          intro i
          simp only [Nat.testBit_or, Nat.testBit_xor]
          cases known.testBit i <;> cases (step newest).testBit i <;> rfl
        -- What is new now is what a step from all places adds to those known before.
        rw [ih, Function.iterate_succ_apply, hnewest]
        calc ends ||| step (known ||| step newest)
            = ends ||| (step known ||| step ((known ||| step newest) ^^^ known)) := by
              rw [← h.or, hparts]
          _ = known ||| step newest ||| step ((known ||| step newest) ^^^ known) := by
              rw [← Nat.or_assoc, hnewest]

/-- A repetition in numbers of steps that depend on its bounds alone. -/
lemma exists_starts_times (size least : Nat) (most : Option Nat) :
    ∃ n m, ∀ r : Route, IsAdditive (r.starts size) → ∀ ends,
      (Route.times least most r).starts size ends =
        (r.starts size)^[n] ((fun a => ends ||| r.starts size a)^[m] ends) := by
  refine ⟨min least (size + 1), most.elim (size + 1) fun m => min (m - least) (size + 1),
    fun r hr ends => ?_⟩
  simp only [Route.starts, stepBack_eq hr, reachBack_eq hr ends _ rfl]
  cases most <;> rfl

lemma additive_and (here : Places) : IsAdditive fun a : Places => a &&& here :=
  ⟨Nat.zero_and here, fun _ _ => Nat.and_or_distrib_right ..⟩

/-- What is near selects from the places, whether it is to be found there or not. -/
lemma additive_keep (size : Nat) (negated : Bool) (found : Places) :
    IsAdditive fun ends => Route.starts.keep size negated ends found := by
  cases negated
  · exact additive_and _
  · exact additive_and _

/-- **A route leads to a union** from where it leads to the parts. -/
theorem additive_starts (size : Nat) (r : Route) : IsAdditive (r.starts size) := by
  induction r with
  | stay here => exact additive_and here
  | pass here =>
      refine (additive_and here).comp ⟨Nat.zero_shiftRight 1, fun a b => ?_⟩
      exact Nat.shiftRight_or_distrib
  | seq first second ihfirst ihsecond => exact ihfirst.comp ihsecond
  | either first second ihfirst ihsecond => exact ihfirst.union ihsecond
  | times least most r ih =>
      obtain ⟨n, m, htimes⟩ := exists_starts_times size least most
      rw [funext (htimes r ih)]
      exact (ih.iterate n).comp (ih.iterate_restart m)
  | ahead negated r _ => exact additive_keep size negated _
  | behind negated width r _ => exact additive_keep size negated _

lemma inside_keep {size : Nat} {ends all : Places} (h : Inside ends all) (negated : Bool)
    (found : Places) : Inside (Route.starts.keep size negated ends found) all := by
  cases negated
  · exact h.and_left _
  · exact h.and_left _

/-- A route stays in the text. -/
theorem inside_starts {size : Nat} (r : Route) {ends : Places}
    (h : Inside ends (allPlaces size)) : Inside (r.starts size ends) (allPlaces size) := by
  induction r generalizing ends with
  | stay here => exact h.and_left here
  | pass here =>
      refine Inside.and_left (fun i hi => ?_) here
      rw [Nat.testBit_shiftRight] at hi
      have hplace := h _ hi
      rw [testBit_allPlaces, decide_eq_true_iff] at hplace ⊢
      omega
  | seq first second ihfirst ihsecond => exact ihfirst (ihsecond h)
  | either first second ihfirst ihsecond => exact (ihfirst h).or_left (ihsecond h)
  | times least most r ih =>
      obtain ⟨n, m, htimes⟩ := exists_starts_times size least most
      rw [htimes r (additive_starts size r)]
      have hreached : Inside ((fun a => ends ||| r.starts size a)^[m] ends) (allPlaces size) :=
        Function.Iterate.rec (Inside · (allPlaces size)) h (fun _ ha => h.or_left (ih ha)) m
      exact Function.Iterate.rec (Inside · (allPlaces size)) hreached (fun _ => ih) n
  | ahead negated r _ => exact inside_keep h negated _
  | behind negated width r _ => exact inside_keep h negated _

/-! ## Routes that lead from more places -/

/-- Steps from more places lead from more places after any number of them. -/
lemma inside_iterate {step step' : Places → Places} {all : Places}
    (hall : ∀ a, Inside a all → Inside (step a) all)
    (hstep : ∀ a b, Inside a all → Inside a b → Inside (step a) (step' b)) (n : Nat) {a b : Places}
    (ha : Inside a all) (hab : Inside a b) : Inside (step^[n] a) (step'^[n] b) := by
  induction n generalizing a b with
  | zero => exact hab
  | succ n ih => exact ih (hall a ha) (hstep a b ha hab)

/-- The second route leads from each place that the first one leads from. -/
def Route.Below (size : Nat) (r more : Route) : Prop :=
  ∀ ends, Inside ends (allPlaces size) → Inside (r.starts size ends) (more.starts size ends)

namespace Route.Below

variable {size : Nat} {r more first second first' second' : Route}

lemma refl (r : Route) : Below size r r := fun _ _ => Inside.refl _

lemma starts (h : Below size r more) {a b : Places} (ha : Inside a (allPlaces size))
    (hab : Inside a b) : Inside (r.starts size a) (more.starts size b) :=
  (h a ha).trans ((additive_starts size more).inside hab)

lemma stay {here there : Places} (h : Inside here there) :
    Below size (.stay here) (.stay there) :=
  fun _ _ => (Inside.refl _).and h

lemma pass {here there : Places} (h : Inside here there) :
    Below size (.pass here) (.pass there) :=
  fun _ _ => (Inside.refl _).and h

lemma seq (h : Below size first first') (k : Below size second second') :
    Below size (.seq first second) (.seq first' second') :=
  fun ends hends => h.starts (inside_starts second hends) (k ends hends)

lemma either (h : Below size first first') (k : Below size second second') :
    Below size (.either first second) (.either first' second') :=
  fun ends hends => (h ends hends).or (k ends hends)

lemma times (h : Below size r more) (least : Nat) (most : Option Nat) :
    Below size (.times least most r) (.times least most more) := by
  intro ends hends
  obtain ⟨n, m, htimes⟩ := exists_starts_times size least most
  rw [htimes r (additive_starts size r), htimes more (additive_starts size more)]
  have hinside (a : Places) (ha : Inside a (allPlaces size)) :
      Inside (ends ||| r.starts size a) (allPlaces size) := hends.or_left (inside_starts r ha)
  have hreached : Inside ((fun a => ends ||| r.starts size a)^[m] ends)
      ((fun a => ends ||| more.starts size a)^[m] ends) :=
    inside_iterate hinside (fun _ _ ha hab => (Inside.refl ends).or (h.starts ha hab)) m hends
      (Inside.refl ends)
  exact inside_iterate (fun _ => inside_starts r) (fun _ _ => h.starts) n
    (Function.Iterate.rec (Inside · (allPlaces size)) hends hinside m) hreached

lemma ahead (h : Below size r more) : Below size (.ahead false r) (.ahead false more) :=
  fun _ _ => (Inside.refl _).and (h _ (Inside.refl _))

/-- What must not follow holds a route back. -/
lemma notAhead (h : Below size more r) : Below size (.ahead true r) (.ahead true more) :=
  fun _ _ => (Inside.refl _).and
    ((h _ (Inside.refl _)).others (inside_starts r (Inside.refl _)))

/-- The places up to which the second route leads from somewhere. -/
lemma passed (h : Below size r more) (n : Nat) :
    Inside (r.starts size (allPlaces size) <<< n &&& allPlaces size)
      (more.starts size (allPlaces size) <<< n &&& allPlaces size) :=
  ((h _ (Inside.refl _)).shiftLeft n).and (Inside.refl _)

lemma behind (h : Below size r more) (width : Nat) :
    Below size (.behind false width r) (.behind false width more) :=
  fun _ _ => (Inside.refl _).and (h.passed _)

/-- What must not come before holds a route back. -/
lemma notBehind (h : Below size more r) (width : Nat) :
    Below size (.behind true width r) (.behind true width more) :=
  fun _ _ => (Inside.refl _).and ((h.passed _).others fun i hi => by
    rw [Nat.testBit_and, Bool.and_eq_true] at hi
    exact hi.2)

end Route.Below

/-! ## Letters and sets -/

lemma mem_kinOf (n : Nat) : n ∈ Text.kinOf n := by
  unfold Text.kinOf
  split
  · rename_i kin hkin
    have hmem := List.find?_some (p := fun kin : List Nat => kin.contains n) hkin
    exact List.contains_iff_mem.1 hmem
  · exact List.mem_singleton_self n

/-- No capital goes below nought. -/
lemma runs_nonneg : ∀ r ∈ Text.capitalRuns, 0 ≤ (r.first : Int) + r.shift := by
  decide +kernel

lemma mem_capitalsOf_smallForm (n : Nat) :
    n = Text.smallForm n ∨ n ∈ Text.capitalsOf (Text.smallForm n) := by
  unfold Text.smallForm
  split
  · split
    · rename_i hcapital
      rw [Bool.and_eq_true, decide_eq_true_iff, decide_eq_true_iff] at hcapital
      refine Or.inr (List.mem_append_left _ ?_)
      rw [if_pos (by simp; omega)]
      simp
    · exact Or.inl rfl
  · split
    · rename_i r hr
      have hmem := List.mem_of_find?_eq_some hr
      have hholds := List.find?_some (p := fun r : Text.CapitalRun => r.holds n) hr
      have hfirst : r.first ≤ n := by
        simp only [Text.CapitalRun.holds, Bool.and_eq_true, decide_eq_true_eq] at hholds
        exact hholds.1.1
      have hsmall : 0 ≤ (n : Int) + r.shift := by
        have hnonneg := runs_nonneg r hmem
        omega
      refine Or.inr (List.mem_append_right _ (List.mem_filterMap.2 ⟨r, hmem, ?_⟩))
      simp [Int.toNat_of_nonneg hsmall, hholds]
    · exact Or.inl rfl

lemma mem_letterForms (c : Char) : c.toNat ∈ Text.letterForms c := by
  refine List.mem_flatMap.2 ⟨_, mem_kinOf _, List.mem_cons.2 ?_⟩
  exact mem_capitalsOf_smallForm c.toNat

lemma mem_formsOf (f : Flags) (c : Char) : c.toNat ∈ formsOf f c := by
  unfold formsOf
  split
  · exact List.mem_singleton_self _
  · split
    · by_cases hupper : c.isUpper
      · rw [Char.toUpper_eq_of_not_isLower (Char.not_isLower_of_isUpper hupper)]
        exact List.mem_cons_of_mem _ (List.mem_singleton_self _)
      · rw [Char.toLower_eq_of_not_isUpper hupper]
        exact List.mem_cons_self
    · exact mem_letterForms c

/-! ## More flags -/

/-- The second flags ask for all that the first ones ask for. -/
structure Flags.Within (f g : Flags) : Prop where
  fold : f.fold = true → g.fold = true
  multiline : f.multiline = true → g.multiline = true
  dotAll : f.dotAll = true → g.dotAll = true
  verbose : f.verbose = true → g.verbose = true
  ascii : f.ascii = true → g.ascii = true

namespace Flags.Within

variable {f g h : Flags}

lemma refl (f : Flags) : f.Within f := ⟨id, id, id, id, id⟩

lemma trans (hfg : f.Within g) (hgh : g.Within h) : f.Within h :=
  ⟨hgh.fold ∘ hfg.fold, hgh.multiline ∘ hfg.multiline, hgh.dotAll ∘ hfg.dotAll,
    hgh.verbose ∘ hfg.verbose, hgh.ascii ∘ hfg.ascii⟩

lemma none (f : Flags) : Flags.Within {} f := ⟨nofun, nofun, nofun, nofun, nofun⟩

lemma or_left (f g : Flags) : f.Within (f.or g) := by
  constructor <;> exact fun hf => Bool.or_eq_true_iff.2 (Or.inl hf)

/-- The same flags come to both. -/
lemma or (hfg : f.Within g) (h : Flags) : (f.or h).Within (g.or h) := by
  have hsame {a b : Bool} (hab : a = true → b = true) (c : Bool) :
      (a || c) = true → (b || c) = true := by
    rw [Bool.or_eq_true, Bool.or_eq_true]
    exact Or.imp_left hab
  exact ⟨hsame hfg.fold _, hsame hfg.multiline _, hsame hfg.dotAll _, hsame hfg.verbose _,
    hsame hfg.ascii _⟩

/-- Both are changed alike. -/
lemma apply (hfg : f.Within g) (change : Change) : (change.apply f).Within (change.apply g) := by
  have hsame {a b : Bool} (hab : a = true → b = true) (add drop : Bool) :
      ((a || add) && !drop) = true → ((b || add) && !drop) = true := by
    rw [Bool.and_eq_true, Bool.and_eq_true, Bool.or_eq_true, Bool.or_eq_true]
    exact And.imp_left (Or.imp_left hab)
  exact ⟨hsame hfg.fold _ _, hsame hfg.multiline _ _, hsame hfg.dotAll _ _,
    hsame hfg.verbose _ _, hsame hfg.ascii _ _⟩

end Flags.Within

variable {f g : Flags}

namespace Item

/-- The item is a capital beyond the basic plane that is not the only member of its set: with
letters in either case it holds nothing. -/
def isBarren : Item → Bool
  | .small d => Text.smallForm d.toNat != d.toNat
  | _ => false

/-- What an item holds does not depend on the other flags. -/
lemma holds_congr (hfold : f.fold = g.fold) (hascii : f.ascii = g.ascii) (i : Item) (c : Char) :
    i.holds f c = i.holds g c := by
  cases i <;> simp only [holds, formsOf, hfold, hascii]

/-- **With letters in either case** an item holds what it holds without. -/
lemma holds_of_unfolded {i : Item} (h : i.isBarren = false) (hfold : f.fold = false)
    (hascii : f.ascii = g.ascii) {c : Char} (hc : i.holds f c = true) : i.holds g c = true := by
  cases i with
  | one d =>
      rw [holds, hfold] at hc
      obtain rfl : d = c := eq_of_beq hc
      rw [holds]
      split
      · exact beq_self_eq_true d
      · split
        · exact beq_self_eq_true _
        · exact List.contains_iff_mem.2 (mem_kinOf _)
  | small d =>
      rw [holds, hfold] at hc
      obtain rfl : d = c := eq_of_beq hc
      rw [holds]
      split
      · rw [isBarren, bne_eq_false_iff_eq] at h
        exact beq_iff_eq.2 h.symm
      · exact beq_self_eq_true d
  | range first last =>
      have hinside : (decide (first ≤ c.toNat) && decide (c.toNat ≤ last)) = true := by
        simpa [holds, formsOf, hfold] using hc
      exact List.any_eq_true.2 ⟨_, List.mem_append_left _ (mem_formsOf g c), hinside⟩
  | named kind negated =>
      rw [holds, hascii] at hc
      exact hc

/-- An item holds more with more flags, as long as the characters of ASCII are alone with both or
with neither. -/
lemma holds_mono {i : Item} (h : i.isBarren = false) (hfg : f.Within g)
    (hascii : f.ascii = g.ascii) {c : Char} (hc : i.holds f c = true) : i.holds g c = true := by
  cases hfold : f.fold with
  | false => exact holds_of_unfolded h hfold hascii hc
  | true =>
      rw [← holds_congr (hfold.trans (hfg.fold hfold).symm) hascii]
      exact hc

end Item

/-- A condition holds in more places with more flags. -/
lemma Anchor.holds_mono (hfg : f.Within g) (hascii : f.ascii = g.ascii) {a : Anchor}
    {text : Array Char} {i : Nat} (h : a.holds f text i = true) : a.holds g text i = true := by
  cases a with
  | textStart | textEnd => exact h
  | lineStart =>
      simp only [holds, Bool.or_eq_true, Bool.and_eq_true] at h ⊢
      exact h.imp_right (And.imp_left hfg.multiline)
  | lineEnd =>
      simp only [holds, Bool.or_eq_true, Bool.and_eq_true] at h ⊢
      exact h.imp_right (And.imp_left (Or.imp_left hfg.multiline))
  | wordBoundary | insideWord =>
      rw [holds, ← hascii]
      exact h

/-! ## Expressions -/

/-- The expression grows from the first flags to the second: with these it matches wherever it does
with those. -/
def Expr.Grows : Flags → Flags → Expr → Prop
  | _, _, .empty => True
  | f, g, .any => f.dotAll = true → g.dotAll = true
  | f, g, .oneOf negated items => ∀ c,
    (items.any (·.holds f c) != negated) = true → (items.any (·.holds g c) != negated) = true
  | f, g, .anchor a => ∀ text i, a.holds f text i = true → a.holds g text i = true
  | f, g, .seq first second | f, g, .either first second =>
    first.Grows f g ∧ second.Grows f g
  | f, g, .times _ _ e => e.Grows f g
  | f, g, .ahead negated e | f, g, .behind negated _ e =>
    bif negated then e.Grows g f else e.Grows f g
  | f, g, .under change e => e.Grows (change.apply f) (change.apply g)

/-- Nothing is negated in the expression, and no item is barren. -/
def Expr.isPlain : Expr → Bool
  | .empty | .any | .anchor _ => true
  | .oneOf negated items => !negated && items.all (!·.isBarren)
  | .seq first second | .either first second => first.isPlain && second.isPlain
  | .times _ _ e | .under _ e => e.isPlain
  | .ahead negated e | .behind negated _ e => !negated && e.isPlain

/-- **Where nothing is negated** an expression grows with the flags, if these do not differ in which
characters are letters, digits and blanks. -/
theorem Expr.grows_of_isPlain {e : Expr} (h : e.isPlain = true) (hfg : f.Within g)
    (hascii : f.ascii = g.ascii) : e.Grows f g := by
  induction e generalizing f g with
  | empty => trivial
  | any => exact hfg.dotAll
  | oneOf negated items =>
      rw [isPlain, Bool.and_eq_true, Bool.not_eq_true'] at h
      obtain ⟨rfl, hitems⟩ := h
      intro c hc
      rw [Bool.bne_false] at hc ⊢
      obtain ⟨i, hi, hholds⟩ := List.any_eq_true.1 hc
      have hbarren : i.isBarren = false := by
        simpa using List.all_eq_true.1 hitems i hi
      exact List.any_eq_true.2 ⟨i, hi, Item.holds_mono hbarren hfg hascii hholds⟩
  | anchor a => exact fun _ _ => Anchor.holds_mono hfg hascii
  | seq first second ihfirst ihsecond | either first second ihfirst ihsecond =>
      obtain ⟨hfirst, hsecond⟩ := Bool.and_eq_true_iff.1 h
      exact ⟨ihfirst hfirst hfg hascii, ihsecond hsecond hfg hascii⟩
  | times least most e ih => exact ih h hfg hascii
  | ahead negated e ih | behind negated _ e ih =>
      rw [isPlain, Bool.and_eq_true, Bool.not_eq_true'] at h
      obtain ⟨rfl, h⟩ := h
      exact ih h hfg hascii
  | under change e ih =>
      refine ih h (hfg.apply change) ?_
      rw [Change.apply, Change.apply, hascii]

example : (readSource "\\bbuild/.*$" {}).toOption.map Expr.isPlain = some true := by decide

lemma inside_characters {text : Array Char} {kind more : Char → Bool}
    (h : ∀ c, kind c = true → more c = true) :
    Inside (Expr.route.characters text kind) (Expr.route.characters text more) := by
  apply inside_placesWhere
  intro i hi
  cases hc : text[i]? with
  | none =>
      rw [hc] at hi
      cases hi
  | some c =>
      rw [hc] at hi
      exact h c hi

/-- **An expression that grows** leads from more places. -/
theorem below_route (text : Array Char) {e : Expr} (h : e.Grows f g) :
    Route.Below text.size (e.route text f) (e.route text g) := by
  induction e generalizing f g with
  | empty => exact Route.Below.refl _
  | any =>
      refine Route.Below.pass (inside_characters fun c hc => ?_)
      rw [Bool.or_eq_true] at hc ⊢
      exact hc.imp_left h
  | oneOf negated items => exact Route.Below.pass (inside_characters h)
  | anchor a => exact Route.Below.stay (inside_placesWhere (h text) 0 _)
  | seq first second ihfirst ihsecond => exact (ihfirst h.1).seq (ihsecond h.2)
  | either first second ihfirst ihsecond => exact (ihfirst h.1).either (ihsecond h.2)
  | times least most e ih => exact (ih h).times least most
  | ahead negated e ih =>
      -- What a negated look forbids has to grow the other way.
      cases negated
      · exact (ih h).ahead
      · exact (ih h).notAhead
  | behind negated width e ih =>
      cases negated
      · exact (ih h).behind width
      · exact (ih h).notBehind width
  | under change e ih => exact ih h

lemma Expr.isFoundIn_of_grows {e : Expr} (h : e.Grows f g) {text : String}
    (hf : e.isFoundIn f text = true) : e.isFoundIn g text = true := by
  unfold isFoundIn at hf ⊢
  rw [bne_iff_ne] at hf ⊢
  exact (below_route _ h _ (Inside.refl _)).ne_zero hf

/-! ## Patterns of one source -/

/-- How a source is read depends on one of the flags. -/
lemma readSource_congr (h : f.verbose = g.verbose) (source : String) :
    readSource source f = readSource source g := by
  unfold readSource
  rw [h]

/-- In a verbose source more may stand before everything else. -/
lemma headGroup?_of_not_verbose {ts rest : List Token} {group : FlagGroup}
    (h : headGroup? false ts = some (group, rest)) (verbose : Bool) :
    headGroup? verbose ts = some (group, rest) := by
  unfold headGroup? at h ⊢
  split at h
  · exact h
  · cases h
  · cases h

lemma within_headFlags (fuel : Nat) (f : Flags) (unicode : Bool) (ts : List Token) :
    f.Within (headFlags fuel f unicode ts).1 := by
  induction fuel generalizing f unicode ts with
  | zero => exact .refl f
  | succ fuel ih =>
      rw [headFlags]
      split
      · exact (Flags.Within.or_left f _).trans (ih _ _ _)
      · exact .refl f

/-- **More flags that are given** are more flags in the end. -/
lemma headFlags_mono (hfg : f.Within g) (fuel : Nat) (unicode : Bool) (ts : List Token) :
    (headFlags fuel f unicode ts).1.Within (headFlags fuel g unicode ts).1 := by
  induction fuel generalizing f g unicode ts with
  | zero => exact hfg
  | succ fuel ih =>
      cases hgroup : headGroup? f.verbose ts with
      | none =>
          -- The reading with fewer flags has come to its end, and the other one may go on.
          rw [headFlags, hgroup]
          exact hfg.trans (within_headFlags _ _ _ _)
      | some group =>
          have hsame : headGroup? g.verbose ts = some group := by
            cases hverbose : f.verbose with
            | false =>
                rw [hverbose] at hgroup
                exact headGroup?_of_not_verbose hgroup _
            | true => rw [hfg.verbose hverbose, ← hverbose, hgroup]
          rw [headFlags, headFlags, hgroup, hsame]
          exact ih (hfg.or _) _ _

/-- What comes of reading a source: the flags that the pattern has in the end, and what the source
says with them. -/
lemma of_compile {source : String} {given : Flags} {p : Pattern}
    (h : compile source given = .ok p) :
    p.source = source ∧
      p.flags = (headFlags ((tokens 0 source.toList).length + 1) given false
        (tokens 0 source.toList)).1 ∧
      ∃ e, readSource source p.flags = .ok e ∧ p.isFoundIn = e.isFoundIn p.flags := by
  unfold compile at h
  dsimp only at h
  split at h
  · cases h
  · rename_i e he
    split at h
    · cases h
    · cases h
      exact ⟨rfl, rfl, e, he, rfl⟩

/-- **A pattern has no more flags** than one of its source that was given more. -/
theorem flags_within_of_compile {source : String} {given given' : Flags} {p q : Pattern}
    (hp : compile source given = .ok p) (hq : compile source given' = .ok q)
    (hgiven : given.Within given') : p.flags.Within q.flags := by
  rw [(of_compile hp).2.1, (of_compile hq).2.1]
  exact headFlags_mono hgiven _ _ _

/-- **A pattern is found wherever another of its source is found**, if what the source says grows
from the flags of the other to its own. -/
theorem isFoundIn_of_grows {source : String} {given given' : Flags} {p q : Pattern}
    (hp : compile source given = .ok p) (hq : compile source given' = .ok q)
    (hverbose : p.flags.verbose = q.flags.verbose)
    (hgrows : ∀ e, readSource source p.flags = .ok e → e.Grows p.flags q.flags) {text : String}
    (hfound : p.isFoundIn text = true) : q.isFoundIn text = true := by
  obtain ⟨-, -, e, he, hpfound⟩ := of_compile hp
  obtain ⟨-, -, e', he', hqfound⟩ := of_compile hq
  rw [← readSource_congr hverbose, he] at he'
  obtain rfl := Except.ok.inj he'
  rw [hpfound] at hfound
  rw [hqfound]
  exact Expr.isFoundIn_of_grows (hgrows e he) hfound

end Pattern

end Marginalia
