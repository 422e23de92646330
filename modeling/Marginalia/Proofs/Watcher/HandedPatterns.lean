import Marginalia.Proofs.Ignore
import Marginalia.Proofs.Notifier.Opening
import Marginalia.Proofs.Pattern.Flags
import Marginalia.Watcher.Options

/-!
# Patterns that are handed on

A watcher hands its patterns to the notifier by their sources, which the notifier reads again.  A
pattern that had been read with some flags comes back without those that its source does not ask
for.  All that matters about the way of reading patterns is that a pattern depends on its source and
on the flags that it has in the end (`Pattern.LawfulDialect`).

`handed_agree_iff` says what comes of the patterns and which paths those that come back decide as
the given ones do.  `handed_drops_unignored` has a pattern by which the notifier ignores a path that
the watcher does not, and `handed_unreadable` one whose source means nothing without its flags.
Where what the sources say grows from the flags that are left to all of them, as it does where
nothing is negated, the notifier ignores nothing but what the watcher ignores, and where it grows
the other way all of that (`given_of_handed`, `handed_of_given`).
-/

namespace Marginalia

namespace Pattern

/-! ## Patterns and their sources -/

/-- A way of reading patterns that gives each of them its source, and in which nothing else matters
than the flags that a pattern has in the end. -/
class LawfulDialect [Dialect] : Prop where
  source_eq {source : String} {given : Flags} {p : Pattern} :
    Dialect.compile source given = .ok p → p.source = source
  eq_of_flags_eq {source : String} {given given' : Flags} {p q : Pattern} :
    Dialect.compile source given = .ok p → Dialect.compile source given' = .ok q →
      p.flags = q.flags → p = q

instance lawful_standard : LawfulDialect where
  source_eq h := (of_compile h).1
  eq_of_flags_eq := by
    rintro source given given' ⟨ps, pflags, pfound⟩ ⟨qs, qflags, qfound⟩ hp hq hflags
    obtain ⟨hps, -, e, he, hpfound⟩ := of_compile hp
    obtain ⟨hqs, -, e', he', hqfound⟩ := of_compile hq
    dsimp only at hps hqs hflags he he' hpfound hqfound
    rw [← hflags, he] at he'
    rw [hps, hqs, hpfound, hqfound, hflags, Except.ok.inj he']

section

variable [Dialect] (p : Pattern)

/-- The pattern was read from its source, with some flags. -/
def IsRead : Prop :=
  ∃ given, Dialect.compile p.source given = .ok p

/-- Reads the source of the pattern alone. -/
def reread : Except Error Pattern :=
  Dialect.compile p.source {}

/-- The pattern as its source alone says it. Where this says nothing, the pattern itself. -/
def asWritten : Pattern :=
  match p.reread with
  | .ok q => q
  | .error _ => p

/-- Not all of the flags are those that the source asks for. -/
def losesFlags : Bool :=
  p.asWritten.flags != p.flags

variable {p}

/-- As it is written, the pattern was read from its source, too. -/
lemma IsRead.exists_asWritten (h : p.IsRead) :
    ∃ given, Dialect.compile p.source given = .ok p.asWritten := by
  unfold asWritten
  cases hagain : p.reread with
  | error e => exact h
  | ok q => exact ⟨{}, hagain⟩

variable [LawfulDialect]

/-- **A pattern that loses no flags** is as it is written. -/
lemma IsRead.asWritten_eq (h : p.IsRead) (hkeeps : p.losesFlags = false) : p.asWritten = p := by
  obtain ⟨given, h⟩ := h
  unfold losesFlags asWritten at hkeeps
  unfold asWritten
  cases hagain : p.reread with
  | error e => rfl
  | ok q =>
      rw [hagain] at hkeeps
      exact LawfulDialect.eq_of_flags_eq hagain h (by simpa using hkeeps)

/-- What is read without flags loses none. -/
lemma losesFlags_of_compile {source : String} (h : Dialect.compile source {} = .ok p) :
    p.losesFlags = false := by
  have hagain : p.reread = .ok p := by
    rw [reread, LawfulDialect.source_eq h]
    exact h
  simp [losesFlags, asWritten, hagain]

end

/-- What the source of the pattern says is the same with both flags, and grows from the first ones
to the second. -/
def GrowsBetween (p : Pattern) (f g : Flags) : Prop :=
  f.verbose = g.verbose ∧ ∀ e, readSource p.source f = .ok e → e.Grows f g

variable {p : Pattern} {text : String}

/-- As it is written, the pattern has no other flags. -/
lemma IsRead.asWritten_flags_within (h : p.IsRead) : p.asWritten.flags.Within p.flags := by
  obtain ⟨given, h⟩ := h
  unfold asWritten
  cases hagain : p.reread with
  | error e => exact .refl _
  | ok q => exact flags_within_of_compile hagain h (.none given)

/-- If it grows with the flags that it loses, the pattern is found wherever it is as written. -/
lemma IsRead.isFoundIn_of_asWritten (h : p.IsRead)
    (hgrows : p.losesFlags = true → p.GrowsBetween p.asWritten.flags p.flags)
    (hfound : p.asWritten.isFoundIn text = true) : p.isFoundIn text = true := by
  cases hloses : p.losesFlags with
  | false => rwa [h.asWritten_eq hloses] at hfound
  | true =>
      obtain ⟨hverbose, hgrows⟩ := hgrows hloses
      obtain ⟨given, hwritten⟩ := h.exists_asWritten
      obtain ⟨given', h⟩ := h
      exact isFoundIn_of_grows hwritten h hverbose hgrows hfound

/-- If it grows without the flags that it loses, the pattern is found as written wherever it is. -/
lemma IsRead.asWritten_isFoundIn (h : p.IsRead)
    (hgrows : p.losesFlags = true → p.GrowsBetween p.flags p.asWritten.flags)
    (hfound : p.isFoundIn text = true) : p.asWritten.isFoundIn text = true := by
  cases hloses : p.losesFlags with
  | false => rwa [h.asWritten_eq hloses]
  | true =>
      obtain ⟨hverbose, hgrows⟩ := hgrows hloses
      obtain ⟨given, hwritten⟩ := h.exists_asWritten
      obtain ⟨given', h⟩ := h
      exact isFoundIn_of_grows h hwritten hverbose hgrows hfound

end Pattern

namespace Ignore

variable [Pattern.Dialect]

/-- A pattern that has been read already was read from its source. -/
def Given.IsGenuine : Given → Prop
  | .source _ => True
  | .ready p => p.IsRead

/-! ## Reading all of them -/

lemma readAll_cons_eq_ok {g : Given} {given : List Given} {patterns : List Pattern}
    (h : readAll (g :: given) = .ok patterns) :
    ∃ p others, g.read = .ok p ∧ readAll given = .ok others ∧ patterns = p :: others := by
  rw [readAll, List.mapM_cons, ← readAll] at h
  cases hg : g.read with
  | error e => rw [hg] at h; cases h
  | ok p =>
      cases hrest : readAll given with
      | error e => rw [hg, hrest] at h; cases h
      | ok others =>
          rw [hg, hrest] at h
          cases h
          exact ⟨p, others, rfl, rfl, rfl⟩

lemma readAll_cons {g : Given} {given : List Given} :
    readAll (g :: given) = (do return (← g.read) :: (← readAll given)) :=
  List.mapM_cons ..

/-- Each pattern was read from one of those given. -/
lemma exists_of_readAll {given : List Given} {patterns : List Pattern}
    (hread : readAll given = .ok patterns) {p : Pattern} (hp : p ∈ patterns) :
    ∃ g ∈ given, g.read = .ok p := by
  induction given generalizing patterns with
  | nil =>
      obtain rfl := Except.ok.inj hread
      exact absurd hp List.not_mem_nil
  | cons g given ih =>
      obtain ⟨q, others, hg, hrest, rfl⟩ := readAll_cons_eq_ok hread
      rcases List.mem_cons.1 hp with rfl | hp
      · exact ⟨g, List.mem_cons_self, hg⟩
      · obtain ⟨g', hg', hp⟩ := ih hrest hp
        exact ⟨g', List.mem_cons_of_mem _ hg', hp⟩

/-- Patterns whose sources can be read come back as they are written. -/
lemma eq_asWritten_of_reread {patterns handed : List Pattern}
    (h : patterns.mapM Pattern.reread = .ok handed) : handed = patterns.map Pattern.asWritten := by
  induction patterns generalizing handed with
  | nil => exact (Except.ok.inj h).symm
  | cons p patterns ih =>
      rw [List.mapM_cons] at h
      cases hp : p.reread with
      | error e => rw [hp] at h; cases h
      | ok q =>
          cases hrest : patterns.mapM Pattern.reread with
          | error e => rw [hp, hrest] at h; cases h
          | ok others =>
              rw [hp, hrest] at h
              cases h
              have hq : p.asWritten = q := by rw [Pattern.asWritten, hp]
              rw [List.map_cons, hq, ← ih hrest]

variable [Pattern.LawfulDialect]

lemma Given.IsGenuine.isRead {g : Given} (h : g.IsGenuine) {p : Pattern}
    (hread : g.read = .ok p) : p.IsRead := by
  cases g with
  | source text => exact ⟨{}, by rw [Pattern.LawfulDialect.source_eq hread]; exact hread⟩
  | ready q =>
      obtain rfl := Except.ok.inj hread
      exact h

/-- Patterns that genuine ones were read from are genuine. -/
lemma isRead_of_readAll {given : List Given} (hgenuine : ∀ g ∈ given, g.IsGenuine)
    {patterns : List Pattern} (hread : readAll given = .ok patterns) {p : Pattern}
    (hp : p ∈ patterns) : p.IsRead := by
  obtain ⟨g, hg, hgp⟩ := exists_of_readAll hread hp
  exact (hgenuine g hg).isRead hgp

lemma source_of_read {g : Given} {p : Pattern} (hread : g.read = .ok p) : p.source = g.text := by
  cases g with
  | source text => exact Pattern.LawfulDialect.source_eq hread
  | ready q =>
      obtain rfl := Except.ok.inj hread
      rfl

/-- Only a pattern that was given ready can lose flags. -/
lemma eq_ready_of_losesFlags {g : Given} {p : Pattern} (hread : g.read = .ok p)
    (hloses : p.losesFlags = true) : g = .ready p := by
  cases g with
  | source text =>
      rw [Pattern.losesFlags_of_compile hread] at hloses
      cases hloses
  | ready q => rw [Except.ok.inj hread]

/-- **Reading the sources of some patterns** is reading the source of each again. -/
lemma readAll_text {given : List Given} {patterns : List Pattern}
    (hread : readAll given = .ok patterns) :
    readAll (given.map fun g => .source g.text) = patterns.mapM Pattern.reread := by
  induction given generalizing patterns with
  | nil =>
      obtain rfl := Except.ok.inj hread
      rfl
  | cons g given ih =>
      obtain ⟨p, others, hg, hrest, rfl⟩ := readAll_cons_eq_ok hread
      have hsame : Given.read (.source g.text) = p.reread := by
        rw [← source_of_read hg]
        rfl
      rw [List.map_cons, readAll_cons, hsame, ih hrest, List.mapM_cons]

/-! ## Deciding with some of the patterns -/

omit [Pattern.Dialect] [Pattern.LawfulDialect]

/-- Patterns of which some are put into another form. -/
lemma isFoundBy_map {patterns : List Pattern} {changes : Pattern → Bool} {f : Pattern → Pattern}
    (h : ∀ p ∈ patterns, changes p = false → f p = p) (text : String) :
    isFoundBy (patterns.map f) text =
      (isFoundBy (patterns.filter (!changes ·)) text ||
        isFoundBy ((patterns.filter changes).map f) text) := by
  unfold isFoundBy
  induction patterns with
  | nil => rfl
  | cons p patterns ih =>
      rw [List.forall_mem_cons] at h
      rw [List.map_cons, List.any_cons, ih h.2]
      cases hp : changes p with
      | false => simp [hp, h.1 hp, Bool.or_assoc]
      | true => simp [hp, Bool.or_left_comm]

lemma isFoundBy_filter (holds : Pattern → Bool) (patterns : List Pattern) (text : String) :
    isFoundBy patterns text =
      (isFoundBy (patterns.filter (!holds ·)) text || isFoundBy (patterns.filter holds) text) := by
  have hsame : ∀ p ∈ patterns, holds p = false → id p = p := fun _ _ _ => rfl
  have hparts := isFoundBy_map hsame text
  rwa [List.map_id, List.map_id] at hparts

/-- Patterns that are found wherever others are decide what those decide. -/
lemma isIgnoredBy_map_of {patterns : List Pattern} {f more : Pattern → Pattern}
    (h : ∀ p ∈ patterns, ∀ text, (f p).isFoundIn text = true → (more p).isFoundIn text = true)
    {cwd path : String} {root : Option String}
    (hignored : isIgnoredBy (patterns.map f) cwd path root = true) :
    isIgnoredBy (patterns.map more) cwd path root = true := by
  simp only [isIgnoredBy_eq, isFoundBy, List.any_map, List.any_eq_true] at hignored ⊢
  obtain ⟨p, hp, hfound⟩ := hignored
  exact ⟨p, hp, h p hp _ hfound⟩

end Ignore

namespace Watcher.Options

open Notifier (Subscription Surroundings)

variable {o : Options} {patterns : List Pattern}

section

variable [Pattern.Dialect] [Pattern.LawfulDialect]

/-- The patterns that come back are those whose sources are read again. -/
lemma readAll_forNotifier (hread : Ignore.readAll o.ignored = .ok patterns) :
    Ignore.readAll (o.forNotifier.ignored.map .source) = patterns.mapM Pattern.reread := by
  have hsources : o.forNotifier.ignored.map Ignore.Given.source =
      o.ignored.map fun g => .source g.text := List.map_map ..
  rw [hsources]
  exact Ignore.readAll_text hread

/-- What comes back, one by one. -/
lemma handed_eq {handed : List Pattern} (hread : Ignore.readAll o.ignored = .ok patterns)
    (hhanded : Ignore.readAll (o.forNotifier.ignored.map .source) = .ok handed) :
    handed = patterns.map Pattern.asWritten :=
  Ignore.eq_asWritten_of_reread ((readAll_forNotifier hread).symm.trans hhanded)

/-- **What comes of patterns that are handed on.**  Take the options of a watcher with patterns that
can be read, sources or patterns that were read with any flags.  What the notifier reads are their
sources, each again and without flags.  If one of them cannot be read alone, no subscription is ever
opened with the options.  Otherwise the patterns that come back are the given ones as they are
written, and every subscription that is opened decides by them.

Only a pattern that was given ready loses flags.  If none does, those that come back are the same.
In general they decide a path alike exactly when one of those that lose nothing is found, or of the
others one is found as it is written exactly when one is found with all of its flags. -/
theorem handed_agree_iff (ℓ : Type) (hgenuine : ∀ g ∈ o.ignored, g.IsGenuine)
    (hread : Ignore.readAll o.ignored = .ok patterns) :
    Ignore.readAll (o.forNotifier.ignored.map .source) = patterns.mapM Pattern.reread ∧
      (∀ e, Ignore.readAll (o.forNotifier.ignored.map .source) = .error e →
        ∀ (around : Surroundings) (paths : List String),
          Subscription.start ℓ around paths o.forNotifier = ([], .error (.pattern e))) ∧
      (∀ p ∈ patterns, p.losesFlags = true → .ready p ∈ o.ignored) ∧
      ∀ handed, Ignore.readAll (o.forNotifier.ignored.map .source) = .ok handed →
        handed = patterns.map Pattern.asWritten ∧
        (∀ (around : Surroundings) (paths : List String) (notes : List Notifier.Note)
          (s : Subscription ℓ), Subscription.start ℓ around paths o.forNotifier = (notes, .ok s) →
            s.patterns = handed) ∧
        ((∀ p ∈ patterns, p.losesFlags = false) → handed = patterns) ∧
        (∀ cwd path root,
          Ignore.isIgnoredBy handed cwd path root = Ignore.isIgnoredBy patterns cwd path root ↔
            Ignore.isIgnoredBy (patterns.filter (!·.losesFlags)) cwd path root = true ∨
              Ignore.isIgnoredBy ((patterns.filter (·.losesFlags)).map Pattern.asWritten) cwd path
                root = Ignore.isIgnoredBy (patterns.filter (·.losesFlags)) cwd path root) := by
  have hkept (p : Pattern) (hp : p ∈ patterns) (hkeeps : p.losesFlags = false) :
      p.asWritten = p :=
    (Ignore.isRead_of_readAll hgenuine hread hp).asWritten_eq hkeeps
  refine ⟨readAll_forNotifier hread, fun e he => Subscription.start_of_unreadable he,
    fun p hp hloses => ?_, fun handed hhanded => ?_⟩
  · obtain ⟨g, hg, hgp⟩ := Ignore.exists_of_readAll hread hp
    rwa [← Ignore.eq_ready_of_losesFlags hgp hloses]
  obtain rfl := handed_eq hread hhanded
  refine ⟨rfl, fun around paths notes s hstart => ?_, fun hnone => ?_, fun cwd path root => ?_⟩
  · have hopened := (Subscription.fields_of_start hstart).1
    exact Except.ok.inj (hopened.symm.trans hhanded)
  · rw [List.map_congr_left fun p hp => hkept p hp (hnone p hp), List.map_id']
  · have hor (a b c : Bool) : (a || b) = (a || c) ↔ a = true ∨ b = c := by
      cases a <;> simp
    simp only [Ignore.isIgnoredBy_eq]
    rw [Ignore.isFoundBy_map hkept, Ignore.isFoundBy_filter Pattern.losesFlags patterns]
    exact hor _ _ _

end

/-- The pattern `build` with blanks between the letters, read so that these mean nothing and letters
match in either case, comes back as a pattern that asks for the blanks: the notifier takes
`Build/a.py` for a file that it may tell, and the watcher ignores it. -/
theorem handed_agree_iff_of_build :
    ∃ dist p handed, Pattern.compile "dist" {} = .ok dist ∧
      Pattern.compile "b u i l d" { fold := true, verbose := true } = .ok p ∧
      (∀ g ∈ [Ignore.Given.source "dist", .ready p], g.IsGenuine) ∧
      Ignore.readAll [.source "dist", .ready p] = .ok [dist, p] ∧
      Ignore.readAll ((forNotifier { ignored := [.source "dist", .ready p] }).ignored.map .source) =
        .ok handed ∧
      handed = [dist.asWritten, p.asWritten] ∧
      Ignore.isIgnoredBy handed "/" "/w/Build/a.py" (some "/w") = false ∧
      Ignore.isIgnoredBy [dist, p] "/" "/w/Build/a.py" (some "/w") = true := by
  obtain ⟨dist, hdist⟩ : ∃ dist, Pattern.compile "dist" {} = .ok dist := ⟨_, rfl⟩
  obtain ⟨p, hp⟩ : ∃ p, Pattern.compile "b u i l d" { fold := true, verbose := true } = .ok p :=
    ⟨_, rfl⟩
  have hsource : p.source = "b u i l d" := (Pattern.of_compile hp).1
  have hgenuine : ∀ g ∈ [Ignore.Given.source "dist", .ready p], g.IsGenuine :=
    List.forall_mem_cons.2 ⟨trivial, List.forall_mem_singleton.2 ⟨_, by rw [hsource]; exact hp⟩⟩
  have hread : Ignore.readAll [.source "dist", .ready p] = .ok [dist, p] := by
    have hfirst : Ignore.Given.read (.source "dist") = .ok dist := hdist
    rw [Ignore.readAll_cons, hfirst]
    rfl
  have hsources : (forNotifier { ignored := [.source "dist", .ready p] }).ignored.map
      Ignore.Given.source = [.source "dist", .source "b u i l d"] := by
    rw [← hsource]
    rfl
  obtain ⟨handed, hhanded⟩ :
      ∃ handed, Ignore.readAll [.source "dist", .source "b u i l d"] = .ok handed := ⟨_, rfl⟩
  obtain ⟨hwritten, -⟩ := (handed_agree_iff (o := { ignored := [.source "dist", .ready p] }) Unit
    hgenuine hread).2.2.2 handed (hsources ▸ hhanded)
  have hgiven : ((Pattern.compile "dist" {}).toOption.bind fun dist =>
      (Pattern.compile "b u i l d" { fold := true, verbose := true }).toOption.map fun p =>
        Ignore.isIgnoredBy [dist, p] "/" "/w/Build/a.py" (some "/w")) = some true := by
    decide +kernel
  have hback : (Ignore.readAll [.source "dist", .source "b u i l d"]).toOption.map
      (Ignore.isIgnoredBy · "/" "/w/Build/a.py" (some "/w")) = some false := by
    decide +kernel
  rw [hdist, hp] at hgiven
  rw [hhanded] at hback
  exact ⟨dist, p, handed, hdist, hp, hgenuine, hread, hsources ▸ hhanded, hwritten,
    Option.some.inj hback, Option.some.inj hgiven⟩

/-- **The notifier ignores what the watcher does not.** By a pattern that finds something in every
path that does not begin with `src`, in either case, the watcher ignores nothing below `SRC`; once
it is handed on, the notifier ignores all of it. -/
theorem handed_drops_unignored :
    ∃ p patterns handed, Pattern.read "^(?!src)" true = .ok p ∧
      Ignore.readAll [.ready p] = .ok patterns ∧
      Ignore.readAll ((forNotifier { ignored := [.ready p] }).ignored.map .source) = .ok handed ∧
      Ignore.isIgnoredBy patterns "/" "/w/SRC/a.py" (some "/w") = false ∧
      Ignore.isIgnoredBy handed "/" "/w/SRC/a.py" (some "/w") = true := by
  refine ⟨_, _, _, rfl, rfl, rfl, ?_, ?_⟩
  · decide +kernel
  · decide +kernel

/-- **Nothing is watched at all.** The pattern `build` with a remark that has a parenthesis in it is
one only if remarks mean nothing. Its source alone is no pattern. -/
theorem handed_unreadable (ℓ : Type) (around : Surroundings) (paths : List String) :
    ∃ p, Pattern.compile "build # (results" { verbose := true } = .ok p ∧
      Subscription.start ℓ around paths (forNotifier { ignored := [.ready p] }) =
        ([], .error (.pattern ⟨.unterminatedGroup, "build # (results", 8⟩)) := by
  refine ⟨_, rfl, ?_⟩
  apply Subscription.start_of_unreadable
  rfl

/-! ## To which side the notifier errs -/

variable {handed : List Pattern}

/-- **The notifier ignores nothing else** than the watcher if what the sources say grows from the
flags that are left to all of them. -/
theorem given_of_handed (hgenuine : ∀ g ∈ o.ignored, g.IsGenuine)
    (hread : Ignore.readAll o.ignored = .ok patterns)
    (hhanded : Ignore.readAll (o.forNotifier.ignored.map .source) = .ok handed)
    (hgrows : ∀ p ∈ patterns, p.losesFlags = true → p.GrowsBetween p.asWritten.flags p.flags)
    {cwd path : String} {root : Option String}
    (hignored : Ignore.isIgnoredBy handed cwd path root = true) :
    Ignore.isIgnoredBy patterns cwd path root = true := by
  rw [handed_eq hread hhanded] at hignored
  rw [← List.map_id patterns]
  refine Ignore.isIgnoredBy_map_of (fun p hp text => ?_) hignored
  exact (Ignore.isRead_of_readAll hgenuine hread hp).isFoundIn_of_asWritten (hgrows p hp)

/-- **Where nothing is negated** in the patterns that lose flags, and the flags that are lost have
to do with letters and lines, the notifier ignores nothing else than the watcher. -/
theorem given_of_handed_of_isPlain (hgenuine : ∀ g ∈ o.ignored, g.IsGenuine)
    (hread : Ignore.readAll o.ignored = .ok patterns)
    (hhanded : Ignore.readAll (o.forNotifier.ignored.map .source) = .ok handed)
    (hplain : ∀ p ∈ patterns, p.losesFlags = true →
      p.asWritten.flags.verbose = p.flags.verbose ∧ p.asWritten.flags.ascii = p.flags.ascii ∧
        ∀ e, Pattern.readSource p.source p.asWritten.flags = .ok e → e.isPlain = true)
    {cwd path : String} {root : Option String}
    (hignored : Ignore.isIgnoredBy handed cwd path root = true) :
    Ignore.isIgnoredBy patterns cwd path root = true := by
  refine given_of_handed hgenuine hread hhanded (fun p hp hloses => ?_) hignored
  obtain ⟨hverbose, hascii, hplain⟩ := hplain p hp hloses
  have hwithin := (Ignore.isRead_of_readAll hgenuine hread hp).asWritten_flags_within
  exact ⟨hverbose, fun e he => Pattern.Expr.grows_of_isPlain (hplain e he) hwithin hascii⟩

/-- **The notifier ignores all that the watcher ignores** if what the sources say grows from all
flags to those that are left. -/
theorem handed_of_given (hgenuine : ∀ g ∈ o.ignored, g.IsGenuine)
    (hread : Ignore.readAll o.ignored = .ok patterns)
    (hhanded : Ignore.readAll (o.forNotifier.ignored.map .source) = .ok handed)
    (hgrows : ∀ p ∈ patterns, p.losesFlags = true → p.GrowsBetween p.flags p.asWritten.flags)
    {cwd path : String} {root : Option String}
    (hignored : Ignore.isIgnoredBy patterns cwd path root = true) :
    Ignore.isIgnoredBy handed cwd path root = true := by
  rw [handed_eq hread hhanded]
  rw [← List.map_id patterns] at hignored
  refine Ignore.isIgnoredBy_map_of (fun p hp text => ?_) hignored
  exact (Ignore.isRead_of_readAll hgenuine hread hp).asWritten_isFoundIn (hgrows p hp)

end Watcher.Options

end Marginalia
