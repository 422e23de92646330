import Marginalia.Proofs.Json.RoundTrip
import Marginalia.Proofs.Pending
import Marginalia.Proofs.Text
import Marginalia.Settings

/-!
# Where the list of patterns comes from

The list of patterns is given as a text, by the caller or by a variable of the environment.  The
caller's text is read as JSON, or else as items between commas.  The variable's text has to be JSON,
and a text that it holds is read once more; `null` leaves the list as it is by default.

`patterns?_withArgument_iff` and `patterns?_withVariable_iff` say which list each of the two gives.
`patterns_agree_iff` is when they are the same, and `comma_list_refused` a list for which they are
not.
-/

namespace Marginalia.Settings

/-! ## Lists in texts -/

/-- The text is JSON for a list of texts. -/
def SpellsList (s : String) (patterns : List String) : Prop :=
  Json.read s = .ok (.list (patterns.map .text))

/-- The text stands for a list of patterns: the one that it spells, or, if it is not written in
JSON, the items between its commas. -/
def StandsFor (s : String) (patterns : List String) : Prop :=
  SpellsList s patterns ∨ Json.read s = .error .malformed ∧ patterns = commaItems s

/-- What can stand between two commas. -/
structure IsItem (item : String) : Prop where
  ne_empty : item ≠ ""
  no_comma : ',' ∉ item.toList
  trimmed : Text.trim item.toList = item.toList

section Items

/-- A blank before the text belongs to no item. -/
lemma commaItems_blank (s : String) : commaItems (" " ++ s) = commaItems s := by
  have hblank (cs : List Char) : Text.trim (' ' :: cs) = Text.trim cs := rfl
  have hsplit : (' ' :: s.toList).splitOn ',' = (s.toList.splitOn ',').modifyHead (' ' :: ·) := by
    rw [List.splitOn_cons_eq_if_modifyHead, if_neg (by decide)]
  obtain ⟨first, rest, hfirst⟩ := List.exists_cons_of_ne_nil (List.splitOn_ne_nil ',' s.toList)
  have htext : (" " ++ s).toList = ' ' :: s.toList := by simp
  rw [commaItems, commaItems, htext, hsplit, hfirst, List.modifyHead_cons, List.map_cons,
    List.map_cons, hblank]

variable {item : String}

lemma commaItems_of_isItem (h : IsItem item) : commaItems item = [item] := by
  simp [commaItems, List.splitOn_eq_singleton h.no_comma, h.trimmed, h.ne_empty]

lemma commaItems_append (h : IsItem item) (s : String) :
    commaItems (item ++ "," ++ s) = item :: commaItems s := by
  have hcut : (item ++ "," ++ s).toList = item.toList ++ ',' :: s.toList := by simp
  rw [commaItems, hcut, List.splitOn_append_cons_self, List.splitOn_eq_singleton h.no_comma]
  simp [commaItems, h.trimmed, h.ne_empty]

/-- **Items with commas between them** are found again. -/
lemma commaItems_intercalate {items : List String} (h : ∀ item ∈ items, IsItem item) :
    commaItems (", ".intercalate items) = items := by
  induction items with
  | nil => decide
  | cons item items ih =>
      rw [List.forall_mem_cons] at h
      by_cases hlast : items = []
      · rw [hlast, String.intercalate_singleton, commaItems_of_isItem h.1]
      · have hcomma : ", " = "," ++ " " := by decide
        rw [String.intercalate_cons_of_ne_nil hlast, hcomma, ← String.append_assoc,
          String.append_assoc, commaItems_append h.1, commaItems_blank, ← hcomma, ih h.2]

lemma map_text_injective : Function.Injective (List.map Json.text) :=
  List.map_injective_iff.2 fun _ _ => Json.text.inj

lemma itemFaults_eq_nil_iff {field : Field} {n : Nat} {items : List Json} :
    itemFaults field n items = [] ↔ ∃ texts : List String, items = texts.map .text := by
  induction items generalizing n with
  | nil => exact ⟨fun _ => ⟨[], rfl⟩, fun _ => rfl⟩
  | cons item items ih =>
      cases item with
      | text s =>
          rw [itemFaults, ih]
          constructor
          · rintro ⟨texts, rfl⟩
            exact ⟨s :: texts, rfl⟩
          · rintro ⟨texts, htexts⟩
            cases texts with
            | nil => cases htexts
            | cons t texts => exact ⟨texts, (List.cons.inj htexts).2⟩
      | _ =>
          constructor
          · intro hnone
            cases hnone
          · rintro ⟨texts, htexts⟩
            cases texts <;> cases htexts

/-- A list is read if all its items are texts. -/
lemma readList_eq_ok_iff {field : Field} {v : Json} {texts : List String} :
    readList field v = .ok texts ↔ v = .list (texts.map .text) := by
  have htexts (texts : List String) : readList field (.list (texts.map .text)) = .ok texts := by
    simp [readList, itemFaults_eq_nil_iff.2 ⟨texts, rfl⟩, List.filterMap_map]
  constructor
  · intro h
    cases v with
    | list items =>
        cases hfaults : itemFaults field 0 items with
        | nil =>
            obtain ⟨others, rfl⟩ := itemFaults_eq_nil_iff.1 hfaults
            rw [htexts] at h
            rw [Except.ok.inj h]
        | cons fault faults =>
            rw [readList, hfaults] at h
            cases h
    | _ => cases h
  · rintro rfl
    exact htexts texts

/-- What is wrong with a list is said. -/
lemma readList_ne_error_nil (field : Field) (v : Json) : readList field v ≠ .error [] := by
  intro h
  cases v with
  | list items =>
      cases hfaults : itemFaults field 0 items with
      | nil =>
          rw [readList, hfaults] at h
          cases h
      | cons fault faults =>
          rw [readList, hfaults] at h
          cases h
  | _ => cases h

lemma listOfText_text_eq_ok_iff {s : String} {texts : List String} :
    listOfText (.text s) = .ok (.list (texts.map .text)) ↔ StandsFor s texts := by
  rw [StandsFor, SpellsList]
  cases hread : Json.read s with
  | ok v => simp [listOfText, hread]
  | error fault =>
      cases fault with
      | malformed =>
          simp only [listOfText, hread, Except.ok.injEq, Json.list.injEq, reduceCtorEq, false_or,
            true_and]
          exact ⟨fun h => (map_text_injective h).symm, fun h => by rw [h]⟩
      | _ => simp [listOfText, hread]

/-- What is written in JSON stands for no list but the one that it spells. -/
lemma not_standsFor_of_ok {s : String} {v : Json} (hread : Json.read s = .ok v)
    (hlist : ∀ texts : List String, v ≠ .list (texts.map .text)) {patterns : List String} :
    ¬ StandsFor s patterns := by
  rintro (hspells | ⟨hmalformed, -⟩)
  · exact hlist patterns (Except.ok.inj (hread.symm.trans hspells))
  · cases hread.symm.trans hmalformed

end Items

/-! ## Sources of values -/

/-- Nobody gives the field a value. -/
structure Sources.LeavesOpen (src : Sources) (field : Field) : Prop where
  given : src.givenFor field = none
  environment : src.environmentFor field = none

/-- The sources, and a variable of the environment for the field. -/
def Sources.withVariable (src : Sources) (field : Field) (value : String) : Sources :=
  { src with environment := src.environment ++ [(field.name, value)] }

/-- The sources, and a value from the caller for the field. -/
def Sources.withArgument (src : Sources) (field : Field) (value : Json) : Sources :=
  { src with given := src.given ++ [(field.name, value)] }

section Sources

variable {src : Sources} {field other : Field}

lemma name_eq_iff : field.name = other.name ↔ field = other := by
  cases field <;> cases other <;> decide

lemma givenFor_withArgument (value : Json) :
    (src.withArgument field value).givenFor other =
      if other = field then some value else src.givenFor other := by
  rw [Sources.givenFor, Sources.withArgument, List.reverse_append, List.reverse_singleton,
    List.singleton_append, Entries.lookup_cons_eq_ite]
  simp only [name_eq_iff]
  rfl

lemma environmentFor_withVariable (value : String) :
    (src.withVariable field value).environmentFor other =
      if other = field then some value else src.environmentFor other := by
  rw [Sources.environmentFor, Sources.withVariable, List.reverse_append, List.reverse_singleton,
    List.singleton_append, Entries.lookup_cons_eq_ite]
  simp only [name_eq_iff]
  rfl

lemma valueFor_withArgument (h : other ≠ field) (value : Json) :
    (src.withArgument field value).valueFor other = src.valueFor other := by
  rw [Sources.valueFor, givenFor_withArgument, if_neg h]
  rfl

lemma valueFor_withVariable (h : other ≠ field) (value : String) :
    (src.withVariable field value).valueFor other = src.valueFor other := by
  rw [Sources.valueFor, environmentFor_withVariable, if_neg h]
  rfl

end Sources

/-! ## Reading the settings -/

/-- The faults in the values of all fields but the list of patterns. -/
def Sources.otherFaults (src : Sources) : List Fault :=
  let defaults : Settings := {}
  [src.readField .appName defaults.appName readText,
    src.readField .version defaults.version readText,
    src.readField .environment defaults.environment readText,
    src.readField .logLevel defaults.logLevel readText,
    src.readField .logFormat defaults.logFormat readText,
    src.readField .watchPath defaults.watchPath readText].flatMap faultsOf ++
  faultsOf (src.readField .ignoreInitial defaults.ignoreInitial readSwitch) ++
  faultsOf (src.readField .stabilityThreshold defaults.stabilityThreshold readWhole) ++
  faultsOf (src.readField .pollInterval defaults.pollInterval readWhole)

/-- The list of patterns that settings are read with, if they can be read. -/
def patterns? (src : Sources) : Option (List String) :=
  (read src).toOption.map (·.ignoredPatterns)

lemma readField_congr {α : Type} {src src' : Sources} {field : Field}
    (h : src.valueFor field = src'.valueFor field) (default : α) (read : Json → Except Mistake α) :
    src.readField field default read = src'.readField field default read := by
  rw [Sources.readField, Sources.readField, h]

/-- The other fields do not notice where the list of patterns comes from. -/
lemma otherFaults_congr {src src' : Sources}
    (h : ∀ field, field ≠ .ignoredPatterns → src.valueFor field = src'.valueFor field) :
    src.otherFaults = src'.otherFaults := by
  unfold Sources.otherFaults
  simp only [readField_congr (h .appName (by decide)), readField_congr (h .version (by decide)),
    readField_congr (h .environment (by decide)), readField_congr (h .logLevel (by decide)),
    readField_congr (h .logFormat (by decide)), readField_congr (h .watchPath (by decide)),
    readField_congr (h .ignoreInitial (by decide)),
    readField_congr (h .stabilityThreshold (by decide)),
    readField_congr (h .pollInterval (by decide))]

/-- The list that a value gives, once a text has been taken for what it stands for. -/
def readListed (v : Json) : Except Error (Except (List Fault) (List String)) :=
  match listOfText v with
  | .ok v => .ok (readList .ignoredPatterns v)
  | .error (.deepNesting isList) => .error (.deepNesting isList)
  | .error _ => .ok (.error [⟨.ignoredPatterns, none, .longNumber⟩])

lemma readPatterns_eq (src : Sources) (default : List String) :
    src.readPatterns default = src.environmentList.bind fun listed =>
      match (src.givenFor .ignoredPatterns).or listed with
      | none => .ok (.ok default)
      | some v => readListed v := by
  unfold Sources.readPatterns
  cases src.environmentList with
  | error e => rfl
  | ok listed =>
      simp only [Bind.bind, Except.bind]
      cases (src.givenFor .ignoredPatterns).or listed with
      | none => rfl
      | some v =>
          simp only [readListed]
          cases listOfText v with
          | ok v => rfl
          | error fault => cases fault <;> rfl

lemma readListed_eq_ok_iff {v : Json} {patterns : List String} :
    readListed v = .ok (.ok patterns) ↔ listOfText v = .ok (.list (patterns.map .text)) := by
  unfold readListed
  cases listOfText v with
  | ok v => simp [readList_eq_ok_iff]
  | error fault => cases fault <;> simp

lemma readListed_ne_error_nil (v : Json) : readListed v ≠ .ok (.error []) := by
  unfold readListed
  cases listOfText v with
  | ok v => simp [readList_ne_error_nil]
  | error fault => cases fault <;> simp

lemma readPatterns_ne_error_nil (src : Sources) (default : List String) :
    src.readPatterns default ≠ .ok (.error []) := by
  rw [readPatterns_eq]
  cases src.environmentList with
  | error e => nofun
  | ok listed =>
      simp only [Except.bind]
      cases (src.givenFor .ignoredPatterns).or listed with
      | none => nofun
      | some v => exact readListed_ne_error_nil v

/-- **Settings are read with a list of patterns** if this is the list that is read, and nothing is
wrong with the other fields. -/
lemma patterns?_eq_some_iff {src : Sources} {patterns : List String} :
    patterns? src = some patterns ↔
      src.readPatterns Ignore.defaultSources = .ok (.ok patterns) ∧ src.otherFaults = [] := by
  have hfaulty := readPatterns_ne_error_nil src Ignore.defaultSources
  unfold patterns? read Sources.otherFaults
  dsimp only
  cases hread : src.readPatterns Ignore.defaultSources with
  | error e => simp [Bind.bind, Except.bind, Except.toOption]
  | ok result =>
      simp only [Bind.bind, Except.bind, Pure.pure, Except.pure]
      cases result with
      | error faults =>
          have hfaults : faults ≠ [] := by
            rintro rfl
            exact hfaulty hread
          simp [faultsOf, hfaults, Except.toOption]
      | ok found =>
          have hnone : faultsOf (.ok found : Except (List Fault) (List String)) = [] := rfl
          rw [hnone, List.append_nil]
          split
          · rename_i hempty
            rw [List.isEmpty_iff.1 hempty]
            simp [Except.toOption, valueOr]
          · rename_i hne
            rw [List.isEmpty_iff] at hne
            simp only [hne, and_false, iff_false]
            nofun

/-! ## The list from the caller, and from the environment -/

section Patterns

variable {others : Sources} (hopen : others.LeavesOpen .ignoredPatterns)

include hopen

lemma readPatterns_withArgument (v : Json) (default : List String) :
    (others.withArgument .ignoredPatterns v).readPatterns default = readListed v := by
  have hnone : (others.withArgument .ignoredPatterns v).environmentList = .ok none := by
    have hvariable : (others.withArgument .ignoredPatterns v).environmentFor .ignoredPatterns =
        none := hopen.environment
    rw [Sources.environmentList, hvariable]
  rw [readPatterns_eq, hnone, givenFor_withArgument, if_pos rfl]
  rfl

/-- The variable has to hold JSON, and `null` stands for the default. -/
lemma readPatterns_withVariable_eq_ok_iff {s : String} {default patterns : List String} :
    (others.withVariable .ignoredPatterns s).readPatterns default = .ok (.ok patterns) ↔
      Json.read s = .ok .null ∧ patterns = default ∨
        ∃ v, Json.read s = .ok v ∧ v ≠ .null ∧ listOfText v = .ok (.list (patterns.map .text)) := by
  have hgiven : (others.withVariable .ignoredPatterns s).givenFor .ignoredPatterns = none :=
    hopen.given
  have hvariable : (others.withVariable .ignoredPatterns s).environmentFor .ignoredPatterns =
      some s := by
    rw [environmentFor_withVariable, if_pos rfl]
  rw [readPatterns_eq, hgiven, Sources.environmentList, hvariable]
  cases hread : Json.read s with
  | error fault => cases fault <;> simp [hread, Except.bind]
  | ok v =>
      cases v with
      | null => simp [hread, Except.bind, eq_comm]
      | _ => simp [hread, Except.bind, readListed_eq_ok_iff]

variable (hothers : others.otherFaults = [])

include hothers

/-- **The caller's text** gives the list that it stands for. -/
lemma patterns?_withArgument_iff {s : String} {patterns : List String} :
    patterns? (others.withArgument .ignoredPatterns (.text s)) = some patterns ↔
      StandsFor s patterns := by
  have hsame : (others.withArgument .ignoredPatterns (.text s)).otherFaults = others.otherFaults :=
    otherFaults_congr fun field hfield => valueFor_withArgument hfield _
  rw [patterns?_eq_some_iff, hsame, readPatterns_withArgument hopen, readListed_eq_ok_iff,
    listOfText_text_eq_ok_iff]
  exact and_iff_left hothers

/-- **The variable's text** gives the list that it spells, or that a text which it holds stands
for. -/
lemma patterns?_withVariable_iff {s : String} {patterns : List String} :
    patterns? (others.withVariable .ignoredPatterns s) = some patterns ↔
      SpellsList s patterns ∨ Json.read s = .ok .null ∧ patterns = Ignore.defaultSources ∨
        ∃ t, Json.read s = .ok (.text t) ∧ StandsFor t patterns := by
  have hsame : (others.withVariable .ignoredPatterns s).otherFaults = others.otherFaults :=
    otherFaults_congr fun field hfield => valueFor_withVariable hfield _
  rw [patterns?_eq_some_iff, hsame, readPatterns_withVariable_eq_ok_iff hopen,
    and_iff_left hothers]
  constructor
  · rintro (hnull | ⟨v, hread, -, hlist⟩)
    · exact Or.inr (Or.inl hnull)
    · cases v with
      | text t => exact Or.inr (Or.inr ⟨t, hread, listOfText_text_eq_ok_iff.1 hlist⟩)
      | _ => exact Or.inl (hread.trans hlist)
  · rintro (hspells | hnull | ⟨t, hread, hstands⟩)
    · exact Or.inr ⟨_, hspells, nofun, rfl⟩
    · exact Or.inl hnull
    · exact Or.inr ⟨_, hread, nofun, listOfText_text_eq_ok_iff.2 hstands⟩

lemma patterns?_withArgument_of_malformed {s : String} (h : Json.read s = .error .malformed) :
    patterns? (others.withArgument .ignoredPatterns (.text s)) = some (commaItems s) :=
  (patterns?_withArgument_iff hopen hothers).2 (.inr ⟨h, rfl⟩)

lemma patterns?_withVariable_of_malformed {s : String} (h : Json.read s = .error .malformed) :
    patterns? (others.withVariable .ignoredPatterns s) = none := by
  refine Option.eq_none_iff_forall_ne_some.2 fun patterns hsome => ?_
  rcases (patterns?_withVariable_iff hopen hothers).1 hsome with hread | ⟨hread, -⟩ | ⟨t, hread, -⟩
  all_goals cases h.symm.trans hread

/-- The two give the same list unless the caller's text is none in JSON, or the variable's text is
taken for what it is not: for the default, or for what a text in it stands for. -/
lemma patterns?_eq_iff {s : String} :
    patterns? (others.withVariable .ignoredPatterns s) =
        patterns? (others.withArgument .ignoredPatterns (.text s)) ↔
      Json.read s ≠ .error .malformed ∧ Json.read s ≠ .ok .null ∧
        ∀ t, Json.read s = .ok (.text t) → ∀ patterns, ¬ StandsFor t patterns := by
  constructor
  · intro hsame
    have honly {patterns : List String}
        (h : SpellsList s patterns ∨ Json.read s = .ok .null ∧ patterns = Ignore.defaultSources ∨
          ∃ t, Json.read s = .ok (.text t) ∧ StandsFor t patterns) : StandsFor s patterns :=
      (patterns?_withArgument_iff hopen hothers).1
        (hsame ▸ (patterns?_withVariable_iff hopen hothers).2 h)
    refine ⟨fun hmalformed => ?_, fun hnull => ?_, fun t htext patterns hstands => ?_⟩
    · rw [patterns?_withVariable_of_malformed hopen hothers hmalformed,
        patterns?_withArgument_of_malformed hopen hothers hmalformed] at hsame
      cases hsame
    · exact not_standsFor_of_ok hnull nofun (honly (.inr (.inl ⟨hnull, rfl⟩)))
    · exact not_standsFor_of_ok htext nofun (honly (.inr (.inr ⟨t, htext, hstands⟩)))
  · rintro ⟨hmalformed, hnull, htext⟩
    refine Option.ext fun patterns => ?_
    rw [patterns?_withVariable_iff hopen hothers, patterns?_withArgument_iff hopen hothers,
      StandsFor]
    constructor
    · rintro (hspells | ⟨hread, -⟩ | ⟨t, hread, hstands⟩)
      · exact .inl hspells
      · exact absurd hread hnull
      · exact absurd hstands (htext t hread patterns)
    · rintro (hspells | ⟨hread, -⟩)
      · exact .inl hspells
      · exact absurd hread hmalformed

end Patterns

/-- **When the list means the same wherever it comes from.** Take any values for the other fields
that can be read, and a text for the list of patterns.  Given by the caller or by a variable of
the environment, it is refused both times or gives the same list both times, if and only if it is
written in JSON and neither `null` nor a text in quotes that stands for a list itself.

So it is for all lists in JSON, and every list of texts can be given so.  The caller can give items
between commas, too; the variable is refused with them unless they happen to be JSON. -/
theorem patterns_agree_iff {others : Sources} (hopen : others.LeavesOpen .ignoredPatterns)
    {settings : Settings} (hothers : read others = .ok settings) (s : String) :
    let ofVariable := patterns? (others.withVariable .ignoredPatterns s)
    let ofArgument := patterns? (others.withArgument .ignoredPatterns (.text s))
    (ofVariable = ofArgument ↔
        Json.read s ≠ .error .malformed ∧ Json.read s ≠ .ok .null ∧
          ∀ t, Json.read s = .ok (.text t) → ∀ patterns, ¬ StandsFor t patterns) ∧
      (∀ patterns, ofArgument = some patterns ↔ StandsFor s patterns) ∧
      (∀ patterns, ofVariable = some patterns ↔
        SpellsList s patterns ∨ Json.read s = .ok .null ∧ patterns = Ignore.defaultSources ∨
          ∃ t, Json.read s = .ok (.text t) ∧ StandsFor t patterns) ∧
      (∀ items, Json.read s = .ok (.list items) → ofVariable = ofArgument) ∧
      (∀ patterns, s = Json.writeTexts patterns →
        ofVariable = some patterns ∧ ofArgument = some patterns) ∧
      ∀ items, (∀ item ∈ items, IsItem item) → s = ", ".intercalate items →
        Json.read s = .error .malformed → ofVariable = none ∧ ofArgument = some items := by
  intro ofVariable ofArgument
  have hfine : others.otherFaults = [] := by
    have hread : patterns? others = some settings.ignoredPatterns := by
      rw [patterns?, hothers]
      rfl
    exact (patterns?_eq_some_iff.1 hread).2
  refine ⟨patterns?_eq_iff hopen hfine, fun _ => patterns?_withArgument_iff hopen hfine,
    fun _ => patterns?_withVariable_iff hopen hfine, fun items hlist => ?_, fun patterns hs => ?_,
    fun items hitems hs hmalformed => ?_⟩
  · refine (patterns?_eq_iff hopen hfine).2 ?_
    rw [hlist]
    exact ⟨nofun, nofun, nofun⟩
  · have hspells : SpellsList s patterns := by
      rw [hs]
      exact Json.read_writeTexts patterns
    exact ⟨(patterns?_withVariable_iff hopen hfine).2 (.inl hspells),
      (patterns?_withArgument_iff hopen hfine).2 (.inl hspells)⟩
  · refine ⟨patterns?_withVariable_of_malformed hopen hfine hmalformed, ?_⟩
    have hgiven := patterns?_withArgument_of_malformed hopen hfine hmalformed
    rwa [hs, commaItems_intercalate hitems, ← hs] at hgiven

/-- Patterns with a quote and a backslash, given in JSON, and two of them between commas. -/
theorem patterns_agree_iff_of_vendor :
    let others : Sources := { given := [("IGNORE_INITIAL", .bool false)] }
    let spelled := "[\"vendor\", \"\\\\.\\\"cache\"]"
    others.LeavesOpen .ignoredPatterns ∧
      (∃ settings, read others = .ok settings ∧ settings.ignoreInitial = false) ∧
      spelled = Json.writeTexts ["vendor", "\\.\"cache"] ∧
      patterns? (others.withVariable .ignoredPatterns spelled) = some ["vendor", "\\.\"cache"] ∧
      patterns? (others.withArgument .ignoredPatterns (.text spelled)) =
        some ["vendor", "\\.\"cache"] ∧
      patterns? (others.withVariable .ignoredPatterns "vendor, tmp") = none ∧
      patterns? (others.withArgument .ignoredPatterns (.text "vendor, tmp")) =
        some ["vendor", "tmp"] := by
  intro others spelled
  have hopen : others.LeavesOpen .ignoredPatterns := ⟨by decide, by decide⟩
  obtain ⟨settings, hothers, hinitial⟩ :
      ∃ settings, read others = .ok settings ∧ settings.ignoreInitial = false := ⟨_, rfl, rfl⟩
  have hspelled : spelled = Json.writeTexts ["vendor", "\\.\"cache"] := by decide +kernel
  obtain ⟨-, -, -, -, hwritten, -⟩ := patterns_agree_iff hopen hothers spelled
  obtain ⟨-, -, -, -, -, hcommas⟩ := patterns_agree_iff hopen hothers "vendor, tmp"
  obtain ⟨hvariable, hargument⟩ := hwritten _ hspelled
  have hitems : ∀ item ∈ ["vendor", "tmp"], IsItem item := by
    simp only [List.forall_mem_cons, List.not_mem_nil, false_implies, implies_true, and_true]
    exact ⟨⟨by decide, by decide, by decide⟩, by decide, by decide, by decide⟩
  have hmalformed : Json.read "vendor, tmp" = .error .malformed := by rfl
  obtain ⟨hrefused, hgiven⟩ := hcommas ["vendor", "tmp"] hitems (by decide) hmalformed
  exact ⟨hopen, ⟨settings, hothers, hinitial⟩, hspelled, hvariable, hargument, hrefused, hgiven⟩

/-- **A list between commas is refused from the environment,** while the caller may give it. -/
theorem comma_list_refused :
    patterns? (Sources.withVariable {} .ignoredPatterns "vendor, tmp") = none ∧
      patterns? (Sources.withArgument {} .ignoredPatterns (.text "vendor, tmp")) =
        some ["vendor", "tmp"] := by
  constructor
  · rfl
  · rfl

end Marginalia.Settings
