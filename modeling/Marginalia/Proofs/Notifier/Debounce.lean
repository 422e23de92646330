import Marginalia.Proofs.Notifier.Hearing
import Marginalia.Proofs.Notifier.Stains

/-!
# Debouncing

A subscription does not tell a change whenever a path is touched.  It records the path and waits
until the path has been quiet for as long as the threshold says; a look at the dirty paths picks the
quiet ones, and their changes are announced one after the other.

Here the chronicle is read one path at a time: `recordOf` is when the path was last recorded unless
it has been picked since, and `dirtySince` tells when it became dirty.  `Debounces` collects what is
to be true of picks, announcements and records, and `debounces_of_turnByTurn` says that it is,
however touching, the time and the dispatcher interleave.

What holds of picks does not hold of announcements: a path that is recorded between its pick and its
announcement is announced twice with no record in between, as `announced_without_record` shows.
-/

namespace Marginalia.Notifier

variable {ℓ : Type}

/-- When the deed records the path, if it does. -/
def Deed.recordedAt? (path : String) : Deed ℓ → Option Int
  | .recorded p time => if p = path then some time else none
  | _ => none

/-- The path that the deed records, with the time. -/
def Deed.record? : Deed ℓ → Option (String × Int)
  | .recorded path time => some (path, time)
  | _ => none

/-- When a path was recorded or some were picked. -/
def Deed.time? : Deed ℓ → Option Int
  | .recorded _ time | .picked _ time => some time
  | _ => none

/-- The deed picks the path. -/
def Deed.picks (path : String) (d : Deed ℓ) : Bool :=
  path ∈ d.pickedPaths

namespace Subscription

/-! ## One path in the chronicle -/

/-- When the path was last recorded, unless it has been picked since. -/
def recordOf (path : String) : List (Deed ℓ) → Option Int
  | [] => none
  | .recorded p time :: c => if p = path then some time else recordOf path c
  | .picked paths _ :: c => if path ∈ paths then none else recordOf path c
  | _ :: c => recordOf path c

/-- How many deeds came before the one that made the path dirty. -/
def dirtySince (path : String) : List (Deed ℓ) → Nat
  | [] => 0
  | .recorded p _ :: c =>
    if p = path ∧ recordOf path c = none then c.length else dirtySince path c
  | _ :: c => dirtySince path c

/-- The times at which the path was recorded, the latest first. -/
def recordTimes (path : String) (c : List (Deed ℓ)) : List Int :=
  c.filterMap (·.recordedAt? path)

/-- The time never ran backwards. -/
def Timely (c : List (Deed ℓ)) : Prop :=
  (c.filterMap Deed.time?).Pairwise (· ≥ ·)

instance (c : List (Deed ℓ)) : Decidable (Timely c) :=
  inferInstanceAs (Decidable (List.Pairwise _ _))

section Path

variable {path : String} {c : List (Deed ℓ)}

lemma lookup_stains (path : String) (c : List (Deed ℓ)) :
    (stains c).lookup path = recordOf path c := by
  induction c with
  | nil => rfl
  | cons d c ih =>
      cases d with
      | recorded p time =>
          rw [stains, recordOf, Entries.lookup_put, ih]
          simp only [eq_comm]
      | picked paths time => rw [stains, recordOf, Entries.lookup_filter_not_mem, ih]
      | _ => exact ih

/-- **A path is dirty** when it has been recorded and not been picked since. -/
lemma mem_stains_iff {time : Int} : (path, time) ∈ stains c ↔ recordOf path c = some time := by
  rw [← Entries.lookup_eq_some_iff (nodup_stains c), lookup_stains]

lemma mem_map_stains_iff : path ∈ (stains c).map Prod.fst ↔ recordOf path c ≠ none := by
  constructor
  · intro hmem
    obtain ⟨entry, hentry, rfl⟩ := List.mem_map.1 hmem
    rw [mem_stains_iff.1 hentry]
    exact Option.some_ne_none _
  · intro hsome
    obtain ⟨time, htime⟩ := Option.ne_none_iff_exists'.1 hsome
    exact List.mem_map_of_mem (mem_stains_iff.2 htime)

/-- A path that is dirty already does not become dirty again. -/
lemma dirtySince_recorded (h : recordOf path c ≠ none) (p : String) (time : Int) :
    dirtySince path (.recorded p time :: c) = dirtySince path c :=
  if_neg fun hnew => h hnew.2

lemma dirtySince_lt (h : recordOf path c ≠ none) : dirtySince path c < c.length := by
  induction c with
  | nil => exact absurd rfl h
  | cons d c ih =>
      rw [List.length_cons]
      by_cases hbefore : recordOf path c = none
      · -- the path becomes dirty by this deed
        cases d with
        | recorded p time =>
            have hp : p = path := by
              by_contra hp
              rw [recordOf, if_neg hp] at h
              exact h hbefore
            rw [dirtySince, if_pos ⟨hp, hbefore⟩]
            exact Nat.lt_succ_self _
        | picked paths time =>
            rw [recordOf, hbefore] at h
            split at h <;> exact absurd rfl h
        | _ => exact absurd hbefore h
      · have hlt := ih hbefore
        have hsame : dirtySince path (d :: c) = dirtySince path c := by
          cases d with
          | recorded p time => exact dirtySince_recorded hbefore p time
          | _ => rfl
        rw [hsame]
        exact Nat.lt_succ_of_lt hlt

/-- **The dirty paths are listed** in the order in which they became dirty. -/
lemma pairwise_stains (c : List (Deed ℓ)) :
    ((stains c).map Prod.fst).Pairwise fun p q => dirtySince p c < dirtySince q c := by
  induction c with
  | nil => exact List.Pairwise.nil
  | cons d c ih =>
      cases d with
      | recorded path time =>
          have hbefore : ((stains c).map Prod.fst).Pairwise fun p q =>
              dirtySince p (.recorded path time :: c) <
                dirtySince q (.recorded path time :: c) := by
            refine ih.imp_of_mem ?_
            intro p q hp hq hlt
            rw [dirtySince_recorded (mem_map_stains_iff.1 hp),
              dirtySince_recorded (mem_map_stains_iff.1 hq)]
            exact hlt
          by_cases hdirty : path ∈ (stains c).map Prod.fst
          · rw [stains, Entries.map_fst_put_of_mem time hdirty]
            exact hbefore
          · have hclean : recordOf path c = none := by
              rw [mem_map_stains_iff, not_not] at hdirty
              exact hdirty
            rw [stains, Entries.put_of_not_mem time hdirty, List.map_append, List.pairwise_append]
            refine ⟨hbefore, List.pairwise_singleton _ _, ?_⟩
            intro p hp q hq
            have hdirtyP := mem_map_stains_iff.1 hp
            rw [List.mem_singleton.1 hq, dirtySince_recorded hdirtyP, dirtySince,
              if_pos ⟨rfl, hclean⟩]
            exact dirtySince_lt hdirtyP
      | picked paths time => exact ih.sublist (List.filter_sublist.map Prod.fst)
      | _ => exact ih

/-! ### Picks -/

lemma Lawful.of_suffix {threshold : Int} {d : List (Deed ℓ)} (h : Lawful threshold d)
    (hpart : c <:+ d) : Lawful threshold c := by
  obtain ⟨later, rfl⟩ := hpart
  induction later with
  | nil => exact h
  | cons e later ih =>
      cases e with
      | picked paths time => exact ih h.2
      | _ => exact ih h

/-- **A pick takes** the paths that were last recorded long enough ago, and no others. -/
lemma mem_picked_iff {threshold time : Int} {paths : List String}
    (h : Lawful threshold (.picked paths time :: c)) :
    path ∈ paths ↔ ∃ t, recordOf path c = some t ∧ threshold ≤ time - t := by
  rw [h.1, quietIn]
  constructor
  · intro hmem
    obtain ⟨⟨p, t⟩, hentry, rfl⟩ := List.mem_map.1 hmem
    obtain ⟨hlisted, hquiet⟩ := List.mem_filter.1 hentry
    exact ⟨t, mem_stains_iff.1 hlisted, of_decide_eq_true hquiet⟩
  · rintro ⟨t, hlast, hquiet⟩
    exact List.mem_map_of_mem (f := Prod.fst)
      (List.mem_filter.2 ⟨mem_stains_iff.2 hlast, decide_eq_true hquiet⟩)

/-- It takes them in the order in which they became dirty. -/
lemma pairwise_picked {threshold time : Int} {paths : List String}
    (h : Lawful threshold (.picked paths time :: c)) :
    paths.Pairwise fun p q => dirtySince p c < dirtySince q c := by
  rw [h.1]
  exact (pairwise_stains c).sublist (List.filter_sublist.map Prod.fst)

/-! ### Records between picks -/

/-- A path that was picked is dirty again only if it has been recorded since. -/
lemma exists_recorded_of_picked {paths : List String} {time t : Int} {between : List (Deed ℓ)}
    (hpicked : path ∈ paths)
    (hlast : recordOf path (between ++ .picked paths time :: c) = some t) :
    ∃ r, .recorded path r ∈ between := by
  induction between with
  | nil =>
      rw [List.nil_append, recordOf, if_pos hpicked] at hlast
      cases hlast
  | cons d between ih =>
      have hearlier (h : recordOf path (between ++ .picked paths time :: c) = some t) :
          ∃ r, .recorded path r ∈ d :: between := by
        obtain ⟨r, hr⟩ := ih h
        exact ⟨r, List.mem_cons_of_mem _ hr⟩
      cases d with
      | recorded p r =>
          by_cases hp : p = path
          · rw [hp]
            exact ⟨r, List.mem_cons_self ..⟩
          · rw [List.cons_append, recordOf, if_neg hp] at hlast
            exact hearlier hlast
      | picked others r =>
          rw [List.cons_append, recordOf] at hlast
          split at hlast
          · cases hlast
          · exact hearlier hlast
      | _ => exact hearlier hlast

lemma recordTimes_cons (d : Deed ℓ) (c : List (Deed ℓ)) :
    recordTimes path (d :: c) = (d.recordedAt? path).toList ++ recordTimes path c := by
  unfold recordTimes
  cases hd : d.recordedAt? path <;> simp [hd]

/-- The last record since the last pick is the last record. -/
lemma head?_recordTimes {t : Int} (hlast : recordOf path c = some t) :
    (recordTimes path c).head? = some t := by
  induction c with
  | nil => cases hlast
  | cons d c ih =>
      rw [recordTimes_cons]
      cases d with
      | recorded p r =>
          by_cases hp : p = path
          · rw [recordOf, if_pos hp] at hlast
            rw [Deed.recordedAt?, if_pos hp]
            exact hlast
          · rw [recordOf, if_neg hp] at hlast
            rw [Deed.recordedAt?, if_neg hp]
            exact ih hlast
      | picked paths r =>
          rw [recordOf] at hlast
          split at hlast
          · cases hlast
          · exact ih hlast
      | _ => exact ih hlast

/-- Where the path was not picked the last record is the last one since it was picked. -/
lemma recordOf_of_not_picked {between : List (Deed ℓ)} {first : Int}
    (hnot : ∀ d ∈ between, d.picks path = false) :
    recordOf path (between ++ .recorded path first :: c) =
      (recordTimes path (between ++ [.recorded path first])).head? := by
  induction between with
  | nil => simp [recordOf, recordTimes, Deed.recordedAt?]
  | cons d between ih =>
      obtain ⟨hd, hrest⟩ := List.forall_mem_cons.1 hnot
      have hearlier := ih hrest
      rw [List.cons_append, List.cons_append, recordTimes_cons]
      cases d with
      | recorded p r =>
          by_cases hp : p = path
          · rw [recordOf, if_pos hp, Deed.recordedAt?, if_pos hp]
            rfl
          · rw [recordOf, if_neg hp, Deed.recordedAt?, if_neg hp]
            exact hearlier
      | picked paths r =>
          have hout : path ∉ paths := of_decide_eq_false hd
          rw [recordOf, if_neg hout]
          exact hearlier
      | _ => exact hearlier

lemma recordTimes_append (c d : List (Deed ℓ)) :
    recordTimes path (c ++ d) = recordTimes path c ++ recordTimes path d :=
  List.filterMap_append

lemma recorded_of_mem_recordTimes {t : Int} (h : t ∈ recordTimes path c) :
    .recorded path t ∈ c := by
  obtain ⟨d, hd, ht⟩ := List.mem_filterMap.1 h
  cases d with
  | recorded p r =>
      rw [Deed.recordedAt?] at ht
      split at ht
      · rename_i hp
        rw [← hp, ← Option.some.inj ht]
        exact hd
      · cases ht
  | _ => cases ht

lemma exists_of_picks {d : Deed ℓ} (h : d.picks path) :
    ∃ paths time, d = .picked paths time ∧ path ∈ paths := by
  cases d with
  | picked paths time => exact ⟨paths, time, rfl, of_decide_eq_true h⟩
  | _ => cases h

/-- Unless a path is picked once at most there are two picks of it. -/
lemma exists_two_picks (h : ¬ (c.filter (·.picks path)).length ≤ 1) :
    ∃ (a : List (Deed ℓ)) (paths : List String) (time : Int) (b : List (Deed ℓ))
      (others : List String) (before : Int) (d : List (Deed ℓ)),
      c = a ++ .picked paths time :: (b ++ .picked others before :: d) ∧ path ∈ paths ∧
        path ∈ others := by
  cases hpicks : c.filter (·.picks path) with
  | nil => simp [hpicks] at h
  | cons x l =>
      cases l with
      | nil => simp [hpicks] at h
      | cons y l =>
          obtain ⟨a, earlier, rfl, -, hx, hsecond⟩ := List.filter_eq_cons_iff.1 hpicks
          obtain ⟨b, d, rfl, -, hy, -⟩ := List.filter_eq_cons_iff.1 hsecond
          obtain ⟨paths, time, rfl, hpath⟩ := exists_of_picks hx
          obtain ⟨others, before, rfl, hother⟩ := exists_of_picks hy
          exact ⟨a, paths, time, b, others, before, d, rfl, hpath, hother⟩

/-! ### Time -/

lemma Timely.of_suffix {d : List (Deed ℓ)} (h : Timely d) (hpart : c <:+ d) : Timely c :=
  List.Pairwise.sublist (hpart.sublist.filterMap _) h

/-- What was done later was done at a later time. -/
lemma Timely.le {later : List (Deed ℓ)} (h : Timely (later ++ c)) {d e : Deed ℓ} {t u : Int}
    (hd : d ∈ later) (he : e ∈ c) (ht : d.time? = some t) (hu : e.time? = some u) : u ≤ t := by
  rw [Timely, List.filterMap_append] at h
  have hall := (List.pairwise_append.1 h).2.2
  exact hall t (List.mem_filterMap.2 ⟨d, hd, ht⟩) u (List.mem_filterMap.2 ⟨e, he, hu⟩)

lemma time?_of_recordedAt? {d : Deed ℓ} {t : Int} (h : d.recordedAt? path = some t) :
    d.time? = some t := by
  cases d with
  | recorded p r =>
      rw [Deed.recordedAt?] at h
      split at h
      · exact h
      · cases h
  | _ => cases h

/-- The last record is the latest. -/
lemma Timely.le_of_head? (h : Timely c) {t u : Int} (ht : (recordTimes path c).head? = some t)
    (hu : u ∈ recordTimes path c) : u ≤ t := by
  have hordered : (recordTimes path c).Pairwise (· ≥ ·) := by
    rw [Timely, List.pairwise_filterMap] at h
    rw [recordTimes, List.pairwise_filterMap]
    refine h.imp ?_
    intro d e hde r hr v hv
    exact hde r (time?_of_recordedAt? hr) v (time?_of_recordedAt? hv)
  obtain ⟨rest, hrest⟩ := List.head?_eq_some_iff.1 ht
  rw [hrest] at hordered hu
  rcases List.mem_cons.1 hu with rfl | hmem
  · exact Int.le_refl u
  · exact (List.pairwise_cons.1 hordered).1 u hmem

/-- **A burst is picked once.** If each record of a path comes sooner after the one before than the
threshold, the path is picked at most once from the first of them on. -/
lemma length_picks_le_one {threshold first : Int} {burst : List (Deed ℓ)}
    (hlawful : Lawful threshold (burst ++ .recorded path first :: c))
    (htimely : Timely (burst ++ .recorded path first :: c))
    (hdense : (recordTimes path (burst ++ [.recorded path first])).IsChain
      fun later earlier => later - earlier < threshold) :
    (burst.filter (·.picks path)).length ≤ 1 := by
  by_contra hmany
  obtain ⟨a, paths, time, b, others, before, d, rfl, hpath, hother⟩ := exists_two_picks hmany
  have hsecond : Lawful threshold (.picked paths time ::
      (b ++ .picked others before :: (d ++ .recorded path first :: c))) := by
    simp only [List.append_assoc, List.cons_append] at hlawful
    exact hlawful.of_suffix (List.suffix_append _ _)
  have hfirst := hsecond.2.of_suffix (List.suffix_append _ _)
  obtain ⟨t, hlast, -⟩ := (mem_picked_iff hsecond).1 hpath
  obtain ⟨u, hprevious, hquiet⟩ := (mem_picked_iff hfirst).1 hother
  -- the path is recorded between the two picks, for the first time at `v`
  obtain ⟨r, hr⟩ := exists_recorded_of_picked hother hlast
  have hsome : recordTimes path b ≠ [] :=
    List.ne_nil_of_mem (List.mem_filterMap.2 ⟨_, hr, if_pos rfl⟩)
  obtain ⟨v, hv⟩ := Option.ne_none_iff_exists'.1 (mt List.getLast?_eq_none_iff.1 hsome)
  have hlater : before ≤ v := by
    have hall : Timely ((a ++ .picked paths time :: b) ++
        .picked others before :: (d ++ .recorded path first :: c)) := by
      simpa using htimely
    have hmem := recorded_of_mem_recordTimes (List.mem_of_getLast? hv)
    exact hall.le (List.mem_append_right _ (List.mem_cons_of_mem _ hmem))
      (List.mem_cons_self ..) rfl rfl
  -- and the last record before the earlier pick was made at `u`
  have hu : (recordTimes path (d ++ [.recorded path first])).head? = some u := by
    have hhead := head?_recordTimes hprevious
    rw [List.append_cons, recordTimes_append, List.head?_append] at hhead
    have hne : (recordTimes path (d ++ [.recorded path first])).head? ≠ none := by
      simp [recordTimes, Deed.recordedAt?]
    obtain ⟨w, hw⟩ := Option.ne_none_iff_exists'.1 hne
    rw [hw, Option.some_or] at hhead
    rw [hw, hhead]
  have hsplit : recordTimes path (a ++ .picked paths time ::
        (b ++ .picked others before :: (d ++ [.recorded path first]))) =
      recordTimes path a ++
        (recordTimes path b ++ recordTimes path (d ++ [.recorded path first])) := by
    rw [recordTimes_append, recordTimes_cons, recordTimes_append, recordTimes_cons]
    rfl
  simp only [List.append_assoc, List.cons_append] at hdense
  rw [hsplit, List.isChain_append, List.isChain_append] at hdense
  have hsoon := hdense.2.1.2.2 v hv u hu
  omega

/-- When a path is picked no record of it is recent. -/
lemma quiet_of_picked {threshold time : Int} {paths : List String}
    (hlawful : Lawful threshold (.picked paths time :: c)) (htimely : Timely c)
    (hpath : path ∈ paths) : ∀ t ∈ recordTimes path c, threshold ≤ time - t := by
  intro t ht
  obtain ⟨last, hlast, hquiet⟩ := (mem_picked_iff hlawful).1 hpath
  have hle : t ≤ last := htimely.le_of_head? (head?_recordTimes hlast) ht
  omega

/-- **A record is followed by a pick**: the first look at the dirty paths that finds the path quiet
picks it. -/
lemma picked_of_quiet {threshold first time : Int} {paths : List String}
    {between : List (Deed ℓ)}
    (hlawful : Lawful threshold (.picked paths time :: (between ++ .recorded path first :: c)))
    (htimely : Timely (between ++ .recorded path first :: c))
    (hrestless : ∀ (later : List (Deed ℓ)) (others : List String) (before : Int)
      (earlier : List (Deed ℓ)), between = later ++ .picked others before :: earlier →
        ¬ ∀ t ∈ recordTimes path (earlier ++ [.recorded path first]), threshold ≤ before - t)
    (hquiet : ∀ t ∈ recordTimes path (between ++ [.recorded path first]), threshold ≤ time - t) :
    path ∈ paths := by
  have hnot : ∀ d ∈ between, d.picks path = false := by
    intro d hd
    rw [Bool.eq_false_iff]
    intro hpicks
    obtain ⟨others, before, rfl, hother⟩ := exists_of_picks hpicks
    obtain ⟨later, earlier, rfl⟩ := List.append_of_mem hd
    have hpart : earlier ++ .recorded path first :: c <:+
        .picked others before :: earlier ++ .recorded path first :: c := List.suffix_cons _ _
    rw [List.append_assoc] at hlawful htimely
    have hwhole := List.suffix_append later
      (.picked others before :: earlier ++ .recorded path first :: c)
    apply hrestless later others before earlier rfl
    intro t ht
    have hmem : t ∈ recordTimes path (earlier ++ .recorded path first :: c) := by
      rw [List.append_cons, recordTimes_append]
      exact List.mem_append_left _ ht
    exact quiet_of_picked (hlawful.2.of_suffix hwhole)
      (htimely.of_suffix (hpart.trans hwhole)) hother t hmem
  have hsome : recordTimes path (between ++ [.recorded path first]) ≠ [] := by
    simp [recordTimes, Deed.recordedAt?]
  obtain ⟨t, rest, htimes⟩ := List.exists_cons_of_ne_nil hsome
  rw [mem_picked_iff hlawful, recordOf_of_not_picked hnot]
  refine ⟨t, ?_, hquiet t ?_⟩
  · rw [htimes]
    rfl
  · rw [htimes]
    exact List.mem_cons_self ..

end Path

/-! ## Runs -/

section Runs

variable {s : Subscription ℓ} {h : History ℓ}

/-- The path that an input touches, as far as the observer sees it. -/
def touched? (s : Subscription ℓ) : Input ℓ → Option String
  | .record path => some path
  | .raw r => if s.observes then r.touched? else none
  | _ => none

/-- The paths that are touched in the course of a history and not ignored, each with its time, the
latest first. -/
def touches (s : Subscription ℓ) (h : History ℓ) : List (String × Int) :=
  h.filterMap fun i =>
    ((s.touched? i.2).filter fun path => !s.ignores path).map fun path => (path, i.1)

lemma records_deeds (s : Subscription ℓ) (now : Int) (i : Input ℓ) :
    (s.deeds now i).filterMap Deed.record? =
      ((s.recorded? i).map fun path => (path, now)).toList := by
  unfold deeds
  cases s.recorded? i <;> simp [List.filterMap_map, Function.comp_def, Deed.record?]

/-- What an open subscription takes note of are the paths that are touched and not ignored. -/
lemma recorded?_eq (hopen : s.closed = false) (i : Input ℓ) :
    s.recorded? i = (s.touched? i).filter fun path => !s.ignores path := by
  cases i with
  | record path => simp [recorded?, touched?, takes, hopen, Option.filter]
  | raw r =>
      by_cases hobserves : s.observes <;> simp [recorded?, touched?, takes, hopen, hobserves]
  | _ => rfl

/-- **What is recorded** are the paths that were touched and are not ignored. -/
lemma records_eq_touches (hopen : (s.after h).closed = false) :
    (s.chronicle h).filterMap Deed.record? = s.touches h := by
  induction h with
  | nil => rfl
  | cons i h ih =>
      have hbefore := open_of_cons hopen
      have hrecorded : (s.after h).recorded? i.2 =
          (s.touched? i.2).filter fun path => !s.ignores path := by
        have hobserves : (s.after h).observes = s.observes :=
          (kept_lasts.run s h.reverse).observes
        have hignores (path : String) : (s.after h).ignores path = s.ignores path :=
          (goesOn_run s h.reverse).ignores path
        have htouched : (s.after h).touched? i.2 = s.touched? i.2 := by
          unfold touched?
          rw [hobserves]
        rw [recorded?_eq hbefore, htouched]
        simp only [hignores]
      rw [chronicle, List.filterMap_append, records_deeds, ih hbefore, touches, touches,
        hrecorded, List.filterMap_cons]
      cases ((s.touched? i.2).filter fun path => !s.ignores path) <;> rfl

/-- How a subscription debounces what is recorded, in the course of a history. -/
structure Debounces (s : Subscription ℓ) (h : History ℓ) : Prop where
  /-- Recorded are the paths that were touched, except for ignored ones. -/
  records : (s.chronicle h).filterMap Deed.record? = s.touches h
  /-- Dirty are the paths that were recorded since they were last picked, each with the time of its
  last record. -/
  dirty : ∀ path time,
    (path, time) ∈ (s.after h).dirty ↔ recordOf path (s.chronicle h) = some time
  /-- They are listed in the order in which they became dirty, each once. -/
  order : ((s.after h).dirty.map Prod.fst).Pairwise fun p q =>
    dirtySince p (s.chronicle h) < dirtySince q (s.chronicle h)
  /-- Picked are the dirty paths whose last record is old enough, in the order in which they became
  dirty. -/
  picks : ∀ (later : List (Deed ℓ)) (paths : List String) (time : Int) (earlier : List (Deed ℓ)),
    s.chronicle h = later ++ .picked paths time :: earlier →
      (∀ path, path ∈ paths ↔
        ∃ t, recordOf path earlier = some t ∧ t ≤ time - s.options.stabilityThreshold) ∧
      paths.Pairwise fun p q => dirtySince p earlier < dirtySince q earlier
  /-- The changes that were announced, and those that the dispatcher is still to announce, are those
  of the picked paths, in order.  Some are left out only when a turn ends with a failure. -/
  announces :
    (announcedIn (s.chronicle h) ++ unannounced (s.after h).tasks).Sublist
        (pickedIn (s.chronicle h)) ∧
      (Contained h → announcedIn (s.chronicle h) ++ unannounced (s.after h).tasks =
        pickedIn (s.chronicle h))
  /-- If no turn begins while a listener is being called, those who listen to changes are called for
  every change that is emitted: the announced ones, and those of the queue.  Some are left out only
  when a call ends with a failure. -/
  heard : s.Orderly h →
    (about .change (s.calls h) ++ owed .change (s.after h).tasks).Sublist
        (duty .change (s.chronicle h)) ∧
      (Contained h → about .change (s.calls h) ++ owed .change (s.after h).tasks =
        duty .change (s.chronicle h))
  /-- Every turn of the dispatcher looks at the dirty paths once; it may have to wait until the
  event that it began with has been heard, and does not come to it when it ends with a failure. -/
  looks :
    (s.chronicle h).countP Deed.isLook + (unfinished (s.after h).tasks).countP Sequel.looks ≤
        h.countP (·.2.isTurn) ∧
      (Contained h →
        (s.chronicle h).countP Deed.isLook + (unfinished (s.after h).tasks).countP Sequel.looks =
          h.countP (·.2.isTurn))
  /-- Between two picks of a path it was recorded. -/
  between : ∀ (later : List (Deed ℓ)) (paths : List String) (time : Int)
      (between : List (Deed ℓ)) (others : List String) (before : Int) (earlier : List (Deed ℓ))
      (path : String),
    s.chronicle h = later ++ .picked paths time :: (between ++ .picked others before :: earlier) →
    path ∈ paths → path ∈ others → ∃ t, .recorded path t ∈ between
  /-- From a record on a path is picked at most once, as long as each record of it comes sooner
  after the one before than the threshold. -/
  burst : ∀ (later burst : List (Deed ℓ)) (path : String) (first : Int) (earlier : List (Deed ℓ)),
    s.chronicle h = later ++ (burst ++ .recorded path first :: earlier) →
    (recordTimes path (burst ++ [.recorded path first])).IsChain
      (fun t u => t - u < s.options.stabilityThreshold) →
    (burst.filter (·.picks path)).length ≤ 1
  /-- After a record the path is picked by the first look at the dirty paths that finds no record of
  it too recent. -/
  followed : ∀ (later : List (Deed ℓ)) (paths : List String) (time : Int)
      (between : List (Deed ℓ)) (path : String) (first : Int) (earlier : List (Deed ℓ)),
    s.chronicle h = later ++ .picked paths time :: (between ++ .recorded path first :: earlier) →
    (∀ (since : List (Deed ℓ)) (others : List String) (before : Int) (part : List (Deed ℓ)),
      between = since ++ .picked others before :: part →
      ¬ ∀ t ∈ recordTimes path (part ++ [.recorded path first]),
        s.options.stabilityThreshold ≤ before - t) →
    (∀ t ∈ recordTimes path (between ++ [.recorded path first]),
      s.options.stabilityThreshold ≤ time - t) →
    path ∈ paths

/-- **Debouncing neither loses nor invents changes.** Take a subscription that was opened and any
history that leaves it open, in which the time does not run backwards and the dispatcher takes its
turns one after the other; paths may be touched at any time, also while listeners are being called.

Then what is dirty, what is picked and what is announced is what the chronicle says of each path on
its own, and the order is that in which the paths became dirty.  Nothing is assumed of the
listeners; but a turn that ends because one fails in a way that cannot be reported leaves out the
rest of what it was to do. -/
theorem debounces_of_turnByTurn {around : Surroundings} {paths : List String} {o : Options}
    {notes : List Note} (hstart : start ℓ around paths o = (notes, .ok s))
    (hturns : s.TurnByTurn h) (htimely : Timely (s.chronicle h))
    (hopen : (s.after h).closed = false) : s.Debounces h := by
  have hnew := isNew_of_start hstart
  obtain ⟨hdirty, hlawful⟩ := dirty_eq_stains hnew hopen
  have hpicks {later earlier : List (Deed ℓ)} {paths : List String} {time : Int}
      (hc : s.chronicle h = later ++ .picked paths time :: earlier) :
      Lawful s.options.stabilityThreshold (.picked paths time :: earlier) := by
    rw [hc] at hlawful
    exact hlawful.of_suffix (List.suffix_append _ _)
  constructor
  · exact records_eq_touches hopen
  · intro path time
    rw [hdirty, mem_stains_iff]
  · rw [hdirty]
    exact pairwise_stains _
  · intro later paths time earlier hc
    refine ⟨fun path => ?_, pairwise_picked (hpicks hc)⟩
    rw [mem_picked_iff (hpicks hc)]
    have hold (t : Int) : s.options.stabilityThreshold ≤ time - t ↔
        t ≤ time - s.options.stabilityThreshold := by omega
    simp only [hold]
  · exact (announced_of_picked hnew hturns hopen).2
  · intro horderly
    have hduty := (dutiful_of_isNew hnew horderly hopen).2.2 .change
    exact ⟨hduty.calls, hduty.calls_eq⟩
  · exact looks_of_turns hnew hopen
  · intro later paths time between others before earlier path hc hpath hother
    obtain ⟨t, hlast, -⟩ := (mem_picked_iff (hpicks hc)).1 hpath
    exact exists_recorded_of_picked hother hlast
  · intro later burst path first earlier hc hdense
    rw [hc] at hlawful htimely
    have hpart := List.suffix_append later (burst ++ .recorded path first :: earlier)
    exact length_picks_le_one (hlawful.of_suffix hpart) (htimely.of_suffix hpart) hdense
  · intro later paths time between path first earlier hc hrestless hquiet
    have hpart : between ++ .recorded path first :: earlier <:+ s.chronicle h := by
      rw [hc]
      exact (List.suffix_cons _ _).trans (List.suffix_append _ _)
    exact picked_of_quiet (hpicks hc) (htimely.of_suffix hpart) hrestless hquiet

end Runs

/-- The file `/w/b.py` is touched again while the listener hears of `/w/a.py`. -/
def touchedWhileTold : History Nat :=
  [(1060, .turn), (560, .answer .returned), (560, .answer .returned), (550, .record "/w/b.py"),
    (500, .turn), (0, .record "/w/b.py"), (0, .record "/w/a.py"), (0, .turn),
    (0, .attach .change 0)]

theorem debounces_of_turnByTurn_of_touchedWhileTold :
    ∃ notes s, start Nat workshop ["/w"] {} = (notes, .ok s) ∧ s.TurnByTurn touchedWhileTold ∧
      Timely (s.chronicle touchedWhileTold) ∧ (s.after touchedWhileTold).closed = false ∧
      s.Debounces touchedWhileTold ∧
      pickedIn (s.chronicle touchedWhileTold) = ["/w/a.py", "/w/b.py", "/w/b.py"] := by
  obtain ⟨notes, s, hstart, hturns, htimely, hopen, hpicked⟩ :
      ∃ notes s, start Nat workshop ["/w"] {} = (notes, .ok s) ∧ s.TurnByTurn touchedWhileTold ∧
        Timely (s.chronicle touchedWhileTold) ∧ (s.after touchedWhileTold).closed = false ∧
        pickedIn (s.chronicle touchedWhileTold) = ["/w/a.py", "/w/b.py", "/w/b.py"] :=
    exists_start (by decide +kernel)
  have hdebounces := debounces_of_turnByTurn hstart hturns htimely hopen
  exact ⟨notes, s, hstart, hturns, htimely, hopen, hdebounces, hpicked⟩

/-- **Two announcements with no record in between.** The file is recorded after it was picked and
before it is announced. -/
theorem announced_without_record :
    ∃ notes s, start Nat workshop ["/w"] {} = (notes, .ok s) ∧ s.TurnByTurn touchedWhileTold ∧
      Timely (s.chronicle touchedWhileTold) ∧ (s.after touchedWhileTold).closed = false ∧
      ∃ later between earlier : List (Deed Nat),
        s.chronicle touchedWhileTold =
          later ++ .announced "/w/b.py" :: (between ++ .announced "/w/b.py" :: earlier) ∧
        ∀ time, .recorded "/w/b.py" time ∉ between := by
  obtain ⟨notes, s, hstart, hturns, htimely, hopen, hchronicle⟩ :
      ∃ notes s, start Nat workshop ["/w"] {} = (notes, .ok s) ∧ s.TurnByTurn touchedWhileTold ∧
        Timely (s.chronicle touchedWhileTold) ∧ (s.after touchedWhileTold).closed = false ∧
        s.chronicle touchedWhileTold =
          [.announced "/w/b.py", .picked ["/w/b.py"] 1110, .announced "/w/b.py",
            .recorded "/w/b.py" 550, .announced "/w/a.py", .picked ["/w/a.py", "/w/b.py"] 550,
            .recorded "/w/b.py" 0, .recorded "/w/a.py" 0, .picked [] 0, .dequeued .ready,
            .attached .change 0] :=
    exists_start (by decide +kernel)
  refine ⟨notes, s, hstart, hturns, htimely, hopen, [], [.picked ["/w/b.py"] 1110], _,
    hchronicle, ?_⟩
  intro time hmem
  cases List.mem_singleton.1 hmem

end Subscription

end Marginalia.Notifier
