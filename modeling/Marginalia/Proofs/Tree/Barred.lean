import Marginalia.Proofs.Tree

/-!
# Directories that cannot be listed

A walk goes on where a directory cannot be listed.  `Tree.Bars` says that some names lead to such a
directory.  `exists_barred` says that the walk tells of each one that it reaches, once, with its own
failure.

`Tree.deny` makes directories of a tree unlistable, and `Tree.Behind` are the places below these.  A
walk through the denied tree finds what a walk through the tree does, in the same order, but for the
places behind denied directories: `sublist_walk_deny` and `mem_walk_deny_iff`.
-/

namespace Marginalia

/-- The failure that was met. -/
def Found.failure? : Found → Option Failure
  | .failure why => some why
  | .file _ => none

namespace Tree

/-! ## The directories that are told of -/

/-- Some names lead from a directory to one that cannot be listed, through directories that can. -/
inductive Bars : Tree → List String → Failure → Prop
  /-- The directory itself cannot be listed. -/
  | here {why : Failure} : Bars (.unlistable why) [] why
  /-- It is below one of the directories in the directory. -/
  | deeper {files : List String} {directories : List (String × Tree)} {name : String} {t : Tree}
      {names : List String} {why : Failure} :
      (name, t) ∈ directories → Bars t names why →
      Bars (.listed files directories) (name :: names) why

mutual

/-- The directories that a walk cannot list, by the names that lead there, with the failures. -/
def barred (keeps : String → Bool) (path : String) : Tree → List (List String × Failure)
  | .unlistable why => [([], why)]
  | .listed _ directories => barredEach keeps path directories

/-- Those that the walks through the directories in the directory at `path` cannot list. -/
def barredEach (keeps : String → Bool) (path : String) :
    List (String × Tree) → List (List String × Failure)
  | [] => []
  | (name, t) :: rest =>
    (if keeps (Path.join path name) then
        (barred keeps (Path.join path name) t).map (Prod.map (name :: ·) id)
      else [])
      ++ barredEach keeps path rest

end

section Barred

variable (keeps : String → Bool)

lemma failures_files (paths : List String) :
    (paths.map Found.file).filterMap Found.failure? = [] := by
  rw [List.filterMap_eq_nil_iff]
  intro found hfound
  obtain ⟨path, -, rfl⟩ := List.mem_map.1 hfound
  rfl

mutual

/-- A walk tells of the directories that it cannot list, in its order. -/
theorem failures_walk (path : String) : ∀ t : Tree,
    (t.walk keeps path).filterMap Found.failure? = (t.barred keeps path).map Prod.snd
  | .unlistable why => rfl
  | .listed files directories => by
      rw [walk, List.filterMap_append, failures_files, List.nil_append, barred]
      exact failures_walkEach path directories

theorem failures_walkEach (path : String) : ∀ directories : List (String × Tree),
    (walkEach keeps path directories).filterMap Found.failure? =
      (barredEach keeps path directories).map Prod.snd
  | [] => rfl
  | (name, t) :: rest => by
      rw [walkEach, barredEach, List.filterMap_append, List.map_append, failures_walkEach path rest]
      by_cases hkeeps : keeps (Path.join path name) = true
      · rw [if_pos hkeeps, if_pos hkeeps, failures_walk (Path.join path name) t, List.map_map]
        rfl
      · rw [if_neg hkeeps, if_neg hkeeps]
        rfl

end

variable {keeps} {files : List String} {directories : List (String × Tree)} {names : List String}
  {why : Failure} {path : String}

lemma not_bars_listed_nil : ¬ (Tree.listed files directories).Bars [] why := by
  intro h
  cases h

lemma bars_listed_cons_iff {name : String} :
    (Tree.listed files directories).Bars (name :: names) why ↔
      ∃ t, (name, t) ∈ directories ∧ t.Bars names why := by
  constructor
  · intro h
    cases h with
    | deeper hmem hbars => exact ⟨_, hmem, hbars⟩
  · rintro ⟨t, hmem, hbars⟩
    exact .deeper hmem hbars

lemma not_mem_barredEach_nil : ([], why) ∉ barredEach keeps path directories := by
  induction directories with
  | nil => exact List.not_mem_nil
  | cons d rest ih =>
      obtain ⟨name, t⟩ := d
      rw [barredEach, List.mem_append, not_or]
      refine ⟨?_, ih⟩
      split <;> simp

lemma mem_barredEach_cons_iff {name : String} :
    (name :: names, why) ∈ barredEach keeps path directories ↔
      ∃ t, (name, t) ∈ directories ∧ keeps (Path.join path name) = true ∧
        (names, why) ∈ t.barred keeps (Path.join path name) := by
  induction directories with
  | nil => simp [barredEach]
  | cons d rest ih =>
      obtain ⟨other, u⟩ := d
      have hfirst : (name :: names, why) ∈ (if keeps (Path.join path other) then
            (u.barred keeps (Path.join path other)).map (Prod.map (other :: ·) id) else []) ↔
          name = other ∧ keeps (Path.join path name) = true ∧
            (names, why) ∈ u.barred keeps (Path.join path name) := by
        by_cases hname : name = other
        · subst hname
          split <;> simp [*]
        · split <;> simp [hname, Ne.symm hname]
      rw [barredEach, List.mem_append, ih, hfirst]
      constructor
      · rintro (⟨rfl, hreached⟩ | ⟨t, hmem, hreached⟩)
        · exact ⟨u, List.mem_cons_self .., hreached⟩
        · exact ⟨t, List.mem_cons_of_mem _ hmem, hreached⟩
      · rintro ⟨t, hmem, hreached⟩
        rcases List.mem_cons.1 hmem with heq | hmem
        · obtain ⟨rfl, rfl⟩ := Prod.mk.inj heq
          exact Or.inl ⟨rfl, hreached⟩
        · exact Or.inr ⟨t, hmem, hreached⟩

lemma keptOn_nil : KeptOn keeps path [] := by
  intro front hfront hne
  exact absurd (List.prefix_nil.1 hfront) hne

lemma bars_unlistable_iff {reason : Failure} :
    (Tree.unlistable reason).Bars names why ↔ names = [] ∧ why = reason := by
  constructor
  · intro h
    cases h
    exact ⟨rfl, rfl⟩
  · rintro ⟨rfl, rfl⟩
    exact .here

/-- **The directories that are told of** are those that are reached. -/
lemma mem_barred_iff {t : Tree} :
    (names, why) ∈ t.barred keeps path ↔ t.Bars names why ∧ KeptOn keeps path names := by
  induction names generalizing t path with
  | nil =>
      cases t with
      | unlistable reason =>
          simp [barred, bars_unlistable_iff, keptOn_nil]
      | listed files directories =>
          rw [barred]
          exact iff_of_false not_mem_barredEach_nil fun h => not_bars_listed_nil h.1
  | cons name names ih =>
      cases t with
      | unlistable reason => simp [barred, bars_unlistable_iff]
      | listed files directories =>
          rw [barred, mem_barredEach_cons_iff, bars_listed_cons_iff, keptOn_cons_iff]
          constructor
          · rintro ⟨t, hmem, hkeeps, hbarred⟩
            obtain ⟨hbars, hkept⟩ := ih.1 hbarred
            exact ⟨⟨t, hmem, hbars⟩, hkeeps, hkept⟩
          · rintro ⟨⟨t, hmem, hbars⟩, hkeeps, hkept⟩
            exact ⟨t, hmem, hkeeps, ih.2 ⟨hbars, hkept⟩⟩

mutual

/-- No directory is told of twice in a proper tree. -/
theorem nodup_barred (keeps : String → Bool) (path : String) :
    ∀ t : Tree, t.Proper → ((t.barred keeps path).map Prod.fst).Nodup
  | .unlistable why, _ => List.nodup_singleton _
  | .listed files directories, h => by
      rw [barred]
      exact nodup_barredEach keeps path directories
        (h.of_sublist (List.nil_sublist _) (List.Sublist.refl _))

theorem nodup_barredEach (keeps : String → Bool) (path : String) :
    ∀ directories : List (String × Tree), (listed [] directories).Proper →
      ((barredEach keeps path directories).map Prod.fst).Nodup
  | [], _ => List.nodup_nil
  | (name, t) :: rest, h => by
      have hrest := nodup_barredEach keeps path rest
        (h.of_sublist (List.Sublist.refl _) (List.sublist_cons_self _ _))
      have hfirst := nodup_barred keeps (Path.join path name) t
        (h.directory (List.mem_cons_self ..))
      rw [barredEach, List.map_append]
      refine List.nodup_append.2 ⟨?_, hrest, ?_⟩
      · split
        · rw [List.map_map]
          have hcons : (t.barred keeps (Path.join path name)).map
              (Prod.fst ∘ Prod.map (name :: ·) id) =
              ((t.barred keeps (Path.join path name)).map Prod.fst).map (name :: ·) := by
            rw [List.map_map]
            rfl
          rw [hcons]
          exact hfirst.map (List.cons_injective)
        · exact List.nodup_nil
      · -- The first of the names is that of the directory, which is there once.
        rintro names hnames _ hothers rfl
        split at hnames
        · obtain ⟨⟨_, why⟩, hreached, rfl⟩ := List.mem_map.1 hnames
          obtain ⟨⟨more, reason⟩, -, heq⟩ := List.mem_map.1 hreached
          obtain ⟨rfl, rfl⟩ := Prod.mk.inj heq
          obtain ⟨⟨_, failure⟩, hother, rfl⟩ := List.mem_map.1 hothers
          obtain ⟨u, hmem, -⟩ := mem_barredEach_cons_iff.1 hother
          cases h with
          | listed hnames _ _ =>
              rw [List.nil_append, List.map_cons, List.nodup_cons] at hnames
              have hagain : name ∈ rest.map Prod.fst := List.mem_map_of_mem hmem
              exact hnames.1 hagain
        · exact absurd hnames List.not_mem_nil

end

/-- **A walk tells of each directory** that it reaches and cannot list, once. -/
theorem exists_barred (keeps : String → Bool) (path : String) {t : Tree} (ht : t.Proper) :
    ∃ bars : List (List String × Failure), (bars.map Prod.fst).Nodup ∧
      (∀ names why, (names, why) ∈ bars ↔ t.Bars names why ∧ KeptOn keeps path names) ∧
      (t.walk keeps path).filterMap Found.failure? = bars.map Prod.snd :=
  ⟨t.barred keeps path, nodup_barred keeps path t ht, fun _ _ => mem_barred_iff,
    failures_walk keeps path t⟩

end Barred

/-! ## Making directories unlistable -/

mutual

/-- The tree with some more directories that cannot be listed. -/
def deny (denied : String → Option Failure) (path : String) : Tree → Tree
  | .unlistable why => .unlistable why
  | .listed files directories =>
    match denied path with
    | some why => .unlistable why
    | none => .listed files (denyEach denied path directories)

/-- The directories in the directory at `path`, where some more cannot be listed. -/
def denyEach (denied : String → Option Failure) (path : String) :
    List (String × Tree) → List (String × Tree)
  | [] => []
  | (name, t) :: rest =>
    (name, deny denied (Path.join path name) t) :: denyEach denied path rest

end

mutual

/-- Nothing changes when no directory is denied. -/
theorem deny_none (path : String) : ∀ t : Tree, t.deny (fun _ => none) path = t
  | .unlistable why => rfl
  | .listed files directories => by rw [deny, denyEach_none path directories]

theorem denyEach_none (path : String) : ∀ directories : List (String × Tree),
    denyEach (fun _ => none) path directories = directories
  | [] => rfl
  | (name, t) :: rest => by
      rw [denyEach, deny_none (Path.join path name) t, denyEach_none path rest]

end

/-- The place is behind a denied directory: some names lead there from the directory at `path`, and
one of the directories that they pass is denied. -/
def Behind (denied : String → Option Failure) (path place : String) : Prop :=
  ∃ front rest, (∀ name ∈ front ++ rest, Path.Plain name) ∧ rest ≠ [] ∧
    place = Path.below path (front ++ rest) ∧ (denied (Path.below path front)).isSome

section Denied

variable {denied : String → Option Failure} {path : String} {files : List String}
  {directories : List (String × Tree)} {names : List String}

lemma deny_of_some {why : Failure} (h : denied path = some why) :
    (Tree.listed files directories).deny denied path = .unlistable why := by
  rw [deny, h]

lemma deny_of_none (h : denied path = none) :
    (Tree.listed files directories).deny denied path =
      .listed files (denyEach denied path directories) := by
  rw [deny, h]

lemma mem_denyEach_iff {name : String} {u : Tree} :
    (name, u) ∈ denyEach denied path directories ↔
      ∃ t, (name, t) ∈ directories ∧ u = t.deny denied (Path.join path name) := by
  induction directories with
  | nil => simp [denyEach]
  | cons d rest ih =>
      obtain ⟨other, t⟩ := d
      rw [denyEach, List.mem_cons, ih]
      constructor
      · rintro (heq | ⟨t, hmem, rfl⟩)
        · obtain ⟨rfl, rfl⟩ := Prod.mk.inj heq
          exact ⟨t, List.mem_cons_self .., rfl⟩
        · exact ⟨t, List.mem_cons_of_mem _ hmem, rfl⟩
      · rintro ⟨t, hmem, rfl⟩
        rcases List.mem_cons.1 hmem with heq | hmem
        · obtain ⟨rfl, rfl⟩ := Prod.mk.inj heq
          exact Or.inl rfl
        · exact Or.inr ⟨t, hmem, rfl⟩

lemma names_denyEach :
    (denyEach denied path directories).map Prod.fst = directories.map Prod.fst := by
  induction directories with
  | nil => rfl
  | cons d rest ih => rw [denyEach, List.map_cons, ih, List.map_cons]

lemma Proper.deny {t : Tree} (h : t.Proper) (denied : String → Option Failure) (path : String) :
    (t.deny denied path).Proper := by
  induction h generalizing path with
  | unlistable why => exact .unlistable why
  | listed hnodup hplain _ ih =>
      cases hdenied : denied path with
      | some why =>
          rw [deny_of_some hdenied]
          exact .unlistable why
      | none =>
          rw [deny_of_none hdenied]
          refine .listed (by rwa [names_denyEach]) (by rwa [names_denyEach]) fun name u hmem => ?_
          obtain ⟨t, ht, rfl⟩ := mem_denyEach_iff.1 hmem
          exact ih name t ht (Path.join path name)

/-- The names pass no denied directory on their way from `path`. -/
def Passes (denied : String → Option Failure) (path : String) (names : List String) : Prop :=
  ∀ front rest, names = front ++ rest → rest ≠ [] → denied (Path.below path front) = none

lemma passes_cons_iff {name : String} :
    Passes denied path (name :: names) ↔
      denied path = none ∧ Passes denied (Path.join path name) names := by
  constructor
  · intro h
    refine ⟨h [] (name :: names) rfl (List.cons_ne_nil _ _), fun front rest hnames hne => ?_⟩
    exact h (name :: front) rest (by rw [hnames]; rfl) hne
  · rintro ⟨hpath, hrest⟩ front rest hnames hne
    cases front with
    | nil => exact hpath
    | cons first front =>
        obtain ⟨rfl, htail⟩ := List.cons.inj hnames
        exact hrest front rest htail hne

lemma passes_nil : Passes denied path [] := by
  intro front rest hnames hne
  exact absurd (List.append_eq_nil_iff.1 hnames.symm).2 hne

lemma holds_listed_cons_iff {name : String} :
    (Tree.listed files directories).Holds (name :: names) ↔
      name ∈ files ∧ names = [] ∨ ∃ t, (name, t) ∈ directories ∧ t.Holds names := by
  constructor
  · intro h
    cases h with
    | here hmem => exact Or.inl ⟨hmem, rfl⟩
    | deeper hmem hholds => exact Or.inr ⟨_, hmem, hholds⟩
  · rintro (⟨hmem, rfl⟩ | ⟨t, hmem, hholds⟩)
    · exact .here hmem
    · exact .deeper hmem hholds

/-- **A denied tree holds** what can be reached without passing a denied directory. -/
lemma holds_deny_iff {t : Tree} :
    (t.deny denied path).Holds names ↔ t.Holds names ∧ Passes denied path names := by
  induction names generalizing t path with
  | nil =>
      exact iff_of_false (fun h => h.ne_nil rfl) fun h => h.1.ne_nil rfl
  | cons name names ih =>
      cases t with
      | unlistable why =>
          rw [deny]
          exact iff_of_false not_holds_unlistable fun h => not_holds_unlistable h.1
      | listed files directories =>
          rw [passes_cons_iff]
          cases hdenied : denied path with
          | some why =>
              rw [deny_of_some hdenied]
              exact iff_of_false not_holds_unlistable fun h => by cases h.2.1
          | none =>
              rw [deny_of_none hdenied, holds_listed_cons_iff, holds_listed_cons_iff]
              constructor
              · rintro (⟨hmem, rfl⟩ | ⟨u, hmem, hholds⟩)
                · exact ⟨Or.inl ⟨hmem, rfl⟩, rfl, passes_nil⟩
                · obtain ⟨t, ht, rfl⟩ := mem_denyEach_iff.1 hmem
                  obtain ⟨hthere, hpasses⟩ := ih.1 hholds
                  exact ⟨Or.inr ⟨t, ht, hthere⟩, rfl, hpasses⟩
              · rintro ⟨hmem | ⟨t, ht, hthere⟩, -, hpasses⟩
                · exact Or.inl hmem
                · exact Or.inr ⟨_, mem_denyEach_iff.2 ⟨t, ht, rfl⟩, ih.2 ⟨hthere, hpasses⟩⟩

/-- In a proper tree the places behind denied directories are those whose names pass one. -/
lemma Proper.behind_iff {t : Tree} (ht : t.Proper) (h : t.Holds names) :
    Behind denied path (Path.below path names) ↔ ¬ Passes denied path names := by
  constructor
  · rintro ⟨front, rest, hplain, hne, heq, hsome⟩ hpasses
    have hnames : names = front ++ rest :=
      Path.below_injective (ht.plain h) hplain h.ne_nil (by simp [hne]) heq
    rw [hpasses front rest hnames hne] at hsome
    cases hsome
  · intro hnot
    simp only [Passes, not_forall] at hnot
    obtain ⟨front, rest, hnames, hne, hsome⟩ := hnot
    have hplain : ∀ name ∈ front ++ rest, Path.Plain name := hnames ▸ ht.plain h
    exact ⟨front, rest, hplain, hne, by rw [hnames], Option.isSome_iff_ne_none.2 hsome⟩

/-- **A walk through a denied tree** finds what is not behind a denied directory. -/
lemma mem_walk_deny_iff {t : Tree} (ht : t.Proper) (keeps : String → Bool) (place : String) :
    Found.file place ∈ (t.deny denied path).walk keeps path ↔
      Found.file place ∈ t.walk keeps path ∧ ¬ Behind denied path place := by
  rw [mem_walk_iff, mem_walk_iff]
  constructor
  · rintro ⟨names, hholds, rfl, hkept⟩
    obtain ⟨hthere, hpasses⟩ := holds_deny_iff.1 hholds
    exact ⟨⟨names, hthere, rfl, hkept⟩, fun hbehind => (ht.behind_iff hthere).1 hbehind hpasses⟩
  · rintro ⟨⟨names, hthere, rfl, hkept⟩, hbehind⟩
    have hpasses := not_not.1 ((ht.behind_iff hthere).not.1 hbehind)
    exact ⟨names, holds_deny_iff.2 ⟨hthere, hpasses⟩, rfl, hkept⟩

end Denied

section Order

variable (keeps : String → Bool) (denied : String → Option Failure)

mutual

/-- A walk through a denied tree finds the files in the same order. -/
theorem sublist_walk_deny (path : String) : ∀ t : Tree,
    (((t.deny denied path).walk keeps path).filterMap Found.place?).Sublist
      ((t.walk keeps path).filterMap Found.place?)
  | .unlistable why => List.Sublist.refl _
  | .listed files directories => by
      cases hdenied : denied path with
      | some why =>
          rw [deny_of_some hdenied]
          exact List.nil_sublist _
      | none =>
          rw [deny_of_none hdenied, walk, walk, List.filterMap_append, List.filterMap_append]
          exact (List.Sublist.refl _).append (sublist_walkEach_deny path directories)

theorem sublist_walkEach_deny (path : String) : ∀ directories : List (String × Tree),
    ((walkEach keeps path (denyEach denied path directories)).filterMap Found.place?).Sublist
      ((walkEach keeps path directories).filterMap Found.place?)
  | [] => List.Sublist.refl _
  | (name, t) :: rest => by
      have hrest := sublist_walkEach_deny path rest
      rw [denyEach, walkEach, walkEach, List.filterMap_append, List.filterMap_append]
      refine List.Sublist.append ?_ hrest
      split
      · exact sublist_walk_deny (Path.join path name) t
      · exact List.Sublist.refl _

end

end Order

end Tree

end Marginalia
