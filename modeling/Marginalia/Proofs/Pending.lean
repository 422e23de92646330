import Marginalia.Pending
import Mathlib

/-!
# The pending set as a map

`Pending` keeps a list of entries.  This module shows that the list is a map from files to lists of
blocks: `Pending.Tidy` says that no file is listed twice and that no file is listed without blocks,
and `tidy_empty` and `Tidy.replace` show that the operations keep a pending set tidy.  On tidy sets
`get` reads off the entries (`Tidy.mem_entries_iff`), so that `snapshot` and `others` can be
described file by file.

The lemmas on `Entries` are about any keys and values.
-/

namespace Marginalia

/-! ## Lists of entries -/

namespace Entries

variable {α β : Type} [DecidableEq α]

lemma lookup_cons_eq_ite (k d : α) (v : β) (es : List (α × β)) :
    ((d, v) :: es).lookup k = if k = d then some v else es.lookup k := by
  by_cases h : k = d
  · simp [h]
  · have hb : (k == d) = false := by simpa using h
    simp [List.lookup, hb, h]

/-- Looking up after `put`: the key has the new value, all others have theirs. -/
lemma lookup_put (key k : α) (value : β) (es : List (α × β)) :
    (put key value es).lookup k = if k = key then some value else es.lookup k := by
  induction es with
  | nil => simp [put, lookup_cons_eq_ite]
  | cons e es ih =>
      obtain ⟨d, v⟩ := e
      by_cases hd : d = key
      · rw [put, if_pos hd, lookup_cons_eq_ite, lookup_cons_eq_ite, hd]
        by_cases hk : k = key <;> simp [hk]
      · rw [put, if_neg hd, lookup_cons_eq_ite, lookup_cons_eq_ite, ih]
        by_cases hk : k = d
        · have hne : ¬ k = key := fun h => hd (hk ▸ h)
          simp [hk, hd]
        · simp [hk]

/-- Looking up after `remove`: the key has no value, all others have theirs. -/
lemma lookup_remove (key k : α) (es : List (α × β)) :
    (remove key es).lookup k = if k = key then none else es.lookup k := by
  induction es with
  | nil => simp [remove]
  | cons e es ih =>
      obtain ⟨d, v⟩ := e
      have ih' : (es.filter (·.1 ≠ key)).lookup k = if k = key then none else es.lookup k := ih
      by_cases hd : d = key
      · rw [remove, List.filter_cons_of_neg (by simp [hd]), ih', lookup_cons_eq_ite, hd]
        by_cases hk : k = key <;> simp [hk]
      · rw [remove, List.filter_cons_of_pos (by simp [hd]), lookup_cons_eq_ite, ih',
          lookup_cons_eq_ite]
        by_cases hk : k = d
        · simp [hk, hd]
        · simp [hk]

/-- Looking up when some keys have been left out. -/
lemma lookup_filter_not_mem (keys : List α) (k : α) (es : List (α × β)) :
    (es.filter (·.1 ∉ keys)).lookup k = if k ∈ keys then none else es.lookup k := by
  induction es with
  | nil => simp
  | cons e es ih =>
      obtain ⟨d, v⟩ := e
      rw [lookup_cons_eq_ite]
      by_cases hd : d ∈ keys
      · rw [List.filter_cons_of_neg (by simp [hd]), ih]
        by_cases hk : k = d
        · simp [hk, hd]
        · simp [hk]
      · rw [List.filter_cons_of_pos (by simp [hd]), lookup_cons_eq_ite, ih]
        by_cases hk : k = d
        · simp [hk, hd]
        · simp [hk]

lemma map_fst_put_of_mem {key : α} {es : List (α × β)} (value : β) (h : key ∈ es.map Prod.fst) :
    (put key value es).map Prod.fst = es.map Prod.fst := by
  induction es with
  | nil => simp at h
  | cons e es ih =>
      by_cases he : e.1 = key
      · simp [put, he]
      · have hmem : key ∈ es.map Prod.fst := by
          rcases List.mem_cons.1 h with hk | hk
          · exact absurd hk.symm he
          · exact hk
        simp [put, he, ih hmem]

lemma put_of_not_mem {key : α} {es : List (α × β)} (value : β) (h : key ∉ es.map Prod.fst) :
    put key value es = es ++ [(key, value)] := by
  induction es with
  | nil => rfl
  | cons e es ih =>
      have he : ¬ e.1 = key := fun hk => h (by simp [hk])
      have hmem : key ∉ es.map Prod.fst := fun hk => h (List.mem_cons_of_mem _ hk)
      simp [put, he, ih hmem]

lemma mem_map_fst_put {key k : α} {value : β} {es : List (α × β)} :
    k ∈ (put key value es).map Prod.fst ↔ k = key ∨ k ∈ es.map Prod.fst := by
  by_cases hkey : key ∈ es.map Prod.fst
  · rw [map_fst_put_of_mem value hkey]
    exact ⟨Or.inr, fun h => h.elim (fun hk => hk ▸ hkey) id⟩
  · rw [put_of_not_mem value hkey, List.map_append, List.mem_append, or_comm]
    simp

lemma nodup_put {es : List (α × β)} (key : α) (value : β) (h : (es.map Prod.fst).Nodup) :
    ((put key value es).map Prod.fst).Nodup := by
  by_cases hk : key ∈ es.map Prod.fst
  · rwa [map_fst_put_of_mem value hk]
  · rw [put_of_not_mem value hk, List.map_append, List.map_singleton]
    refine List.nodup_append.2 ⟨h, List.nodup_singleton key, ?_⟩
    intro a ha b hb hab
    rw [hab, List.mem_singleton.1 hb] at ha
    exact hk ha

lemma nodup_remove {key : α} {es : List (α × β)} (h : (es.map Prod.fst).Nodup) :
    ((remove key es).map Prod.fst).Nodup :=
  h.sublist (List.filter_sublist.map Prod.fst)

/-- Where no key is listed twice, looking up finds exactly what is listed. -/
lemma lookup_eq_some_iff {k : α} {v : β} {es : List (α × β)} (h : (es.map Prod.fst).Nodup) :
    es.lookup k = some v ↔ (k, v) ∈ es := by
  induction es with
  | nil => simp
  | cons e es ih =>
      obtain ⟨d, u⟩ := e
      rw [List.map_cons, List.nodup_cons] at h
      rw [lookup_cons_eq_ite, List.mem_cons]
      by_cases hk : k = d
      · subst hk
        have hnot : (k, v) ∉ es := fun hm => h.1 (List.mem_map.2 ⟨_, hm, rfl⟩)
        simp [hnot, eq_comm]
      · simp [hk, ih h.2]

/-- Where no key is listed twice, `put` takes out the entry of the key and adds the new one, up to
order. -/
lemma put_perm {es : List (α × β)} (key : α) (value : β) (h : (es.map Prod.fst).Nodup) :
    (put key value es).Perm ((key, value) :: remove key es) := by
  induction es with
  | nil => exact List.Perm.refl _
  | cons e es ih =>
      rw [List.map_cons, List.nodup_cons] at h
      by_cases he : e.1 = key
      · have hfilter : remove key es = es := by
          refine List.filter_eq_self.2 fun d hd => ?_
          have hne : d.1 ≠ key := fun hk => h.1 (List.mem_map.2 ⟨d, hd, hk.trans he.symm⟩)
          simpa using hne
        have hremove : remove key (e :: es) = es :=
          (List.filter_cons_of_neg (by simp [he])).trans hfilter
        rw [put, if_pos he, hremove]
      · have hremove : remove key (e :: es) = e :: remove key es :=
          List.filter_cons_of_pos (by simp [he])
        rw [put, if_neg he, hremove]
        exact ((ih h.2).cons e).trans (List.Perm.swap _ _ _)

/-- Putting in the value that is there changes nothing. -/
lemma put_of_lookup {key : α} {value : β} {es : List (α × β)} (h : es.lookup key = some value) :
    put key value es = es := by
  induction es with
  | nil => cases h
  | cons e es ih =>
      obtain ⟨d, v⟩ := e
      rw [lookup_cons_eq_ite] at h
      by_cases hd : d = key
      · subst hd
        rw [if_pos rfl, Option.some.injEq] at h
        rw [put, if_pos rfl, h]
      · rw [if_neg (Ne.symm hd)] at h
        rw [put, if_neg hd, ih h]

/-- Taking out a key that has no value changes nothing. -/
lemma remove_of_lookup {key : α} {es : List (α × β)} (h : es.lookup key = none) :
    remove key es = es := by
  refine List.filter_eq_self.2 fun e he => ?_
  have hne : key ≠ e.1 := bne_iff_ne.1 (List.lookup_eq_none_iff.1 h e he)
  exact decide_eq_true hne.symm

section Values

variable {γ : Type} (f : β → γ)

lemma map_put (key : α) (value : β) (es : List (α × β)) :
    (put key value es).map (Prod.map id f) = put key (f value) (es.map (Prod.map id f)) := by
  induction es with
  | nil => rfl
  | cons e es ih =>
      by_cases he : e.1 = key
      · simp [put, he]
      · simp [put, he, ih]

lemma map_remove (key : α) (es : List (α × β)) :
    (remove key es).map (Prod.map id f) = remove key (es.map (Prod.map id f)) := by
  rw [remove, remove, List.filter_map]
  rfl

end Values

end Entries

/-! ## Tidy pending sets -/

namespace Pending

/-- No file is listed twice, and none without blocks. -/
structure Tidy (p : Pending) : Prop where
  nodup : (p.entries.map Prod.fst).Nodup
  nonempty : ∀ e ∈ p.entries, e.2 ≠ []

lemma tidy_empty : Tidy empty :=
  ⟨by simp [empty], by simp [empty]⟩

@[simp] lemma get_empty (path : String) : empty.get path = [] := rfl

/-- Replacing the blocks of a file changes those and no others. -/
lemma get_replace (p : Pending) (path q : String) (blocks : List Block) :
    (p.replace path blocks).get q = if q = path then blocks else p.get q := by
  unfold replace get
  cases blocks with
  | nil =>
      rw [if_pos List.isEmpty_nil, Entries.lookup_remove]
      by_cases hq : q = path <;> simp [hq]
  | cons b bs =>
      rw [if_neg (by simp), Entries.lookup_put]
      by_cases hq : q = path <;> simp [hq]

namespace Tidy

variable {p : Pending}

/-- On a tidy set the entries are exactly the files with blocks. -/
lemma mem_entries_iff (h : p.Tidy) (path : String) (blocks : List Block) :
    (path, blocks) ∈ p.entries ↔ p.get path = blocks ∧ blocks ≠ [] := by
  rw [← Entries.lookup_eq_some_iff h.nodup, get]
  cases hl : p.entries.lookup path with
  | none =>
      simp only [reduceCtorEq, Option.getD_none, false_iff, not_and, not_not]
      exact fun hb => hb.symm
  | some bs =>
      have hne : bs ≠ [] := h.nonempty _ ((Entries.lookup_eq_some_iff h.nodup).1 hl)
      simp only [Option.some.injEq, Option.getD_some]
      exact ⟨fun hb => ⟨hb, hb ▸ hne⟩, And.left⟩

lemma replace (h : p.Tidy) (path : String) (blocks : List Block) :
    (p.replace path blocks).Tidy := by
  unfold Pending.replace
  cases blocks with
  | nil =>
      rw [if_pos List.isEmpty_nil]
      exact ⟨Entries.nodup_remove h.nodup, fun e he => h.nonempty e (List.mem_of_mem_filter he)⟩
  | cons b bs =>
      rw [if_neg (by simp)]
      have hnodup := Entries.nodup_put path (b :: bs) h.nodup
      refine ⟨hnodup, fun e he => ?_⟩
      have hl := (Entries.lookup_eq_some_iff hnodup).2 he
      rw [Entries.lookup_put] at hl
      by_cases hk : e.1 = path
      · rw [if_pos hk, Option.some.injEq] at hl
        exact hl ▸ List.cons_ne_nil b bs
      · rw [if_neg hk] at hl
        exact h.nonempty e ((Entries.lookup_eq_some_iff h.nodup).1 hl)

/-- Putting back the blocks of a file changes nothing, not even the order of the files. -/
lemma replace_get (h : p.Tidy) (path : String) : p.replace path (p.get path) = p := by
  obtain ⟨entries⟩ := p
  cases hl : entries.lookup path with
  | none =>
      have hget : get ⟨entries⟩ path = [] := by rw [get, hl, Option.getD_none]
      rw [Pending.replace, hget, if_pos List.isEmpty_nil, Entries.remove_of_lookup hl]
  | some blocks =>
      have hget : get ⟨entries⟩ path = blocks := by rw [get, hl, Option.getD_some]
      have hne : blocks ≠ [] := h.nonempty _ ((Entries.lookup_eq_some_iff h.nodup).1 hl)
      rw [Pending.replace, hget, if_neg (by simpa using hne), Entries.put_of_lookup hl]

/-- A block of a file is among all that wait. -/
lemma mem_snapshot_of_mem_get (h : p.Tidy) {path : String} {b : Block} (hb : b ∈ p.get path) :
    b ∈ p.snapshot := by
  have he : (path, p.get path) ∈ p.entries :=
    (h.mem_entries_iff path _).2 ⟨rfl, List.ne_nil_of_mem hb⟩
  exact List.mem_flatMap.2 ⟨_, he, hb⟩

/-- A block of another file is among those that are handed over. -/
lemma mem_others_of_mem_get (h : p.Tidy) {path q : String} {b : Block} (hb : b ∈ p.get q)
    (hq : q ≠ path) : b ∈ p.others path := by
  have he : (q, p.get q) ∈ p.entries :=
    (h.mem_entries_iff q _).2 ⟨rfl, List.ne_nil_of_mem hb⟩
  exact List.mem_flatMap.2 ⟨_, List.mem_filter.2 ⟨he, by simpa using hq⟩, hb⟩

end Tidy

/-- Where every block stands under its own file, all but those of one file are taken. -/
lemma others_eq_filter {p : Pending} (h : ∀ e ∈ p.entries, ∀ b ∈ e.2, b.path = e.1)
    (path : String) : p.others path = p.snapshot.filter (·.path ≠ path) := by
  obtain ⟨entries⟩ := p
  unfold others snapshot
  induction entries with
  | nil => rfl
  | cons e es ih =>
      rw [List.forall_mem_cons] at h
      simp only at ih ⊢
      rw [List.flatMap_cons, List.filter_append, ← ih h.2]
      by_cases he : e.1 = path
      · have hnone : e.2.filter (·.path ≠ path) = [] :=
          List.filter_eq_nil_iff.2 fun b hb => by simp [h.1 b hb, he]
        have hremove : Entries.remove path (e :: es) = Entries.remove path es :=
          List.filter_cons_of_neg (by simp [he])
        rw [hnone, hremove, List.nil_append]
      · have hall : e.2.filter (·.path ≠ path) = e.2 :=
          List.filter_eq_self.2 fun b hb => by simp [h.1 b hb, he]
        have hremove : Entries.remove path (e :: es) = e :: Entries.remove path es :=
          List.filter_cons_of_pos (by simp [he])
        rw [hall, hremove, List.flatMap_cons]

end Pending

end Marginalia
