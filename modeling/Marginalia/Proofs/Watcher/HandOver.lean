import Marginalia.Proofs.Watcher.Deeds

/-!
# What is handed over

A change that is taken in puts a list of blocks into the pending set, and a trigger hands lists
over. To follow one list through a run although others may be equal to it, `Parcel` numbers the
lists by the deeds that brought them.  `shelf` is the pending set in parcels, and `deliveries` are
the calls of the trigger with the parcels that each carries.  Both are read off the deeds alone;
`HandsOver` says how the machine keeps to them:

* what is passed to the host is what waits for other files and the blocks of the file itself, and
  nothing waits any more when the host is called;
* no parcel is delivered twice, and none that was delivered waits on;
* a parcel leaves the shelf by a delivery, by a change of its own file, or by `clear`.

The main result is `handsOver_of_prompt`.
-/

namespace Marginalia.Watcher

open Notifier (Event EventKind)

/-! ## Parcels and deliveries -/

/-- The blocks that a deed brought, with the number of the deed. -/
structure Parcel where
  number : Nat
  blocks : List Block
  deriving DecidableEq, Repr

/-- What waits, in parcels. -/
def shelf : List Deed → List (String × Parcel)
  | [] => []
  | .took path content :: ds =>
    let blocks := Block.ofContent path content
    if Block.anyTrigger blocks then []
    else if blocks.isEmpty then Entries.remove path (shelf ds)
    else Entries.put path ⟨ds.length, blocks⟩ (shelf ds)
  | .cleared :: _ => []

/-- A call of the trigger: the parcels of other files, and the content of the file itself. -/
structure Delivery where
  carried : List (String × Parcel)
  path : String
  content : String
  deriving DecidableEq, Repr

/-- What the host is passed. -/
def Delivery.payload (d : Delivery) : List Block :=
  d.carried.flatMap (·.2.blocks) ++ Block.ofContent d.path d.content

/-- The deliveries, the latest first. -/
def deliveries : List Deed → List Delivery
  | [] => []
  | .took path content :: ds =>
    if Block.anyTrigger (Block.ofContent path content) then
      ⟨Entries.remove path (shelf ds), path, content⟩ :: deliveries ds
    else deliveries ds
  | .cleared :: ds => deliveries ds

/-- The parcels that were delivered or still wait. -/
def parcels (ds : List Deed) : List (String × Parcel) :=
  (deliveries ds).flatMap Delivery.carried ++ shelf ds

/-- What a turn passes to the trigger. -/
def payloadOf : Turn Question → List (List Block)
  | .asks (.trigger blocks) => [blocks]
  | _ => []

/-- What the host was passed in the course of a history, the latest first. -/
def payloads (w : Watcher) : History → List (List Block)
  | [] => []
  | i :: h => payloadOf ((w.after h).step i).turn ++ payloads w h

/-! ## Deeds and parcels -/

section Deeds

variable {d : Deed} {ds : List Deed}

lemma shelf_of_flushes (h : d.flushes) : shelf (d :: ds) = [] := by
  cases d with
  | took path content =>
      rw [Deed.flushes_took] at h
      exact if_pos h
  | cleared => rfl

/-- A deed that flushes nothing takes in a file, and its blocks replace the former ones. -/
lemma shelf_of_not_flushes {path content : String} (h : ¬ (Deed.took path content).flushes) :
    shelf (.took path content :: ds) =
      if (Block.ofContent path content).isEmpty then Entries.remove path (shelf ds)
      else Entries.put path ⟨ds.length, Block.ofContent path content⟩ (shelf ds) :=
  if_neg (by rwa [Deed.flushes_took] at h)

lemma deliveries_of_trigger {path content : String} (h : (Deed.took path content).flushes) :
    deliveries (.took path content :: ds) =
      ⟨Entries.remove path (shelf ds), path, content⟩ :: deliveries ds :=
  if_pos (by rwa [Deed.flushes_took] at h)

lemma deliveries_of_not_trigger {path content : String}
    (h : ¬ (Deed.took path content).flushes) :
    deliveries (.took path content :: ds) = deliveries ds :=
  if_neg (by rwa [Deed.flushes_took] at h)

/-- **The shelf** is the pending set in parcels. -/
lemma entries_pendingOf (ds : List Deed) :
    (pendingOf ds).entries = (shelf ds).map (Prod.map id Parcel.blocks) := by
  induction ds with
  | nil => rfl
  | cons d ds ih =>
      by_cases hd : d.flushes
      · rw [pendingOf_of_flushes hd, shelf_of_flushes hd]
        rfl
      · cases d with
        | cleared => exact absurd rfl hd
        | took path content =>
            have hkept : pendingOf (.took path content :: ds) =
                (pendingOf ds).replace path (Block.ofContent path content) :=
              if_neg (by rwa [Deed.flushes_took] at hd)
            rw [hkept, shelf_of_not_flushes hd, Pending.replace]
            split
            · rw [Entries.map_remove, ih]
            · rw [Entries.map_put, ih]

lemma nodup_fst_shelf (ds : List Deed) : ((shelf ds).map Prod.fst).Nodup := by
  have h := (tidy_pendingOf ds).nodup
  rwa [entries_pendingOf, List.map_map] at h

/-- What a deed brings, if it is the one with the number `n`. -/
def Deed.parcel? (n : Nat) : Deed → Option (String × Parcel)
  | .took path content => some (path, ⟨n, Block.ofContent path content⟩)
  | .cleared => none

/-- **Conservation**: the parcels after a deed are among those before it and the one it brings. -/
lemma parcels_cons_subperm (d : Deed) (ds : List Deed) :
    (parcels (d :: ds)).Subperm ((d.parcel? ds.length).toList ++ parcels ds) := by
  have hremove (path : String) : (Entries.remove path (shelf ds)).Sublist (shelf ds) :=
    List.filter_sublist
  by_cases hd : d.flushes
  · rw [parcels, shelf_of_flushes hd, List.append_nil]
    cases d with
    | cleared => exact (List.sublist_append_left _ _).subperm
    | took path content =>
        -- The parcels of the other files move from the shelf into the delivery.
        rw [deliveries_of_trigger hd, List.flatMap_cons]
        have hperm : (Entries.remove path (shelf ds) ++
            (deliveries ds).flatMap Delivery.carried).Perm
              ((deliveries ds).flatMap Delivery.carried ++ Entries.remove path (shelf ds)) :=
          List.perm_append_comm
        have hsub := (hremove path).append_left ((deliveries ds).flatMap Delivery.carried)
        exact (hperm.subperm.trans hsub.subperm).trans (List.sublist_append_right _ _).subperm
  · cases d with
    | cleared => exact absurd rfl hd
    | took path content =>
        rw [parcels, shelf_of_not_flushes hd, deliveries_of_not_trigger hd]
        have hsub := (hremove path).append_left ((deliveries ds).flatMap Delivery.carried)
        split
        · exact hsub.subperm.trans (List.sublist_append_right _ _).subperm
        · have hput := (Entries.put_perm path ⟨ds.length, Block.ofContent path content⟩
            (nodup_fst_shelf ds)).append_left
              ((deliveries ds).flatMap Delivery.carried)
          exact (hput.trans List.perm_middle).subperm.trans (hsub.cons_cons _).subperm

/-- A parcel is what the deed of its number brought. -/
lemma deed_of_mem_parcels {e : String × Parcel} (he : e ∈ parcels ds) :
    ∃ content, ds.reverse[e.2.number]? = some (.took e.1 content) ∧
      e.2.blocks = Block.ofContent e.1 content := by
  induction ds with
  | nil => exact absurd he List.not_mem_nil
  | cons d ds ih =>
      rw [List.reverse_cons]
      rcases List.mem_append.1 ((parcels_cons_subperm d ds).subset he) with hnew | hold
      · cases d with
        | cleared => exact absurd hnew List.not_mem_nil
        | took path content =>
            obtain rfl := List.mem_singleton.1 hnew
            exact ⟨content, by simp, rfl⟩
      · obtain ⟨content, hget, hblocks⟩ := ih hold
        obtain ⟨hlt, -⟩ := List.getElem?_eq_some_iff.1 hget
        exact ⟨content, by rw [List.getElem?_append_left hlt, hget], hblocks⟩

lemma number_lt_of_mem_parcels {e : String × Parcel} (he : e ∈ parcels ds) :
    e.2.number < ds.length := by
  obtain ⟨content, hget, -⟩ := deed_of_mem_parcels he
  obtain ⟨hlt, -⟩ := List.getElem?_eq_some_iff.1 hget
  rwa [List.length_reverse] at hlt

/-- **At most once**: no parcel is delivered twice, and none that was delivered waits on. -/
lemma nodup_parcels (ds : List Deed) : ((parcels ds).map (·.2.number)).Nodup := by
  induction ds with
  | nil => exact List.nodup_nil
  | cons d ds ih =>
      obtain ⟨es, hperm, hsub⟩ := parcels_cons_subperm d ds
      refine (hperm.map _).nodup_iff.1 (List.Nodup.sublist (hsub.map _) ?_)
      cases d with
      | cleared => exact ih
      | took path content =>
          -- All parcels so far have the numbers of earlier deeds.
          refine List.nodup_cons.2 ⟨fun hmem => ?_, ih⟩
          obtain ⟨e, he, hnumber⟩ := List.mem_map.1 hmem
          exact absurd hnumber (number_lt_of_mem_parcels he).ne

/-- A parcel leaves the shelf by a delivery, by a change of its own file, or by `clear`. -/
lemma leaves_shelf {e : String × Parcel} (he : e ∈ shelf ds) (hleft : e ∉ shelf (d :: ds)) :
    d = .cleared ∨ (∃ content, d = .took e.1 content) ∨
      ∃ delivery, deliveries (d :: ds) = delivery :: deliveries ds ∧ e ∈ delivery.carried := by
  cases d with
  | cleared => exact Or.inl rfl
  | took path content =>
      refine Or.inr ?_
      by_cases hpath : e.1 = path
      · exact Or.inl ⟨content, by rw [hpath]⟩
      · have hremove : e ∈ Entries.remove path (shelf ds) :=
          List.mem_filter.2 ⟨he, by simpa using hpath⟩
        by_cases hd : (Deed.took path content).flushes
        · exact Or.inr ⟨_, deliveries_of_trigger hd, hremove⟩
        · refine absurd ?_ hleft
          rw [shelf_of_not_flushes hd]
          split
          · exact hremove
          · exact (Entries.put_perm path _ (nodup_fst_shelf ds)).mem_iff.2
              (List.mem_cons_of_mem _ hremove)

end Deeds

/-! ## Calls of the trigger -/

variable {w : Watcher}

lemma questionOfContent?_eq_trigger_iff (v : Watcher) (path content : String)
    (blocks : List Block) :
    v.questionOfContent? path content = some (.trigger blocks) ↔
      v.callbacks.trigger ∧ Block.anyTrigger (Block.ofContent path content) ∧
        blocks = v.pending.others path ++ Block.ofContent path content := by
  by_cases h : Block.anyTrigger (Block.ofContent path content)
  · rw [questionOfContent?, if_pos h]
    by_cases hc : v.callbacks.trigger
    · simp [hc, h, eq_comm]
    · simp [hc]
  · rw [questionOfContent?, if_neg h]
    cases v.news? ((v.pending.get path).map Block.key) (Block.ofContent path content) <;>
      simp [h]

/-- Only a task to read a file leads to a call of the trigger. -/
lemma questionAfter?_eq_trigger_iff (v : Watcher) (o : Outcome) (t : Task)
    (blocks : List Block) :
    v.questionAfter? o t = some (.trigger blocks) ↔
      ∃ path content, t = .reading path ∧ contentOf? o = some content ∧
        v.questionOfContent? path content = some (.trigger blocks) := by
  cases t with
  | attaching id g rest => cases rest <;> cases o <;> simp [questionAfter?, Outcome.failure?]
  | reading q =>
      rw [questionAfter?, Option.bind_eq_some_iff]
      simp
  | reporting q known all rest =>
      rw [questionAfter?]
      by_cases ho : o.failure?.isSome
      · simp [ho]
      · cases v.news? known rest <;> simp [ho]
  | calling => simp [questionAfter?]

/-- **The trigger is called** exactly upon the content, with a trigger, of an accepted change. -/
theorem step_asks_trigger_iff (hw : w.Unused) {h : History} {i : Input}
    (hp : w.Prompt (i :: h)) (blocks : List Block) :
    ((w.after h).step i).turn = .asks (.trigger blocks) ↔
      w.callbacks.trigger ∧ ∃ path content, i = .answer (.text content) ∧
        w.reading? h = some path ∧ Block.anyTrigger (Block.ofContent path content) ∧
          blocks = (w.after h).pending.others path ++ Block.ofContent path content := by
  rw [step_asks_iff]
  cases i with
  | watch root opened => cases opened <;> simp [questionUpon?]
  | close | pause | resume | clear => simp [questionUpon?]
  | event g e =>
      rw [questionUpon?]
      cases e <;> simp [questionOfEvent?]
  | answer o =>
      rw [questionUpon?]
      cases hr : w.reading? h with
      | none =>
          simp only [reduceCtorEq, false_and, and_false, exists_false, iff_false]
          intro hq
          obtain ⟨t, ht, hq⟩ := Option.bind_eq_some_iff.1 hq
          obtain ⟨path, content, rfl, -⟩ := (questionAfter?_eq_trigger_iff _ _ _ _).1 hq
          exact ne_reading_of_mem_head? hw hp.2 hr ht path rfl
      | some path =>
          have hprompt : (Input.answer o).bringsFile := hp.1 (by rw [hr]; rfl)
          rw [head?_tasks_of_reading hw hp.2 hr, Option.bind_some,
            questionAfter?_eq_trigger_iff]
          simp only [questionOfContent?_eq_trigger_iff, after_callbacks]
          cases o with
          | text content =>
              constructor
              · rintro ⟨q, c, hq, hc, hthere, htrigger, rfl⟩
                cases hq
                cases hc
                exact ⟨hthere, path, content, rfl, rfl, htrigger, rfl⟩
              · rintro ⟨hthere, q, c, hc, hq, htrigger, rfl⟩
                cases hq
                cases hc
                exact ⟨path, content, rfl, rfl, hthere, htrigger, rfl⟩
          | raised why => simp [contentOf?]
          | returned | made => exact absurd hprompt Bool.false_ne_true

/-- The blocks of other files that are handed over are all that wait and are not of the file. -/
lemma others_eq_snapshot_filter (hw : w.Unused) {h : History} (hp : w.Prompt h) (path : String) :
    (w.after h).pending.others path =
      (w.after h).pending.snapshot.filter (·.path ≠ path) := by
  rw [after_pending hw hp]
  refine Pending.others_eq_filter (fun e he b hb => ?_) path
  have hget := ((tidy_pendingOf _).mem_entries_iff e.1 e.2).1 he
  exact (mem_get_pendingOf (hget.1 ▸ hb)).1

/-- What is handed over from other files is what their parcels hold. -/
lemma others_eq_carried (hw : w.Unused) {h : History} (hp : w.Prompt h) (path : String) :
    (w.after h).pending.others path =
      (Entries.remove path (shelf (w.deeds h))).flatMap (·.2.blocks) := by
  rw [after_pending hw hp, Pending.others, entries_pendingOf, ← Entries.map_remove,
    List.flatMap_map]
  rfl

/-- A step passes the host what the delivery says that it makes, and nothing otherwise. -/
lemma payloadOf_step (hw : w.Unused) (hthere : w.callbacks.trigger) {h : History} {i : Input}
    (hp : w.Prompt (i :: h)) :
    payloadOf ((w.after h).step i).turn ++ (deliveries (w.deeds h)).map Delivery.payload =
      (deliveries (w.deeds (i :: h))).map Delivery.payload := by
  have hask := step_asks_trigger_iff hw hp
  by_cases hcall : ∃ blocks, ((w.after h).step i).turn = .asks (.trigger blocks)
  · obtain ⟨blocks, hturn⟩ := hcall
    obtain ⟨-, path, content, rfl, hr, htrigger, rfl⟩ := (hask blocks).1 hturn
    have hdeeds : w.deeds (.answer (.text content) :: h) =
        .took path content :: w.deeds h := by
      rw [deeds, deedUpon?, hr]
      rfl
    rw [← Deed.flushes_took] at htrigger
    rw [hturn, hdeeds, deliveries_of_trigger htrigger, List.map_cons, Delivery.payload,
      ← others_eq_carried hw hp.2]
    rfl
  · have hnone : payloadOf ((w.after h).step i).turn = [] := by
      unfold payloadOf
      split
      · rename_i blocks hturn
        exact absurd ⟨blocks, hturn⟩ hcall
      · rfl
    rw [hnone, List.nil_append, deeds]
    cases hd : w.deedUpon? h i with
    | none => rfl
    | some d =>
        cases d with
        | cleared => rfl
        | took path content =>
            obtain ⟨rfl, hr⟩ := deedUpon?_eq_took_iff.1 hd
            have hkept : ¬ (Deed.took path content).flushes := by
              rw [Deed.flushes_took]
              exact fun htrigger =>
                hcall ⟨_, (hask _).2 ⟨hthere, path, content, rfl, hr, htrigger, rfl⟩⟩
            rw [Option.toList_some, List.singleton_append, deliveries_of_not_trigger hkept]

/-- What the host was passed are the payloads of the deliveries. -/
lemma payloads_eq_deliveries (hw : w.Unused) (hthere : w.callbacks.trigger) {h : History}
    (hp : w.Prompt h) : w.payloads h = (deliveries (w.deeds h)).map Delivery.payload := by
  induction h with
  | nil => rfl
  | cons i h ih => rw [payloads, ih hp.2, payloadOf_step hw hthere hp]

/-! ## Exactly what is handed over -/

/-- How an input after a history hands over what waits. -/
structure HandsOver (w : Watcher) (h : History) (i : Input) : Prop where
  /-- The host is called for an accepted change; it is passed what waits for other files and all
  blocks of the file, and nothing waits any more. -/
  payload : ∀ blocks, ((w.after h).step i).turn = .asks (.trigger blocks) →
    ∃ g path content before, i = .answer (.text content) ∧
      h = .event g (.change path) :: before ∧ w.accepts before g path ∧
      blocks = (w.after h).pending.snapshot.filter (·.path ≠ path) ++
        Block.ofContent path content ∧
      (w.after (i :: h)).pending = .empty
  /-- What the host was passed so far are the payloads of the deliveries. -/
  passed : w.payloads (i :: h) = (deliveries (w.deeds (i :: h))).map Delivery.payload
  /-- What waits is on the shelf. -/
  waits : (w.after (i :: h)).pending.entries =
    (shelf (w.deeds (i :: h))).map (Prod.map id Parcel.blocks)
  /-- Every parcel holds the blocks that the change of its number brought. -/
  brought : ∀ e ∈ parcels (w.deeds (i :: h)), ∃ content,
    (w.deeds (i :: h)).reverse[e.2.number]? = some (.took e.1 content) ∧
      e.2.blocks = Block.ofContent e.1 content
  /-- No parcel is delivered twice, and none that was delivered waits on. -/
  once : ((parcels (w.deeds (i :: h))).map (·.2.number)).Nodup
  /-- A parcel leaves the shelf by `clear`, by an accepted change of its file, or by a delivery. -/
  leaves : ∀ e ∈ shelf (w.deeds h), e ∉ shelf (w.deeds (i :: h)) →
    i = .clear ∨ (∃ content, i = .answer (.text content) ∧ w.reading? h = some e.1) ∨
      ∃ delivery, deliveries (w.deeds (i :: h)) = delivery :: deliveries (w.deeds h) ∧
        e ∈ delivery.carried

/-- **What waits is handed over once**, whatever the host does while it is called. -/
theorem handsOver_of_prompt {o : Options} {c : Callbacks} {home : String}
    (made : make o c home = .ok w) (hthere : c.trigger) {h : History} {i : Input}
    (prompt : w.Prompt (i :: h)) : w.HandsOver h i where
  payload := by
    intro blocks hturn
    have hw := unused_of_make made
    obtain ⟨-, path, content, rfl, hr, htrigger, hblocks⟩ :=
      (step_asks_trigger_iff hw prompt blocks).1 hturn
    obtain ⟨g, before, hh, hacc⟩ := reading?_eq_some_iff.1 hr
    refine ⟨g, path, content, before, rfl, hh, hacc, ?_, ?_⟩
    · rw [hblocks, others_eq_snapshot_filter hw prompt.2]
    · have hdeed : w.deedUpon? h (.answer (.text content)) = some (.took path content) :=
        deedUpon?_eq_took_iff.2 ⟨rfl, hr⟩
      rw [← Deed.flushes_took] at htrigger
      rw [after_pending hw prompt, deeds, hdeed]
      exact pendingOf_of_flushes htrigger _
  passed :=
    payloads_eq_deliveries (unused_of_make made) (callbacks_of_make made ▸ hthere) prompt
  waits := by rw [after_pending (unused_of_make made) prompt, entries_pendingOf]
  brought _ he := deed_of_mem_parcels he
  once := nodup_parcels _
  leaves := by
    intro e he hleft
    rw [deeds] at hleft ⊢
    cases hd : w.deedUpon? h i with
    | none =>
        rw [hd] at hleft
        exact absurd he hleft
    | some d =>
        rw [hd] at hleft
        rcases leaves_shelf he hleft with rfl | ⟨content, rfl⟩ | hdelivery
        · exact Or.inl (deedUpon?_eq_cleared_iff.1 hd)
        · exact Or.inr (Or.inl ⟨content, deedUpon?_eq_took_iff.1 hd⟩)
        · exact Or.inr (Or.inr hdelivery)

/-- The note in one file goes with the trigger in another. -/
theorem handsOver_of_prompt_of_two_saves :
    let h := .event 1 (.change "/w/b.py") :: saved "/w/a.py" "# note AI" ++ watching
    let i := .answer (.text "# now AI!")
    make { ignored := [] } {} "/w" = .ok plain ∧ plain.Prompt (i :: h) ∧
      plain.payloads (i :: h) =
        [[⟨"/w/a.py", 1, ["# note AI"], false⟩, ⟨"/w/b.py", 1, ["# now AI!"], true⟩]] := by
  intro h i
  have prompt : plain.Prompt (i :: h) := by decide
  have hands := handsOver_of_prompt make_plain rfl prompt
  exact ⟨make_plain, prompt, hands.passed.trans (by decide)⟩

end Marginalia.Watcher
