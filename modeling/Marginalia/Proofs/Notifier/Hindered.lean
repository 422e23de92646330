import Marginalia.Proofs.Notifier.Opening
import Marginalia.Proofs.Tree.Barred

/-!
# Openings with failures

An opening meets failures in three places: the observer cannot be set on a directory, a directory
cannot be listed, or the observer cannot begin.  `Hindrances` are any such failures, put upon
surroundings by `Surroundings.hindered`.

`opens_despite_hindrances` says what becomes of an opening when the failures are those of the
system.  None of them stops the rest: each is told in its place, and the files are told as without
it, but for those that lie behind a directory that cannot be listed.  `Tells` is what is told of one
directory, and `Spares` compares it with what would be told if every directory could be listed.
-/

namespace Marginalia.Notifier

/-- What goes wrong when subscriptions are opened. -/
structure Hindrances where
  /-- Why the observer cannot be set on a directory. -/
  refusal? : String → Option Failure := fun _ => none
  /-- Why a directory cannot be listed. -/
  denied : String → Option Failure := fun _ => none
  /-- Why the observer cannot begin. -/
  startFailure? : Option Failure := none

/-- The observer only fails as the system fails. -/
structure Hindrances.OfSystem (h : Hindrances) : Prop where
  refusal {path : String} {why : Failure} : h.refusal? path = some why → why.isSystem
  start {why : Failure} : h.startFailure? = some why → why.isSystem

/-- The same surroundings, with some hindrances. -/
def Surroundings.hindered (around : Surroundings) (h : Hindrances) : Surroundings :=
  { around with
    refusal? := h.refusal?
    startFailure? := h.startFailure?
    tree := fun path => (around.tree path).deny h.denied path }

/-- The failure that an event tells. -/
def Event.failure? : Event → Option Failure
  | .error why => some why
  | _ => none

/-! ## What is told of a directory -/

/-- What is told of a directory: each file with nothing refused on the way to it, once; each
directory that cannot be listed and has nothing refused on the way to it, once, with its failure;
and nothing else. -/
structure Tells (keeps : String → Bool) (path : String) (t : Tree) (events : List Event) :
    Prop where
  nodup : (events.filterMap Event.changed?).Nodup
  change_mem_iff (place : String) : .change place ∈ events ↔
    ∃ names, t.Holds names ∧ place = Path.below path names ∧ Tree.KeptOn keeps path names
  exists_bars : ∃ bars : List (List String × Failure), (bars.map Prod.fst).Nodup ∧
    (∀ names why, (names, why) ∈ bars ↔ t.Bars names why ∧ Tree.KeptOn keeps path names) ∧
    events.filterMap Event.failure? = bars.map Prod.snd
  ready_not_mem : .ready ∉ events

/-- The places are those of the whole, in the same order, but for those behind denied
directories. -/
structure Spares (denied : String → Option Failure) (path : String) (places whole : List String) :
    Prop where
  sublist : places.Sublist whole
  mem_iff (place : String) : place ∈ places ↔ place ∈ whole ∧ ¬ Tree.Behind denied path place

namespace Opening

variable {ℓ : Type} (around : Surroundings) (s : Subscription ℓ)

lemma failures_walked (path : String) :
    (walked around s path).filterMap Event.failure? =
      ((around.tree path).walk (fun place => !s.ignores place) path).filterMap Found.failure? := by
  rw [walked, List.filterMap_map]
  congr 1
  funext found
  cases found <;> rfl

lemma ready_not_mem_walked (path : String) : .ready ∉ walked around s path := by
  intro h
  obtain ⟨found, -, heq⟩ := List.mem_map.1 h
  cases found <;> cases heq

lemma change_mem_walked_iff (path place : String) : .change place ∈ walked around s path ↔
    Found.file place ∈ (around.tree path).walk (fun place => !s.ignores place) path := by
  constructor
  · intro h
    obtain ⟨found, hfound, heq⟩ := List.mem_map.1 h
    cases found with
    | file other =>
        obtain rfl := Event.change.inj heq
        exact hfound
    | failure why => cases heq
  · intro h
    exact List.mem_map.2 ⟨_, h, rfl⟩

/-- **A walk through a proper tree** tells each thing that it reaches. -/
lemma tells_walked {path : String} (h : (around.tree path).Proper) :
    Tells (fun place => !s.ignores place) path (around.tree path) (walked around s path) where
  nodup := by
    rw [changes_walked]
    exact Tree.nodup_walk _ _ _ h
  change_mem_iff place := by
    rw [change_mem_walked_iff, Tree.mem_walk_iff]
  exists_bars := by
    rw [failures_walked]
    exact Tree.exists_barred _ _ h
  ready_not_mem := ready_not_mem_walked around s path

end Opening

namespace Subscription

variable {ℓ : Type} {around : Surroundings} {paths : List String} {o : Options}
  {notes : List Note} {s : Subscription ℓ}

/-- A subscription as it was opened: what is in its queue, part by part. -/
structure Opened (around : Surroundings) (o : Options) (paths : List String) (s : Subscription ℓ)
    (told : String → List Event) : Prop where
  paths_eq : s.paths = locate o paths
  /-- First the directories that the observer cannot be set on, then the walks, and last that the
  observer has begun, or why it has not. -/
  queue_eq : s.queue = (s.paths.filterMap around.refusal?).map .error ++
    (if o.ignoreInitial then [] else s.paths.flatMap told) ++
    [(around.startFailure?.map Event.error).getD .ready]
  tells : ∀ path ∈ s.paths,
    Tells (fun place => !s.ignores place) path (around.tree path) (told path)
  /-- The changes are those of the walks. -/
  changes_eq : s.queue.filterMap Event.changed? =
    if o.ignoreInitial then [] else s.paths.flatMap fun path => (told path).filterMap Event.changed?
  ready_not_mem : .ready ∉ s.queue.dropLast

lemma refused_eq_error (around : Surroundings) (paths : List String) :
    paths.flatMap (Opening.refused around) = (paths.filterMap around.refusal?).map Event.error := by
  rw [List.map_filterMap, List.filterMap_eq_flatMap_toList]
  rfl

/-- **A subscription that was opened** has in its queue what its walks tell. -/
lemma opened_of_start (h : start ℓ around paths o = (notes, .ok s))
    (hproper : ∀ path ∈ locate o paths, (around.tree path).Proper) :
    Opened around o paths s (Opening.walked around s) := by
  have hqueue := queue_of_start h
  rw [refused_eq_error] at hqueue
  refine ⟨paths_of_start h, hqueue, fun path hpath => ?_, changes_queue_of_start h, ?_⟩
  · rw [paths_of_start h] at hpath
    exact Opening.tells_walked around s (hproper path hpath)
  · rw [hqueue, List.dropLast_concat, List.mem_append, not_or]
    constructor
    · intro hready
      obtain ⟨why, -, heq⟩ := List.mem_map.1 hready
      cases heq
    · split
      · exact List.not_mem_nil
      · intro hready
        obtain ⟨path, -, hwalk⟩ := List.mem_flatMap.1 hready
        exact Opening.ready_not_mem_walked around s path hwalk

/-- Hindrances have no say in what is ignored. -/
lemma ignores_hindered {h k : Hindrances} {notes' : List Note} {s' : Subscription ℓ}
    (hs : start ℓ (around.hindered h) paths o = (notes, .ok s))
    (hs' : start ℓ (around.hindered k) paths o = (notes', .ok s')) : s'.ignores = s.ignores := by
  obtain ⟨hread, hroots, hhome, -, -⟩ := fields_of_start hs
  obtain ⟨hread', hroots', hhome', -, -⟩ := fields_of_start hs'
  have hpatterns : s'.patterns = s.patterns := Except.ok.inj (hread'.symm.trans hread)
  have hsame : s'.roots = s.roots := by
    rw [hroots, hroots']
    rfl
  have hhomes : s'.home = s.home := hhome'.trans hhome.symm
  funext path
  rw [ignores, ignores, hpatterns, hsame, hhomes]

/-- **An opening is not stopped by failures** of the system.  Take any hindrances of it, and
directories in which every thing has a name of its own.

The subscription opens.  In its queue there are, in this order: an error for each of the directories
that the observer cannot be set on; what the walks tell, each of the files that are reached, once,
and each directory that is reached and cannot be listed, once; and last that the observer has begun,
or why it has not.

When the observer can be set on every directory and begins, the same changes are told.  When every
directory can be listed, the same changes are told in the same order, and besides only such as lie
behind the directories that could not be listed. -/
theorem opens_despite_hindrances (around : Surroundings) (h : Hindrances) (paths : List String)
    (o : Options) {patterns : List Pattern}
    (hread : Ignore.readAll (o.ignored.map .source) = .ok patterns) (hsystem : h.OfSystem)
    (hproper : ∀ path ∈ locate o paths, (around.tree path).Proper) :
    ∃ notes s told, start ℓ (around.hindered h) paths o = (notes, .ok s) ∧
      Opened (around.hindered h) o paths s told ∧
      (∃ notes' s', start ℓ (around.hindered { denied := h.denied }) paths o = (notes', .ok s') ∧
        s'.queue.filterMap Event.changed? = s.queue.filterMap Event.changed?) ∧
      ∃ notes' s' whole,
        start ℓ (around.hindered { h with denied := fun _ => none }) paths o = (notes', .ok s') ∧
        Opened (around.hindered { h with denied := fun _ => none }) o paths s' whole ∧
        ∀ path ∈ s.paths, Spares h.denied path ((told path).filterMap Event.changed?)
          ((whole path).filterMap Event.changed?) := by
  have hopens (k : Hindrances) (hk : k.OfSystem) :
      ∃ notes s, start ℓ (around.hindered k) paths o = (notes, .ok s) :=
    exists_start_of_system hread (fun _ _ _ => hk.refusal) fun _ => hk.start
  have hthere (k : Hindrances) (path : String) (hpath : path ∈ locate o paths) :
      ((around.hindered k).tree path).Proper := (hproper path hpath).deny k.denied path
  obtain ⟨notes, s, hstart⟩ := hopens h hsystem
  obtain ⟨notes₁, s₁, hstart₁⟩ := hopens { denied := h.denied } ⟨nofun, nofun⟩
  obtain ⟨notes₂, s₂, hstart₂⟩ := hopens { h with denied := fun _ => none }
    ⟨hsystem.refusal, hsystem.start⟩
  have hpaths := paths_of_start hstart
  refine ⟨notes, s, _, hstart, opened_of_start hstart (hthere _), ⟨notes₁, s₁, hstart₁, ?_⟩,
    notes₂, s₂, _, hstart₂, opened_of_start hstart₂ (hthere _), fun path hpath => ?_⟩
  · -- The walks go through the same directories and leave out the same.
    rw [changes_queue_of_start hstart₁, changes_queue_of_start hstart, paths_of_start hstart₁,
      hpaths]
    simp only [Opening.changes_walked, ignores_hindered hstart hstart₁]
    rfl
  · have htree := hproper path (hpaths ▸ hpath)
    simp only [Opening.changes_walked, ignores_hindered hstart hstart₂, Surroundings.hindered,
      Tree.deny_none]
    refine ⟨Tree.sublist_walk_deny _ _ path _, fun place => ?_⟩
    rw [Tree.mem_places_iff, Tree.mem_places_iff, Tree.mem_walk_deny_iff htree]

/-- The observer cannot be set on `/x` and does not begin, and `/w/build` cannot be listed: all of
this is told, and so are the other files. -/
theorem opens_despite_hindrances_in_workshop :
    let why (path : String) : Failure := .permissionDenied path
    let h : Hindrances := {
      refusal? := fun path => if path = "/x" then some (why path) else none
      denied := fun path => if path = "/w/build" then some (why path) else none
      startFailure? := some (.plain .system "inotify limit reached") }
    let o : Options := { ignored := ["tmp"], ignoreInitial := false }
    h.OfSystem ∧ (∀ path ∈ locate o ["/w", "/x"], (workshop.tree path).Proper) ∧
      ∃ notes s told, start Unit (workshop.hindered h) ["/w", "/x"] o = (notes, .ok s) ∧
        Opened (workshop.hindered h) o ["/w", "/x"] s told ∧
        s.queue = [.error (why "/x"), .change "/w/a.py", .error (why "/w/build"),
          .change "/x/a.py", .change "/x/build/b.py",
          .error (.plain .system "inotify limit reached")] := by
  intro why h o
  obtain ⟨patterns, hread⟩ : ∃ patterns, Ignore.readAll (o.ignored.map .source) = .ok patterns :=
    ⟨_, rfl⟩
  have hsystem : h.OfSystem := by
    constructor
    · intro path reason hreason
      obtain ⟨-, heq⟩ := Option.ite_none_right_eq_some.1 hreason
      obtain rfl := Option.some.inj heq
      rfl
    · intro reason hreason
      obtain rfl := Option.some.inj hreason
      rfl
  have hproper : ∀ path ∈ locate o ["/w", "/x"], (workshop.tree path).Proper :=
    fun _ _ => proper_workshop
  obtain ⟨notes, s, told, hstart, hopened, -⟩ :=
    opens_despite_hindrances (ℓ := Unit) workshop h ["/w", "/x"] o hread hsystem hproper
  refine ⟨hsystem, hproper, notes, s, told, hstart, hopened, ?_⟩
  have hqueue : (start Unit (workshop.hindered h) ["/w", "/x"] o).2.toOption.map (·.queue) =
      some [.error (why "/x"), .change "/w/a.py", .error (why "/w/build"), .change "/x/a.py",
        .change "/x/build/b.py", .error (.plain .system "inotify limit reached")] := by
    decide +kernel
  rw [hstart] at hqueue
  exact Option.some.inj hqueue

end Subscription

end Marginalia.Notifier
