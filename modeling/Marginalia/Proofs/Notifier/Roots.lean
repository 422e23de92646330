import Marginalia.Notifier.Subscription
import Marginalia.Proofs.Ignore

/-!
# The root that decides

A subscription keeps the names of its directories, its roots, and shows its patterns the part of a
path inside the first root that holds it (`deciding?`).  A name that comes twice in the list changes
nothing, `find?_eraseDups`.  So the patterns see the first part of the path that lies inside a root,
and the whole path if there is none: `ignores_eq_isFoundBy_inside`.
-/

namespace Marginalia.Notifier.Subscription

variable {ℓ : Type}

/-! ## What is found first -/

/-- What comes twice in a list is found where it comes first. -/
lemma find?_eraseDups (p : String → Bool) (roots : List String) :
    roots.eraseDups.find? p = roots.find? p := by
  cases roots with
  | nil => rfl
  | cons root rest =>
      rw [List.eraseDups_cons]
      by_cases hroot : p root
      · rw [List.find?_cons_of_pos hroot, List.find?_cons_of_pos hroot]
      · have hother : (fun other => decide ((!other == root) = true ∧ p other = true)) = p := by
          funext other
          by_cases hsame : other = root
          · simp [hsame, hroot]
          · simp [hsame]
        rw [List.find?_cons_of_neg hroot, List.find?_cons_of_neg hroot,
          find?_eraseDups p (rest.filter fun other => !other == root), List.find?_filter, hother]
termination_by roots.length
decreasing_by
  exact Nat.lt_succ_of_le (List.length_filter_le ..)

lemma isSome_find? (p : String → Bool) (names : List String) :
    (names.find? p).isSome = names.any p := by
  rw [Bool.eq_iff_iff, List.find?_isSome, List.any_eq_true]

/-- The first part that is some is the part of the first name that has one. -/
lemma find?_isSome_bind (part : String → Option String) (names : List String) :
    (names.find? fun name => (part name).isSome).bind part = names.findSome? part := by
  induction names with
  | nil => rfl
  | cons name names ih =>
      rw [List.find?_cons, List.findSome?_cons, ← ih]
      cases hpart : part name with
      | none => rfl
      | some inside => exact hpart

lemma findSome?_eraseDups (part : String → Option String) (roots : List String) :
    roots.eraseDups.findSome? part = roots.findSome? part := by
  rw [← find?_isSome_bind, find?_eraseDups, find?_isSome_bind]

/-! ## What the patterns see -/

/-- The name of the directory whose inside the patterns see of a path. -/
def deciding? (s : Subscription ℓ) (path : String) : Option String :=
  s.roots.find? fun root => (Path.insideRoot? s.home (Path.absoluteText s.home path) root).isSome

lemma ignores_eq (s : Subscription ℓ) (path : String) :
    s.ignores path =
      match s.deciding? path with
      | some root =>
        Ignore.isIgnoredBy s.patterns s.home (Path.absoluteText s.home path) (some root)
      | none => Ignore.isFoundBy s.patterns path := by
  rw [ignores, ← deciding?]
  cases s.deciding? path with
  | none => exact Ignore.isIgnoredBy_none _ _ _
  | some root => rfl

/-- **What the patterns see** of a path is the first part of it that lies inside a root. -/
lemma ignores_eq_isFoundBy_inside {s : Subscription ℓ} (hroots : ∀ root ∈ s.roots, root ≠ "")
    (path : String) :
    s.ignores path = Ignore.isFoundBy s.patterns
      ((s.roots.findSome? (Path.insideRoot? s.home (Path.absoluteText s.home path))).getD
        path) := by
  rw [ignores_eq, ← find?_isSome_bind, ← deciding?]
  cases hfound : s.deciding? path with
  | none => rfl
  | some root =>
      have hne := hroots root (List.mem_of_find?_eq_some hfound)
      have hinside := List.find?_some hfound
      obtain ⟨way, hway⟩ := Option.isSome_iff_exists.1 hinside
      rw [Option.bind_some, hway]
      dsimp only
      rw [Ignore.isIgnoredBy_eq_isFoundBy _ _ _ hne, hway]
      rfl

end Marginalia.Notifier.Subscription
