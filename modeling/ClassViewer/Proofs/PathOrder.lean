import ClassViewer.Proofs.Directory
import Mathlib.Data.List.Lex
import Mathlib.Data.List.Sort
import Mathlib.Data.Prod.Lex
import Mathlib.Data.String.Basic

/-!
# The order of paths

Paths are ordered by their components, and these by a kind and a name (`Component.key`). That makes
path order the lexicographic order of lists (`before_iff`), from which everything follows that a
sorted list needs : it is in order whatever was sorted (`pairwise_sort`), strictly so if no two
paths have the same components (`pairwise_sort_of_nodup`), and then it is the only list of these
paths in order (`eq_of_mem_iff`).
-/

namespace ClassViewer.Path

/-- What components are ordered by. -/
def Component.key : Component → ℕ ×ₗ String
  | .name n => toLex (3, n)
  | c => toLex (c.rank, "")

theorem Component.key_injective : Function.Injective Component.key := by
  intro c c' h
  cases c <;> cases c' <;> simp_all [Component.key, Component.rank]

theorem Component.before_iff (c c' : Component) : c.before c' = true ↔ c.key < c'.key := by
  cases c <;> cases c' <;>
    simp [Component.before, Component.key, Component.rank, Prod.Lex.toLex_lt_toLex]

theorem componentsBefore_iff (cs cs' : List Component) :
    componentsBefore cs cs' = true ↔ cs.map Component.key < cs'.map Component.key := by
  fun_induction componentsBefore cs cs' with
  | case1 => simp
  | case2 => simp
  | case3 => simp
  | case4 c cs cs' ih => simp [ih]
  | case5 c cs c' cs' hne =>
    have hkey : c.key ≠ c'.key := Component.key_injective.ne hne
    simp [Component.before_iff, List.cons_lt_cons_iff, hkey]

/-- A common beginning does not count. -/
theorem componentsBefore_append_left (cs as bs : List Component) :
    componentsBefore (cs ++ as) (cs ++ bs) = componentsBefore as bs := by
  induction cs with
  | nil => rfl
  | cons c cs ih => simp [componentsBefore, ih]

/-- What paths are ordered by. -/
def key (p : Path) : List (ℕ ×ₗ String) := p.components.map Component.key

theorem before_iff (p q : Path) : p.before q = true ↔ p.key < q.key :=
  componentsBefore_iff p.components q.components

theorem key_eq_iff {p q : Path} : p.key = q.key ↔ p.components = q.components :=
  (List.map_injective_iff.2 Component.key_injective).eq_iff

/-- Paths in strict order are told by which they are. -/
theorem eq_of_mem_iff {ps qs : List Path} (hp : ps.Pairwise fun p q => p.before q = true)
    (hq : qs.Pairwise fun p q => p.before q = true) (h : ∀ p, p ∈ ps ↔ p ∈ qs) : ps = qs := by
  have hasymm {p q : Path} (hpq : p.before q = true) : ¬q.before p = true := by
    rw [before_iff] at hpq ⊢
    exact lt_asymm hpq
  have : Std.Antisymm fun p q : Path => p.before q = true :=
    ⟨fun _ _ hpq hqp => absurd hqp (hasymm hpq)⟩
  have : Std.Irrefl fun p q : Path => p.before q = true := ⟨fun _ hpp => hasymm hpp hpp⟩
  exact hp.eq_of_mem_iff hq h

theorem perm_sort (ps : List Path) : (sort ps).Perm ps := List.mergeSort_perm ps _

/-- Nothing comes before what stands in front of it. -/
theorem pairwise_sort (ps : List Path) : (sort ps).Pairwise fun p q => p.key ≤ q.key := by
  have hle : ∀ p q : Path, (!q.before p) = true ↔ p.key ≤ q.key := by
    intro p q
    rw [Bool.not_eq_true', ← Bool.not_eq_true, before_iff, not_lt]
  have hsorted : (sort ps).Pairwise fun p q => (!q.before p) = true := by
    refine List.pairwise_mergeSort (fun p q r hpq hqr => ?_) (fun p q => ?_) ps
    · rw [hle] at hpq hqr ⊢
      exact hpq.trans hqr
    · rw [Bool.or_eq_true, hle, hle]
      exact le_total _ _
  exact hsorted.imp fun h => (hle _ _).1 h

/-- Paths with different components are brought into strict order. -/
theorem pairwise_sort_of_nodup {ps : List Path} (h : (ps.map components).Nodup) :
    (sort ps).Pairwise fun p q => p.before q = true := by
  have hne : (sort ps).Pairwise fun p q => p.components ≠ q.components :=
    List.pairwise_map.1 (((perm_sort ps).map components).nodup_iff.2 h)
  refine (pairwise_sort ps).imp₂ (fun p q hle hne => ?_) hne
  rw [before_iff]
  exact lt_of_le_of_ne hle fun hkey => hne (key_eq_iff.1 hkey)

end ClassViewer.Path
