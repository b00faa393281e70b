import Mathlib.Logic.Relation
import Mathlib.Order.Basic

/-!
# Wait-for graphs

Threads that are blocked on resources wait for the threads that hold them. If the resources can be
ranked so that a blocked thread holds only resources of lower rank than the one it is blocked on,
then no set of threads waits on each other in a cycle.
-/

namespace PaySystem

variable {ι ρ κ : Type*} [Preorder κ] {blockedOn holds : ι → ρ → Prop} {rank : ρ → κ}

/-- `i` waits for `j`: it is blocked on a resource that `j` holds. -/
def WaitsFor (blockedOn holds : ι → ρ → Prop) (i j : ι) : Prop := ∃ r, blockedOn i r ∧ holds j r

/-- Along a chain of waiting threads the rank of the resources does not decrease. -/
theorem WaitsFor.rank_le (h : ∀ i r r', holds i r → blockedOn i r' → rank r < rank r') {i j : ι}
    (hij : Relation.TransGen (WaitsFor blockedOn holds) i j) :
    ∃ r r', blockedOn i r ∧ holds j r' ∧ rank r ≤ rank r' := by
  induction hij with
  | single hij =>
    obtain ⟨r, hb, hh⟩ := hij
    exact ⟨r, r, hb, hh, le_rfl⟩
  | tail _ hjk ih =>
    obtain ⟨r, r₁, hb, hh₁, hle⟩ := ih
    obtain ⟨r₂, hb₂, hh₂⟩ := hjk
    exact ⟨r, r₂, hb, hh₂, hle.trans (h _ r₁ r₂ hh₁ hb₂).le⟩

/-- **Ranked resources exclude circular waits.** -/
theorem WaitsFor.acyclic (h : ∀ i r r', holds i r → blockedOn i r' → rank r < rank r') (i : ι) :
    ¬ Relation.TransGen (WaitsFor blockedOn holds) i i := by
  intro hii
  obtain ⟨r, r', hb, hh, hle⟩ := WaitsFor.rank_le h hii
  exact lt_irrefl _ ((h i r' r hh hb).trans_le hle)

end PaySystem
