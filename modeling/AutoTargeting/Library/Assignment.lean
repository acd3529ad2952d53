import Mathlib.Algebra.BigOperators.Group.Finset.Basic
import Mathlib.Algebra.Order.BigOperators.Group.Finset
import Mathlib.Data.Fintype.Card
import Mathlib.Data.Fintype.EquivFin
import Mathlib.Data.Fintype.Sum

namespace Assignment

variable {ι κ M : Type*} [Fintype ι] [Fintype κ]

section
variable [AddCommMonoid M] [PartialOrder M] [IsOrderedAddMonoid M]

/-- Potentials below the costs of all pairs, and equal to those of the pairs of `σ`, make `σ`
cheapest: both potentials are summed over everything. -/
theorem sum_le_of_potentials {cost : ι → κ → M} {u : ι → M} {v : κ → M} {σ : ι ≃ κ}
    (hle : ∀ i j, u i + v j ≤ cost i j) (htight : ∀ i, u i + v (σ i) = cost i (σ i)) (τ : ι ≃ κ) :
    ∑ i, cost i (σ i) ≤ ∑ i, cost i (τ i) := by
  have hall : ∀ e : ι ≃ κ, ∑ i, (u i + v (e i)) = ∑ i, u i + ∑ j, v j := by
    intro e
    rw [Finset.sum_add_distrib, Equiv.sum_comp e v]
  calc ∑ i, cost i (σ i) = ∑ i, (u i + v (σ i)) := by
        apply Finset.sum_congr rfl
        intro i _
        exact (htight i).symm
    _ = ∑ i, (u i + v (τ i)) := (hall σ).trans (hall τ).symm
    _ ≤ ∑ i, cost i (τ i) := Finset.sum_le_sum fun i _ => hle i (τ i)

end

/-- No column is given to two rows. -/
def Partial (f : ι → Option κ) : Prop := ∀ i i' j, f i = some j → f i' = some j → i = i'

/-- A partial assignment between sets of one size can be completed. -/
theorem Partial.exists_completion [DecidableEq κ] {f : ι → Option κ} (hf : Partial f)
    (hcard : Fintype.card ι = Fintype.card κ) : ∃ σ : ι ≃ κ, ∀ i j, f i = some j → σ i = j := by
  classical
  by_cases hempty : IsEmpty κ
  · have hrows : IsEmpty ι := Fintype.card_eq_zero_iff.mp (by simp [hcard])
    exact ⟨Equiv.equivOfIsEmpty ι κ, fun i => hrows.elim i⟩
  · have hκ : Nonempty κ := not_isEmpty_iff.mp hempty
    let g : ι → κ := fun i => (f i).getD (Classical.choice hκ)
    let s : Finset ι := Finset.univ.filter fun i => (f i).isSome = true
    have hg : ∀ i j, f i = some j → g i = j := by
      intro i j hi
      simp [g, hi]
    have hinj : Set.InjOn g s := by
      intro i hi i' hi' heq
      simp only [s, Finset.coe_filter, Finset.mem_univ, true_and, Set.mem_ofPred_eq,
        Option.isSome_iff_exists] at hi hi'
      obtain ⟨j, hj⟩ := hi
      obtain ⟨j', hj'⟩ := hi'
      rw [hg i j hj, hg i' j' hj'] at heq
      exact hf i i' j hj (heq ▸ hj')
    obtain ⟨e, he⟩ := Finset.exists_equiv_extend_of_card_eq (t := Finset.univ)
      (by rw [hcard]; rfl) (Finset.subset_univ _) hinj
    refine ⟨e.trans (Equiv.subtypeUnivEquiv Finset.mem_univ), fun i j hi => ?_⟩
    have hmem : i ∈ s := by simp [s, hi]
    exact (he i hmem).trans (hg i j hi)

end Assignment
