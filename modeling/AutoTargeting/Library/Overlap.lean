import Mathlib.Algebra.Order.Field.Basic
import Mathlib.Data.Finset.Card
import Mathlib.Data.Nat.Cast.Order.Ring

namespace Overlap

variable {α : Type*} [DecidableEq α] (F : Type*) [Field F]

/-- The common part by the whole, and 0 for two empty sets. -/
def ratio (s t : Finset α) : F := (s ∩ t).card / (s ∪ t).card

variable {F} {s t : Finset α}

theorem card_union_cast : ((s ∪ t).card : F) = (s.card + t.card : ℕ) - (s ∩ t).card := by
  rw [← Finset.card_union_add_card_inter s t, Nat.cast_add, add_sub_cancel_right]

theorem ratio_eq : ratio F s t = (s ∩ t).card / ((s.card + t.card : ℕ) - (s ∩ t).card) := by
  rw [ratio, card_union_cast]

variable [LinearOrder F] [IsStrictOrderedRing F]

theorem ratio_self (h : s.Nonempty) : ratio F s s = 1 := by
  have hcard : (s.card : F) ≠ 0 := Nat.cast_ne_zero.mpr h.card_pos.ne'
  rw [ratio, Finset.inter_self, Finset.union_self, div_self hcard]

theorem ratio_nonneg : 0 ≤ ratio F s t := div_nonneg (Nat.cast_nonneg _) (Nat.cast_nonneg _)

theorem ratio_le_one : ratio F s t ≤ 1 := by
  apply div_le_one_of_le₀ ?_ (Nat.cast_nonneg _)
  have hsub : s ∩ t ⊆ s ∪ t := Finset.inter_subset_left.trans Finset.subset_union_left
  exact_mod_cast Finset.card_le_card hsub

end Overlap
