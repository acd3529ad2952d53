import Mathlib.Data.List.GetD
import Mathlib.Data.List.Sort

namespace OrderStatistics

variable {α : Type*} [LinearOrder α] {l l' : List α} {k : ℕ} {v : α}

/-- `v` is the entry with number `k` once the list is in order. -/
def AtRank (l : List α) (k : ℕ) (v : α) : Prop :=
  l.countP (· < v) ≤ k ∧ k < l.countP (· ≤ v)

theorem AtRank.mem (h : AtRank l k v) : v ∈ l := by
  by_contra hv
  have hsame : l.countP (· ≤ v) = l.countP (· < v) := by
    apply List.countP_congr
    intro x hx
    have hne : x ≠ v := fun heq => hv (heq ▸ hx)
    simp [le_iff_lt_or_eq, hne]
  have h1 := h.1
  have h2 := h.2
  omega

theorem AtRank.perm (hl : l.Perm l') (h : AtRank l k v) : AtRank l' k v := by
  rw [AtRank, ← hl.countP_eq, ← hl.countP_eq]
  exact h

/-- What stands before an entry is not greater, and what stands behind it not less. -/
theorem atRank_sorted (hl : l.Pairwise (· ≤ ·)) (hk : k < l.length) : AtRank l k l[k] := by
  have hbefore : ∀ x ∈ l.take (k + 1), x ≤ l[k] := by
    intro x hx
    obtain ⟨i, hi, rfl⟩ := List.mem_take_iff_getElem.mp hx
    rcases Nat.lt_succ_iff_lt_or_eq.mp (lt_of_lt_of_le hi (min_le_left _ _)) with hlt | rfl
    · exact List.pairwise_iff_getElem.mp hl i k _ hk hlt
    · exact le_rfl
  have hbehind : ∀ x ∈ l.drop k, l[k] ≤ x := by
    intro x hx
    obtain ⟨i, hi, rfl⟩ := List.mem_drop_iff_getElem.mp hx
    rcases Nat.eq_zero_or_pos i with rfl | hpos
    · exact le_rfl
    · exact List.pairwise_iff_getElem.mp hl k (k + i) hk _ (by omega)
  constructor
  · have hnone : (l.drop k).countP (· < l[k]) = 0 := by
      rw [List.countP_eq_zero]
      intro x hx
      simpa using hbehind x hx
    calc l.countP (· < l[k])
        = (l.take k).countP (· < l[k]) + (l.drop k).countP (· < l[k]) := by
          rw [← List.countP_append, List.take_append_drop]
      _ = (l.take k).countP (· < l[k]) := by rw [hnone, Nat.add_zero]
      _ ≤ (l.take k).length := List.countP_le_length
      _ ≤ k := List.length_take_le k l
  · have hall : (l.take (k + 1)).countP (· ≤ l[k]) = k + 1 := by
      rw [List.countP_eq_length.mpr, List.length_take_of_le hk]
      intro x hx
      simpa using hbefore x hx
    have hsub : (l.take (k + 1)).countP (· ≤ l[k]) ≤ l.countP (· ≤ l[k]) :=
      (List.take_sublist _ l).countP_le
    omega

theorem atRank_mergeSort (hk : k < l.length) (d : α) :
    AtRank l k ((l.mergeSort (· ≤ ·)).getD k d) := by
  have hk' : k < (l.mergeSort (· ≤ ·)).length := by rwa [List.length_mergeSort]
  rw [List.getD_eq_getElem _ _ hk']
  exact (atRank_sorted (List.pairwise_mergeSort' (· ≤ ·) l) hk').perm (List.mergeSort_perm l _)

end OrderStatistics
