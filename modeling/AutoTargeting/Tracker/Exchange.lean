import AutoTargeting.Tracker.HungarianOptimal
import Mathlib.Logic.Equiv.Basic

namespace AutoTargeting.Tracker

def rowCost (costs : List (List ℚ)) (i : ℕ) : Option ℕ → ℚ
  | some j => entry costs i j
  | none => 0

def ofColumns (n : ℕ) (f : ℕ → Option ℕ) : List (Option ℕ) := (List.range n).map f

section
variable {costs : List (List ℚ)} {n m i i' j j' : ℕ} {a : List (Option ℕ)} {f : ℕ → Option ℕ}

theorem totalCost_eq (a : List (Option ℕ)) :
    totalCost costs a = ∑ i ∈ Finset.range costs.length, rowCost costs i (given a i) := by
  apply Finset.sum_congr rfl
  intro i _
  cases given a i <;> rfl

theorem given_ofColumns {i : ℕ} : given (ofColumns n f) i = if i < n then f i else none := by
  unfold given ofColumns
  rw [List.getElem?_map]
  split
  case isTrue hi => rw [List.getElem?_range hi, Option.map_some, Option.join_some]
  case isFalse hi =>
    rw [List.getElem?_eq_none (by simpa using hi)]
    rfl

/-- Columns make an assignment if the rows that have one are as many. -/
theorem isAssignment_ofColumns (hlt : ∀ i j, i < n → f i = some j → j < m)
    (hinj : ∀ i i' j, i < n → i' < n → f i = some j → f i' = some j → i = i')
    (hfull : ((Finset.range n).filter fun i => (f i).isSome = true).card = min n m) :
    IsAssignment n m (ofColumns n f) where
  length_eq := by simp [ofColumns]
  column_lt i j h := by
    rw [given_ofColumns] at h
    split at h
    case isTrue hi => exact hlt i j hi h
    case isFalse => cases h
  inj i i' j h h' := by
    rw [given_ofColumns] at h h'
    split at h
    case isTrue hi =>
      split at h'
      case isTrue hi' => exact hinj i i' j hi hi' h h'
      case isFalse => cases h'
    case isFalse => cases h
  full := by
    rw [← hfull]
    congr 1
    apply Finset.filter_congr
    intro i hi
    rw [given_ofColumns, if_pos (Finset.mem_range.mp hi)]

theorem totalCost_ofColumns :
    totalCost costs (ofColumns costs.length f) =
      ∑ i ∈ Finset.range costs.length, rowCost costs i (f i) := by
  rw [totalCost_eq]
  apply Finset.sum_congr rfl
  intro i hi
  rw [given_ofColumns, if_pos (Finset.mem_range.mp hi)]

theorem sum_le_at {s : Finset ℕ} {g h : ℕ → ℚ} (hi : i ∈ s) (heq : ∀ k ∈ s, k ≠ i → g k = h k)
    (hle : ∑ k ∈ s, g k ≤ ∑ k ∈ s, h k) : g i ≤ h i := by
  rw [← Finset.add_sum_erase s g hi, ← Finset.add_sum_erase s h hi,
    Finset.sum_congr rfl fun k hk => heq k (Finset.mem_of_mem_erase hk) (Finset.ne_of_mem_erase hk)]
    at hle
  exact le_of_add_le_add_right hle

theorem sum_le_at_two {s : Finset ℕ} {g h : ℕ → ℚ} (hi : i ∈ s) (hi' : i' ∈ s) (hne : i' ≠ i)
    (heq : ∀ k ∈ s, k ≠ i → k ≠ i' → g k = h k) (hle : ∑ k ∈ s, g k ≤ ∑ k ∈ s, h k) :
    g i + g i' ≤ h i + h i' := by
  have hmem : i' ∈ s.erase i := Finset.mem_erase.mpr ⟨hne, hi'⟩
  have hrest : ∑ k ∈ (s.erase i).erase i', g k = ∑ k ∈ (s.erase i).erase i', h k := by
    apply Finset.sum_congr rfl
    intro k hk
    rw [Finset.mem_erase, Finset.mem_erase] at hk
    exact heq k hk.2.2 hk.2.1 hk.1
  rw [← Finset.add_sum_erase s g hi, ← Finset.add_sum_erase s h hi,
    ← Finset.add_sum_erase _ g hmem, ← Finset.add_sum_erase _ h hmem, hrest, ← add_assoc,
    ← add_assoc] at hle
  exact le_of_add_le_add_right hle

theorem exchange_rows (ha : IsAssignment costs.length m a)
    (hmin : ∀ b, IsAssignment costs.length m b → totalCost costs a ≤ totalCost costs b)
    (hi : i < costs.length) (hi' : i' < costs.length) (hne : i' ≠ i) :
    rowCost costs i (given a i) + rowCost costs i' (given a i') ≤
      rowCost costs i (given a i') + rowCost costs i' (given a i) := by
  let f : ℕ → Option ℕ := fun k => given a (Equiv.swap i i' k)
  have hswap : ∀ k, Equiv.swap i i' k < costs.length ↔ k < costs.length := by
    intro k
    rcases eq_or_ne k i with rfl | hki
    · rw [Equiv.swap_apply_left]
      exact iff_of_true hi' hi
    · rcases eq_or_ne k i' with rfl | hki'
      · rw [Equiv.swap_apply_right]
        exact iff_of_true hi hi'
      · rw [Equiv.swap_apply_of_ne_of_ne hki hki']
  have hassign : IsAssignment costs.length m (ofColumns costs.length f) := by
    apply isAssignment_ofColumns
    · exact fun k j _ hk => ha.column_lt _ j hk
    · exact fun k k' j _ _ hk hk' => (Equiv.swap i i').injective (ha.inj _ _ j hk hk')
    · rw [← ha.full]
      apply Finset.card_equiv (Equiv.swap i i')
      intro k
      rw [Finset.mem_filter, Finset.mem_filter, Finset.mem_range, Finset.mem_range, hswap]
  have hle := hmin _ hassign
  rw [totalCost_eq, totalCost_ofColumns] at hle
  have hsum := sum_le_at_two (Finset.mem_range.mpr hi) (Finset.mem_range.mpr hi') hne
    (fun k _ hki hki' => by simp only [f, Equiv.swap_apply_of_ne_of_ne hki hki']) hle
  simpa only [f, Equiv.swap_apply_left, Equiv.swap_apply_right] using hsum

theorem exchange_column (ha : IsAssignment costs.length m a)
    (hmin : ∀ b, IsAssignment costs.length m b → totalCost costs a ≤ totalCost costs b)
    (hj' : given a i = some j') (hj : j < m) (hfree : ∀ k, given a k ≠ some j) :
    entry costs i j' ≤ entry costs i j := by
  -- the same assignment, but row `i` has the free column
  let f : ℕ → Option ℕ := fun k => if k = i then some j else given a k
  have hi : i < costs.length := ha.length_eq ▸ given_lt hj'
  have hassign : IsAssignment costs.length m (ofColumns costs.length f) := by
    apply isAssignment_ofColumns
    · intro k l _ hk
      by_cases hki : k = i
      · rw [show f k = some j from if_pos hki, Option.some.injEq] at hk
        exact hk ▸ hj
      · rw [show f k = given a k from if_neg hki] at hk
        exact ha.column_lt k l hk
    · intro k k' l _ _ hk hk'
      by_cases hki : k = i <;> by_cases hki' : k' = i
      · exact hki.trans hki'.symm
      · rw [show f k = some j from if_pos hki] at hk
        rw [show f k' = given a k' from if_neg hki', ← hk] at hk'
        exact absurd hk' (hfree k')
      · rw [show f k' = some j from if_pos hki'] at hk'
        rw [show f k = given a k from if_neg hki, ← hk'] at hk
        exact absurd hk (hfree k)
      · rw [show f k = given a k from if_neg hki] at hk
        rw [show f k' = given a k' from if_neg hki'] at hk'
        exact ha.inj k k' l hk hk'
    · rw [← ha.full]
      congr 1
      apply Finset.filter_congr
      intro k _
      by_cases hki : k = i
      · simp [f, hki, hj']
      · simp [f, hki]
  have hle := hmin _ hassign
  rw [totalCost_eq, totalCost_ofColumns] at hle
  have hrow := sum_le_at (Finset.mem_range.mpr hi) (fun k _ hki => by simp only [f, if_neg hki]) hle
  simpa only [f, if_true, hj', rowCost] using hrow

/-- Where a row has no column, every column has a row. -/
theorem IsAssignment.column_used (ha : IsAssignment n m a) (hi : i < n) (hnone : given a i = none)
    (hj : j < m) : ∃ k, given a k = some j := by
  let rows := (Finset.range n).filter fun k => (given a k).isSome = true
  have hfewer : rows.card < n := by
    have hsub : rows ⊂ Finset.range n := by
      refine ⟨Finset.filter_subset _ _, fun hall => ?_⟩
      have hmem := (Finset.mem_filter.mp (hall (Finset.mem_range.mpr hi))).2
      simp [hnone] at hmem
    simpa using Finset.card_lt_card hsub
  have hcard : rows.card = m := by
    have hfull : rows.card = min n m := ha.full
    omega
  have hsome : ∀ k ∈ rows, given a k = some ((given a k).getD 0) := by
    intro k hk
    obtain ⟨l, hl⟩ := Option.isSome_iff_exists.mp (Finset.mem_filter.mp hk).2
    rw [hl]
    rfl
  obtain ⟨k, hk, hkj⟩ := Finset.surj_on_of_inj_on_of_card_le (t := Finset.range m)
    (fun k _ => (given a k).getD 0)
    (fun k hk => Finset.mem_range.mpr (ha.column_lt k _ (hsome k hk)))
    (fun k k' hk hk' heq => ha.inj k k' _ (hsome k hk) (heq ▸ hsome k' hk'))
    (by rw [Finset.card_range, hcard]) j (Finset.mem_range.mpr hj)
  exact ⟨k, hkj ▸ hsome k hk⟩

end

end AutoTargeting.Tracker
