import AutoTargeting.Tracker.HungarianRows
import AutoTargeting.Library.Assignment
import Mathlib.Algebra.BigOperators.Fin
import Mathlib.Algebra.BigOperators.Group.Finset.Piecewise

namespace AutoTargeting.Tracker

/-- The column of each row is written once, at the row's place. -/
theorem foldl_columns {size : ℕ} {p : ℕ → ℕ} {cols : List ℕ} (hnodup : cols.Nodup)
    (hle : ∀ k ∈ cols, p k ≤ size)
    (hinj : ∀ k ∈ cols, ∀ k' ∈ cols, p k ≠ 0 → p k = p k' → k = k') :
    let result := cols.foldl
      (fun (result : List ℕ) j => if 0 < p j then result.set (p j - 1) (j - 1) else result)
      (List.replicate size 0)
    result.length = size ∧ ∀ k ∈ cols, p k ≠ 0 → result[p k - 1]? = some (k - 1) := by
  induction cols using List.reverseRecOn with
  | nil => simp
  | append_singleton cols j ih =>
    have hsplit := List.nodup_append.mp hnodup
    obtain ⟨hlen, hold⟩ := ih hsplit.1 (fun k hk => hle k (by simp [hk]))
      (fun k hk k' hk' => hinj k (by simp [hk]) k' (by simp [hk']))
    dsimp only at hlen hold ⊢
    rw [List.foldl_append, List.foldl_cons, List.foldl_nil]
    generalize cols.foldl _ _ = result at hlen hold ⊢
    have hjle : p j ≤ size := hle j (by simp)
    split
    case isTrue hpos =>
      refine ⟨by rw [List.length_set, hlen], fun k hk hne => ?_⟩
      by_cases hkj : k = j
      · rw [hkj, List.getElem?_set_self (by omega)]
      · have hkmem : k ∈ cols := by simpa [hkj] using hk
        -- another row: what was written for it stays
        have hrows : p k ≠ p j := fun heq =>
          hkj (hinj k (by simp [hkmem]) j (by simp) hne heq)
        rw [List.getElem?_set_ne (by omega)]
        exact hold k hkmem hne
    case isFalse hzero =>
      refine ⟨hlen, fun k hk hne => ?_⟩
      have hkmem : k ∈ cols := by
        rcases List.mem_append.mp hk with hk | hk
        · exact hk
        · rw [List.mem_singleton.mp hk] at hne
          omega
      exact hold k hkmem hne

theorem oneBased_succ (matrix : ℕ → ℕ → ℚ) (i j : ℕ) :
    oneBased matrix (i + 1) (j + 1) = matrix i j := by
  simp [oneBased]

/-- `hungarian` returns the columns of a cheapest permutation. -/
theorem hungarian_optimal (matrix : ℕ → ℕ → ℚ) (size : ℕ) :
    ∃ σ : Equiv.Perm (Fin size),
      hungarian matrix size = some (List.ofFn fun i => (σ i : ℕ)) ∧
      ∀ τ : Equiv.Perm (Fin size),
        ∑ i : Fin size, matrix i (σ i) ≤ ∑ i : Fin size, matrix i (τ i) := by
  obtain ⟨r, hr, hdone⟩ := rowsDone_all size (oneBased matrix) (le_refl size)
  -- every row has a column, and no two have one, so that these are a permutation
  have hcolumn : ∀ i : Fin size, ∃ j : Fin size, r.p (j + 1) = i + 1 := by
    intro i
    obtain ⟨j, hpos, hle, hj⟩ := hdone.matched.surj (i + 1) (Nat.succ_pos _) i.isLt
    refine ⟨⟨j - 1, by omega⟩, ?_⟩
    rw [← hj]
    congr 1
    exact Nat.sub_add_cancel hpos
  choose f hf using hcolumn
  have hinj : Function.Injective f := by
    intro i i' heq
    have hrows := hf i
    rw [heq, hf i'] at hrows
    exact Fin.ext (by omega)
  let σ := Equiv.ofBijective f (Finite.injective_iff_bijective.mp hinj)
  refine ⟨σ, ?_, fun τ => ?_⟩
  · have hinside : ∀ k ∈ List.range' 1 size, 0 < k ∧ k ≤ size := by
      intro k hk
      rw [List.mem_range'_1] at hk
      omega
    obtain ⟨hlen, hentries⟩ := foldl_columns (p := r.p) (List.nodup_range' (s := 1) (n := size))
      (fun k hk => hdone.matched.le k (hinside k hk).1 (hinside k hk).2)
      (fun k hk k' hk' => hdone.matched.inj k k' (hinside k hk).1 (hinside k hk).2
        (hinside k' hk').1 (hinside k' hk').2)
    unfold hungarian
    rw [hr, Option.map_some, Option.some.injEq]
    apply List.ext_getElem?
    intro i
    by_cases hi : i < size
    · have hentry := hentries (σ ⟨i, hi⟩ + 1) (by rw [List.mem_range'_1]; omega)
        (by rw [show r.p (σ ⟨i, hi⟩ + 1) = i + 1 from hf ⟨i, hi⟩]; exact Nat.succ_ne_zero i)
      rw [show r.p (σ ⟨i, hi⟩ + 1) = i + 1 from hf ⟨i, hi⟩] at hentry
      simpa [columnsOfRows, hi] using hentry
    · rw [List.getElem?_eq_none (by rw [show (columnsOfRows size r.p).length = size from hlen]; omega),
        List.getElem?_eq_none (by simp; omega)]
  · -- the potentials bound every permutation from below, and this one exactly
    have hle : ∀ i j : Fin size, r.u (i + 1) + r.v (j + 1) ≤ matrix i j := by
      intro i j
      rw [← oneBased_succ matrix i j]
      exact hdone.feasible _ (Nat.succ_pos _) i.isLt _ (Nat.succ_pos _) j.isLt
    have htight : ∀ i : Fin size, r.u (i + 1) + r.v (σ i + 1) = matrix i (σ i) := by
      intro i
      have hrow : r.p (σ i + 1) = i + 1 := hf i
      have htight := hdone.tight (σ i + 1) (Nat.succ_pos _) (σ i).isLt (by
        rw [hrow]
        exact Nat.succ_ne_zero _)
      rwa [hrow, oneBased_succ] at htight
    exact Assignment.sum_le_of_potentials (u := fun i : Fin size => r.u (i + 1))
      (v := fun j : Fin size => r.v (j + 1)) hle htight τ

/-- The column that an assignment gives to row `i`. -/
def given (a : List (Option ℕ)) (i : ℕ) : Option ℕ := (a[i]?).join

def entry (costs : List (List ℚ)) (i j : ℕ) : ℚ := ((costs[i]?).bind fun row => row[j]?).getD 0

def totalCost (costs : List (List ℚ)) (a : List (Option ℕ)) : ℚ :=
  ∑ i ∈ Finset.range costs.length, match given a i with
    | some j => entry costs i j
    | none => 0

/-- An assignment of `n` rows to `m` columns, no column twice, of as many rows as possible. -/
structure IsAssignment (n m : ℕ) (a : List (Option ℕ)) : Prop where
  length_eq : a.length = n
  column_lt : ∀ i j, given a i = some j → j < m
  inj : ∀ i i' j, given a i = some j → given a i' = some j → i = i'
  full : ((Finset.range n).filter fun i => (given a i).isSome = true).card = min n m

section
variable {costs : List (List ℚ)} {n m : ℕ} {a : List (Option ℕ)}

theorem given_eq_none {i : ℕ} (h : a.length ≤ i) : given a i = none := by
  rw [given, List.getElem?_eq_none h]
  rfl

theorem given_lt {i j : ℕ} (h : given a i = some j) : i < a.length := by
  by_contra hge
  rw [given_eq_none (not_lt.mp hge)] at h
  cases h

/-- The padded costs of rows of one length. -/
theorem padded_eq (hrect : ∀ row ∈ costs, row.length = m) (i j : ℕ) :
    padded (costs.map (·.take m)) i j =
      if i < costs.length ∧ j < m then entry costs i j else largeCost := by
  unfold padded entry
  rw [List.getElem?_map]
  by_cases hi : i < costs.length
  · have hlen : costs[i].length = m := hrect _ (List.getElem_mem hi)
    rw [List.getElem?_eq_getElem hi]
    simp only [Option.map_some, Option.bind_some]
    by_cases hj : j < m
    · rw [if_pos ⟨hi, hj⟩, List.getElem?_take_of_lt hj, List.getElem?_eq_getElem (by omega)]
      rfl
    · rw [if_neg (fun h => hj h.2), List.getElem?_eq_none (by rw [List.length_take]; omega)]
      rfl
  · rw [if_neg (fun h => hi h.1), List.getElem?_eq_none (by omega)]
    rfl

/-- The permutation on the numbers below its size. -/
def onNat {size : ℕ} (σ : Equiv.Perm (Fin size)) (i : ℕ) : ℕ :=
  if h : i < size then σ ⟨i, h⟩ else i

theorem onNat_injOn {size : ℕ} (σ : Equiv.Perm (Fin size)) :
    Set.InjOn (onNat σ) (Finset.range size) := by
  intro i hi k hk heq
  have hi' : i < size := by simpa using hi
  have hk' : k < size := by simpa using hk
  simp only [onNat, dif_pos hi', dif_pos hk'] at heq
  have hrows := σ.injective (Fin.ext heq)
  exact congrArg Fin.val hrows

/-- No other row has a real column left: it would be one more than there are rows or columns. -/
theorem IsAssignment.rest {size i : ℕ} {σ : Equiv.Perm (Fin size)} (ha : IsAssignment n m a)
    (hn : n ≤ size) (hσ : ∀ i j, given a i = some j → onNat σ i = j) (hi : given a i = none) :
    ¬ (i < n ∧ onNat σ i < m) := by
  rintro ⟨hin, him⟩
  let rows := (Finset.range n).filter fun k => (given a k).isSome = true
  have hnot : i ∉ rows := by simp [rows, hi]
  have hsub : insert i rows ⊆ Finset.range n := by
    intro k hk
    rcases Finset.mem_insert.mp hk with rfl | hk
    · exact Finset.mem_range.mpr hin
    · exact Finset.mem_of_mem_filter k hk
  have hmaps : Set.MapsTo (onNat σ) (insert i rows : Finset ℕ) (Finset.range m) := by
    intro k hk
    rw [Finset.mem_coe, Finset.mem_insert] at hk
    rw [Finset.mem_coe, Finset.mem_range]
    rcases hk with rfl | hk
    · exact him
    · obtain ⟨j, hj⟩ := Option.isSome_iff_exists.mp (Finset.mem_filter.mp hk).2
      rw [hσ k j hj]
      exact ha.column_lt k j hj
  have hinj : Set.InjOn (onNat σ) (insert i rows : Finset ℕ) := by
    apply (onNat_injOn σ).mono
    intro k hk
    have hkn := Finset.mem_range.mp (hsub (Finset.mem_coe.mp hk))
    rw [Finset.mem_coe, Finset.mem_range]
    omega
  have hfull : rows.card = min n m := ha.full
  have hrows := Finset.card_le_card hsub
  have hcols := Finset.card_le_card_of_injOn _ hmaps hinj
  rw [Finset.card_insert_of_notMem hnot, hfull, Finset.card_range] at hrows hcols
  omega

theorem totalCost_eq_sum {size : ℕ} (hsize : costs.length ≤ size) (hlen : a.length = costs.length) :
    ∑ i ∈ Finset.range size, (match given a i with
      | some j => entry costs i j
      | none => 0) = totalCost costs a := by
  symm
  apply Finset.sum_subset
  · intro i hi
    rw [Finset.mem_range] at hi ⊢
    exact hi.trans_le hsize
  · intro i _ hi
    rw [Finset.mem_range, not_lt] at hi
    rw [given_eq_none (hlen.trans_le hi)]

theorem IsAssignment.card_given {size : ℕ} (hsize : n ≤ size) (ha : IsAssignment n m a) :
    ((Finset.range size).filter fun i => (given a i).isSome = true).card = min n m := by
  rw [← ha.full]
  congr 1
  ext i
  simp only [Finset.mem_filter, Finset.mem_range]
  constructor
  · rintro ⟨-, hsome⟩
    refine ⟨?_, hsome⟩
    by_contra hge
    rw [given_eq_none (ha.length_eq.trans_le (not_lt.mp hge))] at hsome
    cases hsome
  · rintro ⟨hi, hsome⟩
    exact ⟨hi.trans_le hsize, hsome⟩

/-- Every row without a column costs a padding. -/
theorem IsAssignment.sum_padding {size : ℕ} (hsize : n ≤ size) (ha : IsAssignment n m a) :
    ∑ i ∈ Finset.range size, (if (given a i).isSome = true then 0 else largeCost) =
      (size - min n m : ℕ) * largeCost := by
  rw [Finset.sum_ite, Finset.sum_const_zero, zero_add, Finset.sum_const, nsmul_eq_mul]
  congr 2
  have hsplit := Finset.card_filter_add_card_filter_not (s := Finset.range size)
    fun i => (given a i).isSome = true
  rw [ha.card_given hsize, Finset.card_range] at hsplit
  omega

/-- A permutation that completes an assignment costs as much, and the padding. -/
theorem sum_padded (hrect : ∀ row ∈ costs, row.length = m) (ha : IsAssignment costs.length m a)
    (σ : Equiv.Perm (Fin (max costs.length m)))
    (hσ : ∀ i j, given a i = some j → onNat σ i = j) :
    ∑ i : Fin (max costs.length m), padded (costs.map (·.take m)) i (σ i) =
      totalCost costs a + (max costs.length m - min costs.length m : ℕ) * largeCost := by
  let size := max costs.length m
  have hsize : costs.length ≤ size := le_max_left _ _
  have hcell : ∀ i, padded (costs.map (·.take m)) i (onNat σ i) =
      (match given a i with
        | some j => entry costs i j
        | none => 0) + if (given a i).isSome = true then 0 else largeCost := by
    intro i
    rw [padded_eq hrect]
    cases hi : given a i with
    | none =>
      rw [if_neg (ha.rest hsize hσ hi)]
      simp
    | some j =>
      have hin : i < costs.length := ha.length_eq ▸ given_lt hi
      rw [hσ i j hi, if_pos ⟨hin, ha.column_lt i j hi⟩]
      simp
  calc ∑ i : Fin size, padded (costs.map (·.take m)) i (σ i)
      = ∑ i : Fin size, padded (costs.map (·.take m)) i (onNat σ i) := by
        apply Finset.sum_congr rfl
        intro i _
        rw [show onNat σ i = (σ i : ℕ) from dif_pos i.isLt]
    _ = ∑ i ∈ Finset.range size, padded (costs.map (·.take m)) i (onNat σ i) :=
        (Finset.sum_range fun i => padded (costs.map (·.take m)) i (onNat σ i)).symm
    _ = totalCost costs a + (size - min costs.length m : ℕ) * largeCost := by
        rw [Finset.sum_congr rfl fun i _ => hcell i, Finset.sum_add_distrib,
          totalCost_eq_sum hsize ha.length_eq, ha.sum_padding hsize]

theorem onNat_of_lt {size i : ℕ} (σ : Equiv.Perm (Fin size)) (hi : i < size) :
    onNat σ i = σ ⟨i, hi⟩ := dif_pos hi

/-- As many rows have a real column as there are rows, or columns. -/
theorem card_real (σ : Equiv.Perm (Fin (max n m))) :
    ((Finset.range n).filter fun i => onNat σ i < m).card = min n m := by
  by_cases hnm : n ≤ m
  · have hall : (Finset.range n).filter (fun i => onNat σ i < m) = Finset.range n := by
      apply Finset.filter_true_of_mem
      intro i hi
      have hin : i < max n m := (Finset.mem_range.mp hi).trans_le (le_max_left _ _)
      rw [onNat_of_lt σ hin]
      have hlt := (σ ⟨i, hin⟩).isLt
      omega
    rw [hall, Finset.card_range, min_eq_left hnm]
  · have himage : ((Finset.range n).filter fun i => onNat σ i < m).image (onNat σ) =
        Finset.range m := by
      ext j
      simp only [Finset.mem_image, Finset.mem_filter, Finset.mem_range]
      constructor
      · rintro ⟨i, ⟨-, hlt⟩, rfl⟩
        exact hlt
      · intro hj
        have hjlt : j < max n m := by omega
        have hback : onNat σ (σ.symm ⟨j, hjlt⟩) = j := by
          rw [onNat_of_lt σ (σ.symm ⟨j, hjlt⟩).isLt, Fin.eta, Equiv.apply_symm_apply]
        have hlt := (σ.symm ⟨j, hjlt⟩).isLt
        exact ⟨σ.symm ⟨j, hjlt⟩, ⟨by omega, by omega⟩, hback⟩
    have hinj : Set.InjOn (onNat σ) ((Finset.range n).filter fun i => onNat σ i < m : Finset ℕ) := by
      apply (onNat_injOn σ).mono
      intro i hi
      have hin := Finset.mem_range.mp (Finset.mem_filter.mp (Finset.mem_coe.mp hi)).1
      rw [Finset.mem_coe, Finset.mem_range]
      omega
    rw [← Finset.card_image_of_injOn hinj, himage, Finset.card_range]
    omega

/-- The rows of a permutation with a real column, and their columns. -/
def realColumns (n m : ℕ) (σ : Equiv.Perm (Fin (max n m))) : List (Option ℕ) :=
  ((List.ofFn fun i => (σ i : ℕ)).take n).map fun assign => if assign < m then some assign else none

theorem given_realColumns (σ : Equiv.Perm (Fin (max n m))) (i : ℕ) :
    given (realColumns n m σ) i =
      if i < n ∧ onNat σ i < m then some (onNat σ i) else none := by
  unfold given realColumns
  by_cases hi : i < n
  · have hin : i < max n m := hi.trans_le (le_max_left _ _)
    rw [List.getElem?_map, List.getElem?_take_of_lt hi, List.getElem?_ofFn, dif_pos hin,
      onNat_of_lt σ hin]
    by_cases hm : (σ ⟨i, hin⟩ : ℕ) < m
    · simp [hi, hm]
    · simp [hm]
  · rw [List.getElem?_eq_none (by simp; omega), if_neg (fun h => hi h.1)]
    rfl

theorem realColumns_isAssignment (σ : Equiv.Perm (Fin (max n m))) :
    IsAssignment n m (realColumns n m σ) where
  length_eq := by simp [realColumns]
  column_lt i j h := by
    rw [given_realColumns] at h
    split at h
    case isTrue hreal =>
      cases h
      exact hreal.2
    case isFalse => cases h
  inj i i' j h h' := by
    rw [given_realColumns] at h h'
    split at h
    case isTrue hi =>
      split at h'
      case isTrue hi' =>
        apply onNat_injOn σ
        · simp only [Finset.coe_range, Set.mem_Iio]
          omega
        · simp only [Finset.coe_range, Set.mem_Iio]
          omega
        · exact Option.some.inj (h.trans h'.symm)
      case isFalse => cases h'
    case isFalse => cases h
  full := by
    rw [← card_real σ]
    congr 1
    apply Finset.filter_congr
    intro i hi
    rw [given_realColumns]
    simp [Finset.mem_range.mp hi]

theorem IsAssignment.exists_perm (ha : IsAssignment n m a) :
    ∃ σ : Equiv.Perm (Fin (max n m)), ∀ i j, given a i = some j → onNat σ i = j := by
  let f : Fin (max n m) → Option (Fin (max n m)) := fun i =>
    (given a i).bind fun j => if h : j < max n m then some ⟨j, h⟩ else none
  have hf : ∀ i j, f i = some j → given a i = some (j : ℕ) := by
    intro i j hi
    obtain ⟨k, hk, hkj⟩ := Option.bind_eq_some_iff.mp hi
    split at hkj
    case isTrue =>
      cases hkj
      exact hk
    case isFalse => cases hkj
  have hpartial : Assignment.Partial f := fun i i' j hi hi' =>
    Fin.ext (ha.inj i i' j (hf i j hi) (hf i' j hi'))
  obtain ⟨σ, hσ⟩ := hpartial.exists_completion rfl
  refine ⟨σ, fun i j hij => ?_⟩
  have hi : i < max n m := (ha.length_eq ▸ given_lt hij).trans_le (le_max_left _ _)
  have hj : j < max n m := (ha.column_lt i j hij).trans_le (le_max_right _ _)
  have hfi : f ⟨i, hi⟩ = some ⟨j, hj⟩ := by simp [f, hij, lt_max_iff.mp hj]
  rw [onNat_of_lt σ hi, hσ _ _ hfi]

theorem solve_of_ne_nil (hne : costs ≠ []) (hrect : ∀ row ∈ costs, row.length = m) :
    solve costs =
      if m = 0 then some (List.replicate costs.length none)
      else if costs.any (·.length < m) then none
      else (hungarian (padded (costs.map (·.take m))) (max costs.length m)).map fun assignment =>
        (assignment.take costs.length).map fun assign =>
          if assign < m then some assign else none := by
  cases costs with
  | nil => exact absurd rfl hne
  | cons first rest =>
    rw [← hrect first (by simp)]
    rfl

/-- A table with rows and columns, all rows of one length. -/
theorem solve_least (hne : costs ≠ []) (hm : m ≠ 0) (hrect : ∀ row ∈ costs, row.length = m) :
    ∃ a, solve costs = some a ∧ IsAssignment costs.length m a ∧
      ∀ b, IsAssignment costs.length m b → totalCost costs a ≤ totalCost costs b := by
  obtain ⟨σ, hσ, hmin⟩ := hungarian_optimal (padded (costs.map (·.take m))) (max costs.length m)
  have hlong : costs.any (·.length < m) = false := by
    rw [List.any_eq_false]
    intro row hrow
    simp [hrect row hrow]
  have ha : IsAssignment costs.length m (realColumns costs.length m σ) :=
    realColumns_isAssignment σ
  have hgiven : ∀ i j, given (realColumns costs.length m σ) i = some j → onNat σ i = j := by
    intro i j hij
    rw [given_realColumns] at hij
    split at hij
    case isTrue => exact Option.some.inj hij
    case isFalse => cases hij
  refine ⟨realColumns costs.length m σ, ?_, ha, fun b hb => ?_⟩
  · rw [solve_of_ne_nil hne hrect, if_neg hm, hlong, hσ]
    rfl
  · obtain ⟨τ, hτ⟩ := hb.exists_perm
    have hsums := hmin τ
    rw [sum_padded hrect ha σ hgiven, sum_padded hrect hb τ hτ] at hsums
    exact le_of_add_le_add_right hsums

/-- Of rows of one length, `solve` returns a cheapest assignment. The costs are rational and the
sums exact: the rounding of the `f64` potentials is left out. -/
theorem solve_optimal (costs : List (List ℚ)) (m : ℕ) (hrect : ∀ row ∈ costs, row.length = m) :
    ∃ a, solve costs = some a ∧ IsAssignment costs.length m a ∧
      ∀ b, IsAssignment costs.length m b → totalCost costs a ≤ totalCost costs b := by
  by_cases hne : costs = []
  · subst hne
    refine ⟨[], rfl, ?_, fun b _ => by simp [totalCost]⟩
    constructor <;> simp [given]
  by_cases hm : m = 0
  · -- without a column nothing is given, and nothing costs anything
    have hnone : ∀ i, given (List.replicate costs.length none) i = none := by
      intro i
      unfold given
      rw [List.getElem?_replicate]
      split <;> rfl
    refine ⟨List.replicate costs.length none, by rw [solve_of_ne_nil hne hrect, if_pos hm], ?_,
      fun b hb => ?_⟩
    · constructor <;> simp [hnone, hm]
    · have hb : ∀ i, given b i = none := by
        intro i
        by_contra hsome
        obtain ⟨j, hj⟩ := Option.ne_none_iff_exists'.mp hsome
        have hlt := hb.column_lt i j hj
        omega
      simp [totalCost, hnone, hb]
  · exact solve_least hne hm hrect

/-- Three rows share one column: the cheapest of them gets it. -/
theorem solve_one_column :
    ∃ a, solve [[1], [0], [2]] = some a ∧ IsAssignment 3 1 a ∧
      ∀ b, IsAssignment 3 1 b → totalCost [[1], [0], [2]] a ≤ totalCost [[1], [0], [2]] b :=
  solve_optimal [[1], [0], [2]] 1 (by simp)

example : solve [[1], [0], [2]] = some [none, some 0, none] := by decide +kernel

end

end AutoTargeting.Tracker
