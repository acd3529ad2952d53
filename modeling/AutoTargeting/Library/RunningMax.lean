import Mathlib.Data.List.MinMax

namespace RunningMax

/-- The greatest value so far, and the label of its place. -/
structure Leader (α ι : Type*) where
  value : α
  label : ι

variable {α β ι : Type*}

/-- Only what is greater is taken. -/
def Leader.pick (less : α → α → Bool) (b : Leader α ι) (label : ι) (x : α) : Leader α ι :=
  if less b.value x then ⟨x, label⟩ else b

/-- The first `n` values, one after the other. -/
def scan (less : α → α → Bool) (start : Leader α ι) (label : ℕ → ι) (x : ℕ → α) (n : ℕ) :
    Leader α ι := (List.range n).foldl (fun b i => b.pick less (label i) (x i)) start

/-- Of the first `n` values, the one at `m` is the greatest, and no earlier one is as great. -/
structure FirstMax [Preorder β] (key : α → β) (x : ℕ → α) (n m : ℕ) : Prop where
  lt : m < n
  le : ∀ i < n, key (x i) ≤ key (x m)
  first : ∀ i < m, key (x i) < key (x m)

theorem scan_succ (less : α → α → Bool) (start : Leader α ι) (label : ℕ → ι) (x : ℕ → α) (n : ℕ) :
    scan less start label x (n + 1) =
      (scan less start label x n).pick less (label n) (x n) := by
  rw [scan, List.range_succ, List.foldl_append]
  rfl

section
variable [LinearOrder β] {less : α → α → Bool} {start : Leader α ι} {label : ℕ → ι} {x : ℕ → α}
  {key : α → β} {n m : ℕ}

theorem idxOf_range {i : ℕ} (hi : i < n) : (List.range n).idxOf i = i := by
  have h := (List.nodup_range (n := n)).idxOf_getElem i (by rwa [List.length_range])
  rwa [List.getElem_range] at h

theorem FirstMax.of_mem_argmax (h : m ∈ (List.range n).argmax fun i => key (x i)) :
    FirstMax key x n m := by
  have hm : m < n := List.mem_range.mp (List.argmax_mem h)
  refine ⟨hm, fun i hi => ?_, fun i hi => ?_⟩
  · exact List.le_of_mem_argmax (f := fun i => key (x i)) (List.mem_range.mpr hi) h
  · by_contra hnot
    have hi' : i < n := hi.trans hm
    have hindex := List.index_of_argmax h (List.mem_range.mpr hi') (not_lt.mp hnot)
    rw [idxOf_range hm, idxOf_range hi'] at hindex
    omega

theorem argmax_range_succ (hm : m ∈ (List.range n).argmax fun i => key (x i)) :
    (List.range (n + 1)).argmax (fun i => key (x i)) =
      some (if key (x m) < key (x n) then n else m) := by
  rw [List.range_succ, List.argmax_concat, Option.mem_def.mp hm]
  exact (apply_ite some _ _ _).symm

/-- A scan ends at the first maximum, if its comparison is by the key, and if nothing is passed
over at the start that differs from the start. -/
theorem scan_firstMax (hn : 0 < n)
    (hless : ∀ i < n, ∀ j < n, less (x i) (x j) = true ↔ key (x i) < key (x j))
    (hstart : less start.value (x 0) = false → start = ⟨x 0, label 0⟩) :
    ∃ m, FirstMax key x n m ∧ scan less start label x n = ⟨x m, label m⟩ := by
  suffices h : ∃ m ∈ (List.range n).argmax fun i => key (x i),
      scan less start label x n = ⟨x m, label m⟩ by
    obtain ⟨m, hm, heq⟩ := h
    exact ⟨m, .of_mem_argmax hm, heq⟩
  induction n, hn using Nat.le_induction with
  | base =>
    refine ⟨0, rfl, ?_⟩
    rw [scan_succ]
    change Leader.pick less start (label 0) (x 0) = _
    unfold Leader.pick
    split
    case isTrue => rfl
    case isFalse h => exact hstart (Bool.eq_false_of_not_eq_true h)
  | succ n hn ih =>
    obtain ⟨m, hm, heq⟩ := ih fun i hi j hj => hless i (by omega) j (by omega)
    have hmn : m < n := List.mem_range.mp (List.argmax_mem hm)
    refine ⟨_, argmax_range_succ hm, ?_⟩
    rw [scan_succ, heq, Leader.pick]
    have hgreater := hless m (by omega) n (by omega)
    by_cases hlt : key (x m) < key (x n)
    · rw [if_pos (hgreater.mpr hlt), if_pos hlt]
    · rw [if_neg (mt hgreater.mp hlt), if_neg hlt]

end

end RunningMax
