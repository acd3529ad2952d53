import AutoTargeting.Tracker.Hungarian
import Mathlib.Data.List.Range

namespace AutoTargeting.Tracker

/-- The smaller of a number, or infinity, and another number. -/
def lower (a : Option ℚ) (c : ℚ) : ℚ :=
  match a with
  | none => c
  | some m => if c < m then c else m

theorem lower_of_below {a : Option ℚ} {c : ℚ} (h : below (some c) a) : lower a c = c := by
  cases a with
  | none => simp [lower]
  | some m => simp [lower, show c < m from h]

theorem lower_of_not_below {a : Option ℚ} {c : ℚ} (h : ¬ below (some c) a) :
    a = some (lower a c) := by
  cases a with
  | none => exact absurd trivial h
  | some m => simp [lower, show ¬ c < m from h]

section
variable {cost : ℕ → ℕ → ℚ} {p : ℕ → ℕ} {s : Search} {cols : List ℕ} {t : Scan} {j : ℕ}

/-- What the scan of these columns finds. -/
structure Scanned (cost : ℕ → ℕ → ℚ) (p : ℕ → ℕ) (s : Search) (cols : List ℕ) (t : Scan) :
    Prop where
  minv : ∀ k, t.minv k = if k ∈ cols ∧ s.used k = false then
    some (lower (s.minv k) (reducedCost cost p s k)) else s.minv k
  way : ∀ k, t.way k = if (k ∈ cols ∧ s.used k = false) ∧
    below (some (reducedCost cost p s k)) (s.minv k) then s.j0 else s.way k
  best : (t.delta = none ∧ ∀ k ∈ cols, s.used k = true) ∨
    ∃ d, t.delta = some d ∧ t.j1 ∈ cols ∧ s.used t.j1 = false ∧ t.minv t.j1 = some d ∧
      ∀ k ∈ cols, s.used k = false → d ≤ lower (s.minv k) (reducedCost cost p s k)

theorem scanColumn_used (h : s.used j = true) : scanColumn cost p s t j = t := by
  simp [scanColumn, h]

/-- One column that is not used yet: its entry becomes the smaller one, and is compared with the
smallest so far. -/
theorem scanColumn_unused (h : s.used j = false) :
    scanColumn cost p s t j =
      (let entry := lower (t.minv j) (reducedCost cost p s j)
      ⟨Function.update t.minv j (some entry),
        if below (some (reducedCost cost p s j)) (t.minv j) then Function.update t.way j s.j0
          else t.way,
        if below (some entry) t.delta then some entry else t.delta,
        if below (some entry) t.delta then j else t.j1⟩) := by
  simp only [scanColumn, h, if_neg Bool.false_ne_true]
  by_cases hlow : below (some (reducedCost cost p s j)) (t.minv j)
  · rw [if_pos hlow, if_pos hlow, lower_of_below hlow]
    simp only [Function.update_self]
    split <;> rfl
  · have hentry := lower_of_not_below hlow
    rw [if_neg hlow, if_neg hlow, ← hentry, Function.update_eq_self]
    split <;> rfl

/-- A used column, or another one, changes nothing in which columns are free. -/
theorem free_concat {k : ℕ} (h : s.used j = true ∨ k ≠ j) :
    (k ∈ cols ++ [j] ∧ s.used k = false) ↔ (k ∈ cols ∧ s.used k = false) := by
  rw [List.mem_append, List.mem_singleton]
  constructor
  · rintro ⟨hk | rfl, hfree⟩
    · exact ⟨hk, hfree⟩
    · rcases h with hused | hne
      · rw [hused] at hfree
        cases hfree
      · exact absurd rfl hne
  · rintro ⟨hk, hfree⟩
    exact ⟨.inl hk, hfree⟩

theorem Scanned.concat_used (h : Scanned cost p s cols t) (hused : s.used j = true) :
    Scanned cost p s (cols ++ [j]) t := by
  refine ⟨fun k => ?_, fun k => ?_, ?_⟩
  · simp only [free_concat (.inl hused)]
    exact h.minv k
  · simp only [free_concat (.inl hused)]
    exact h.way k
  · rcases h.best with ⟨hnone, hall⟩ | ⟨d, hd, hin, hfree, hentry, hleast⟩
    · left
      refine ⟨hnone, fun k hk => ?_⟩
      rcases List.mem_append.mp hk with hk | hk
      · exact hall k hk
      · rw [List.mem_singleton.mp hk, hused]
    · right
      refine ⟨d, hd, List.mem_append_left _ hin, hfree, hentry, fun k hk hkfree => ?_⟩
      exact hleast k ((free_concat (.inl hused)).mp ⟨hk, hkfree⟩).1 hkfree

theorem Scanned.minv_before (h : Scanned cost p s cols t) (hj : j ∉ cols) :
    t.minv j = s.minv j := by
  rw [h.minv, if_neg fun hin => hj hin.1]

theorem Scanned.minv_concat (h : Scanned cost p s cols t) (hj : j ∉ cols)
    (hused : s.used j = false) (k : ℕ) : (scanColumn cost p s t j).minv k =
      if k ∈ cols ++ [j] ∧ s.used k = false then
        some (lower (s.minv k) (reducedCost cost p s k)) else s.minv k := by
  rw [scanColumn_unused hused]
  by_cases hk : k = j
  · rw [hk]
    simp [hused, h.minv_before hj]
  · simp only [Function.update_of_ne hk, free_concat (.inr hk)]
    exact h.minv k

theorem Scanned.way_concat (h : Scanned cost p s cols t) (hj : j ∉ cols)
    (hused : s.used j = false) (k : ℕ) : (scanColumn cost p s t j).way k =
      if (k ∈ cols ++ [j] ∧ s.used k = false) ∧
        below (some (reducedCost cost p s k)) (s.minv k) then s.j0 else s.way k := by
  rw [scanColumn_unused hused]
  by_cases hk : k = j
  · have hway : t.way j = s.way j := by rw [h.way, if_neg fun hin => hj hin.1.1]
    simp only [hk, h.minv_before hj, hused, List.mem_append, List.mem_singleton, or_true, true_and]
    split
    · exact Function.update_self _ _ _
    · exact hway
  · simp only [free_concat (.inr hk)]
    rw [← h.way k]
    split
    · exact Function.update_of_ne hk _ _
    · rfl

/-- The least entry is that of the new column, or stays. -/
theorem Scanned.best_concat (h : Scanned cost p s cols t) (hj : j ∉ cols)
    (hused : s.used j = false) : ∃ d, (scanColumn cost p s t j).delta = some d ∧
      (scanColumn cost p s t j).j1 ∈ cols ++ [j] ∧ s.used (scanColumn cost p s t j).j1 = false ∧
      (scanColumn cost p s t j).minv (scanColumn cost p s t j).j1 = some d ∧
      ∀ k ∈ cols ++ [j], s.used k = false → d ≤ lower (s.minv k) (reducedCost cost p s k) := by
  simp only [scanColumn_unused hused, h.minv_before hj]
  by_cases hless : below (some (lower (s.minv j) (reducedCost cost p s j))) t.delta
  · simp only [if_pos hless]
    refine ⟨_, rfl, by simp, hused, Function.update_self _ _ _, fun k hk hfree => ?_⟩
    rcases List.mem_append.mp hk with hk | hk
    · rcases h.best with ⟨-, hall⟩ | ⟨d, hd, -, -, -, hleast⟩
      · rw [hall k hk] at hfree
        cases hfree
      · rw [hd] at hless
        have hless : lower (s.minv j) (reducedCost cost p s j) < d := hless
        exact hless.le.trans (hleast k hk hfree)
    · rw [List.mem_singleton.mp hk]
  · rcases h.best with ⟨hnone, -⟩ | ⟨d, hd, hin, hfree, hmin, hleast⟩
    · rw [hnone] at hless
      exact absurd trivial hless
    · have hne : t.j1 ≠ j := fun heq => hj (heq ▸ hin)
      simp only [if_neg hless]
      refine ⟨d, hd, List.mem_append_left _ hin, hfree, ?_, fun k hk hkfree => ?_⟩
      · rw [Function.update_of_ne hne]
        exact hmin
      · rcases List.mem_append.mp hk with hk | hk
        · exact hleast k hk hkfree
        · rw [hd] at hless
          rw [List.mem_singleton.mp hk]
          exact not_lt.mp hless

theorem Scanned.concat (h : Scanned cost p s cols t) (hj : j ∉ cols) :
    Scanned cost p s (cols ++ [j]) (scanColumn cost p s t j) := by
  cases hused : s.used j with
  | true =>
    rw [scanColumn_used hused]
    exact h.concat_used hused
  | false => exact ⟨h.minv_concat hj hused, h.way_concat hj hused, .inr (h.best_concat hj hused)⟩

/-- The scan, over any columns without repetition. -/
theorem foldl_scanned (cost : ℕ → ℕ → ℚ) (p : ℕ → ℕ) (s : Search) {cols : List ℕ}
    (hnodup : cols.Nodup) :
    Scanned cost p s cols (cols.foldl (scanColumn cost p s) ⟨s.minv, s.way, none, 0⟩) := by
  induction cols using List.reverseRecOn with
  | nil => exact ⟨fun k => by simp, fun k => by simp, .inl ⟨rfl, by simp⟩⟩
  | append_singleton cols j ih =>
    rw [List.foldl_append, List.foldl_cons, List.foldl_nil]
    have hsplit := List.nodup_append.mp hnodup
    apply (ih hsplit.1).concat
    intro hj
    exact hsplit.2.2 j hj j (by simp) rfl

theorem scan_scanned (size : ℕ) (cost : ℕ → ℕ → ℚ) (p : ℕ → ℕ) (s : Search) :
    Scanned cost p s (List.range' 1 size) (scan size cost p s) :=
  foldl_scanned cost p s List.nodup_range'

end

section
variable {p : ℕ → ℕ} {used : ℕ → Bool} {delta : ℚ} {cols : List ℕ} {t t' : Shift} {j : ℕ}

/-- What the shift does for these columns, where no row has two used ones. -/
structure Shifted (p : ℕ → ℕ) (used : ℕ → Bool) (delta : ℚ) (cols : List ℕ) (t t' : Shift) :
    Prop where
  u_row : ∀ k ∈ cols, used k = true → t'.u (p k) = t.u (p k) + delta
  u_other : ∀ r, (∀ k ∈ cols, used k = true → p k ≠ r) → t'.u r = t.u r
  v : ∀ k, t'.v k = if k ∈ cols ∧ used k = true then t.v k - delta else t.v k
  minv : ∀ k, t'.minv k = if k ∈ cols ∧ used k = false then (t.minv k).map (· - delta) else t.minv k

theorem Shifted.concat (h : Shifted p used delta cols t t') (hj : j ∉ cols)
    (hinj : ∀ k ∈ cols, used k = true → used j = true → p k ≠ p j) :
    Shifted p used delta (cols ++ [j]) t (shiftColumn p used delta t' j) := by
  have hother : ∀ k b, k ≠ j → ((k ∈ cols ++ [j] ∧ used k = b) ↔ (k ∈ cols ∧ used k = b)) := by
    intro k b hk
    simp [hk]
  unfold shiftColumn
  cases hused : used j with
  | true =>
    -- a used column: its row goes up by as much as it goes down
    rw [if_pos rfl]
    have hrow : t'.u (p j) = t.u (p j) :=
      h.u_other (p j) fun k hk hkused => hinj k hk hkused hused
    refine ⟨fun k hk hkused => ?_, fun r hr => ?_, fun k => ?_, fun k => ?_⟩
    · dsimp only
      rcases List.mem_append.mp hk with hk | hk
      · rw [Function.update_of_ne (hinj k hk hkused hused)]
        exact h.u_row k hk hkused
      · rw [List.mem_singleton.mp hk, Function.update_self, hrow]
    · dsimp only
      have hne : r ≠ p j := (hr j (by simp) hused).symm
      rw [Function.update_of_ne hne]
      exact h.u_other r fun k hk => hr k (by simp [hk])
    · dsimp only
      by_cases hk : k = j
      · rw [hk, Function.update_self, h.v]
        simp [hj, hused]
      · simp only [Function.update_of_ne hk, hother k true hk]
        exact h.v k
    · dsimp only
      by_cases hk : k = j
      · rw [hk, h.minv]
        simp [hj, hused]
      · simp only [hother k false hk]
        exact h.minv k
  | false =>
    -- any other: only its entry in `minv` moves
    rw [if_neg Bool.false_ne_true]
    refine ⟨fun k hk hkused => ?_, fun r hr => ?_, fun k => ?_, fun k => ?_⟩
    · rcases List.mem_append.mp hk with hk | hk
      · exact h.u_row k hk hkused
      · rw [List.mem_singleton.mp hk, hused] at hkused
        cases hkused
    · exact h.u_other r fun k hk => hr k (by simp [hk])
    · by_cases hk : k = j
      · rw [hk, h.v]
        simp [hj, hused]
      · simp only [hother k true hk]
        exact h.v k
    · dsimp only
      by_cases hk : k = j
      · rw [hk, Function.update_self, h.minv]
        simp [hj, hused]
      · simp only [Function.update_of_ne hk, hother k false hk]
        exact h.minv k

theorem foldl_shifted (t : Shift) (hnodup : cols.Nodup)
    (hinj : ∀ k ∈ cols, ∀ k' ∈ cols, used k = true → used k' = true → p k = p k' → k = k') :
    Shifted p used delta cols t (cols.foldl (shiftColumn p used delta) t) := by
  induction cols using List.reverseRecOn with
  | nil => exact ⟨by simp, fun _ _ => rfl, fun k => by simp, fun k => by simp⟩
  | append_singleton cols j ih =>
    rw [List.foldl_append, List.foldl_cons, List.foldl_nil]
    have hsplit := List.nodup_append.mp hnodup
    have hj : j ∉ cols := fun hj => hsplit.2.2 j hj j (by simp) rfl
    refine (ih hsplit.1 ?_).concat hj ?_
    · intro k hk k' hk'
      exact hinj k (by simp [hk]) k' (by simp [hk'])
    · intro k hk hkused hused heq
      exact hj (hinj k (by simp [hk]) j (by simp) hkused hused heq ▸ hk)

end

end AutoTargeting.Tracker
