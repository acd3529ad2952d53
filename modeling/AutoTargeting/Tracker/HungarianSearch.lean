import AutoTargeting.Tracker.HungarianLoops
import Mathlib.Tactic.Linarith
import Mathlib.Data.Finset.Card
import Mathlib.Order.Interval.Finset.Nat

namespace AutoTargeting.Tracker

/-- Each of the first `n` rows has one of the columns up to `size`, and no column has another. -/
structure Matched (size n : ℕ) (p : ℕ → ℕ) : Prop where
  le : ∀ j, 0 < j → j ≤ size → p j ≤ n
  inj : ∀ j k, 0 < j → j ≤ size → 0 < k → k ≤ size → p j ≠ 0 → p j = p k → j = k
  surj : ∀ r, 0 < r → r ≤ n → ∃ j, 0 < j ∧ j ≤ size ∧ p j = r

/-- The columns that a search reached, the newest first: each of them but the first, the column 0,
has its `way` among the earlier ones. -/
inductive Reached (way : ℕ → ℕ) : List ℕ → Prop
  | root : Reached way [0]
  | visit {j : ℕ} {L : List ℕ} : Reached way L → j ∉ L → way j ∈ L → Reached way (j :: L)

section
variable {way way' : ℕ → ℕ} {L : List ℕ}

theorem Reached.zero_mem (h : Reached way L) : 0 ∈ L := by
  induction h with
  | root => simp
  | visit _ _ _ ih => exact List.mem_cons_of_mem _ ih

theorem Reached.nodup (h : Reached way L) : L.Nodup := by
  induction h with
  | root => simp
  | visit _ hnot _ ih => exact List.nodup_cons.mpr ⟨hnot, ih⟩

theorem Reached.congr (h : Reached way L) (hway : ∀ j ∈ L, way' j = way j) : Reached way' L := by
  induction h with
  | root => exact .root
  | @visit j L _ hnot hmem ih =>
    refine .visit (ih fun k hk => hway k (List.mem_cons_of_mem _ hk)) hnot ?_
    rw [hway j (List.mem_cons_self ..)]
    exact hmem

/-- The way of a reached column was reached before it, as was what is behind that. -/
theorem Reached.behind {j : ℕ} (h : Reached way L) (hj : j ∈ L) :
    ∃ L', Reached way (j :: L') ∧ (j :: L').length ≤ L.length ∧ ∀ k ∈ j :: L', k ∈ L := by
  induction h with
  | root =>
    rw [List.mem_singleton.mp hj]
    exact ⟨[], .root, le_rfl, fun k hk => hk⟩
  | @visit i L hreached hnot hmem ih =>
    rcases List.mem_cons.mp hj with rfl | hj
    · exact ⟨L, .visit hreached hnot hmem, le_rfl, fun k hk => hk⟩
    · obtain ⟨L', hL', hlen, hsub⟩ := ih hj
      refine ⟨L', hL', hlen.trans (Nat.le_succ _), fun k hk => ?_⟩
      exact List.mem_cons_of_mem _ (hsub k hk)

theorem Reached.way_mem {j : ℕ} (h : Reached way (j :: L)) (hj : j ≠ 0) : way j ∈ L := by
  cases h with
  | root => exact absurd rfl hj
  | visit _ _ hmem => exact hmem

/-- Column 0 is reached first. -/
theorem Reached.ne_zero {j : ℕ} (h : Reached way (j :: L)) (hL : L ≠ []) : j ≠ 0 := by
  cases h with
  | root => exact absurd rfl hL
  | visit hreached hnot _ =>
    intro hj
    exact hnot (hj ▸ hreached.zero_mem)

theorem Reached.way_mem_of_mem {j : ℕ} (h : Reached way L) (hj : j ∈ L) (hne : j ≠ 0) :
    way j ∈ L := by
  obtain ⟨L', hL', -, hsub⟩ := h.behind hj
  exact hsub _ (List.mem_cons_of_mem _ (hL'.way_mem hne))

end

section
variable {size n : ℕ} {cost : ℕ → ℕ → ℚ} {p : ℕ → ℕ} {s : Search} {L : List ℕ}

/-- The state of a search for row `n + 1` that has used the columns `L`. -/
structure Searching (size n : ℕ) (cost : ℕ → ℕ → ℚ) (p : ℕ → ℕ) (s : Search) (L : List ℕ) :
    Prop where
  used_iff : ∀ j, s.used j = true ↔ j ∈ L
  reached : Reached s.way (s.j0 :: L)
  inside : ∀ j ∈ s.j0 :: L, j ≤ size
  taken : ∀ j ∈ L, p j ≠ 0
  tight : ∀ j, 0 < j → j ≤ size → p j ≠ 0 → s.u (p j) + s.v j = cost (p j) j
  way_tight : ∀ j ∈ s.j0 :: L, j ≠ 0 → s.u (p (s.way j)) + s.v j = cost (p (s.way j)) j
  /-- `minv` is the least reduced cost of a column for the rows of the used columns. -/
  far : L ≠ [] → ∀ j, 0 < j → j ≤ size → j ∉ L → ∃ m, 0 ≤ m ∧ s.minv j = some m ∧ s.way j ∈ L ∧
    cost (p (s.way j)) j - s.u (p (s.way j)) - s.v j = m ∧
    ∀ k ∈ L, m ≤ cost (p k) j - s.u (p k) - s.v j
  fresh : L = [] → ∀ j, s.minv j = none
  feasible : ∀ r, 0 < r → r ≤ n → ∀ j, 0 < j → j ≤ size → s.u r + s.v j ≤ cost r j
  feasible_new : L ≠ [] → ∀ j, 0 < j → j ≤ size → s.u (n + 1) + s.v j ≤ cost (n + 1) j

/-- No row has two of the columns that have rows, among which column 0 has the new row. -/
theorem Matched.inj_zero (h : Matched size n p) (hp : p 0 = n + 1) {j k : ℕ} (hj : j ≤ size)
    (hk : k ≤ size) (htaken : p j ≠ 0) (heq : p j = p k) : j = k := by
  rcases Nat.eq_zero_or_pos j with rfl | hjpos
  · rcases Nat.eq_zero_or_pos k with rfl | hkpos
    · rfl
    · have hle := h.le k hkpos hk
      omega
  · rcases Nat.eq_zero_or_pos k with rfl | hkpos
    · have hle := h.le j hjpos hj
      omega
    · exact h.inj j k hjpos hj hkpos hk htaken heq

theorem Matched.le_zero (h : Matched size n p) (hp : p 0 = n + 1) {j : ℕ} (hj : j ≤ size) :
    p j ≤ n + 1 := by
  rcases Nat.eq_zero_or_pos j with rfl | hjpos
  · exact hp.le
  · exact (h.le j hjpos hj).trans (Nat.le_succ n)

/-- Columns that have rows are too few to be all. -/
theorem exists_unreached (h : Matched size n p) (hp : p 0 = n + 1) (hn : n < size)
    (hreached : Reached way L) (hinside : ∀ j ∈ L, j ≤ size) (htaken : ∀ j ∈ L, p j ≠ 0) :
    ∃ j, 0 < j ∧ j ≤ size ∧ j ∉ L := by
  by_contra hall
  have hsub : Finset.range (size + 1) ⊆ L.toFinset := by
    intro j hj
    rw [Finset.mem_range] at hj
    rw [List.mem_toFinset]
    rcases Nat.eq_zero_or_pos j with rfl | hpos
    · exact hreached.zero_mem
    · by_contra hnot
      exact hall ⟨j, hpos, by omega, hnot⟩
  have hmaps : Set.MapsTo p L.toFinset (Finset.Icc 1 (n + 1)) := by
    intro j hj
    have hmem : j ∈ L := by simpa using hj
    have hle := h.le_zero hp (hinside j hmem)
    have hpos := htaken j hmem
    simp
    omega
  have hinj : Set.InjOn p L.toFinset := by
    intro j hj k hk heq
    have hjmem : j ∈ L := by simpa using hj
    have hkmem : k ∈ L := by simpa using hk
    exact h.inj_zero hp (hinside j hjmem) (hinside k hkmem) (htaken j hjmem) heq
  have hrows := Finset.card_le_card_of_injOn p hmaps hinj
  have hcols := Finset.card_le_card hsub
  simp at hrows hcols
  omega

def marked (s : Search) : Search := { s with used := Function.update s.used s.j0 true }

theorem marked_used (h : ∀ j, s.used j = true ↔ j ∈ L) (j : ℕ) :
    (marked s).used j = true ↔ j ∈ s.j0 :: L := by
  unfold marked
  by_cases hj : j = s.j0
  · simp [hj]
  · simp [h j, hj]

theorem marked_unused (h : ∀ j, s.used j = true ↔ j ∈ L) (j : ℕ) :
    (marked s).used j = false ↔ j ∉ s.j0 :: L := by
  rw [← marked_used h j, Bool.not_eq_true]

/-- The reduced cost that a row of a used column has for another column. -/
def slack (cost : ℕ → ℕ → ℚ) (p : ℕ → ℕ) (s : Search) (k j : ℕ) : ℚ :=
  cost (p k) j - s.u (p k) - s.v j

/-- The scan keeps `minv` the least slack of a column, now for the new used column as well. -/
theorem Searching.scanned {t : Scan} (h : Searching size n cost p s L)
    (ht : Scanned cost p (marked s) (List.range' 1 size) t)
    (hrow : L ≠ [] → 0 < p s.j0 ∧ p s.j0 ≤ n) {j : ℕ} (hpos : 0 < j) (hle : j ≤ size)
    (hfar : j ∉ s.j0 :: L) :
    ∃ m, (L ≠ [] → 0 ≤ m) ∧ t.minv j = some m ∧
      m = lower ((marked s).minv j) (reducedCost cost p (marked s) j) ∧
      t.way j ∈ s.j0 :: L ∧ slack cost p s (t.way j) j = m ∧
      ∀ k ∈ s.j0 :: L, m ≤ slack cost p s k j := by
  have hmem : j ∈ List.range' 1 size := by
    rw [List.mem_range'_1]
    omega
  have hfree : (marked s).used j = false := (marked_unused h.used_iff j).mpr hfar
  have hminv : t.minv j = some (lower (s.minv j) (slack cost p s s.j0 j)) := by
    rw [ht.minv, if_pos ⟨hmem, hfree⟩]
    rfl
  have hway : t.way j = if below (some (slack cost p s s.j0 j)) (s.minv j) then s.j0
      else s.way j := by
    rw [ht.way]
    simp only [hmem, hfree, and_self, true_and]
    rfl
  refine ⟨lower (s.minv j) (slack cost p s s.j0 j), ?_, hminv, rfl, ?_⟩
  · intro hL
    obtain ⟨m, hm, hminvj, -⟩ := h.far hL j hpos hle (List.not_mem_of_not_mem_cons hfar)
    have hfeasible := h.feasible (p s.j0) (hrow hL).1 (hrow hL).2 j hpos hle
    rw [hminvj]
    unfold lower slack
    dsimp only
    split <;> linarith
  · by_cases hlow : below (some (slack cost p s s.j0 j)) (s.minv j)
    · -- the new used column is nearer than the ones before
      rw [hway, if_pos hlow, lower_of_below hlow]
      refine ⟨List.mem_cons_self .., rfl, fun k hk => ?_⟩
      rcases List.mem_cons.mp hk with rfl | hk
      · exact le_rfl
      · obtain ⟨m, -, hminvj, -, -, hleast⟩ := h.far (List.ne_nil_of_mem hk) j hpos hle
          (List.not_mem_of_not_mem_cons hfar)
        rw [hminvj] at hlow
        have hlt : slack cost p s s.j0 j < m := hlow
        exact hlt.le.trans (hleast k hk)
    · -- one of the earlier columns is as near
      have hL : L ≠ [] := by
        intro hL
        rw [h.fresh hL j] at hlow
        exact hlow trivial
      obtain ⟨m, -, hminvj, hwaymem, hattained, hleast⟩ := h.far hL j hpos hle
        (List.not_mem_of_not_mem_cons hfar)
      have hentry := lower_of_not_below hlow
      rw [hminvj, Option.some.injEq] at hentry
      rw [hway, if_neg hlow, hminvj, ← hentry]
      refine ⟨List.mem_cons_of_mem _ hwaymem, hattained, fun k hk => ?_⟩
      rcases List.mem_cons.mp hk with rfl | hk
      · rw [hminvj] at hlow
        exact not_lt.mp hlow
      · exact hleast k hk

/-- The variables after the potentials of the used columns moved by `d`. -/
structure Moved (size : ℕ) (p : ℕ → ℕ) (s : Search) (t : Scan) (d : ℚ) (used : List ℕ)
    (s' : Search) : Prop where
  u_in : ∀ k ∈ used, s'.u (p k) = s.u (p k) + d
  u_out : ∀ r, (∀ k ∈ used, p k ≠ r) → s'.u r = s.u r
  v_in : ∀ k ∈ used, s'.v k = s.v k - d
  v_out : ∀ k, k ∉ used → s'.v k = s.v k
  minv_out : ∀ k, k ≤ size → k ∉ used → s'.minv k = (t.minv k).map (· - d)
  used_iff : ∀ k, s'.used k = true ↔ k ∈ used
  way : s'.way = t.way
  j0 : s'.j0 = t.j1

/-- A turn of the search scans, and moves by the least entry of a column that is not used. -/
theorem Searching.turn (h : Searching size n cost p s L) (hm : Matched size n p)
    (hp : p 0 = n + 1) (hn : n < size) (htaken : p s.j0 ≠ 0) :
    ∃ t d s', searchStep size cost p s = some s' ∧
      Scanned cost p (marked s) (List.range' 1 size) t ∧ Moved size p s t d (s.j0 :: L) s' ∧
      0 < t.j1 ∧ t.j1 ≤ size ∧ t.j1 ∉ s.j0 :: L ∧ t.minv t.j1 = some d ∧
      ∀ k, 0 < k → k ≤ size → k ∉ s.j0 :: L →
        d ≤ lower ((marked s).minv k) (reducedCost cost p (marked s) k) := by
  have htakens : ∀ k ∈ s.j0 :: L, p k ≠ 0 := by
    intro k hk
    rcases List.mem_cons.mp hk with rfl | hk
    · exact htaken
    · exact h.taken k hk
  have hinside := h.inside
  have hscan := scan_scanned size cost p (marked s)
  obtain ⟨free, hfreepos, hfreele, hfree⟩ := exists_unreached hm hp hn h.reached hinside htakens
  rcases hscan.best with ⟨-, hall⟩ | ⟨d, hd, hj1, hunused, hentry, hleast⟩
  · -- an unreached column is not used
    have hused := hall free (by rw [List.mem_range'_1]; omega)
    exact absurd ((marked_used h.used_iff free).mp hused) hfree
  have hj1' := List.mem_range'_1.mp hj1
  have hshift : Shifted p (marked s).used d (List.range (size + 1))
      ⟨s.u, s.v, (scan size cost p (marked s)).minv⟩
      (shift size p (marked s).used d ⟨s.u, s.v, (scan size cost p (marked s)).minv⟩) := by
    apply foldl_shifted _ List.nodup_range
    intro k _ k' _ hk hk' heq
    have hkmem := (marked_used h.used_iff k).mp hk
    have hkmem' := (marked_used h.used_iff k').mp hk'
    exact hm.inj_zero hp (hinside k hkmem) (hinside k' hkmem') (htakens k hkmem) heq
  have hrange : ∀ k ∈ s.j0 :: L, k ∈ List.range (size + 1) := by
    intro k hk
    rw [List.mem_range]
    have := hinside k hk
    omega
  refine ⟨_, d, _, congrArg (Option.map _) hd, hscan, ?_, by omega, by omega,
    (marked_unused h.used_iff _).mp hunused, hentry, fun k hpos hle hk => ?_⟩
  · refine ⟨fun k hk => ?_, fun r hr => ?_, fun k hk => ?_, fun k hk => ?_, fun k hle hk => ?_,
      fun k => ?_, rfl, rfl⟩
    · exact hshift.u_row k (hrange k hk) ((marked_used h.used_iff k).mpr hk)
    · exact hshift.u_other r fun k _ hk => hr k ((marked_used h.used_iff k).mp hk)
    · refine (hshift.v k).trans (if_pos ⟨hrange k hk, (marked_used h.used_iff k).mpr hk⟩)
    · refine (hshift.v k).trans (if_neg fun hin => hk ((marked_used h.used_iff k).mp hin.2))
    · refine (hshift.minv k).trans (if_pos ⟨?_, (marked_unused h.used_iff k).mpr hk⟩)
      rw [List.mem_range]
      omega
    · exact marked_used h.used_iff k
  · exact hleast k (by rw [List.mem_range'_1]; omega) ((marked_unused h.used_iff k).mpr hk)

/-- What a turn of the search did: it scanned to `t` and moved the potentials by `d`. -/
structure Turned (size : ℕ) (cost : ℕ → ℕ → ℚ) (p : ℕ → ℕ) (s : Search) (L : List ℕ) (t : Scan)
    (d : ℚ) (s' : Search) : Prop where
  moved : Moved size p s t d (s.j0 :: L) s'
  taken : ∀ k ∈ s.j0 :: L, p k ≠ 0
  column : 0 < t.j1 ∧ t.j1 ≤ size ∧ t.j1 ∉ s.j0 :: L
  entry : t.minv t.j1 = some d
  way : ∀ k ∈ s.j0 :: L, t.way k = s.way k
  nonneg : L ≠ [] → 0 ≤ d
  scanned : ∀ j, 0 < j → j ≤ size → j ∉ s.j0 :: L → ∃ m, d ≤ m ∧ t.minv j = some m ∧
    t.way j ∈ s.j0 :: L ∧ slack cost p s (t.way j) j = m ∧ ∀ k ∈ s.j0 :: L, m ≤ slack cost p s k j

theorem Searching.turned (h : Searching size n cost p s L) (hm : Matched size n p)
    (hp : p 0 = n + 1) (hn : n < size) (htaken : p s.j0 ≠ 0) :
    ∃ t d s', searchStep size cost p s = some s' ∧ Turned size cost p s L t d s' := by
  obtain ⟨t, d, s', hstep, hscan, hmoved, hj1pos, hj1le, hj1far, hj1entry, hleast⟩ :=
    h.turn hm hp hn htaken
  -- behind the first turn the new used column is not column 0
  have hrow : L ≠ [] → 0 < p s.j0 ∧ p s.j0 ≤ n := by
    intro hL
    have hne : s.j0 ≠ 0 := h.reached.ne_zero hL
    exact ⟨Nat.pos_of_ne_zero htaken, hm.le _ (Nat.pos_of_ne_zero hne) (h.inside _ (by simp))⟩
  refine ⟨t, d, s', hstep, hmoved, fun k hk => ?_, ⟨hj1pos, hj1le, hj1far⟩, hj1entry,
    fun k hk => ?_, fun hL => ?_, fun j hpos hle hfar => ?_⟩
  · rcases List.mem_cons.mp hk with rfl | hk
    · exact htaken
    · exact h.taken k hk
  · rw [hscan.way]
    refine if_neg fun hin => ?_
    exact (marked_unused h.used_iff k).mp hin.1.2 hk
  · obtain ⟨m, hnonneg, hentry, -⟩ := h.scanned hscan hrow hj1pos hj1le hj1far
    rw [hj1entry, Option.some.injEq] at hentry
    rw [hentry]
    exact hnonneg hL
  · obtain ⟨m, -, hentry, hm', hrest⟩ := h.scanned hscan hrow hpos hle hfar
    exact ⟨m, hm' ▸ hleast j hpos hle hfar, hentry, hrest⟩

section
variable {t : Scan} {d : ℚ} {s' : Search}

/-- A row outside the used columns keeps its potential. -/
theorem Turned.u_far (ht : Turned size cost p s L t d s') (h : Searching size n cost p s L)
    (hm : Matched size n p) (hp : p 0 = n + 1) {j : ℕ} (hle : j ≤ size) (hfar : j ∉ s.j0 :: L) :
    s'.u (p j) = s.u (p j) := by
  apply ht.moved.u_out
  intro k hk heq
  exact hfar (hm.inj_zero hp (h.inside k hk) hle (ht.taken k hk) heq ▸ hk)

/-- A used column other than 0 is one of a later turn. -/
theorem Searching.later (h : Searching size n cost p s L) {j : ℕ} (hpos : 0 < j)
    (hj : j ∈ s.j0 :: L) : L ≠ [] := by
  have hzero := h.reached.zero_mem
  rintro rfl
  rw [List.mem_singleton] at hzero hj
  omega

theorem Turned.tight (ht : Turned size cost p s L t d s') (h : Searching size n cost p s L)
    (hm : Matched size n p) (hp : p 0 = n + 1) {j : ℕ} (hpos : 0 < j) (hle : j ≤ size)
    (hne : p j ≠ 0) : s'.u (p j) + s'.v j = cost (p j) j := by
  have htight := h.tight j hpos hle hne
  by_cases hj : j ∈ s.j0 :: L
  · rw [ht.moved.u_in j hj, ht.moved.v_in j hj]
    linarith
  · rw [ht.u_far h hm hp hle hj, ht.moved.v_out j hj]
    exact htight

theorem Turned.way_tight (ht : Turned size cost p s L t d s') (h : Searching size n cost p s L)
    {j : ℕ} (hj : j ∈ t.j1 :: s.j0 :: L) (hne : j ≠ 0) :
    s'.u (p (t.way j)) + s'.v j = cost (p (t.way j)) j := by
  rcases List.mem_cons.mp hj with rfl | hj
  · obtain ⟨hpos, hle, hfar⟩ := ht.column
    obtain ⟨m, -, hentry, hway, hslack, -⟩ := ht.scanned t.j1 hpos hle hfar
    rw [ht.entry, Option.some.injEq] at hentry
    rw [ht.moved.u_in _ hway, ht.moved.v_out _ hfar]
    unfold slack at hslack
    linarith
  · have htight := h.way_tight j hj hne
    rw [ht.way j hj, ht.moved.u_in _ (h.reached.way_mem_of_mem hj hne), ht.moved.v_in j hj]
    linarith

theorem Turned.far (ht : Turned size cost p s L t d s') {j : ℕ} (hpos : 0 < j) (hle : j ≤ size)
    (hfar : j ∉ s.j0 :: L) : ∃ m, 0 ≤ m ∧ s'.minv j = some m ∧ t.way j ∈ s.j0 :: L ∧
      cost (p (t.way j)) j - s'.u (p (t.way j)) - s'.v j = m ∧
      ∀ k ∈ s.j0 :: L, m ≤ cost (p k) j - s'.u (p k) - s'.v j := by
  obtain ⟨m, hdm, hentry, hway, hslack, hleast⟩ := ht.scanned j hpos hle hfar
  refine ⟨m - d, sub_nonneg.mpr hdm, ?_, hway, ?_, fun k hk => ?_⟩
  · rw [ht.moved.minv_out j hle hfar, hentry]
    rfl
  · rw [ht.moved.u_in _ hway, ht.moved.v_out j hfar]
    unfold slack at hslack
    linarith
  · have hleastk := hleast k hk
    rw [ht.moved.u_in k hk, ht.moved.v_out j hfar]
    unfold slack at hleastk
    linarith

/-- The row of a used column stays feasible: its slack in the other columns is `d` at least. -/
theorem Turned.feasible_used (ht : Turned size cost p s L t d s') {k j : ℕ} (hk : k ∈ s.j0 :: L)
    (hpos : 0 < j) (hle : j ≤ size)
    (hfeasible : j ∈ s.j0 :: L → s.u (p k) + s.v j ≤ cost (p k) j) :
    s'.u (p k) + s'.v j ≤ cost (p k) j := by
  rw [ht.moved.u_in k hk]
  by_cases hj : j ∈ s.j0 :: L
  · have hold := hfeasible hj
    rw [ht.moved.v_in j hj]
    linarith
  · obtain ⟨m, hdm, -, -, -, hleast⟩ := ht.scanned j hpos hle hj
    have hleastk := hleast k hk
    unfold slack at hleastk
    rw [ht.moved.v_out j hj]
    linarith

theorem Turned.feasible (ht : Turned size cost p s L t d s') (h : Searching size n cost p s L)
    (hm : Matched size n p) (hp : p 0 = n + 1) {r : ℕ} (hrpos : 0 < r) (hrle : r ≤ n) {j : ℕ}
    (hpos : 0 < j) (hle : j ≤ size) : s'.u r + s'.v j ≤ cost r j := by
  have hfeasible := h.feasible r hrpos hrle j hpos hle
  obtain ⟨k, hkpos, hkle, rfl⟩ := hm.surj r hrpos hrle
  by_cases hk : k ∈ s.j0 :: L
  · exact ht.feasible_used hk hpos hle fun _ => hfeasible
  · rw [ht.u_far h hm hp hkle hk]
    by_cases hj : j ∈ s.j0 :: L
    · have hd := ht.nonneg (h.later hpos hj)
      rw [ht.moved.v_in j hj]
      linarith
    · rw [ht.moved.v_out j hj]
      exact hfeasible

/-- The new row is that of column 0. -/
theorem Turned.feasible_new (ht : Turned size cost p s L t d s') (h : Searching size n cost p s L)
    (hp : p 0 = n + 1) {j : ℕ} (hpos : 0 < j) (hle : j ≤ size) :
    s'.u (n + 1) + s'.v j ≤ cost (n + 1) j := by
  rw [← hp]
  apply ht.feasible_used h.reached.zero_mem hpos hle
  intro hj
  rw [hp]
  exact h.feasible_new (h.later hpos hj) j hpos hle

end

theorem Searching.step (h : Searching size n cost p s L) (hm : Matched size n p)
    (hp : p 0 = n + 1) (hn : n < size) (htaken : p s.j0 ≠ 0) :
    ∃ s', searchStep size cost p s = some s' ∧ Searching size n cost p s' (s.j0 :: L) := by
  obtain ⟨t, d, s', hstep, ht⟩ := h.turned hm hp hn htaken
  obtain ⟨hj1pos, hj1le, hj1far⟩ := ht.column
  obtain ⟨m, -, -, hway, -⟩ := ht.scanned t.j1 hj1pos hj1le hj1far
  refine ⟨s', hstep, ht.moved.used_iff, ?_, ?_, ht.taken,
    fun j hpos hle hne => ht.tight h hm hp hpos hle hne, ?_, ?_, nofun,
    fun r hrpos hrle j hpos hle => ht.feasible h hm hp hrpos hrle hpos hle,
    fun _ j hpos hle => ht.feasible_new h hp hpos hle⟩
  · rw [ht.moved.way, ht.moved.j0]
    exact .visit (h.reached.congr ht.way) hj1far hway
  · rw [ht.moved.j0]
    intro j hj
    rcases List.mem_cons.mp hj with rfl | hj
    · exact hj1le
    · exact h.inside j hj
  · rw [ht.moved.way, ht.moved.j0]
    exact fun j hj hne => ht.way_tight h hj hne
  · rw [ht.moved.way]
    exact fun _ j hpos hle hfar => ht.far hpos hle hfar

end

end AutoTargeting.Tracker
