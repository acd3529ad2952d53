import AutoTargeting.Tracker.HungarianSearch

namespace AutoTargeting.Tracker

section
variable {size n : ℕ} {cost : ℕ → ℕ → ℚ} {p : ℕ → ℕ} {s : Search} {L : List ℕ}

/-- Reached columns are different, and at most `size + 1`. -/
theorem Reached.length_le {way : ℕ → ℕ} (h : Reached way L) (hinside : ∀ j ∈ L, j ≤ size) :
    L.length ≤ size + 1 := by
  have hsub : L.toFinset ⊆ Finset.range (size + 1) := by
    intro j hj
    have := hinside j (List.mem_toFinset.mp hj)
    rw [Finset.mem_range]
    omega
  have hcard := Finset.card_le_card hsub
  rwa [List.toFinset_card_of_nodup h.nodup, Finset.card_range] at hcard

/-- The search ends at a free column: each turn uses another one. -/
theorem Searching.search (h : Searching size n cost p s L) (hm : Matched size n p)
    (hp : p 0 = n + 1) (hn : n < size) (htaken : p s.j0 ≠ 0) {turns : ℕ}
    (hturns : turns + L.length = size + 1) :
    ∃ s' L', Tracker.search size cost p turns s = some s' ∧
      Searching size n cost p s' L' ∧ L' ≠ [] ∧ p s'.j0 = 0 := by
  induction turns generalizing s L with
  | zero =>
    have hlen := h.reached.length_le h.inside
    rw [List.length_cons] at hlen
    omega
  | succ turns ih =>
    obtain ⟨s', hstep, h'⟩ := h.step hm hp hn htaken
    by_cases hfree : p s'.j0 = 0
    · refine ⟨s', s.j0 :: L, ?_, h', List.cons_ne_nil _ _, hfree⟩
      simp [Tracker.search, hstep, hfree]
    · obtain ⟨s'', L', hsearch, h'', hL', hend⟩ := ih h' hfree (by
        rw [List.length_cons]
        omega)
      refine ⟨s'', L', ?_, h'', hL', hend⟩
      simp [Tracker.search, hstep, hfree, hsearch]

/-- Without column `j`, the columns from 0 on have the first `n + 1` rows, one each. -/
structure Vacant (size n : ℕ) (cost : ℕ → ℕ → ℚ) (s : Search) (p : ℕ → ℕ) (j : ℕ) : Prop where
  le : ∀ k, k ≤ size → k ≠ j → p k ≤ n + 1
  inj : ∀ k k', k ≤ size → k' ≤ size → k ≠ j → k' ≠ j → p k ≠ 0 → p k = p k' → k = k'
  surj : ∀ r, 0 < r → r ≤ n + 1 → ∃ k, k ≤ size ∧ k ≠ j ∧ p k = r
  tight : ∀ k, 0 < k → k ≤ size → k ≠ j → p k ≠ 0 → s.u (p k) + s.v k = cost (p k) k

theorem Vacant.move {j j1 : ℕ} (h : Vacant size n cost s p j) (hj : j ≤ size) (hj1 : j1 ≤ size)
    (hne : j1 ≠ j) (htight : s.u (p j1) + s.v j = cost (p j1) j) :
    Vacant size n cost s (Function.update p j (p j1)) j1 := by
  have hother : ∀ k, k ≠ j → Function.update p j (p j1) k = p k :=
    fun k hk => Function.update_of_ne hk _ _
  have hself : Function.update p j (p j1) j = p j1 := Function.update_self _ _ _
  refine ⟨fun k hk _ => ?_, fun k k' hk hk' hkne hkne' htaken heq => ?_, fun r hpos hle => ?_,
    fun k hpos hk _ htaken => ?_⟩
  · by_cases hkj : k = j
    · rw [hkj, hself]
      exact h.le j1 hj1 hne
    · rw [hother k hkj]
      exact h.le k hk hkj
  · by_cases hkj : k = j
    · by_cases hkj' : k' = j
      · rw [hkj, hkj']
      · rw [hkj, hself] at heq htaken
        rw [hother k' hkj'] at heq
        exact absurd (h.inj j1 k' hj1 hk' hne hkj' htaken heq).symm hkne'
    · rw [hother k hkj] at heq htaken
      by_cases hkj' : k' = j
      · rw [hkj', hself] at heq
        exact absurd (h.inj k j1 hk hj1 hkj hne htaken heq) hkne
      · rw [hother k' hkj'] at heq
        exact h.inj k k' hk hk' hkj hkj' htaken heq
  · obtain ⟨k, hk, hkj, rfl⟩ := h.surj r hpos hle
    by_cases hkj1 : k = j1
    · exact ⟨j, hj, hne.symm, by rw [hself, hkj1]⟩
    · exact ⟨k, hk, hkj1, hother k hkj⟩
  · by_cases hkj : k = j
    · rw [hkj, hself]
      exact htight
    · rw [hother k hkj] at htaken ⊢
      exact h.tight k hpos hk hkj htaken

/-- The augmenting path ends at column 0, which is vacant then. -/
theorem augment_vacant {p₀ : ℕ → ℕ} (hinside : ∀ k ∈ L, k ≤ size)
    (htight : ∀ k ∈ L, k ≠ 0 → s.u (p₀ (s.way k)) + s.v k = cost (p₀ (s.way k)) k)
    {turns j : ℕ} {rest : List ℕ} (hreached : Reached s.way (j :: rest))
    (hsub : ∀ k ∈ j :: rest, k ∈ L) (hj : j ≠ 0) (hturns : rest.length ≤ turns)
    (hsame : ∀ k ∈ rest, p k = p₀ k) (hvacant : Vacant size n cost s p j) :
    ∃ p', augment s.way turns p j = some p' ∧ Vacant size n cost s p' 0 := by
  induction turns generalizing p j rest with
  | zero =>
    have hmem := hreached.way_mem hj
    rw [List.length_eq_zero_iff.mp (Nat.le_zero.mp hturns)] at hmem
    cases hmem
  | succ turns ih =>
    have hmem : s.way j ∈ rest := hreached.way_mem hj
    have hnot : j ∉ rest := (List.nodup_cons.mp hreached.nodup).1
    have hne : s.way j ≠ j := fun heq => hnot (heq ▸ hmem)
    -- column `j` takes the row of its way, which is vacant then
    have hmoved : Vacant size n cost s (Function.update p j (p (s.way j))) (s.way j) := by
      apply hvacant.move (hinside j (hsub j (by simp))) (hinside _ (hsub _ (by simp [hmem]))) hne
      rw [hsame _ hmem]
      exact htight j (hsub j (by simp)) hj
    unfold augment
    dsimp only
    split
    case isTrue hend =>
      rw [hend] at hmoved ⊢
      exact ⟨_, rfl, hmoved⟩
    case isFalse hgo =>
      obtain ⟨rest', hreached', hlen, hsub'⟩ : ∃ L', Reached s.way (s.way j :: L') ∧
          (s.way j :: L').length ≤ rest.length ∧ ∀ k ∈ s.way j :: L', k ∈ rest := by
        cases hreached with
        | root => exact absurd rfl hj
        | visit hrest => exact hrest.behind hmem
      apply ih hreached' (fun k hk => hsub k (by simp [hsub' k hk])) hgo
      · rw [List.length_cons] at hlen
        omega
      · intro k hk
        have hkrest := hsub' k (by simp [hk])
        have hkj : k ≠ j := by
          rintro rfl
          exact hnot hkrest
        rw [Function.update_of_ne hkj]
        exact hsame k hkrest
      · exact hmoved

end

/-- What holds after the first `n` rows: they are matched along tight pairs, and their potentials
are feasible. -/
structure RowsDone (size n : ℕ) (cost : ℕ → ℕ → ℚ) (r : Rows) : Prop where
  matched : Matched size n r.p
  tight : ∀ j, 0 < j → j ≤ size → r.p j ≠ 0 → r.u (r.p j) + r.v j = cost (r.p j) j
  feasible : ∀ i, 0 < i → i ≤ n → ∀ j, 0 < j → j ≤ size → r.u i + r.v j ≤ cost i j

section
variable {size n : ℕ} {cost : ℕ → ℕ → ℚ}

theorem rowsDone_zero (size : ℕ) (cost : ℕ → ℕ → ℚ) :
    RowsDone size 0 cost ⟨fun _ => 0, fun _ => 0, fun _ => 0, fun _ => 0⟩ := by
  refine ⟨⟨fun _ _ _ => le_rfl, fun _ _ _ _ _ _ h => absurd rfl h, fun r hpos hle => ?_⟩,
    fun _ _ _ h => absurd rfl h, fun i hpos hle => ?_⟩ <;> omega

/-- The state in which the search for the next row begins. -/
theorem RowsDone.begin {r : Rows} (h : RowsDone size n cost r) :
    Searching size n cost (Function.update r.p 0 (n + 1))
      ⟨r.u, r.v, r.way, fun _ => none, fun _ => false, 0⟩ [] := by
  refine ⟨by simp, .root, by simp, by simp, ?_, by simp, fun hL => absurd rfl hL, fun _ _ => rfl,
    h.feasible, fun hL => absurd rfl hL⟩
  intro j hpos hle htaken
  rw [Function.update_of_ne (by omega)] at htaken ⊢
  exact h.tight j hpos hle htaken

theorem RowsDone.addRow {r : Rows} (h : RowsDone size n cost r) (hn : n < size) :
    ∃ r', Tracker.addRow size cost r (n + 1) = some r' ∧ RowsDone size (n + 1) cost r' := by
  -- column 0 stands for the new row
  let p := Function.update r.p 0 (n + 1)
  have hp : p 0 = n + 1 := Function.update_self _ _ _
  have hsame : ∀ j, 0 < j → p j = r.p j := fun j hpos => Function.update_of_ne (by omega) _ _
  have hm : Matched size n p := by
    refine ⟨fun j hpos hle => ?_, fun j k hjpos hj hkpos hk htaken heq => ?_, fun i hpos hle => ?_⟩
    · rw [hsame j hpos]
      exact h.matched.le j hpos hle
    · rw [hsame j hjpos] at htaken heq
      rw [hsame k hkpos] at heq
      exact h.matched.inj j k hjpos hj hkpos hk htaken heq
    · obtain ⟨j, hjpos, hj, rfl⟩ := h.matched.surj i hpos hle
      exact ⟨j, hjpos, hj, hsame j hjpos⟩
  have htaken : p 0 ≠ 0 := by
    rw [hp]
    exact Nat.succ_ne_zero n
  obtain ⟨s, L, hsearch, hs, hL, hfree⟩ := h.begin.search hm hp hn htaken
    (show size + 1 + ([] : List ℕ).length = size + 1 from rfl)
  have hj0 : s.j0 ≠ 0 := hs.reached.ne_zero hL
  -- the column that the search ended in is free; the augmentation moves it back to column 0
  have hvacant : Vacant size n cost s p s.j0 := by
    refine ⟨fun k hk _ => hm.le_zero hp hk, fun k k' hk hk' _ _ => hm.inj_zero hp hk hk',
      fun i hpos hle => ?_, fun k hpos hk _ => hs.tight k hpos hk⟩
    by_cases hi : i = n + 1
    · exact ⟨0, Nat.zero_le _, hj0.symm, hi ▸ hp⟩
    · obtain ⟨k, -, hk, rfl⟩ := hm.surj i hpos (by omega)
      refine ⟨k, hk, ?_, rfl⟩
      rintro rfl
      exact absurd hfree (Nat.ne_of_gt hpos)
  have hlen : L.length ≤ size + 1 := by
    have := hs.reached.length_le hs.inside
    rw [List.length_cons] at this
    omega
  obtain ⟨p', haugment, hdone⟩ := augment_vacant hs.inside hs.way_tight hs.reached
    (fun _ hk => hk) hj0 hlen (fun _ _ => rfl) hvacant
  refine ⟨⟨s.u, s.v, p', s.way⟩, ?_, ⟨fun j hpos hle => ?_, fun j k hjpos hj hkpos hk => ?_,
    fun i hpos hle => ?_⟩, fun j hpos hle => ?_, fun i hpos hle => ?_⟩
  · unfold Tracker.addRow
    dsimp only
    rw [hsearch]
    simp [haugment]
  · exact hdone.le j hle (by omega)
  · exact hdone.inj j k hj hk (by omega) (by omega)
  · obtain ⟨j, hj, hne, hrow⟩ := hdone.surj i hpos hle
    exact ⟨j, Nat.pos_of_ne_zero hne, hj, hrow⟩
  · exact hdone.tight j hpos hle (by omega)
  · by_cases hi : i = n + 1
    · rw [hi]
      exact hs.feasible_new hL
    · exact hs.feasible i hpos (by omega)

theorem rowsDone_all (size : ℕ) (cost : ℕ → ℕ → ℚ) (hn : n ≤ size) :
    ∃ r, (List.range' 1 n).foldlM (addRow size cost)
      ⟨fun _ => 0, fun _ => 0, fun _ => 0, fun _ => 0⟩ = some r ∧ RowsDone size n cost r := by
  induction n with
  | zero => exact ⟨_, rfl, rowsDone_zero size cost⟩
  | succ n ih =>
    obtain ⟨r, hr, hdone⟩ := ih (by omega)
    obtain ⟨r', hr', hdone'⟩ := hdone.addRow (by omega)
    refine ⟨r', ?_, hdone'⟩
    rw [List.range'_concat, List.foldlM_append, hr]
    simp only [Option.bind_eq_bind, Option.bind_some, List.foldlM_cons, List.foldlM_nil]
    rw [show 1 + 1 * n = n + 1 by omega, hr']
    rfl

end

end AutoTargeting.Tracker
