import AutoTargeting.Tracker.Exchange
import AutoTargeting.Tracker.TrackerRuns
import AutoTargeting.Tracker.TrackIds

namespace AutoTargeting.Tracker

open Yolo (Detection)

/-- A detection of 100 pixels by 100. -/
def wideDetection (x : ℕ) : Detection := ⟨⟨x, 0, 100, 100⟩, "person", 0, 9 / 10, 0, 0⟩

def pairCost (fl : ℚ → ℚ) (t : Track) (d : Detection) : ℚ := fl (1 - iou fl t.lastBbox d.bbox)

section
variable {fl : ℚ → ℚ} {s : MultiTargetTracker} {detections : List Detection}

theorem createTracks_matched (createdAt : ℕ → ℤ) (matched : List (TargetId × ℕ)) :
    (s.createTracks createdAt matched detections).2.matched = matched := by
  have hloop : ∀ (rows : List (Detection × ℕ)) (acc : MultiTargetTracker × Report),
      (rows.foldl (MultiTargetTracker.createFor createdAt (matched.map (·.2))) acc).2.matched =
        acc.2.matched := by
    intro rows
    induction rows with
    | nil => exact fun _ => rfl
    | cons row rows ih =>
      intro acc
      rw [List.foldl_cons, ih]
      unfold MultiTargetTracker.createFor
      dsimp only
      split
      · trivial
      · split <;> trivial
  exact hloop _ _

theorem similarity_le (hfl : Monotone fl) {t t₁ : Track} {d d₁ : Detection}
    (h : pairCost fl t₁ d₁ ≤ pairCost fl t d) : similarity fl t d ≤ similarity fl t₁ d₁ :=
  hfl (sub_le_sub_left h 1)

/-- A pair that the assignment has, and that is not matched, is below the threshold. -/
theorem similarity_lt_of_not_matched {threshold : ℚ} {matchedAt : TargetId → ℤ} {rows : List Track}
    {tracks : Tracks} {a : List (Option ℕ)} {acc : Matching}
    (happlied : Applied fl threshold matchedAt rows detections tracks a rows.length acc)
    {k l : ℕ} {t : Track} {d : Detection} (ht : rows[k]? = some t) (hgiven : given a k = some l)
    (hd : detections[l]? = some d)
    (hnot : t.id ∉ acc.matched.map (·.1) ∨ l ∉ acc.matched.map (·.2)) :
    similarity fl t d < threshold := by
  by_contra hge
  have hmem : (t.id, l) ∈ acc.matched := (happlied.mem_matched _ _).mpr
    ⟨k, (List.getElem?_eq_some_iff.mp ht).1, t, d, ht, rfl, hgiven, hd, not_lt.mp hge⟩
  rcases hnot with hnot | hnot
  · exact hnot (List.mem_map_of_mem (f := (·.1)) hmem)
  · exact hnot (List.mem_map_of_mem (f := (·.2)) hmem)

theorem row_of_id {rows : List Track} (hids : (rows.map Track.id).Nodup) {p q : ℕ}
    (hp : p < rows.length) (heq : rows[p]?.map Track.id = rows[q]?.map Track.id) : p = q := by
  rw [← List.getElem?_map, ← List.getElem?_map] at heq
  exact (List.getElem?_inj (by rwa [List.length_map]) hids).mp heq

/-- And one that is below the threshold leaves both its track and its detection without a match. -/
theorem not_matched_of_similarity_lt {threshold : ℚ} {matchedAt : TargetId → ℤ} {rows : List Track}
    {tracks : Tracks} {a : List (Option ℕ)} {acc : Matching} (hids : (rows.map Track.id).Nodup)
    (hinj : ∀ i k j, given a i = some j → given a k = some j → i = k)
    (happlied : Applied fl threshold matchedAt rows detections tracks a rows.length acc)
    {k l : ℕ} {t : Track} {d : Detection} (ht : rows[k]? = some t) (hgiven : given a k = some l)
    (hd : detections[l]? = some d) (hlt : similarity fl t d < threshold) :
    t.id ∉ acc.matched.map (·.1) ∧ l ∉ acc.matched.map (·.2) := by
  constructor
  · intro hmem
    obtain ⟨⟨tid, l'⟩, hpair, heq⟩ := List.mem_map.mp hmem
    obtain ⟨p, hp, v, e, hv, hid, hl, he, hge⟩ := (happlied.mem_matched tid l').mp hpair
    have hpk : p = k := by
      apply row_of_id hids hp
      rw [hv, ht, Option.map_some, Option.map_some, hid]
      exact congrArg some heq
    subst hpk
    obtain rfl := Option.some.inj (hgiven.symm.trans hl)
    rw [Option.some.inj (ht.symm.trans hv), Option.some.inj (hd.symm.trans he)] at hlt
    exact absurd hge (not_le.mpr hlt)
  · intro hmem
    obtain ⟨⟨tid, l'⟩, hpair, rfl⟩ := List.mem_map.mp hmem
    obtain ⟨p, hp, v, e, hv, hid, hl, he, hge⟩ := (happlied.mem_matched tid l').mp hpair
    obtain rfl := hinj p k l' hl hgiven
    rw [Option.some.inj (ht.symm.trans hv), Option.some.inj (hd.symm.trans he)] at hlt
    exact absurd hge (not_le.mpr hlt)

/-- What the assignment says of a track and a detection that are both left over, and similar
enough. -/
theorem leftover_pair (hfl : Monotone fl) {threshold : ℚ} {matchedAt : TargetId → ℤ}
    {rows : List Track} {tracks : Tracks} {a : List (Option ℕ)} {acc : Matching}
    (hids : (rows.map Track.id).Nodup)
    (ha : IsAssignment rows.length detections.length a)
    (hmin : ∀ b, IsAssignment rows.length detections.length b →
      totalCost (costMatrix fl rows detections) a ≤ totalCost (costMatrix fl rows detections) b)
    (happlied : Applied fl threshold matchedAt rows detections tracks a rows.length acc)
    {t : Track} (ht : t ∈ rows) (hleft : t.id ∉ acc.matched.map (·.1)) {j : ℕ} {d : Detection}
    (hd : detections[j]? = some d) (hfree : j ∉ acc.matched.map (·.2))
    (hsim : threshold ≤ similarity fl t d) :
    ∃ t₁ ∈ rows, ∃ j₁ d₁, t₁ ≠ t ∧ j₁ ≠ j ∧ detections[j₁]? = some d₁ ∧
      t₁.id ∉ acc.matched.map (·.1) ∧ j₁ ∉ acc.matched.map (·.2) ∧
      similarity fl t d₁ < threshold ∧ similarity fl t₁ d < threshold ∧
      pairCost fl t d₁ + pairCost fl t₁ d ≤ pairCost fl t d + pairCost fl t₁ d₁ := by
  obtain ⟨i, hi⟩ := List.mem_iff_getElem?.mp ht
  have hilt : i < rows.length := (List.getElem?_eq_some_iff.mp hi).1
  have hjlt : j < detections.length := (List.getElem?_eq_some_iff.mp hd).1
  -- `t` and `d` are both without a match, so what the assignment gives either is rejected
  have hrow : ∀ {l e}, given a i = some l → detections[l]? = some e → similarity fl t e < threshold :=
    fun hgiven he => similarity_lt_of_not_matched happlied hi hgiven he (.inl hleft)
  have hcolumn : ∀ {k u}, rows[k]? = some u → given a k = some j → similarity fl u d < threshold :=
    fun hu hgiven => similarity_lt_of_not_matched happlied hu hgiven hd (.inr hfree)
  have hlen : (costMatrix fl rows detections).length = rows.length := costMatrix_length
  rw [← hlen] at ha hmin hilt
  by_cases hused : ∃ k, given a k = some j
  · obtain ⟨k, hk⟩ := hused
    have hklt : k < (costMatrix fl rows detections).length := ha.length_eq ▸ given_lt hk
    have hklt' : k < rows.length := hlen ▸ hklt
    have hu : rows[k]? = some rows[k] := List.getElem?_eq_getElem hklt'
    have hki : k ≠ i := by
      rintro rfl
      exact absurd (hrow hk hd) (not_lt.mpr hsim)
    have hexchange := exchange_rows ha hmin hilt hklt hki
    have hsim₁ := hcolumn hu hk
    cases hgiven : given a i with
    | none =>
      -- row `k` has the column of a dearer pair for nothing
      rw [hgiven, hk] at hexchange
      simp only [rowCost, zero_add, add_zero, costMatrix_entry hi hd, costMatrix_entry hu hd]
        at hexchange
      exact absurd (hsim.trans (similarity_le hfl hexchange)) (not_le.mpr hsim₁)
    | some j₁ =>
      have hj₁lt : j₁ < detections.length := ha.column_lt i j₁ hgiven
      have hd₁ : detections[j₁]? = some detections[j₁] := List.getElem?_eq_getElem hj₁lt
      rw [hgiven, hk] at hexchange
      simp only [rowCost, costMatrix_entry hi hd, costMatrix_entry hu hd, costMatrix_entry hi hd₁,
        costMatrix_entry hu hd₁] at hexchange
      have hsim₂ := hrow hgiven hd₁
      refine ⟨rows[k], List.getElem_mem hklt', j₁, detections[j₁], ?_, ?_, hd₁,
        (not_matched_of_similarity_lt hids ha.inj happlied hu hk hd hsim₁).1,
        (not_matched_of_similarity_lt hids ha.inj happlied hi hgiven hd₁ hsim₂).2,
        hsim₂, hsim₁, hexchange⟩
      · intro heq
        apply hki
        apply row_of_id hids hklt'
        rw [hu, hi, heq]
      · rintro rfl
        exact hki (ha.inj k i _ hk hgiven)
  · have hnobody : ∀ k, given a k ≠ some j := fun k hk => hused ⟨k, hk⟩
    cases hgiven : given a i with
    | none => exact absurd (ha.column_used hilt hgiven hjlt) hused
    | some j₁ =>
      have hj₁lt : j₁ < detections.length := ha.column_lt i j₁ hgiven
      have hd₁ : detections[j₁]? = some detections[j₁] := List.getElem?_eq_getElem hj₁lt
      have hexchange := exchange_column ha hmin hgiven hjlt hnobody
      rw [costMatrix_entry hi hd, costMatrix_entry hi hd₁] at hexchange
      exact absurd (hsim.trans (similarity_le hfl hexchange))
        (not_le.mpr (hrow hgiven hd₁))

/-- After an `update`, a track and a detection that are both left over are similar enough only
where the assignment gave each of them to another, below the threshold, and these two pairs
together are no dearer. -/
theorem unmatched_pair (hfl : Monotone fl) (s : MultiTargetTracker) (detections : List Detection)
    (env : Env) {s' : MultiTargetTracker} {report : Report}
    (hupdate : s.update fl detections env = some (s', report)) :
    ∀ t ∈ s.tracks.entries, t.id ∉ report.matched.map (·.1) →
      ∀ j d, detections[j]? = some d → j ∉ report.matched.map (·.2) →
        s.matchIouThreshold ≤ similarity fl t d →
        ∃ t₁ ∈ s.tracks.entries, ∃ j₁ d₁, t₁ ≠ t ∧ j₁ ≠ j ∧ detections[j₁]? = some d₁ ∧
          t₁.id ∉ report.matched.map (·.1) ∧ j₁ ∉ report.matched.map (·.2) ∧
          similarity fl t d₁ < s.matchIouThreshold ∧ similarity fl t₁ d < s.matchIouThreshold ∧
          pairCost fl t d₁ + pairCost fl t₁ d ≤ pairCost fl t d + pairCost fl t₁ d₁ := by
  intro t ht hleft j d hd hfree hsim
  have hsome : s.tracks.entries ≠ [] := List.ne_nil_of_mem ht
  have hdetections : detections ≠ [] := by
    rintro rfl
    simp at hd
  obtain ⟨a, acc, hassign, hmin, happlied, heq⟩ := update_matching fl hsome hdetections env
  have hrows := env.perm s.tracks.entries
  have hids : ((env.order s.tracks.entries).map Track.id).Nodup :=
    (hrows.map Track.id).nodup_iff.mpr s.tracks.nodup
  have hreport : report.matched = acc.matched := by
    rw [heq] at hupdate
    dsimp only at hupdate
    split at hupdate
    case isTrue =>
      rw [← (Prod.mk.inj (Option.some.inj hupdate)).2, createTracks_matched]
    case isFalse => rw [← (Prod.mk.inj (Option.some.inj hupdate)).2]
  have hsize : s.tracks.size = (env.order s.tracks.entries).length := hrows.length_eq.symm
  rw [hreport] at hleft hfree ⊢
  rw [hsize] at hassign hmin
  obtain ⟨t₁, ht₁, hrest⟩ := leftover_pair hfl hids hassign hmin happlied
    (hrows.mem_iff.mpr ht) hleft hd hfree hsim
  exact ⟨t₁, hrows.mem_iff.mp ht₁, hrest⟩

end

/-- Two tracks of 100 pixels by 100, at 55 and at 163. -/
def chainTracker : MultiTargetTracker :=
  { MultiTargetTracker.new 2000 60 (3 / 10) true 64 with
    tracks := ⟨[.new 1 (wideDetection 55) 0, .new 2 (wideDetection 163) 0], by decide⟩
    nextId := 3 }

/-- Between the two tracks and before them. -/
def chainDetections : List Detection := [wideDetection 0, wideDetection 108]

theorem chain_update : ∃ s', chainTracker.update id chainDetections plainEnv =
    some (s', ⟨[], [(0, 3), (1, 4)], []⟩) := by
  have hreport : (chainTracker.update id chainDetections plainEnv).map (·.2) =
      some ⟨[], [(0, 3), (1, 4)], []⟩ := by decide +kernel
  obtain ⟨⟨s', report⟩, heq, hreport⟩ := Option.map_eq_some_iff.mp hreport
  exact ⟨s', hreport ▸ heq⟩

theorem unmatched_pair_of_chain :
    ∃ t₁ ∈ chainTracker.tracks.entries, ∃ (j₁ : ℕ) (d₁ : Detection), t₁.id = 2 ∧ chainDetections[j₁]? = some d₁ ∧
      similarity id (.new 1 (wideDetection 55) 0) d₁ < 3 / 10 := by
  obtain ⟨s', hupdate⟩ := chain_update
  obtain ⟨t₁, ht₁, j₁, d₁, hne, -, hd₁, -, -, hbelow, -⟩ :=
    unmatched_pair monotone_id chainTracker chainDetections plainEnv hupdate
      (.new 1 (wideDetection 55) 0) (by simp [chainTracker]) (by simp) 1 (wideDetection 108) rfl
      (by simp) (by decide +kernel)
  refine ⟨t₁, ht₁, j₁, d₁, ?_, hd₁, hbelow⟩
  simp only [chainTracker, List.mem_cons, List.not_mem_nil, or_false] at ht₁
  rcases ht₁ with rfl | rfl
  · exact absurd rfl hne
  · trivial

/-- The first track and the second detection overlap by more than the threshold; the track is aged,
and the detection becomes a new track. -/
theorem similar_pair_left_over : ∃ s' report,
    chainTracker.update id chainDetections plainEnv = some (s', report) ∧
    ∃ t ∈ chainTracker.tracks.entries, t.id ∉ report.matched.map (·.1) ∧
      ∃ d, chainDetections[1]? = some d ∧ 1 ∉ report.matched.map (·.2) ∧
        chainTracker.matchIouThreshold ≤ iou id t.lastBbox d.bbox ∧
        1 ∈ report.created.map (·.1) := by
  obtain ⟨s', hupdate⟩ := chain_update
  exact ⟨s', _, hupdate, .new 1 (wideDetection 55) 0, by simp [chainTracker], by simp,
    wideDetection 108, rfl, by simp, by decide +kernel, by decide⟩

end AutoTargeting.Tracker
