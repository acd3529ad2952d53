import AutoTargeting.Tracker.HungarianOptimal
import AutoTargeting.Tracker.MultiTracker

namespace AutoTargeting.Tracker

open Yolo (Detection)

/-- What `update` compares with the threshold: `1.0 - cost`. -/
def similarity (fl : ℚ → ℚ) (t : Track) (d : Detection) : ℚ :=
  fl (1 - fl (1 - iou fl t.lastBbox d.bbox))

section
variable {fl : ℚ → ℚ} {threshold : ℚ} {matchedAt : TargetId → ℤ} {rows : List Track}
  {detections : List Detection} {tracks : Tracks} {a : List (Option ℕ)} {k : ℕ} {acc : Matching}

theorem costMatrix_length : (costMatrix fl rows detections).length = rows.length :=
  List.length_map _

theorem costMatrix_rect : ∀ row ∈ costMatrix fl rows detections, row.length = detections.length := by
  intro row hrow
  obtain ⟨t, -, rfl⟩ := List.mem_map.mp hrow
  exact List.length_map _

theorem costMatrix_row {t : Track} {i : ℕ} (ht : rows[i]? = some t) :
    (costMatrix fl rows detections)[i]? =
      some (detections.map fun d => fl (1 - iou fl t.lastBbox d.bbox)) := by
  rw [costMatrix, List.getElem?_map, ht, Option.map_some]

theorem costMatrix_entry {t : Track} {d : Detection} {i j : ℕ} (ht : rows[i]? = some t)
    (hd : detections[j]? = some d) :
    entry (costMatrix fl rows detections) i j = fl (1 - iou fl t.lastBbox d.bbox) := by
  rw [entry, costMatrix_row ht, Option.bind_some, List.getElem?_map, hd, Option.map_some,
    Option.getD_some]

/-- The matches that the loop has applied after `k` rows of the assignment `a`. -/
structure Applied (fl : ℚ → ℚ) (threshold : ℚ) (matchedAt : TargetId → ℤ) (rows : List Track)
    (detections : List Detection) (tracks : Tracks) (a : List (Option ℕ)) (k : ℕ) (acc : Matching) :
    Prop where
  keys : acc.tracks.keys = tracks.keys
  mem_matched : ∀ tid j, (tid, j) ∈ acc.matched ↔ ∃ i < k, ∃ t d, rows[i]? = some t ∧ t.id = tid ∧
    given a i = some j ∧ detections[j]? = some d ∧ threshold ≤ similarity fl t d
  tracks_once : (acc.matched.map (·.1)).Nodup
  detections_once : (acc.matched.map (·.2)).Nodup
  origin : ∀ t' ∈ acc.tracks.entries, ∃ t ∈ tracks.entries,
    (t.id ∉ acc.matched.map (·.1) ∧ t' = t) ∨
    ∃ j d, (t.id, j) ∈ acc.matched ∧ detections[j]? = some d ∧
      t' = t.updateWithDetection d (matchedAt t.id)

theorem applied_nil : Applied fl threshold matchedAt rows detections tracks a 0 ⟨tracks, []⟩ where
  keys := rfl
  mem_matched := by simp
  tracks_once := List.nodup_nil
  detections_once := List.nodup_nil
  origin t ht := ⟨t, ht, .inl ⟨by simp, rfl⟩⟩

theorem Applied.skip (h : Applied fl threshold matchedAt rows detections tracks a k acc)
    (hnone : ∀ t j d, rows[k]? = some t → given a k = some j → detections[j]? = some d →
      ¬ threshold ≤ similarity fl t d) :
    Applied fl threshold matchedAt rows detections tracks a (k + 1) acc where
  keys := h.keys
  mem_matched tid j := by
    rw [h.mem_matched]
    constructor
    · rintro ⟨i, hi, hrest⟩
      exact ⟨i, by omega, hrest⟩
    · rintro ⟨i, hi, t, d, ht, hid, hj, hd, hle⟩
      by_cases hik : i = k
      · subst hik
        exact absurd hle (hnone t j d ht hj hd)
      · exact ⟨i, by omega, t, d, ht, hid, hj, hd, hle⟩
  tracks_once := h.tracks_once
  detections_once := h.detections_once
  origin := h.origin

theorem Applied.fresh (h : Applied fl threshold matchedAt rows detections tracks a k acc)
    (hids : (rows.map Track.id).Nodup) {t : Track} (ht : rows[k]? = some t) :
    t.id ∉ acc.matched.map (·.1) := by
  intro hmem
  obtain ⟨⟨tid, j'⟩, hmem, heq⟩ := List.mem_map.mp hmem
  obtain ⟨i, hi, t', d', ht', hid, -⟩ := (h.mem_matched tid j').mp hmem
  have hrows : (rows.map Track.id)[i]? = (rows.map Track.id)[k]? := by
    rw [List.getElem?_map, List.getElem?_map, ht, ht', Option.map_some, Option.map_some, hid]
    exact congrArg some heq
  have hlt : i < (rows.map Track.id).length := by
    rw [List.length_map]
    exact (List.getElem?_eq_some_iff.mp ht').1
  exact absurd ((List.getElem?_inj hlt hids).mp hrows) (by omega)

/-- No earlier row was given the detection of this one. -/
theorem Applied.unused (h : Applied fl threshold matchedAt rows detections tracks a k acc)
    (ha : IsAssignment rows.length detections.length a) {j : ℕ} (hj : given a k = some j) :
    j ∉ acc.matched.map (·.2) := by
  intro hmem
  obtain ⟨⟨tid, j'⟩, hmem, heq⟩ := List.mem_map.mp hmem
  obtain ⟨i, hi, -, -, -, -, hj', -⟩ := (h.mem_matched tid j').mp hmem
  have heq : j' = j := heq
  exact absurd (ha.inj i k j (heq ▸ hj') hj) (by omega)

/-- A row that is matched changes its own track only: neither the track nor the detection is in an
earlier match. -/
theorem Applied.accept (h : Applied fl threshold matchedAt rows detections tracks a k acc)
    (hids : (rows.map Track.id).Nodup) (ha : IsAssignment rows.length detections.length a)
    {t : Track} {d : Detection} {j : ℕ} (ht : rows[k]? = some t) (hj : given a k = some j)
    (hd : detections[j]? = some d) (hle : threshold ≤ similarity fl t d) :
    Applied fl threshold matchedAt rows detections tracks a (k + 1)
      ⟨acc.tracks.modify t.id (.updateWithDetection d (matchedAt t.id))
        (Track.updateWithDetection_id d (matchedAt t.id)), acc.matched ++ [(t.id, j)]⟩ := by
  have hfresh := h.fresh hids ht
  have hunused := h.unused ha hj
  constructor
  · rw [Keyed.keys_modify, h.keys]
  · intro tid j'
    rw [List.mem_append, h.mem_matched, List.mem_singleton, Prod.mk.injEq]
    constructor
    · rintro (⟨i, hi, hrest⟩ | ⟨rfl, rfl⟩)
      · exact ⟨i, by omega, hrest⟩
      · exact ⟨k, by omega, t, d, ht, rfl, hj, hd, hle⟩
    · rintro ⟨i, hi, t', d', ht', hid, hj', hd', hle'⟩
      by_cases hik : i = k
      · subst hik
        rw [ht] at ht'
        rw [hj] at hj'
        exact .inr ⟨by rw [← hid, Option.some.inj ht'], (Option.some.inj hj').symm⟩
      · exact .inl ⟨i, by omega, t', d', ht', hid, hj', hd', hle'⟩
  · rw [List.map_append, List.map_singleton, ← List.concat_eq_append]
    exact h.tracks_once.concat hfresh
  · rw [List.map_append, List.map_singleton, ← List.concat_eq_append]
    exact h.detections_once.concat hunused
  · intro t' ht'
    obtain ⟨b, hb, rfl⟩ := List.mem_map.mp ht'
    obtain ⟨t₀, ht₀, hcase⟩ := h.origin b hb
    refine ⟨t₀, ht₀, ?_⟩
    have hid : b.id = t₀.id := by
      rcases hcase with ⟨-, rfl⟩ | ⟨j', d', -, -, rfl⟩
      · rfl
      · rfl
    by_cases hbt : b.id = t.id
    · rcases hcase with ⟨-, rfl⟩ | ⟨j', d', hmem, -⟩
      · refine .inr ⟨j, d, by simp [hbt], hd, ?_⟩
        rw [if_pos hbt, hbt]
      · exact absurd (List.mem_map_of_mem (f := (·.1)) hmem) (by rw [← hid, hbt]; exact hfresh)
    · rw [if_neg hbt]
      rcases hcase with ⟨hnot, rfl⟩ | ⟨j', d', hmem, hd', rfl⟩
      · exact .inl ⟨by simpa using ⟨by simpa using hnot, hbt⟩, rfl⟩
      · exact .inr ⟨j', d', by simp [hmem], hd', rfl⟩

theorem Applied.row (h : Applied fl threshold matchedAt rows detections tracks a k acc)
    (hids : (rows.map Track.id).Nodup) (hmem : ∀ t ∈ rows, t.id ∈ tracks.keys)
    (ha : IsAssignment rows.length detections.length a) {assign : Option ℕ}
    (hk : a[k]? = some assign) :
    ∃ acc', matchRow fl threshold matchedAt (rows.map Track.id) detections
        (costMatrix fl rows detections) acc (assign, k) = some acc' ∧
      Applied fl threshold matchedAt rows detections tracks a (k + 1) acc' := by
  have hgiven : given a k = assign := by rw [given, hk, Option.join_some]
  cases assign with
  | none =>
    exact ⟨acc, rfl, h.skip fun t j d _ hj => by rw [hgiven] at hj; cases hj⟩
  | some j =>
    have hklt : k < rows.length := by
      rw [← ha.length_eq]
      exact (List.getElem?_eq_some_iff.mp hk).1
    have hjlt : j < detections.length := ha.column_lt k j hgiven
    have ht : rows[k]? = some rows[k] := List.getElem?_eq_getElem hklt
    have hd : detections[j]? = some detections[j] := List.getElem?_eq_getElem hjlt
    -- the matches before have only updated tracks, so that this one is still there
    have hcontains : acc.tracks.contains rows[k].id = true := by
      rw [Keyed.contains_eq_true, h.keys]
      exact hmem _ (List.getElem_mem hklt)
    have hrow : matchRow fl threshold matchedAt (rows.map Track.id) detections
        (costMatrix fl rows detections) acc (some j, k) =
        if threshold ≤ similarity fl rows[k] detections[j] then
          some ⟨acc.tracks.modify rows[k].id
            (.updateWithDetection detections[j] (matchedAt rows[k].id))
            (Track.updateWithDetection_id _ _), acc.matched ++ [(rows[k].id, j)]⟩
        else some acc := by
      simp only [matchRow, costMatrix_row ht, List.getElem?_map, ht, hd, Option.map_some,
        Option.bind_eq_bind, Option.bind_some, hcontains, if_true, similarity]
      rfl
    rw [hrow]
    by_cases hle : threshold ≤ similarity fl rows[k] detections[j]
    · rw [if_pos hle]
      exact ⟨_, rfl, h.accept hids ha ht hgiven hd hle⟩
    · rw [if_neg hle]
      refine ⟨acc, rfl, h.skip fun t j' d ht' hj' hd' => ?_⟩
      rw [hgiven] at hj'
      obtain rfl := Option.some.inj hj'
      rw [ht] at ht'
      rw [hd] at hd'
      rwa [← Option.some.inj ht', ← Option.some.inj hd']

theorem matching_applied (hids : (rows.map Track.id).Nodup) (hmem : ∀ t ∈ rows, t.id ∈ tracks.keys)
    (ha : IsAssignment rows.length detections.length a) :
    ∃ acc, a.zipIdx.foldlM (matchRow fl threshold matchedAt (rows.map Track.id) detections
        (costMatrix fl rows detections)) ⟨tracks, []⟩ = some acc ∧
      Applied fl threshold matchedAt rows detections tracks a rows.length acc := by
  have hloop : ∀ k ≤ a.length, ∃ acc, (a.zipIdx.take k).foldlM (matchRow fl threshold matchedAt
      (rows.map Track.id) detections (costMatrix fl rows detections)) ⟨tracks, []⟩ = some acc ∧
      Applied fl threshold matchedAt rows detections tracks a k acc := by
    intro k hk
    induction k with
    | zero => exact ⟨_, rfl, applied_nil⟩
    | succ k ih =>
      obtain ⟨acc, hacc, happlied⟩ := ih (by omega)
      obtain ⟨acc', hacc', happlied'⟩ := happlied.row hids hmem ha
        (List.getElem?_eq_getElem (Nat.lt_of_succ_le hk))
      refine ⟨acc', ?_, happlied'⟩
      have hlen : k < a.zipIdx.length := by
        rw [List.length_zipIdx]
        exact hk
      rw [List.take_succ_eq_append_getElem hlen, List.foldlM_append, hacc]
      simpa [List.getElem_zipIdx] using hacc'
  obtain ⟨acc, hacc, happlied⟩ := hloop a.length (le_refl _)
  rw [List.take_of_length_le (by rw [List.length_zipIdx])] at hacc
  rw [ha.length_eq] at happlied
  exact ⟨acc, hacc, happlied⟩

theorem ageUnmatched_entries {ids matched : List TargetId} (hids : ids.Nodup) :
    (MultiTargetTracker.ageUnmatched ids matched tracks).entries =
      tracks.entries.map fun t =>
        if t.id ∈ ids ∧ t.id ∉ matched then t.predictOnly else t := by
  have hloop : MultiTargetTracker.ageUnmatched ids matched tracks =
      (ids.filter fun tid => decide (tid ∉ matched)).foldl
        (fun tracks tid => tracks.modify tid .predictOnly Track.predictOnly_id) tracks := by
    rw [List.foldl_filter]
    unfold MultiTargetTracker.ageUnmatched
    congr 1
    funext tracks tid
    by_cases htid : tid ∈ matched
    · simp [htid]
    · simp [htid]
  rw [hloop, Keyed.foldl_modify (f := fun _ => Track.predictOnly) (hids.filter _)]
  simp

end

end AutoTargeting.Tracker
