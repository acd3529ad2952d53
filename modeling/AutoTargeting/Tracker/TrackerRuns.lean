import AutoTargeting.Library.Machine
import AutoTargeting.Tracker.Matching

namespace AutoTargeting.Tracker

open Runs
open Yolo (Detection)

/-- The ids that `k` calls of `create_track` issue. -/
def idsFrom (n k : ℕ) : List TargetId := (List.range k).map fun i => (n + i) % 2 ^ 64

theorem idsFrom_append (n k l : ℕ) :
    idsFrom n k ++ idsFrom ((n + k) % 2 ^ 64) l = idsFrom n (k + l) := by
  unfold idsFrom
  rw [List.range_add, List.map_append, List.map_map]
  congr 1
  apply List.map_congr_left
  intro i _
  simp only [Function.comp_apply, Nat.mod_add_mod, Nat.add_assoc]

theorem idsFrom_one {n : ℕ} (hn : n < 2 ^ 64) : idsFrom n 1 = [n] := by
  rw [idsFrom, List.range_one, List.map_singleton, Nat.add_zero, Nat.mod_eq_of_lt hn]

/-- Up to `2 ^ 64` ids in a row are distinct. -/
theorem notMem_idsFrom {n k : ℕ} (hk : k < 2 ^ 64) : (n + k) % 2 ^ 64 ∉ idsFrom n k := by
  intro hmem
  obtain ⟨i, hi, heq⟩ := List.mem_map.mp hmem
  rw [List.mem_range] at hi
  have hmod : (n + i) % 2 ^ 64 = (n + k) % 2 ^ 64 := heq
  omega

theorem length_idsFrom (n k : ℕ) : (idsFrom n k).length = k := by simp [idsFrom]

/-- Before the counter wraps around, each id is greater than all before it. -/
theorem idsFrom_increasing {k : ℕ} (hk : k < 2 ^ 64) : (idsFrom 1 k).Pairwise (· < ·) := by
  have heq : idsFrom 1 k = (List.range k).map (1 + ·) := by
    apply List.map_congr_left
    intro i hi
    rw [List.mem_range] at hi
    exact Nat.mod_eq_of_lt (by omega)
  rw [heq, List.pairwise_map]
  exact List.pairwise_lt_range.imp fun hij => Nat.add_lt_add_left hij 1

section
variable {fl : ℚ → ℚ} {s s' : MultiTargetTracker} {createdAt : ℕ → ℤ}
  {matched : List (TargetId × ℕ)} {detections : List Detection} {k : ℕ}
  {acc : MultiTargetTracker × Report}

/-- What a loop that creates tracks has done after `k` detections. -/
structure Created (s : MultiTargetTracker) (createdAt : ℕ → ℤ) (matched : List (TargetId × ℕ))
    (detections : List Detection) (k : ℕ) (acc : MultiTargetTracker × Report) : Prop where
  settings : acc.1 = { s with tracks := acc.1.tracks, nextId := acc.1.nextId }
  matched_eq : acc.2.matched = matched
  size_le : acc.1.tracks.size ≤ max s.maxTracks s.tracks.size
  ids : acc.2.created.map (·.2) = idsFrom s.nextId acc.2.created.length
  nextId : acc.1.nextId = (s.nextId + acc.2.created.length) % 2 ^ 64
  accounted : ∀ j < k, j ∈ matched.map (·.2) ∨ j ∈ acc.2.created.map (·.1) ∨
    ∃ count, (j, count) ∈ acc.2.rejected ∧ s.maxTracks ≤ count
  origin : ∀ t ∈ acc.1.tracks.entries, t ∈ s.tracks.entries ∨
    ∃ j d, (j, t.id) ∈ acc.2.created ∧ detections[j]? = some d ∧ t = .new t.id d (createdAt j)
  kept : acc.2.created.length ≤ 2 ^ 64 → ∀ p ∈ acc.2.created,
    ∃ d, detections[p.1]? = some d ∧ .new p.2 d (createdAt p.1) ∈ acc.1.tracks.entries

theorem created_nil (hid : s.nextId < 2 ^ 64) :
    Created s createdAt matched detections 0 (s, ⟨matched, [], []⟩) where
  settings := rfl
  matched_eq := rfl
  size_le := le_max_right _ _
  ids := rfl
  nextId := (Nat.mod_eq_of_lt hid).symm
  accounted j hj := absurd hj (Nat.not_lt_zero j)
  origin _ ht := .inl ht
  kept _ _ hp := absurd hp List.not_mem_nil

variable {t : MultiTargetTracker} {report : Report} {d : Detection}

theorem Created.maxTracks_eq (h : Created s createdAt matched detections k acc) :
    acc.1.maxTracks = s.maxTracks := by
  have heq := congrArg MultiTargetTracker.maxTracks h.settings
  exact heq

theorem Created.skip (h : Created s createdAt matched detections k acc)
    (hskip : k ∈ matched.map (·.2)) : Created s createdAt matched detections (k + 1) acc := by
  refine { h with accounted := fun j hj => ?_ }
  by_cases hjk : j = k
  · exact .inl (hjk ▸ hskip)
  · exact h.accounted j (by omega)

/-- There is no room for another track. -/
theorem Created.reject (h : Created s createdAt matched detections k (t, report))
    (hfull : t.maxTracks ≤ t.tracks.size) :
    Created s createdAt matched detections (k + 1)
      (t, { report with rejected := report.rejected ++ [(k, t.tracks.size)] }) := by
  refine { h with accounted := fun j hj => ?_ }
  by_cases hjk : j = k
  · exact .inr (.inr ⟨t.tracks.size, by simp [hjk], h.maxTracks_eq ▸ hfull⟩)
  · rcases h.accounted j (by omega) with hj | hj | ⟨count, hj, hle⟩
    · exact .inl hj
    · exact .inr (.inl hj)
    · exact .inr (.inr ⟨count, by simp [hj], hle⟩)

/-- The new id is none of those that were issued before it, so its track replaces none of theirs. -/
theorem Created.kept_create (h : Created s createdAt matched detections k (t, report))
    (hd : detections[k]? = some d) (hlen : report.created.length < 2 ^ 64) :
    ∀ p ∈ report.created ++ [(k, t.nextId)], ∃ d', detections[p.1]? = some d' ∧
      Track.new p.2 d' (createdAt p.1) ∈
        (t.tracks.insert (.new t.nextId d (createdAt k))).entries := by
  intro p hp
  rw [List.mem_append, List.mem_singleton] at hp
  rcases hp with hp | rfl
  · obtain ⟨d', hd', hmem⟩ := h.kept (Nat.le_of_lt hlen) p hp
    refine ⟨d', hd', Keyed.mem_insert.mpr (.inr ⟨hmem, fun heq => ?_⟩)⟩
    apply notMem_idsFrom (n := s.nextId) hlen
    rw [← h.ids, ← h.nextId]
    have hid : p.2 = t.nextId := heq
    exact hid ▸ List.mem_map_of_mem (f := (·.2)) hp
  · exact ⟨d, hd, Keyed.mem_insert.mpr (.inl rfl)⟩

theorem Created.create (h : Created s createdAt matched detections k (t, report))
    (hd : detections[k]? = some d) (hroom : ¬ t.maxTracks ≤ t.tracks.size) :
    Created s createdAt matched detections (k + 1)
      ((t.createTrack d (createdAt k)).1,
        { report with created := report.created ++ [(k, t.nextId)] }) := by
  have hsettings : t = { s with tracks := t.tracks, nextId := t.nextId } := h.settings
  have hmax : t.maxTracks = s.maxTracks := h.maxTracks_eq
  have hnext : t.nextId = (s.nextId + report.created.length) % 2 ^ 64 := h.nextId
  have hlt : t.nextId < 2 ^ 64 := by
    rw [hnext]
    exact Nat.mod_lt _ (by norm_num)
  constructor
  · exact congrArg (fun u : MultiTargetTracker =>
      { u with
        tracks := t.tracks.insert (.new t.nextId d (createdAt k))
        nextId := (t.nextId + 1) % 2 ^ 64 }) hsettings
  · exact h.matched_eq
  · have hsize := Keyed.size_insert_le (m := t.tracks) (a := .new t.nextId d (createdAt k))
    apply hsize.trans
    omega
  · simp only [List.map_append, List.map_singleton, List.length_append, List.length_singleton]
    rw [h.ids, ← idsFrom_append, ← hnext, idsFrom_one hlt]
  · simp only [MultiTargetTracker.createTrack, List.length_append, List.length_singleton]
    rw [hnext, Nat.mod_add_mod, Nat.add_assoc]
  · intro j hj
    by_cases hjk : j = k
    · exact .inr (.inl (by simp [hjk]))
    · rcases h.accounted j (by omega) with hj | hj | hj
      · exact .inl hj
      · refine .inr (.inl ?_)
        rw [List.map_append, List.mem_append]
        exact .inl hj
      · exact .inr (.inr hj)
  · intro u hu
    rcases Keyed.mem_insert.mp hu with rfl | ⟨hu, -⟩
    · exact .inr ⟨k, d, by simp, hd, rfl⟩
    · rcases h.origin u hu with hold | ⟨j, d', hj, hd', heq⟩
      · exact .inl hold
      · exact .inr ⟨j, d', by simp [hj], hd', heq⟩
  · intro hlen
    rw [List.length_append, List.length_singleton] at hlen
    exact h.kept_create hd (Nat.lt_of_succ_le hlen)

/-- One detection: it is matched, or rejected, or gets a track. -/
theorem Created.turn (h : Created s createdAt matched detections k acc)
    (hd : detections[k]? = some d) :
    Created s createdAt matched detections (k + 1)
      (MultiTargetTracker.createFor createdAt (matched.map (·.2)) acc (d, k)) := by
  unfold MultiTargetTracker.createFor
  dsimp only
  split
  case isTrue hskip => exact h.skip hskip
  case isFalse =>
    split
    case isTrue hfull => exact h.reject hfull
    case isFalse hroom => exact h.create hd hroom

theorem createTracks_created (hid : s.nextId < 2 ^ 64) :
    Created s createdAt matched detections detections.length
      (s.createTracks createdAt matched detections) := by
  have hloop : ∀ k ≤ detections.length, Created s createdAt matched detections k
      ((detections.zipIdx.take k).foldl
        (MultiTargetTracker.createFor createdAt (matched.map (·.2))) (s, ⟨matched, [], []⟩)) := by
    intro k hk
    induction k with
    | zero => exact created_nil hid
    | succ k ih =>
      have hlen : k < detections.zipIdx.length := by
        rw [List.length_zipIdx]
        exact hk
      have hturn := (ih (by omega)).turn (List.getElem?_eq_getElem (Nat.lt_of_succ_le hk))
      rw [List.take_succ_eq_append_getElem hlen, List.foldl_append]
      simpa [List.getElem_zipIdx] using hturn
  have hall := hloop detections.length (le_refl _)
  rwa [List.take_of_length_le (by rw [List.length_zipIdx])] at hall

/-- What one `update` does to the tracker, and with the detections. -/
structure UpdateLaw (s : MultiTargetTracker) (detections : List Detection) (env : Env)
    (s' : MultiTargetTracker) (report : Report) : Prop where
  tracks_once : (report.matched.map (·.1)).Nodup
  detections_once : (report.matched.map (·.2)).Nodup
  origin : ∀ t' ∈ s'.tracks.entries,
    (∃ t ∈ s.tracks.entries, t.id ∉ report.matched.map (·.1) ∧ t' = t.predictOnly) ∨
    (∃ t ∈ s.tracks.entries, ∃ j d, (t.id, j) ∈ report.matched ∧ detections[j]? = some d ∧
      t' = t.updateWithDetection d (env.matchedAt t.id)) ∨
    ∃ j d, (j, t'.id) ∈ report.created ∧ detections[j]? = some d ∧
      t' = .new t'.id d (env.createdAt j)
  created_kept : report.created.length ≤ 2 ^ 64 → ∀ p ∈ report.created,
    ∃ d, detections[p.1]? = some d ∧
      (.new p.2 d (env.createdAt p.1) ∈ s'.tracks.entries ∨
        s.maxTargetAgeMs < (Track.new p.2 d (env.createdAt p.1)).ageMs (env.checkedAt p.2))
  accounted : s.autoCreateTracks = true → ∀ j < detections.length,
    j ∈ report.matched.map (·.2) ∨ j ∈ report.created.map (·.1) ∨
    ∃ count, (j, count) ∈ report.rejected ∧ s.maxTracks ≤ count
  size_le : s'.tracks.size ≤ max s.maxTracks s.tracks.size
  missed_le : ∀ t ∈ s'.tracks.entries, t.missedFrames ≤ s.maxMissedFrames
  ids : report.created.map (·.2) = idsFrom s.nextId report.created.length
  nextId : s'.nextId = (s.nextId + report.created.length) % 2 ^ 64

theorem mem_removeLostTracks {checkedAt : TargetId → ℤ} {t : Track}
    (ht : t ∈ (s.removeLostTracks checkedAt).tracks.entries) :
    t ∈ s.tracks.entries ∧ t.missedFrames ≤ s.maxMissedFrames := by
  obtain ⟨hmem, hkeep⟩ := List.mem_filter.mp ht
  refine ⟨hmem, ?_⟩
  by_contra hmissed
  simp [not_le.mp hmissed] at hkeep

/-- A track without a miss goes only when it is too old. -/
theorem removeLostTracks_keeps {checkedAt : TargetId → ℤ} {t : Track} (ht : t ∈ s.tracks.entries)
    (hseen : t.missedFrames = 0) :
    t ∈ (s.removeLostTracks checkedAt).tracks.entries ∨
      s.maxTargetAgeMs < t.ageMs (checkedAt t.id) := by
  by_cases hold : s.maxTargetAgeMs < t.ageMs (checkedAt t.id)
  · exact .inr hold
  · apply Or.inl
    apply List.mem_filter.mpr
    exact ⟨ht, by simp [hseen, hold]⟩

theorem size_removeLostTracks_le {checkedAt : TargetId → ℤ} :
    (s.removeLostTracks checkedAt).tracks.size ≤ s.tracks.size := Keyed.size_retain_le _ _

/-- A track that an update only moved: it is one of `tracks`, aged or matched. -/
def Carried (tracks : Tracks) (matched : List (TargetId × ℕ)) (detections : List Detection)
    (matchedAt : TargetId → ℤ) (t' : Track) : Prop :=
  (∃ t ∈ tracks.entries, t.id ∉ matched.map (·.1) ∧ t' = t.predictOnly) ∨
    ∃ t ∈ tracks.entries, ∃ j d, (t.id, j) ∈ matched ∧ detections[j]? = some d ∧
      t' = t.updateWithDetection d (matchedAt t.id)

/-- The law of one `update`, from what the loops have done that match, age and create tracks; of
the tracks some may be removed. -/
theorem updateLaw_of_created {env : Env} {tracks : Tracks} (hsize : tracks.size = s.tracks.size)
    (htracks : (matched.map (·.1)).Nodup) (hdetections : (matched.map (·.2)).Nodup)
    (horigin : ∀ t ∈ tracks.entries, Carried s.tracks matched detections env.matchedAt t)
    (hcreated : Created { s with tracks } env.createdAt matched detections k acc)
    (hall : s.autoCreateTracks = true → k = detections.length)
    (hkept : ∀ t ∈ s'.tracks.entries, t ∈ acc.1.tracks.entries ∧ t.missedFrames ≤ s.maxMissedFrames)
    (hseen : ∀ t ∈ acc.1.tracks.entries, t.missedFrames = 0 →
      t ∈ s'.tracks.entries ∨ s.maxTargetAgeMs < t.ageMs (env.checkedAt t.id))
    (hfewer : s'.tracks.size ≤ acc.1.tracks.size) (hnext : s'.nextId = acc.1.nextId) :
    UpdateLaw s detections env s' acc.2 where
  tracks_once := hcreated.matched_eq ▸ htracks
  detections_once := hcreated.matched_eq ▸ hdetections
  origin t' ht' := by
    rw [hcreated.matched_eq]
    rcases hcreated.origin t' (hkept t' ht').1 with hold | hnew
    · rcases horigin t' hold with haged | hmatched
      · exact .inl haged
      · exact .inr (.inl hmatched)
    · exact .inr (.inr hnew)
  created_kept hlen p hp := by
    obtain ⟨d, hd, hmem⟩ := hcreated.kept hlen p hp
    exact ⟨d, hd, hseen _ hmem rfl⟩
  accounted hauto j hj := by
    rw [hcreated.matched_eq]
    exact hcreated.accounted j (hall hauto ▸ hj)
  size_le := by
    have hle := hcreated.size_le
    rw [hsize] at hle
    exact hfewer.trans hle
  missed_le t ht := (hkept t ht).2
  ids := hcreated.ids
  nextId := hnext.trans hcreated.nextId

theorem kept_of_removeLostTracks {t : Track} {checkedAt : TargetId → ℤ}
    (hsettings : s' = { s with tracks := s'.tracks, nextId := s'.nextId })
    (ht : t ∈ (s'.removeLostTracks checkedAt).tracks.entries) :
    t ∈ s'.tracks.entries ∧ t.missedFrames ≤ s.maxMissedFrames := by
  have hmax := congrArg MultiTargetTracker.maxMissedFrames hsettings
  have hkept := mem_removeLostTracks ht
  exact ⟨hkept.1, hmax ▸ hkept.2⟩

theorem seen_of_removeLostTracks {t : Track} {checkedAt : TargetId → ℤ}
    (hsettings : s' = { s with tracks := s'.tracks, nextId := s'.nextId })
    (ht : t ∈ s'.tracks.entries) (hseen : t.missedFrames = 0) :
    t ∈ (s'.removeLostTracks checkedAt).tracks.entries ∨
      s.maxTargetAgeMs < t.ageMs (checkedAt t.id) := by
  have hmax := congrArg MultiTargetTracker.maxTargetAgeMs hsettings
  exact hmax ▸ removeLostTracks_keeps ht hseen

/-- The first path: there are no tracks. -/
theorem updateLaw_bootstrap (hid : s.nextId < 2 ^ 64) (hempty : s.tracks.entries = []) (env : Env) :
    UpdateLaw s detections env (s.createTracks env.createdAt [] detections).1
      (s.createTracks env.createdAt [] detections).2 := by
  have hcreated : Created s env.createdAt [] detections detections.length
      (s.createTracks env.createdAt [] detections) := createTracks_created hid
  refine updateLaw_of_created rfl (by simp) (by simp) ?_ hcreated (fun _ => rfl) ?_
    (fun _ ht _ => .inl ht) (le_refl _) rfl
  · intro t ht
    rw [hempty] at ht
    cases ht
  · intro t ht
    refine ⟨ht, ?_⟩
    rcases hcreated.origin t ht with hold | ⟨j, d, -, -, heq⟩
    · rw [hempty] at hold
      cases hold
    · rw [heq]
      exact Nat.zero_le _

/-- The second path: there are no detections. -/
theorem updateLaw_noDetections (hid : s.nextId < 2 ^ 64) (env : Env) :
    UpdateLaw s [] env
      ({ s with tracks := s.tracks.mapValues .predictOnly Track.predictOnly_id }.removeLostTracks
        env.checkedAt) ⟨[], [], []⟩ := by
  let aged := { s with tracks := s.tracks.mapValues .predictOnly Track.predictOnly_id }
  have hcreated : Created aged env.createdAt [] [] 0 (aged, ⟨[], [], []⟩) := created_nil hid
  have hsettings : aged = { s with tracks := aged.tracks, nextId := aged.nextId } := rfl
  refine updateLaw_of_created Keyed.size_mapValues (by simp) (by simp) ?_ hcreated (fun _ => rfl) ?_
    (fun _ ht hseen => seen_of_removeLostTracks hsettings ht hseen) size_removeLostTracks_le rfl
  · intro t' ht'
    obtain ⟨t, ht, rfl⟩ := List.mem_map.mp ht'
    exact .inl ⟨t, ht, by simp, rfl⟩
  · intro t ht
    exact kept_of_removeLostTracks hsettings ht

/-- The tracks that the ageing loop leaves after the matches. -/
theorem aged_origin {rows : List Track} {matchedAt : TargetId → ℤ} {a : List (Option ℕ)}
    {threshold : ℚ} {acc : Matching} {tracks : Tracks} (hrows : rows.Perm tracks.entries)
    (happlied : Applied fl threshold matchedAt rows detections tracks a k acc) :
    ∀ t ∈ (MultiTargetTracker.ageUnmatched (rows.map Track.id) (acc.matched.map (·.1))
        acc.tracks).entries, Carried tracks acc.matched detections matchedAt t := by
  have hids : (rows.map Track.id).Nodup := (hrows.map Track.id).nodup_iff.mpr tracks.nodup
  intro t' ht'
  rw [ageUnmatched_entries hids] at ht'
  obtain ⟨b, hb, rfl⟩ := List.mem_map.mp ht'
  obtain ⟨t, ht, ⟨hnot, rfl⟩ | ⟨j, d, hmem, hd, rfl⟩⟩ := happlied.origin b hb
  · have hid : b.id ∈ rows.map Track.id := List.mem_map_of_mem (hrows.mem_iff.mpr ht)
    rw [if_pos ⟨hid, hnot⟩]
    exact .inl ⟨b, ht, hnot, rfl⟩
  · have hmem' : t.id ∈ acc.matched.map (·.1) := List.mem_map_of_mem (f := (·.1)) hmem
    rw [if_neg (fun h => h.2 hmem')]
    exact .inr ⟨t, ht, j, d, hmem, hd, rfl⟩

theorem size_eq_of_keys {tracks tracks' : Tracks} (h : tracks'.keys = tracks.keys) :
    tracks'.size = tracks.size := by
  have hlen := congrArg List.length h
  rwa [Keyed.keys, Keyed.keys, List.length_map, List.length_map] at hlen

theorem ageUnmatched_size {ids matched : List TargetId} {tracks : Tracks} (hids : ids.Nodup) :
    (MultiTargetTracker.ageUnmatched ids matched tracks).size = tracks.size := by
  rw [Keyed.size, ageUnmatched_entries hids, List.length_map]
  rfl

/-- The third path: the loop over the rows comes to its end with the matches of an optimal
assignment. -/
theorem update_matching (fl : ℚ → ℚ) (hsome : s.tracks.entries ≠ []) (hdetections : detections ≠ []) (env : Env) :
    ∃ a acc, IsAssignment s.tracks.size detections.length a ∧
      (∀ b, IsAssignment s.tracks.size detections.length b →
        totalCost (costMatrix fl (env.order s.tracks.entries) detections) a ≤
          totalCost (costMatrix fl (env.order s.tracks.entries) detections) b) ∧
      Applied fl s.matchIouThreshold env.matchedAt (env.order s.tracks.entries) detections s.tracks
        a (env.order s.tracks.entries).length acc ∧
      s.update fl detections env =
        (let tracks := MultiTargetTracker.ageUnmatched ((env.order s.tracks.entries).map Track.id)
          (acc.matched.map (·.1)) acc.tracks
        let aged := { s with tracks }
        let r := if s.autoCreateTracks then aged.createTracks env.createdAt acc.matched detections
          else (aged, ⟨acc.matched, [], []⟩)
        some (r.1.removeLostTracks env.checkedAt, r.2)) := by
  have hrows := env.perm s.tracks.entries
  have hcosts : costMatrix fl (env.order s.tracks.entries) detections ≠ [] := by
    intro hnil
    have hlen := congrArg List.length hnil
    rw [costMatrix_length, hrows.length_eq] at hlen
    exact hsome (List.length_eq_zero_iff.mp hlen)
  obtain ⟨a, ha, hassign, hmin⟩ :=
    solve_least hcosts (mt List.length_eq_zero_iff.mp hdetections) costMatrix_rect
  rw [costMatrix_length] at hassign hmin
  have hids : ((env.order s.tracks.entries).map Track.id).Nodup :=
    (hrows.map Track.id).nodup_iff.mpr s.tracks.nodup
  have hmem : ∀ t ∈ env.order s.tracks.entries, t.id ∈ s.tracks.keys := fun t ht =>
    List.mem_map_of_mem (hrows.mem_iff.mp ht)
  obtain ⟨acc, hacc, happlied⟩ := matching_applied hids hmem hassign
  have hsize : (env.order s.tracks.entries).length = s.tracks.size := hrows.length_eq
  refine ⟨a, acc, hsize ▸ hassign, fun b hb => hmin b (hsize ▸ hb), happlied, ?_⟩
  simp only [MultiTargetTracker.update, if_neg hsome, if_neg hdetections, ha, hacc,
    Option.bind_eq_bind, Option.bind_some]

/-- Every `update` returns, and follows the law. -/
theorem update_law (fl : ℚ → ℚ) (hid : s.nextId < 2 ^ 64) (detections : List Detection) (env : Env) :
    ∃ s' report, s.update fl detections env = some (s', report) ∧
      UpdateLaw s detections env s' report := by
  by_cases hempty : s.tracks.entries = []
  · by_cases hauto : s.autoCreateTracks = true
    · refine ⟨_, _, ?_, updateLaw_bootstrap hid hempty env⟩
      rw [MultiTargetTracker.update, if_pos hempty, if_pos hauto]
    · refine ⟨s, ⟨[], [], []⟩, by rw [MultiTargetTracker.update, if_pos hempty, if_neg hauto], ?_⟩
      have hcreated : Created s env.createdAt [] detections 0 (s, ⟨[], [], []⟩) := created_nil hid
      refine updateLaw_of_created rfl (by simp) (by simp) ?_ hcreated (fun h => absurd h hauto) ?_
        (fun _ ht _ => .inl ht) (le_refl _) rfl
      · simp [hempty]
      · simp [hempty]
  · by_cases hdetections : detections = []
    · subst hdetections
      exact ⟨_, _, by rw [MultiTargetTracker.update, if_neg hempty, if_pos rfl],
        updateLaw_noDetections hid env⟩
    · obtain ⟨a, acc, -, -, happlied, heq⟩ := update_matching fl hempty hdetections env
      have hrows := env.perm s.tracks.entries
      have hids : ((env.order s.tracks.entries).map Track.id).Nodup :=
        (hrows.map Track.id).nodup_iff.mpr s.tracks.nodup
      -- the tracks after the matches and the ageing, before any are created or removed
      let tracks := MultiTargetTracker.ageUnmatched ((env.order s.tracks.entries).map Track.id)
        (acc.matched.map (·.1)) acc.tracks
      have hsize : tracks.size = s.tracks.size :=
        (ageUnmatched_size hids).trans (size_eq_of_keys happlied.keys)
      refine ⟨_, _, heq, ?_⟩
      split
      case isTrue hauto =>
        have hcreated : Created { s with tracks } env.createdAt acc.matched detections
            detections.length
            ({ s with tracks }.createTracks env.createdAt acc.matched detections) :=
          createTracks_created hid
        exact updateLaw_of_created hsize happlied.tracks_once happlied.detections_once
          (aged_origin hrows happlied) hcreated (fun _ => rfl)
          (fun t ht => kept_of_removeLostTracks (s := s) hcreated.settings ht)
          (fun t ht hseen => seen_of_removeLostTracks (s := s) hcreated.settings ht hseen)
          size_removeLostTracks_le rfl
      case isFalse hauto =>
        exact updateLaw_of_created hsize happlied.tracks_once happlied.detections_once
          (aged_origin hrows happlied) (created_nil hid) (fun h => absurd h hauto)
          (fun t ht => kept_of_removeLostTracks (s := s) rfl ht)
          (fun t ht hseen => seen_of_removeLostTracks (s := s) rfl ht hseen)
          size_removeLostTracks_le rfl

end

end AutoTargeting.Tracker
