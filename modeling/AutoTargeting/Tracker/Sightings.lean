import AutoTargeting.Library.Streaks
import AutoTargeting.Tracker.TrackIds

namespace AutoTargeting.Tracker

open Runs
open Yolo (Detection)

/-- One entry for the creation of a track and for each update since, oldest first: the detection
that the track was created from or matched to, and `none` for a miss. -/
abbrev Sightings := List (Option Detection)

namespace Sightings

def matches? (h : Sightings) : List Bool := h.map Option.isSome

def last? (h : Sightings) : Option Detection := (h.filterMap id).getLast?

variable {h : Sightings} {d : Detection}

@[simp] theorem matches_some : matches? (h ++ [some d]) = matches? h ++ [true] := by
  simp [matches?]

@[simp] theorem matches_none : matches? (h ++ [none]) = matches? h ++ [false] := by
  simp [matches?]

@[simp] theorem last_some : last? (h ++ [some d]) = some d := by simp [last?]

@[simp] theorem last_none : last? (h ++ [none]) = last? h := by simp [last?]

end Sightings

namespace Report

/-- The place of the detection that the track with this id was created from. -/
def createdFrom? (r : Report) (id : TargetId) : Option ℕ :=
  (r.created.reverse.find? fun p => p.2 = id).map (·.1)

def matchedTo? (r : Report) (id : TargetId) : Option ℕ :=
  (r.matched.find? fun p => p.1 = id).map (·.2)

def extend (detections : List Detection) (r : Report) (seen : TargetId → Sightings) :
    TargetId → Sightings := fun id =>
  match r.createdFrom? id with
  | some j => [detections[j]?]
  | none => seen id ++ [(r.matchedTo? id).bind (detections[·]?)]

end Report

/-- The sightings after a call. -/
def Call.see (fl : ℚ → ℚ) (s : MultiTargetTracker) (call : Call) (seen : TargetId → Sightings) :
    TargetId → Sightings :=
  match call with
  | createTrack detection _ => Function.update seen s.nextId [some detection]
  | update detections env =>
    match s.update fl detections env with
    | some (_, report) => report.extend detections seen
    | none => seen
  | removeTrack _ | clear => seen

/-- Any calls of a new tracker, with the sightings of its tracks. -/
def sighting (fl : ℚ → ℚ) : Machine (Observed MultiTargetTracker (TargetId → Sightings)) Call :=
  (Call.machine fl).observed (fun _ => []) (Call.see fl)

/-- The fields of a track are what its sightings say; the counters stop at `u32::MAX`. -/
structure Sighted (h : Sightings) (t : Track) : Prop where
  created : ∃ d rest, h = some d :: rest
  count : t.confirmationCount = min (Streaks.hits h.matches?) (2 ^ 32 - 1)
  missed : t.missedFrames = min (Streaks.misses h.matches?) (2 ^ 32 - 1)
  last : ∃ d, h.last? = some d ∧ t.confidence = d.confidence ∧ t.lastBbox = d.bbox

section
variable {fl : ℚ → ℚ} {s s' : MultiTargetTracker} {h : Sightings} {t : Track} {d : Detection}
  {detections : List Detection} {createdAt : ℕ → ℤ} {matched : List (TargetId × ℕ)}
  {acc : MultiTargetTracker × Report} {report : Report} {id : TargetId} {j : ℕ}

theorem sighted_new (id : TargetId) (d : Detection) (now : ℤ) : Sighted [some d] (.new id d now) where
  created := ⟨d, [], rfl⟩
  count := rfl
  missed := rfl
  last := ⟨d, rfl, rfl, rfl⟩

theorem Sighted.hit (hs : Sighted h t) (d : Detection) (now : ℤ) :
    Sighted (h ++ [some d]) (t.updateWithDetection d now) where
  created := by
    obtain ⟨first, rest, rfl⟩ := hs.created
    exact ⟨first, rest ++ [some d], rfl⟩
  count := by
    have hcount := hs.count
    simp only [Track.updateWithDetection, saturatingSucc, Sightings.matches_some, Streaks.hits_hit]
    omega
  missed := by simp [Track.updateWithDetection]
  last := ⟨d, Sightings.last_some, rfl, rfl⟩

theorem Sighted.miss (hs : Sighted h t) : Sighted (h ++ [none]) t.predictOnly where
  created := by
    obtain ⟨first, rest, rfl⟩ := hs.created
    exact ⟨first, rest ++ [none], rfl⟩
  count := by
    rw [Sightings.matches_none, Streaks.hits_miss]
    exact hs.count
  missed := by
    have hmissed := hs.missed
    simp only [Track.predictOnly, saturatingSucc, Sightings.matches_none, Streaks.misses_miss]
    omega
  last := by
    rw [Sightings.last_none]
    exact hs.last

/-- A loop that creates tracks leaves an old track where it has not created one with its id. -/
def Placed (s : MultiTargetTracker) (createdAt : ℕ → ℤ) (detections : List Detection)
    (acc : MultiTargetTracker × Report) : Prop :=
  ∀ t ∈ acc.1.tracks.entries,
    (acc.2.createdFrom? t.id = none ∧ t ∈ s.tracks.entries) ∨
    ∃ j d, acc.2.createdFrom? t.id = some j ∧ detections[j]? = some d ∧
      t = .new t.id d (createdAt j)

theorem Placed.turn (hp : Placed s createdAt detections acc) (hd : detections[j]? = some d)
    (skip : List ℕ) :
    Placed s createdAt detections (MultiTargetTracker.createFor createdAt skip acc (d, j)) := by
  obtain ⟨s₁, report⟩ := acc
  unfold MultiTargetTracker.createFor
  dsimp only
  split
  · exact hp
  split
  · exact hp
  intro t ht
  rcases Keyed.mem_insert.mp ht with rfl | ⟨hold, hne⟩
  · refine .inr ⟨j, d, ?_, hd, rfl⟩
    simp [Report.createdFrom?, MultiTargetTracker.createTrack]
  · -- another track: the report says nothing new of its id
    have hne : s₁.nextId ≠ t.id := fun heq => hne heq.symm
    have hsame : Report.createdFrom? { report with created := report.created ++ [(j, s₁.nextId)] }
        t.id = report.createdFrom? t.id := by
      simp [Report.createdFrom?, hne]
    simp only [MultiTargetTracker.createTrack, hsame]
    exact hp t hold

theorem createTracks_placed :
    Placed s createdAt detections (s.createTracks createdAt matched detections) := by
  have hloop : ∀ (rows : List (Detection × ℕ)) (acc : MultiTargetTracker × Report),
      (∀ row ∈ rows, detections[row.2]? = some row.1) → Placed s createdAt detections acc →
      Placed s createdAt detections
        (rows.foldl (MultiTargetTracker.createFor createdAt (matched.map (·.2))) acc) := by
    intro rows
    induction rows with
    | nil => exact fun _ _ hp => hp
    | cons row rows ih =>
      intro acc hrows hp
      exact ih _ (fun r hr => hrows r (by simp [hr])) (hp.turn (hrows row (by simp)) _)
  apply hloop
  · rintro ⟨d, j⟩ hrow
    exact List.mk_mem_zipIdx_iff_getElem?.mp hrow
  · exact fun t ht => .inl ⟨rfl, ht⟩

/-- What an update does with a track, by the lists of its report. -/
def Followed (s : MultiTargetTracker) (detections : List Detection) (env : Env) (report : Report)
    (t' : Track) : Prop :=
  (report.createdFrom? t'.id = none ∧ ∃ t ∈ s.tracks.entries, t.id = t'.id ∧
    (report.matchedTo? t.id = none ∧ t' = t.predictOnly ∨
      ∃ j d, report.matchedTo? t.id = some j ∧ detections[j]? = some d ∧
        t' = t.updateWithDetection d (env.matchedAt t.id))) ∨
  ∃ j d, report.createdFrom? t'.id = some j ∧ detections[j]? = some d ∧
    t' = .new t'.id d (env.createdAt j)

theorem matchedTo_eq_none (hnot : id ∉ report.matched.map (·.1)) : report.matchedTo? id = none := by
  rw [Report.matchedTo?, Option.map_eq_none_iff, List.find?_eq_none]
  intro p hp heq
  exact hnot (of_decide_eq_true heq ▸ List.mem_map_of_mem hp)

theorem matchedTo_eq_some (hnodup : (report.matched.map (·.1)).Nodup)
    (hmem : (id, j) ∈ report.matched) : report.matchedTo? id = some j := by
  unfold Report.matchedTo?
  cases hfind : report.matched.find? fun p => p.1 = id with
  | none =>
    have hno := List.find?_eq_none.mp hfind _ hmem
    simp at hno
  | some p =>
    have hid : p.1 = id := by simpa using List.find?_some hfind
    have hp : p = (id, j) :=
      List.inj_on_of_nodup_map hnodup (List.mem_of_find?_eq_some hfind) hmem hid
    rw [hp, Option.map_some]

theorem followed_of_placed {env : Env} {tracks : Tracks} (hmatched : acc.2.matched = matched)
    (hnodup : (matched.map (·.1)).Nodup)
    (horigin : ∀ t ∈ tracks.entries, Carried s.tracks matched detections env.matchedAt t)
    (hplaced : Placed { s with tracks } env.createdAt detections acc) :
    ∀ t ∈ acc.1.tracks.entries, Followed s detections env acc.2 t := by
  subst hmatched
  intro t' ht'
  rcases hplaced t' ht' with ⟨hnone, hold⟩ | hnew
  · refine .inl ⟨hnone, ?_⟩
    rcases horigin t' hold with ⟨t, ht, hnot, rfl⟩ | ⟨t, ht, j, d, hmem, hd, rfl⟩
    · exact ⟨t, ht, rfl, .inl ⟨matchedTo_eq_none hnot, rfl⟩⟩
    · exact ⟨t, ht, rfl, .inr ⟨j, d, matchedTo_eq_some hnodup hmem, hd, rfl⟩⟩
  · exact .inr hnew

theorem followed_of_createTracks (hid : s.nextId < 2 ^ 64) {env : Env} {tracks : Tracks}
    (hnodup : (matched.map (·.1)).Nodup)
    (horigin : ∀ t ∈ tracks.entries, Carried s.tracks matched detections env.matchedAt t) :
    ∀ t ∈ ({ s with tracks }.createTracks env.createdAt matched detections).1.tracks.entries,
      Followed s detections env ({ s with tracks }.createTracks env.createdAt matched detections).2 t := by
  have hcreated : Created { s with tracks } env.createdAt matched detections detections.length
      ({ s with tracks }.createTracks env.createdAt matched detections) := createTracks_created hid
  exact followed_of_placed hcreated.matched_eq hnodup horigin createTracks_placed

theorem placed_nil : Placed s createdAt detections (s, ⟨matched, [], []⟩) :=
  fun _ ht => .inl ⟨rfl, ht⟩

theorem Followed.kept {env : Env} {checkedAt : TargetId → ℤ}
    (hall : ∀ t ∈ s'.tracks.entries, Followed s detections env report t) :
    ∀ t ∈ (s'.removeLostTracks checkedAt).tracks.entries, Followed s detections env report t :=
  fun t ht => hall t (mem_removeLostTracks ht).1

/-- Every track after an update is one that the report accounts for. -/
theorem update_followed (hid : s.nextId < 2 ^ 64) {env : Env}
    (hupdate : s.update fl detections env = some (s', report)) :
    ∀ t ∈ s'.tracks.entries, Followed s detections env report t := by
  -- the paths of `update`: without tracks, without detections, and with both
  by_cases hempty : s.tracks.entries = []
  · have hnone : ∀ t ∈ s.tracks.entries, Carried s.tracks [] detections env.matchedAt t := by
      intro t ht
      rw [hempty] at ht
      cases ht
    rw [MultiTargetTracker.update, if_pos hempty, Option.some.injEq] at hupdate
    split at hupdate
    case isTrue =>
      have hall := followed_of_createTracks hid (by simp) hnone
      rwa [hupdate] at hall
    case isFalse =>
      cases hupdate
      exact followed_of_placed rfl (by simp) hnone placed_nil
  by_cases hdetections : detections = []
  · rw [MultiTargetTracker.update, if_neg hempty, if_pos hdetections, Option.some.injEq] at hupdate
    cases hupdate
    apply Followed.kept
    refine followed_of_placed rfl (by simp) ?_ placed_nil
    intro t' ht'
    obtain ⟨t, ht, rfl⟩ := List.mem_map.mp ht'
    exact .inl ⟨t, ht, by simp, rfl⟩
  obtain ⟨a, acc, -, -, happlied, heq⟩ := update_matching fl hempty hdetections env
  rw [hupdate, Option.some.injEq] at heq
  have horigin := aged_origin (env.perm s.tracks.entries) happlied
  split at heq
  case isTrue =>
    obtain ⟨rfl, rfl⟩ := Prod.mk.inj heq
    exact Followed.kept (followed_of_createTracks hid happlied.tracks_once horigin)
  case isFalse =>
    obtain ⟨rfl, rfl⟩ := Prod.mk.inj heq
    exact Followed.kept (followed_of_placed rfl happlied.tracks_once horigin placed_nil)

/-- The sightings of the tracks before an update, extended by its report, are those after. -/
theorem extend_sighted {env : Env} {seen : TargetId → Sightings}
    (hseen : ∀ t ∈ s.tracks.entries, Sighted (seen t.id) t)
    (hfollowed : Followed s detections env report t) :
    Sighted (report.extend detections seen t.id) t := by
  unfold Report.extend
  rcases hfollowed with ⟨hold, t₀, ht₀, hid, ⟨hmatched, rfl⟩ | ⟨j, d, hmatched, hd, rfl⟩⟩ |
    ⟨j, d, hnew, hd, heq⟩
  · rw [hold, ← hid]
    simp only [hmatched, Option.bind_none]
    exact (hseen t₀ ht₀).miss
  · rw [hold, ← hid]
    simp only [hmatched, Option.bind_some, hd]
    exact (hseen t₀ ht₀).hit d _
  · rw [hnew]
    simp only [hd]
    rw [heq]
    exact sighted_new _ _ _

/-- The tracks are what their sightings say; their ids are `u64`. -/
structure AllSighted (t : Observed MultiTargetTracker (TargetId → Sightings)) : Prop where
  nextId_lt : t.state.nextId < 2 ^ 64
  id_lt : ∀ u ∈ t.state.tracks.entries, u.id < 2 ^ 64
  sighted : ∀ u ∈ t.state.tracks.entries, Sighted (t.view u.id) u

theorem lt_of_mem_idsFrom {n k : ℕ} (hmem : id ∈ idsFrom n k) : id < 2 ^ 64 := by
  obtain ⟨i, -, rfl⟩ := List.mem_map.mp hmem
  exact Nat.mod_lt _ (by norm_num)

theorem UpdateLaw.id_lt {env : Env} (hlaw : UpdateLaw s detections env s' report)
    (hold : ∀ u ∈ s.tracks.entries, u.id < 2 ^ 64) : ∀ u ∈ s'.tracks.entries, u.id < 2 ^ 64 := by
  intro u hu
  rcases hlaw.origin u hu with ⟨v, hv, -, rfl⟩ | ⟨v, hv, j, d, -, -, rfl⟩ | ⟨j, d, hj, -⟩
  · exact hold v hv
  · exact hold v hv
  · apply lt_of_mem_idsFrom (n := s.nextId) (k := report.created.length)
    rw [← hlaw.ids]
    exact List.mem_map_of_mem (f := (·.2)) hj

theorem AllSighted.step {t t' : Observed MultiTargetTracker (TargetId → Sightings)} {call : Call}
    (ha : AllSighted t) (hstep : (sighting fl).step t call = some t') : AllSighted t' := by
  obtain ⟨s', hs', rfl⟩ := Machine.observed_step hstep
  cases call with
  | createTrack d now =>
    obtain rfl := Option.some.inj hs'
    refine ⟨Nat.mod_lt _ (by norm_num), fun u hu => ?_, fun u hu => ?_⟩
    · rcases Keyed.mem_insert.mp hu with rfl | ⟨hu, -⟩
      · exact ha.nextId_lt
      · exact ha.id_lt u hu
    rcases Keyed.mem_insert.mp hu with rfl | ⟨hu, hne⟩
    · simp only [Call.see, Track.new_id, Function.update_self]
      exact sighted_new _ _ _
    · have hne : u.id ≠ t.state.nextId := hne
      simp only [Call.see, Function.update_of_ne hne]
      exact ha.sighted u hu
  | update detections env =>
    obtain ⟨⟨s₁, report⟩, hupdate, rfl⟩ := Option.map_eq_some_iff.mp hs'
    obtain ⟨_, _, hupdate', hlaw⟩ := update_law fl ha.nextId_lt detections env
    obtain ⟨rfl, rfl⟩ := Prod.mk.inj (Option.some.inj (hupdate'.symm.trans hupdate))
    refine ⟨?_, hlaw.id_lt ha.id_lt, fun u hu => ?_⟩
    · rw [hlaw.nextId]
      exact Nat.mod_lt _ (by norm_num)
    · simp only [Call.see, hupdate]
      exact extend_sighted ha.sighted (update_followed ha.nextId_lt hupdate u hu)
  | removeTrack id =>
    obtain rfl := Option.some.inj hs'
    exact ⟨ha.nextId_lt, fun u hu => ha.id_lt u (List.mem_filter.mp hu).1,
      fun u hu => ha.sighted u (List.mem_filter.mp hu).1⟩
  | clear =>
    obtain rfl := Option.some.inj hs'
    exact ⟨ha.nextId_lt, nofun, nofun⟩

theorem allSighted {C : Observed MultiTargetTracker (TargetId → Sightings) → Call → Prop}
    {t : Observed MultiTargetTracker (TargetId → Sightings)} (h : (sighting fl).ReachableBy C t) :
    AllSighted t := by
  apply h.invariant
  · rintro ⟨s, seen⟩ ⟨⟨maxTargetAgeMs, maxMissedFrames, threshold, autoCreate, maxTracks, rfl⟩, rfl⟩
    exact ⟨by norm_num [MultiTargetTracker.new], nofun, nofun⟩
  · exact fun t call t' _ ha _ hs => ha.step hs

end

end AutoTargeting.Tracker
