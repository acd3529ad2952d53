import AutoTargeting.Tracker.TrackerRuns

namespace AutoTargeting.Tracker

open Runs
open Yolo (Detection)

inductive Call
  | createTrack (detection : Detection) (now : ℤ)
  | update (detections : List Detection) (env : Env)
  | removeTrack (id : TargetId)
  | clear

namespace Call

def step (fl : ℚ → ℚ) (s : MultiTargetTracker) : Call → Option MultiTargetTracker
  | createTrack detection now => some (s.createTrack detection now).1
  | update detections env => (s.update fl detections env).map (·.1)
  | removeTrack id => some (s.removeTrack id)
  | clear => some s.clear

def newIds (fl : ℚ → ℚ) (s : MultiTargetTracker) : Call → List TargetId
  | createTrack detection now => [(s.createTrack detection now).2]
  | update detections env =>
    ((s.update fl detections env).map fun r => r.2.created.map (·.2)).getD []
  | removeTrack _ | clear => []

def machine (fl : ℚ → ℚ) : Machine MultiTargetTracker Call where
  Init s := ∃ maxTargetAgeMs maxMissedFrames matchIouThreshold autoCreate maxTracks,
    s = .new maxTargetAgeMs maxMissedFrames matchIouThreshold autoCreate maxTracks
  step := step fl

end Call

/-- Any calls of a new tracker, with the ids issued so far, oldest first. -/
def issuing (fl : ℚ → ℚ) : Machine (Observed MultiTargetTracker (List TargetId)) Call :=
  (Call.machine fl).observed [] fun s call ids => ids ++ call.newIds fl s

section
variable {fl : ℚ → ℚ} {s s' : MultiTargetTracker} {t : Observed MultiTargetTracker (List TargetId)}
  {call : Call}

/-- The ids issued so far are the numbers from 1, modulo `2 ^ 64`, and the tracks have some of
them. -/
structure Issued (t : Observed MultiTargetTracker (List TargetId)) : Prop where
  ids : t.view = idsFrom 1 t.view.length
  nextId : t.state.nextId = (1 + t.view.length) % 2 ^ 64
  mem : ∀ u ∈ t.state.tracks.entries, u.id ∈ t.view

theorem Issued.lt (h : Issued t) : t.state.nextId < 2 ^ 64 := by
  rw [h.nextId]
  exact Nat.mod_lt _ (by norm_num)

theorem Issued.more (h : Issued t) (k : ℕ) (hnext : s'.nextId = (t.state.nextId + k) % 2 ^ 64)
    (hmem : ∀ u ∈ s'.tracks.entries, u.id ∈ t.view ++ idsFrom t.state.nextId k) :
    Issued ⟨s', t.view ++ idsFrom t.state.nextId k⟩ where
  ids := by
    rw [List.length_append, length_idsFrom, ← idsFrom_append, ← h.nextId, ← h.ids]
  nextId := by
    rw [hnext, h.nextId, Nat.mod_add_mod, List.length_append, length_idsFrom, Nat.add_assoc]
  mem := hmem

theorem Issued.step (h : Issued t) {t' : Observed MultiTargetTracker (List TargetId)}
    (hstep : (issuing fl).step t call = some t') : Issued t' := by
  obtain ⟨s', hs', rfl⟩ := Machine.observed_step hstep
  cases call with
  | createTrack detection now =>
    obtain rfl := Option.some.inj hs'
    have hone : Call.newIds fl t.state (.createTrack detection now) = idsFrom t.state.nextId 1 :=
      (idsFrom_one h.lt).symm
    rw [hone]
    apply h.more 1 rfl
    intro u hu
    rcases Keyed.mem_insert.mp hu with rfl | ⟨hu, -⟩
    · rw [idsFrom_one h.lt]
      simp
    · exact List.mem_append_left _ (h.mem u hu)
  | update detections env =>
    obtain ⟨s₁, report, heq, hlaw⟩ := update_law fl h.lt detections env
    have hnew : Call.newIds fl t.state (.update detections env) =
        idsFrom t.state.nextId report.created.length := by
      rw [← hlaw.ids, Call.newIds, heq]
      rfl
    have hs₁ : s₁ = s' := by
      have hmap : (t.state.update fl detections env).map (·.1) = some s' := hs'
      rw [heq] at hmap
      exact Option.some.inj hmap
    subst hs₁
    rw [hnew]
    apply h.more report.created.length hlaw.nextId
    intro u hu
    -- aged, matched or new
    rcases hlaw.origin u hu with ⟨v, hv, -, rfl⟩ | ⟨v, hv, j, d, -, -, rfl⟩ | ⟨j, d, hj, -⟩
    · exact List.mem_append_left _ (h.mem v hv)
    · exact List.mem_append_left _ (h.mem v hv)
    · apply List.mem_append_right
      rw [← hlaw.ids]
      exact List.mem_map_of_mem (f := (·.2)) hj
  | removeTrack id =>
    obtain rfl := Option.some.inj hs'
    rw [show Call.newIds fl t.state (.removeTrack id) = [] from rfl, List.append_nil]
    exact ⟨h.ids, h.nextId, fun u hu => h.mem u (List.mem_filter.mp hu).1⟩
  | clear =>
    obtain rfl := Option.some.inj hs'
    rw [show Call.newIds fl t.state .clear = [] from rfl, List.append_nil]
    exact ⟨h.ids, h.nextId, fun u hu => by cases hu⟩

theorem issued_reachable (h : (issuing fl).Reachable t) : Issued t := by
  apply h.invariant
  · rintro ⟨s, ids⟩ ⟨⟨maxTargetAgeMs, maxMissedFrames, threshold, autoCreate, maxTracks, rfl⟩, rfl⟩
    exact ⟨rfl, rfl, by simp [MultiTargetTracker.new, Keyed.empty]⟩
  · exact fun t call t' _ hi _ hs => hi.step hs

/-- In every state that calls lead to: the tracks have distinct ids, and only ids that were issued;
while fewer than `2 ^ 64` ids have been issued, each is greater than all before it. Every call
returns, and every `update` follows the law. -/
theorem tracker_law (h : (issuing fl).Reachable t) :
    t.state.tracks.keys.Nodup ∧ (∀ u ∈ t.state.tracks.entries, u.id ∈ t.view) ∧
    (t.view.length < 2 ^ 64 → t.view.Pairwise (· < ·)) ∧
    (∀ call, ∃ t', (issuing fl).step t call = some t') ∧
    ∀ detections env, ∃ s' report, t.state.update fl detections env = some (s', report) ∧
      UpdateLaw t.state detections env s' report := by
  have hissued := issued_reachable h
  refine ⟨t.state.tracks.nodup, hissued.mem, fun hlt => ?_, fun call => ?_, fun detections env =>
    update_law fl hissued.lt detections env⟩
  · rw [hissued.ids]
    exact idsFrom_increasing hlt
  · have hreturns : ∃ s', call.step fl t.state = some s' := by
      cases call with
      | update detections env =>
        obtain ⟨s', report, heq, -⟩ := update_law fl hissued.lt detections env
        exact ⟨s', by rw [Call.step, heq, Option.map_some]⟩
      | createTrack detection now => exact ⟨_, rfl⟩
      | removeTrack id => exact ⟨_, rfl⟩
      | clear => exact ⟨_, rfl⟩
    obtain ⟨s', hs'⟩ := hreturns
    exact ⟨_, Option.map_eq_some_iff.mpr ⟨s', hs', rfl⟩⟩

end

/-- A detection of 10 pixels by 10. -/
def smallDetection (x : ℕ) : Detection := ⟨⟨x, 0, 10, 10⟩, "person", 0, 9 / 10, 0, 0⟩

/-- A map that iterates in the order of insertion, and a clock that stands. -/
def plainEnv : Env := ⟨id, fun _ => .rfl, fun _ => 0, fun _ => 0, fun _ => 0⟩

theorem tracker_law_after_two : ∃ t, (issuing id).Reachable t ∧ t.view = [1, 2] ∧
    t.state.tracks.keys.Nodup ∧ t.view.Pairwise (· < ·) := by
  have h0 : (issuing id).Reachable ⟨.new 2000 60 (3 / 10) true 64, []⟩ :=
    .init ⟨⟨_, _, _, _, _, rfl⟩, rfl⟩
  have h2 := (h0.step (e := .createTrack (smallDetection 0) 0) trivial rfl).step
    (e := .createTrack (smallDetection 50) 0) trivial rfl
  have hlaw := tracker_law h2
  exact ⟨_, h2, rfl, hlaw.1, hlaw.2.2.1 (by decide)⟩

/-- Calls of `create_track`, each followed by `clear`. -/
theorem creates_and_clears (k : ℕ) :
    (issuing id).Reachable ⟨{ MultiTargetTracker.new 2000 60 (3 / 10) false 64 with
      nextId := (1 + k) % 2 ^ 64 }, idsFrom 1 k⟩ := by
  induction k with
  | zero => exact .init ⟨⟨_, _, _, _, _, rfl⟩, rfl⟩
  | succ k ih =>
    have hstep := (ih.step (e := .createTrack (smallDetection 0) 0) trivial rfl).step
      (e := .clear) trivial rfl
    have hid : (1 + (k + 1)) % 2 ^ 64 = ((1 + k) % 2 ^ 64 + 1) % 2 ^ 64 := by
      rw [Nat.mod_add_mod, Nat.add_assoc]
    have hids : idsFrom 1 (k + 1) = idsFrom 1 k ++ [(1 + k) % 2 ^ 64] ++ [] := by
      rw [← idsFrom_append, idsFrom_one (Nat.mod_lt _ (by norm_num)), List.append_nil]
    rw [hid, hids]
    exact hstep

theorem idsFrom_not_nodup {k : ℕ} (hk : 2 ^ 64 < k) : ¬ (idsFrom 1 k).Nodup := by
  intro hnodup
  have hsame := List.inj_on_of_nodup_map hnodup (List.mem_range.mpr (show 0 < k by omega))
    (List.mem_range.mpr hk) (by norm_num)
  norm_num at hsame

/-- Ids come back when the counter has wrapped around. -/
theorem ids_come_back : ∃ t, (issuing id).Reachable t ∧ ¬ t.view.Nodup :=
  ⟨_, creates_and_clears (2 ^ 64 + 1), idsFrom_not_nodup (Nat.lt_succ_self _)⟩

end AutoTargeting.Tracker
