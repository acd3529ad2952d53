import AutoTargeting.Tracker.TargetTracker

namespace AutoTargeting.Tracker

open Runs
open Yolo (Detection)
open Streaks

variable {fl : ℚ → ℚ}

namespace TargetTracker

/-- The confirmations of the target count its matches, up to where it is locked. -/
structure Counted (t : Observed TargetTracker Sightings) (a : ActiveTrack) : Prop where
  count : a.confirmationCount = min (hits t.view.matches?) (max t.state.lockConfirmationFrames 1)
  pos : 1 ≤ hits t.view.matches?
  earned : Earned t.state.lockConfirmationFrames t.state.lockConfirmationFrames t.view.matches?

/-- No match completes a lock without that many matches in a row. -/
def EarnsLock (fl : ℚ → ℚ) (t : Observed TargetTracker Sightings) (call : Call) : Prop :=
  (call.matched? fl t.state).isSome = true →
    ¬ Unearned t.state.lockConfirmationFrames t.state.lockConfirmationFrames t.view.matches?

instance (fl : ℚ → ℚ) (t : Observed TargetTracker Sightings) (call : Call) :
    Decidable (EarnsLock fl t call) := inferInstanceAs (Decidable (_ = true → ¬ Unearned _ _ _))

/-- In other words, with the match that completes the lock all matches of the target came in one
row: no miss cuts it off from an older one. -/
theorem earnsLock_iff {t : Observed TargetTracker Sightings} {call : Call} :
    EarnsLock fl t call ↔ ((call.matched? fl t.state).isSome = true →
      hits t.view.matches? + 1 = t.state.lockConfirmationFrames →
      streak t.view.matches? = hits t.view.matches?) := by
  have hle := streak_le_hits t.view.matches?
  unfold EarnsLock
  simp only [unearned_self_iff, not_and, not_lt]
  constructor
  · intro hearns hsome hcount
    exact Nat.le_antisymm hle (hearns hsome hcount)
  · intro hrow hsome hcount
    exact (hrow hsome hcount).ge

theorem earned_first (n : ℕ) : Earned n n [true] := by
  intro hn
  change n ≤ 1 at hn
  rcases Nat.le_one_iff_eq_zero_or_eq_one.mp hn with rfl | rfl
  · exact List.nil_infix
  · exact List.infix_rfl

theorem update_active {s : TargetTracker} {a : ActiveTrack} (hactive : s.active = some a)
    (detections : List Detection) (now : ℤ) :
    (∃ d, (Call.update detections now).matched? fl s = some d ∧ s.update fl detections now =
        { s with active := some (a.hit fl s.lockConfirmationFrames d now) }) ∨
      (Call.update detections now).matched? fl s = none ∧
        s.update fl detections now = { s with active := some (a.miss fl) } := by
  have hmatched : (Call.update detections now).matched? fl s =
      a.best fl s.matchIouThreshold detections := by
    rw [Call.matched?, hactive, Option.bind_some]
  rw [hmatched]
  simp only [update, hactive]
  cases a.best fl s.matchIouThreshold detections with
  | none => exact .inr ⟨rfl, rfl⟩
  | some d => exact .inl ⟨d, rfl, rfl⟩

section
variable {s : TargetTracker} {seen : Sightings} {a : ActiveTrack}

theorem Counted.miss (h : Counted ⟨s, seen⟩ a) :
    Counted ⟨{ s with active := some (a.miss fl) }, seen ++ [none]⟩ (a.miss fl) := by
  refine ⟨?_, ?_, ?_⟩ <;> simp only [Sightings.matches_none, hits_miss]
  · exact h.count
  · exact h.pos
  · exact h.earned.miss

/-- The count goes up with the matches, and stops where the target is locked. -/
theorem Counted.hit_count (h : Counted ⟨s, seen⟩ a) (d : Detection) (now : ℤ) :
    (a.hit fl s.lockConfirmationFrames d now).confirmationCount =
      min (hits seen.matches? + 1) (max s.lockConfirmationFrames 1) := by
  have hold : a.confirmationCount =
    min (hits seen.matches?) (max s.lockConfirmationFrames 1) := h.count
  have hpos : 1 ≤ hits seen.matches? := h.pos
  simp only [ActiveTrack.hit]
  split <;> omega

theorem Counted.hit (h : Counted ⟨s, seen⟩ a) (d : Detection) (now : ℤ)
    (hnext : ¬ Unearned s.lockConfirmationFrames s.lockConfirmationFrames seen.matches?) :
    Counted ⟨{ s with active := some (a.hit fl s.lockConfirmationFrames d now) },
      seen ++ [some d]⟩ (a.hit fl s.lockConfirmationFrames d now) := by
  refine ⟨?_, ?_, ?_⟩ <;> simp only [Sightings.matches_some, hits_hit]
  · exact h.hit_count d now
  · exact Nat.le_add_left 1 _
  · exact h.earned.hit hnext

end

theorem Counted.step {t t' : Observed TargetTracker Sightings} {call : Call}
    (hc : ∀ a, t.state.active = some a → Counted t a) (hearns : EarnsLock fl t call)
    (hstep : (sighting fl).step t call = some t') : ∀ a, t'.state.active = some a → Counted t' a := by
  obtain ⟨s', hs', rfl⟩ := Machine.observed_step hstep
  obtain rfl := Option.some.inj hs'
  intro a ha
  cases call with
  | clear => cases ha
  | acquire d id now =>
    obtain rfl := Option.some.inj ha
    exact ⟨(Nat.min_eq_left (le_max_right _ _)).symm, le_refl 1, earned_first _⟩
  | update detections now =>
    simp only [Call.step, Call.see] at ha ⊢
    cases hactive : t.state.active with
    | none =>
      -- without a target an update leaves the tracker as it is
      have hsame : t.state.update fl detections now = t.state := by rw [update, hactive]
      rw [hsame, hactive] at ha
      cases ha
    | some a₀ =>
      rcases update_active hactive detections now with ⟨d, hmatched, hnew⟩ | ⟨hmatched, hnew⟩
      · rw [hnew] at ha ⊢
        obtain rfl := Option.some.inj ha
        rw [hmatched]
        exact (hc a₀ hactive).hit d now (hearns (by rw [hmatched, Option.isSome_some]))
      · rw [hnew] at ha ⊢
        obtain rfl := Option.some.inj ha
        rw [hmatched]
        exact (hc a₀ hactive).miss

theorem counted {t : Observed TargetTracker Sightings}
    (h : (sighting fl).ReachableBy (EarnsLock fl) t) : ∀ a, t.state.active = some a → Counted t a := by
  apply h.invariant
  · rintro ⟨s, seen⟩ ⟨⟨_, _, _, _, rfl⟩, rfl⟩ a ha
    cases ha
  · exact fun t call t' _ hc hearns hs => Counted.step hc hearns hs

theorem Counted.locked {t : Observed TargetTracker Sightings}
    (hc : ∀ a, t.state.active = some a → Counted t a) (hlocked : t.state.isLocked = true) :
    InARow t.state.lockConfirmationFrames t.view.matches? := by
  unfold isLocked at hlocked
  cases hactive : t.state.active with
  | none => simp [hactive] at hlocked
  | some a =>
    have hcount := hc a hactive
    have hle : t.state.lockConfirmationFrames ≤ a.confirmationCount := by
      simpa [hactive] using hlocked
    have hmin := hcount.count
    exact hcount.earned (by omega)

/-- The first match that breaks the condition locks a target that has not earned it. -/
theorem lock_unearned {t t' : Observed TargetTracker Sightings} {call : Call}
    (h : (sighting fl).ReachableBy (EarnsLock fl) t) (hnot : ¬ EarnsLock fl t call)
    (hstep : (sighting fl).step t call = some t') :
    t'.state.isLocked = true ∧ ¬ InARow t'.state.lockConfirmationFrames t'.view.matches? := by
  obtain ⟨s', hs', rfl⟩ := Machine.observed_step hstep
  obtain rfl := Option.some.inj hs'
  obtain ⟨hsome, hnext⟩ := Classical.not_imp.mp hnot
  rw [not_not] at hnext
  cases call with
  | clear => cases hsome
  | acquire d id now => cases hsome
  | update detections now =>
    simp only [Call.step, Call.see]
    cases hactive : t.state.active with
    | none => simp [Call.matched?, hactive] at hsome
    | some a =>
      rcases update_active hactive detections now with ⟨d, hmatched, hnew⟩ | ⟨hmatched, hnew⟩
      · have hcount : (a.hit fl t.state.lockConfirmationFrames d now).confirmationCount = _ :=
          (counted h a hactive).hit_count d now
        have hlimit := hnext.1
        have hunearned := not_earned_of_unearned hnext
        rw [hnew, hmatched]
        simp only [isLocked, Option.map_some, Option.getD_some, decide_eq_true_eq,
          Sightings.matches_some]
        refine ⟨by omega, fun hrow => hunearned fun _ => hrow⟩
      · rw [hmatched] at hsome
        cases hsome

end TargetTracker

namespace MultiTargetTracker

/-- `lock_confirmation_frames`: all constructors set it to 3. -/
def lockConfirmationFrames : ℕ := 3

def isLocked (s : MultiTargetTracker) (id : TargetId) : Bool :=
  ((s.tracks.get? id).map fun t => decide (lockConfirmationFrames ≤ t.confirmationCount)).getD false

end MultiTargetTracker

/-- No match completes a lock without `required` matches in a row. -/
def EarnsLocks (fl : ℚ → ℚ) (required : ℕ) (t : Observed MultiTargetTracker (TargetId → Sightings)) :
    Call → Prop
  | .update detections env =>
    ∀ id ∈ ((t.state.update fl detections env).map fun r => r.2.matched.map (·.1)).getD [],
      ¬ Unearned MultiTargetTracker.lockConfirmationFrames required (t.view id).matches?
  | .createTrack .. | .removeTrack _ | .clear => True

instance (fl : ℚ → ℚ) (required : ℕ) (t : Observed MultiTargetTracker (TargetId → Sightings)) :
    ∀ call, Decidable (EarnsLocks fl required t call)
  | .update _ _ => inferInstanceAs (Decidable (∀ _ ∈ _, ¬ Unearned _ _ _))
  | .createTrack .. | .removeTrack _ | .clear => inferInstanceAs (Decidable True)

/-- The tracks that are locked have earned it. -/
def AllEarned (required : ℕ) (t : Observed MultiTargetTracker (TargetId → Sightings)) : Prop :=
  ∀ u ∈ t.state.tracks.entries,
    Earned MultiTargetTracker.lockConfirmationFrames required (t.view u.id).matches?

theorem earned_created (d : Detection) (required : ℕ) :
    Earned MultiTargetTracker.lockConfirmationFrames required (Sightings.matches? [some d]) := by
  intro hcount
  change 3 ≤ 1 at hcount
  omega

theorem AllEarned.step {required : ℕ} {t t' : Observed MultiTargetTracker (TargetId → Sightings)}
    {call : Call} (ha : AllSighted t) (he : AllEarned required t)
    (hearns : EarnsLocks fl required t call) (hstep : (sighting fl).step t call = some t') :
    AllEarned required t' := by
  obtain ⟨s', hs', rfl⟩ := Machine.observed_step hstep
  intro u hu
  cases call with
  | createTrack d now =>
    obtain rfl := Option.some.inj hs'
    rcases Keyed.mem_insert.mp hu with rfl | ⟨hu, hne⟩
    · simp only [Call.see, Track.new_id, Function.update_self]
      exact earned_created d required
    · have hne : u.id ≠ t.state.nextId := hne
      simp only [Call.see, Function.update_of_ne hne]
      exact he u hu
  | update detections env =>
    obtain ⟨⟨s₁, report⟩, hupdate, rfl⟩ := Option.map_eq_some_iff.mp hs'
    simp only [Call.see, hupdate, Report.extend]
    -- the track was missed, or matched, or is new
    rcases update_followed ha.nextId_lt hupdate u hu with
      ⟨hold, u₀, hu₀, hid, ⟨hmatched, -⟩ | ⟨j, d, hmatched, hd, -⟩⟩ | ⟨j, d, hnew, hd, -⟩
    · rw [hold, ← hid]
      simp only [hmatched, Option.bind_none, Sightings.matches_none]
      exact (he u₀ hu₀).miss
    · rw [hold, ← hid]
      simp only [hmatched, Option.bind_some, hd, Sightings.matches_some]
      apply (he u₀ hu₀).hit
      apply hearns
      rw [hupdate, Option.map_some, Option.getD_some]
      obtain ⟨p, hp, -⟩ := Option.map_eq_some_iff.mp hmatched
      have hpid : p.1 = u₀.id := by simpa using List.find?_some hp
      exact hpid ▸ List.mem_map_of_mem (List.mem_of_find?_eq_some hp)
    · rw [hnew]
      simp only [hd]
      exact earned_created d required
  | removeTrack id =>
    obtain rfl := Option.some.inj hs'
    exact he u (List.mem_filter.mp hu).1
  | clear =>
    obtain rfl := Option.some.inj hs'
    cases hu

theorem allEarned {required : ℕ} {t : Observed MultiTargetTracker (TargetId → Sightings)}
    (h : (sighting fl).ReachableBy (EarnsLocks fl required) t) : AllEarned required t := by
  apply h.invariant
  · rintro ⟨s, seen⟩ ⟨⟨_, _, _, _, _, rfl⟩, rfl⟩ u hu
    cases hu
  · exact fun t call t' hreach he hearns hs => he.step (allSighted hreach) hearns hs

/-- Where every match that completes a lock ends a row of matches, or follows one, each lock was
earned by matches in a row: of the single target as many as its tracker asks for, and of a track
among many any number `required`. -/
theorem locks_earned (fl : ℚ → ℚ) (required : ℕ) :
    (∀ t, (TargetTracker.sighting fl).ReachableBy (TargetTracker.EarnsLock fl) t →
      t.state.isLocked = true → InARow t.state.lockConfirmationFrames t.view.matches?) ∧
    ∀ t, (sighting fl).ReachableBy (EarnsLocks fl required) t →
      ∀ id, t.state.isLocked id = true → InARow required (t.view id).matches? := by
  refine ⟨fun t h hlocked => TargetTracker.Counted.locked (TargetTracker.counted h) hlocked,
    fun t h id hlocked => ?_⟩
  unfold MultiTargetTracker.isLocked at hlocked
  cases hget : t.state.tracks.get? id with
  | none => simp [hget] at hlocked
  | some u =>
    obtain ⟨hu, rfl⟩ := Keyed.get?_eq_some hget
    have hle : MultiTargetTracker.lockConfirmationFrames ≤ u.confirmationCount := by
      simpa [hget] using hlocked
    have hcount := ((allSighted h).sighted u hu).count
    exact allEarned h u hu (by omega)

/-- The target is matched, matched, and matched again. -/
theorem locks_earned_after_three :
    (∃ t, (TargetTracker.sighting id).ReachableBy (TargetTracker.EarnsLock id) t ∧
      t.state.isLocked = true ∧ InARow t.state.lockConfirmationFrames t.view.matches?) ∧
    ∃ t, (sighting id).ReachableBy (EarnsLocks id 3) t ∧
      t.state.isLocked 1 = true ∧ InARow 3 (t.view 1).matches? := by
  let d := smallDetection 0
  have hsingle : ((TargetTracker.sighting id).exec (TargetTracker.EarnsLock id)
      ⟨.new 2000 60 3 (3 / 10), []⟩ [.acquire d 1 0, .update [d] 0, .update [d] 0]).any
        (·.state.isLocked) = true := by
    decide +kernel
  have hmulti : ((sighting id).exec (EarnsLocks id 3) ⟨.new 2000 60 (3 / 10) false 64, fun _ => []⟩
      [.createTrack d 0, .update [d] plainEnv, .update [d] plainEnv]).any
        (·.state.isLocked 1) = true := by
    decide +kernel
  obtain ⟨t, ht, hlocked⟩ := Option.any_eq_true _ _ |>.mp hsingle
  obtain ⟨t', ht', hlocked'⟩ := Option.any_eq_true _ _ |>.mp hmulti
  have hreach : (TargetTracker.sighting id).ReachableBy (TargetTracker.EarnsLock id) t :=
    .of_exec (.init ⟨⟨_, _, _, _, rfl⟩, rfl⟩) ht
  have hreach' : (sighting id).ReachableBy (EarnsLocks id 3) t' :=
    .of_exec (.init ⟨⟨_, _, _, _, _, rfl⟩, rfl⟩) ht'
  exact ⟨⟨t, hreach, hlocked, (locks_earned id 3).1 t hreach hlocked⟩,
    t', hreach', hlocked', (locks_earned id 3).2 t' hreach' 1 hlocked'⟩

/-- The target is matched, lost and found again: both trackers count on. -/
theorem lock_across_miss :
    (∃ t, (TargetTracker.sighting id).Reachable t ∧ t.state.isLocked = true ∧
      ¬ InARow t.state.lockConfirmationFrames t.view.matches?) ∧
    ∃ t, (sighting id).Reachable t ∧ t.state.isLocked 1 = true ∧
      ¬ InARow MultiTargetTracker.lockConfirmationFrames (t.view 1).matches? := by
  let d := smallDetection 0
  have hsingle : ((TargetTracker.sighting id).exec Machine.Anything
      ⟨.new 2000 60 3 (3 / 10), []⟩
      [.acquire d 1 0, .update [d] 0, .update [] 0, .update [d] 0]).any (fun t =>
        t.state.isLocked && !decide (InARow t.state.lockConfirmationFrames t.view.matches?)) =
          true := by
    decide +kernel
  have hmulti : ((sighting id).exec Machine.Anything
      ⟨.new 2000 60 (3 / 10) false 64, fun _ => []⟩
      [.createTrack d 0, .update [d] plainEnv, .update [] plainEnv, .update [d] plainEnv]).any
        (fun t => t.state.isLocked 1 &&
          !decide (InARow MultiTargetTracker.lockConfirmationFrames (t.view 1).matches?)) =
            true := by
    decide +kernel
  obtain ⟨t, ht, hlocked⟩ := Option.any_eq_true _ _ |>.mp hsingle
  obtain ⟨t', ht', hlocked'⟩ := Option.any_eq_true _ _ |>.mp hmulti
  rw [Bool.and_eq_true, Bool.not_eq_true', decide_eq_false_iff_not] at hlocked hlocked'
  exact ⟨⟨t, .of_exec (.init ⟨⟨_, _, _, _, rfl⟩, rfl⟩) ht, hlocked⟩,
    t', .of_exec (.init ⟨⟨_, _, _, _, _, rfl⟩, rfl⟩) ht', hlocked'⟩

end AutoTargeting.Tracker
