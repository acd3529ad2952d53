import AutoTargeting.Ring.Window

namespace AutoTargeting.Ring

open Runs

variable {c : CheckedConfig} {q : Quiet}

/-- `id` is one of the last `capacity` ids published. -/
def InWindow (c : CheckedConfig) (q : Quiet) (id : ℕ) : Prop :=
  1 ≤ id ∧ q.region.writeSeq < id + c.capacity ∧ id ≤ q.region.writeSeq

def Behind (c : CheckedConfig) (q : Quiet) (id : ℕ) : Prop :=
  1 ≤ q.region.writeSeq ∧ id + c.capacity ≤ q.region.writeSeq

/-- What `next_after(last_id)` has to answer. -/
structure NextAfterLaw (c : CheckedConfig) (q : Quiet) (pid lastId : ℕ) : Prop where
  frame : (∃ g, (nextAfter c pid q.region lastId).2 = .frame g ∧ g.view.frameId = lastId + 1) ↔
    InWindow c q (lastId + 1)
  noOther : ∀ g, (nextAfter c pid q.region lastId).2 = .frame g → g.view.frameId = lastId + 1
  behind : (nextAfter c pid q.region lastId).2 = .tooFarBehind lastId q.region.writeSeq ↔
    Behind c q (lastId + 1)
  upToDate : (nextAfter c pid q.region lastId).2 = .upToDate ↔
    ¬ InWindow c q (lastId + 1) ∧ ¬ Behind c q (lastId + 1)

theorem nextAfterLaw_of_reachable (h : (operations c).Reachable q) (pid : ℕ) {lastId : ℕ}
    (hlast : lastId < 2 ^ 64 - 1 ∨ q.region.writeSeq < 2 ^ 64 - 1)
    (hfree : q.guards.countP (·.guard.slotIdx = (lastId + 1) % c.capacity) < writerLock) :
    NextAfterLaw c q pid lastId := by
  obtain ⟨hin, hfar, hahead⟩ := quiet_nextAfter h pid hlast hfree
  have hcap := c.capacity_pos
  by_cases hid : lastId + 1 ≤ q.region.writeSeq
  · by_cases hlow : q.region.writeSeq < lastId + 1 + c.capacity
    · obtain ⟨g, hg, hgid⟩ := hin ⟨hid, hlow⟩
      have hwin : InWindow c q (lastId + 1) := ⟨by omega, hlow, hid⟩
      have hnot : ¬ Behind c q (lastId + 1) := fun hb => absurd hb.2 (by omega)
      refine ⟨⟨fun _ => hwin, fun _ => ⟨g, hg, hgid⟩⟩, ?_, ?_, ?_⟩ <;> rw [hg]
      · rintro _ ⟨⟩
        exact hgid
      · exact ⟨nofun, fun hb => absurd hb hnot⟩
      · exact ⟨nofun, fun hb => absurd hwin hb.1⟩
    · have hbehind : Behind c q (lastId + 1) := ⟨by omega, by omega⟩
      have hnot : ¬ InWindow c q (lastId + 1) := fun hw => hlow hw.2.1
      have hans := hfar hbehind
      refine ⟨⟨?_, fun hw => absurd hw hnot⟩, ?_, ⟨fun _ => hbehind, fun _ => hans⟩, ?_⟩ <;>
        rw [hans]
      · exact nofun
      · exact nofun
      · exact ⟨nofun, fun hb => absurd hbehind hb.2⟩
  · have hnot : ¬ InWindow c q (lastId + 1) := fun hw => hid hw.2.2
    have hnot' : ¬ Behind c q (lastId + 1) := fun hb => absurd hb.2 (by omega)
    have hans := hahead (by omega)
    refine ⟨⟨?_, fun hw => absurd hw hnot⟩, ?_, ⟨?_, fun hb => absurd hb hnot'⟩,
      ⟨fun _ => ⟨hnot, hnot'⟩, fun _ => hans⟩⟩ <;> rw [hans]
    · exact nofun
    · exact nofun
    · exact nofun

/-- The window and sequence law of the ring, up to the ends of its machine words. -/
theorem window_law (h : (operations c).Reachable q) :
    (∀ id, InWindow c q id →
      ∃ p ∈ q.published, p.frameId = id ∧ Carries c q.region (id % c.capacity) p) ∧
    (∀ pid lastId, (lastId < 2 ^ 64 - 1 ∨ q.region.writeSeq < 2 ^ 64 - 1) →
      q.guards.countP (·.guard.slotIdx = (lastId + 1) % c.capacity) < writerLock →
      NextAfterLaw c q pid lastId) ∧
    (q.region.writeSeq + q.dropped + q.overflowed = q.tried ∧
      q.region.droppedFrames = q.dropped % 2 ^ 64 ∧
      (q.region.writeSeq < 2 ^ 64 - 1 → q.overflowed = 0)) ∧
    ∀ data tsNs,
      (∀ reason, (publish c q.region data tsNs).2 = .ok (.dropped reason) →
        ∃ n, (publish c q.region data tsNs).1 = { q.region with droppedFrames := n }) ∧
      (∀ expected got, (publish c q.region data tsNs).2 = .error (.invalidFrameSize expected got) →
        (publish c q.region data tsNs).1 = q.region) := by
  have ha := accounts_reachable h
  refine ⟨fun id ⟨h1, hlow, hid⟩ => quiet_window h h1 hlow hid,
    fun pid lastId hlast hfree => nextAfterLaw_of_reachable h pid hlast hfree,
    ⟨ha.total, ha.droppedFrames, ha.noOverflow⟩, fun data tsNs => ?_⟩
  rcases publish_cases c q.region data tsNs with
    ⟨-, h⟩ | ⟨-, -, h⟩ | ⟨p, -, -, -, ⟨-, h⟩ | ⟨-, h⟩⟩ <;> rw [h]
  · exact ⟨nofun, fun _ _ _ => rfl⟩
  · exact ⟨nofun, nofun⟩
  · exact ⟨fun _ _ => ⟨_, rfl⟩, nofun⟩
  · exact ⟨nofun, nofun⟩

theorem window_law_after_two_frames :
    ∃ q : Quiet, q.region.writeSeq = 2 ∧ q.guards = 0 ∧ NextAfterLaw tinyConfig q 1 0 := by
  have hrun : ((operations tinyConfig).exec Machine.Anything .start
      [.publish [1, 2, 3] 9, .publish [4, 5, 6] 10]).map (fun q => (q.region.writeSeq, q.guards)) =
      some (2, 0) := by decide
  obtain ⟨q, hq, hobs⟩ := Option.map_eq_some_iff.mp hrun
  obtain ⟨hseq, hg⟩ := Prod.mk.inj hobs
  refine ⟨q, hseq, hg, (window_law (.of_exec (.init rfl) hq)).2.1 1 0 (.inl (by decide)) ?_⟩
  rw [hg]
  decide

/-- With the slot of its next id free, the ring publishes. -/
theorem publish_next (h : (operations c).Reachable q) (data : List UInt8)
    (hlen : data.length = c.frameSize) (hseq : q.region.writeSeq + 1 < 2 ^ 64)
    (hfree : q.guards.countP (·.guard.slotIdx = (q.region.writeSeq + 1) % c.capacity) = 0) :
    ∃ q', (operations c).Reachable q' ∧ q'.region.writeSeq = q.region.writeSeq + 1 ∧
      q'.guards = q.guards ∧ q'.overflowed = q.overflowed ∧ q'.dropped = q.dropped := by
  refine ⟨q.publishing c data 0, .step h trivial (e := .publish data 0) rfl, ?_⟩
  rcases publish_cases c q.region data 0 with
    ⟨hlen', -⟩ | ⟨-, hseq', -⟩ | ⟨p, rfl, -, -, ⟨h0, -⟩ | ⟨-, hp⟩⟩
  · exact absurd hlen hlen'
  · exact absurd hseq hseq'
  · rw [quiet_refCount h] at h0
    exact absurd hfree h0
  · simp [Quiet.publishing, hp, Quiet.record, Region.write]

/-- With the slot of its next id held, the ring drops `n` frames in a row. -/
theorem publish_dropping (h : (operations c).Reachable q) (data : List UInt8)
    (hlen : data.length = c.frameSize) (hseq : q.region.writeSeq + 1 < 2 ^ 64)
    (hheld : q.guards.countP (·.guard.slotIdx = (q.region.writeSeq + 1) % c.capacity) ≠ 0) (n : ℕ) :
    ∃ q', (operations c).Reachable q' ∧ q'.region.writeSeq = q.region.writeSeq ∧
      q'.guards = q.guards ∧ q'.overflowed = q.overflowed ∧ q'.dropped = q.dropped + n := by
  induction n with
  | zero => exact ⟨q, h, rfl, rfl, rfl, rfl⟩
  | succ n ih =>
    obtain ⟨q', h', hw, hg, ho, hd⟩ := ih
    refine ⟨q'.publishing c data 0, .step h' trivial (e := .publish data 0) rfl, ?_⟩
    rcases publish_cases c q'.region data 0 with
      ⟨hlen', -⟩ | ⟨-, hseq', -⟩ | ⟨p, rfl, -, -, ⟨-, hp⟩ | ⟨h0, -⟩⟩
    · exact absurd hlen hlen'
    · rw [hw] at hseq'
      exact absurd hseq hseq'
    · simp [Quiet.publishing, hp, Quiet.record, hw, hg, ho, hd, Nat.add_assoc]
    · rw [quiet_refCount h', hg] at h0
      rw [← hw] at hheld
      exact absurd h0 hheld

/-- `latest` adds a guard to the slot of the last frame, up to the largest count. -/
theorem latest_again (h : (operations c).Reachable q) (hseq : q.region.writeSeq ≠ 0)
    (hfree : q.guards.countP (·.guard.slotIdx = q.region.writeSeq % c.capacity) < writerLock) :
    ∃ q', (operations c).Reachable q' ∧ q'.region.writeSeq = q.region.writeSeq ∧
      q'.overflowed = q.overflowed ∧ ∃ g : FrameGuard,
        q'.guards = ⟨1, g⟩ ::ₘ q.guards ∧ g.slotIdx = q.region.writeSeq % c.capacity := by
  have hseq' := (alone_counters (alone_latest c 1 q.region)).1
  have href : (q.region.slot (q.region.writeSeq % c.capacity)).refCount ≠ writerLock := by
    rw [quiet_refCount h]
    exact hfree.ne
  refine ⟨_, .step h trivial (e := .latest 1) rfl, hseq', rfl, ?_⟩
  simp only [Quiet.taking, latest, acquire, hseq, href, Nat.mod_mod, if_false]
  exact ⟨_, rfl, rfl⟩

/-- Every number of frames up to the last id can be published. -/
theorem publish_many (n : ℕ) (hn : n < 2 ^ 64) :
    ∃ q, (operations tinyConfig).Reachable q ∧ q.region.writeSeq = n ∧ q.guards = 0 ∧
      q.overflowed = 0 ∧ q.dropped = 0 := by
  induction n with
  | zero => exact ⟨.start, .init rfl, rfl, rfl, rfl, rfl⟩
  | succ n ih =>
    obtain ⟨q, h, hw, hg, ho, hd⟩ := ih (by omega)
    obtain ⟨q', h', hw', hg', ho', hd'⟩ := publish_next h [0, 0, 0] rfl (by omega)
      (by rw [hg]; rfl)
    exact ⟨q', h', by omega, hg'.trans hg, ho'.trans ho, hd'.trans hd⟩

/-- Every number of guards up to the largest count can be on one slot. -/
theorem latest_many (n : ℕ) (hn : n ≤ writerLock) :
    ∃ q, (operations tinyConfig).Reachable q ∧ q.region.writeSeq = 1 ∧ q.overflowed = 0 ∧
      q.guards.countP (·.guard.slotIdx = 1) = n ∧ q.guards.countP (·.guard.slotIdx = 0) = 0 := by
  induction n with
  | zero =>
    obtain ⟨q, h, hw, hg, ho, -⟩ := publish_many 1 (by decide)
    exact ⟨q, h, hw, ho, by rw [hg]; rfl, by rw [hg]; rfl⟩
  | succ n ih =>
    obtain ⟨q, h, hw, ho, hn', h0⟩ := ih (by omega)
    have hslot : q.region.writeSeq % tinyConfig.capacity = 1 := by rw [hw]; rfl
    obtain ⟨q', h', hw', ho', g, hg, hgi⟩ := latest_again h (by omega) (by rw [hslot, hn']; omega)
    rw [hslot] at hgi
    refine ⟨q', h', hw'.trans hw, ho'.trans ho, ?_, ?_⟩
    · rw [hg, Multiset.countP_cons, hn', if_pos hgi]
    · rw [hg, Multiset.countP_cons, h0, if_neg (by rw [hgi]; decide)]

/-- On a slot with the largest count, every turn of `next_after` fails. -/
theorem nextTurns_busy {pid lastId : ℕ} {r : Region}
    (hlock : (r.slot (wanted lastId % c.capacity)).refCount = writerLock)
    (hid : wanted lastId ≤ r.writeSeq) (hlow : r.writeSeq < wanted lastId + c.capacity) (n : ℕ) :
    nextTurns c pid lastId n r = (r, .upToDate) := by
  have h1 : 1 ≤ wanted lastId := by unfold wanted; omega
  induction n with
  | zero =>
    rw [nextTurns, nextTurn, if_neg (by omega), if_neg (by omega), if_neg (by omega)]
    simp [acquire, hlock]
  | succ n ih =>
    rw [nextTurns, nextTurn, if_neg (by omega), if_neg (by omega), if_neg (by omega)]
    simp [acquire, hlock, ih]

/-- So many readers hold the wanted slot that it looks like one that is written. -/
theorem not_law_of_locked :
    ∃ q, (operations tinyConfig).Reachable q ∧ ¬ NextAfterLaw tinyConfig q 1 0 := by
  obtain ⟨q, h, hw, -, hn, -⟩ := latest_many writerLock le_rfl
  refine ⟨q, h, fun hlaw => ?_⟩
  have hlock : (q.region.slot (wanted 0 % tinyConfig.capacity)).refCount = writerLock := by
    rw [quiet_refCount h]
    exact hn
  have hbusy : (nextAfter tinyConfig 1 q.region 0).2 = .upToDate := by
    rw [nextAfter, nextTurns_busy hlock (by rw [hw]; decide) (by rw [hw]; decide)]
  exact (hlaw.upToDate.mp hbusy).1 ⟨le_rfl, by rw [hw]; decide, hw.ge⟩

/-- Behind the last id the wanted one is the last one again. -/
theorem not_law_of_lastId :
    ∃ q, (operations tinyConfig).Reachable q ∧ ¬ NextAfterLaw tinyConfig q 1 (2 ^ 64 - 1) := by
  obtain ⟨q, h, hw, hg, -⟩ := publish_many (2 ^ 64 - 1) (by decide)
  refine ⟨q, h, fun hlaw => ?_⟩
  have hwant : wanted (2 ^ 64 - 1) = 2 ^ 64 - 1 := by decide
  have hcap := tinyConfig.capacity_pos
  obtain ⟨g, hframe, hid⟩ := quiet_wanted h 1 (2 ^ 64 - 1) (by omega) (by omega)
    (by rw [hg]; decide)
  have := hlaw.noOther g hframe
  omega

/-- The sequence is at its end: a publish overflows, and nothing counts it. -/
theorem not_counted_of_overflow : ∃ q, (operations tinyConfig).Reachable q ∧ q.dropped = 0 ∧
    q.region.writeSeq + q.region.droppedFrames ≠ q.tried := by
  obtain ⟨q, h, hw, -, -, hd⟩ := publish_many (2 ^ 64 - 1) (by decide)
  have hover : q.publishing tinyConfig [0, 0, 0] 0 =
      { q with tried := q.tried + 1, overflowed := q.overflowed + 1 } := by
    rcases publish_cases tinyConfig q.region [0, 0, 0] 0 with
      ⟨hlen, -⟩ | ⟨-, -, hp⟩ | ⟨p, -, -, hseq, -⟩
    · exact absurd rfl hlen
    · rw [Quiet.publishing, hp]
      rfl
    · omega
  have h' : (operations tinyConfig).Reachable (q.publishing tinyConfig [0, 0, 0] 0) :=
    .step h trivial (e := .publish [0, 0, 0] 0) rfl
  rw [hover] at h'
  have ha := accounts_reachable h'
  refine ⟨_, h', hd, ?_⟩
  have htotal := ha.total
  have hdropped := ha.droppedFrames
  simp only [hd] at htotal hdropped ⊢
  omega

/-- The counter of the dropped frames wraps around. -/
theorem not_counted_of_wrap : ∃ q, (operations tinyConfig).Reachable q ∧ q.overflowed = 0 ∧
    q.region.writeSeq + q.region.droppedFrames ≠ q.tried := by
  obtain ⟨q, h, hw, ho, h1, h0⟩ := latest_many 1 (by decide)
  obtain ⟨q₂, h₂, hw₂, hg₂, ho₂, -⟩ := publish_next h [0, 0, 0] rfl (by omega)
    (by rw [hw]; exact h0)
  have hheld : q₂.guards.countP
      (·.guard.slotIdx = (q₂.region.writeSeq + 1) % tinyConfig.capacity) ≠ 0 := by
    have hslot : (q₂.region.writeSeq + 1) % tinyConfig.capacity = 1 := by rw [hw₂, hw]; rfl
    rw [hslot, hg₂, h1]
    decide
  obtain ⟨q₃, h₃, -, -, ho₃, hd₃⟩ := publish_dropping h₂ [0, 0, 0] rfl (by omega)
    hheld (2 ^ 64)
  have ha := accounts_reachable h₃
  have htotal := ha.total
  have hdropped := ha.droppedFrames
  have ho3 : q₃.overflowed = 0 := by rw [ho₃, ho₂, ho]
  refine ⟨q₃, h₃, ho3, ?_⟩
  rw [hdropped, ← htotal, ho3]
  omega

/-- At the ends of the machine words the law fails: with the largest number of guards on the
slot, for the largest `last_id`, when the frame ids run out, and when `dropped_frames` wraps. -/
theorem window_law_ends :
    (∃ q, (operations tinyConfig).Reachable q ∧ ¬ NextAfterLaw tinyConfig q 1 0) ∧
    (∃ q, (operations tinyConfig).Reachable q ∧ ¬ NextAfterLaw tinyConfig q 1 (2 ^ 64 - 1)) ∧
    (∃ q, (operations tinyConfig).Reachable q ∧ q.dropped = 0 ∧
      q.region.writeSeq + q.region.droppedFrames ≠ q.tried) ∧
    ∃ q, (operations tinyConfig).Reachable q ∧ q.overflowed = 0 ∧
      q.region.writeSeq + q.region.droppedFrames ≠ q.tried :=
  ⟨not_law_of_locked, not_law_of_lastId, not_counted_of_overflow, not_counted_of_wrap⟩

end AutoTargeting.Ring
