import AutoTargeting.Ring.Refinement

namespace AutoTargeting.Ring

open Runs

variable {c : CheckedConfig} {q q' : Quiet}

/-- The invariants of the interleaved ring hold between operations too. -/
theorem quiet_inv (h : (operations c).Reachable q) : Inv c 0 q.state :=
  inv_undisturbed (quiet_reachable h)

/-- Between operations every count is the number of guards on the slot. -/
theorem quiet_refCount (h : (operations c).Reachable q) (i : ℕ) :
    (q.region.slot i).refCount = q.guards.countP (·.guard.slotIdx = i) := by
  have hfree := (quiet_inv h).counted.free i nofun
  simpa [State.holds, Quiet.state] using hfree

/-- Each id of the window is in its slot with the payload published under it. -/
theorem quiet_window (h : (operations c).Reachable q) {id : ℕ} (h1 : 1 ≤ id)
    (hlow : q.region.writeSeq < id + c.capacity) (hid : id ≤ q.region.writeSeq) :
    ∃ p ∈ q.published, p.frameId = id ∧ Carries c q.region (id % c.capacity) p := by
  have hf := (quiet_inv h).frames
  have hge := hf.window id h1 hid
  rcases hf.carried (id % c.capacity) nofun with h0 | ⟨p, hp, hc⟩
  · have : (q.region.slot (id % c.capacity)).frameId = 0 := h0
    have : id ≤ (q.region.slot (id % c.capacity)).frameId := hge
    omega
  · have hp : p ∈ q.published := by simpa [Quiet.state, ProducerPc.returning] using hp
    have hid' : (q.region.slot (id % c.capacity)).frameId = p.frameId := hc.frameId
    have hle : p.frameId ≤ q.region.writeSeq := (hf.bounds hp).2
    have hge' : id ≤ p.frameId := hid' ▸ hge
    -- two ids of one slot in one window are the same
    have hmod : p.frameId % c.capacity = id % c.capacity := hc.idx
    have heq : p.frameId = id := by
      have hdvd : c.capacity ∣ p.frameId - id :=
        Nat.dvd_of_mod_eq_zero (Nat.sub_mod_eq_zero_of_mod_eq hmod)
      rcases Nat.eq_zero_or_pos (p.frameId - id) with h0 | hpos
      · omega
      · have := Nat.le_of_dvd hpos hdvd
        omega
    exact ⟨p, hp, heq, hc⟩

/-- `next_after` hands out the frame it wants, if that is in the window and its slot is not
held by the largest number of guards. -/
theorem quiet_wanted (h : (operations c).Reachable q) (pid lastId : ℕ)
    (hid : wanted lastId ≤ q.region.writeSeq)
    (hlow : q.region.writeSeq < wanted lastId + c.capacity)
    (hfree : q.guards.countP (·.guard.slotIdx = wanted lastId % c.capacity) < writerLock) :
    ∃ g, (nextAfter c pid q.region lastId).2 = .frame g ∧ g.view.frameId = wanted lastId := by
  have hturn : nextAfter c pid q.region lastId =
      nextTurn c pid lastId q.region (nextTurns c pid lastId 254) := rfl
  have h1 : 1 ≤ wanted lastId := by unfold wanted; omega
  rw [hturn, nextTurn, if_neg (by omega), if_neg (by omega), if_neg (by omega)]
  obtain ⟨p, -, hp, hc⟩ := quiet_window h h1 hlow hid
  have hids : (q.region.slot (wanted lastId % c.capacity)).frameId = wanted lastId :=
    hc.frameId.trans hp
  have href : (q.region.slot (wanted lastId % c.capacity)).refCount ≠ writerLock := by
    rw [quiet_refCount h]
    exact hfree.ne
  simp only [acquire, Nat.mod_mod, href, if_false, hids, ne_eq, not_true_eq_false]
  exact ⟨_, rfl, rfl⟩

/-- What `next_after` answers where nobody disturbs it. -/
theorem quiet_nextAfter (h : (operations c).Reachable q) (pid : ℕ) {lastId : ℕ}
    (hlast : lastId < 2 ^ 64 - 1 ∨ q.region.writeSeq < 2 ^ 64 - 1)
    (hfree : q.guards.countP (·.guard.slotIdx = (lastId + 1) % c.capacity) < writerLock) :
    (lastId + 1 ≤ q.region.writeSeq ∧ q.region.writeSeq < lastId + 1 + c.capacity →
      ∃ g, (nextAfter c pid q.region lastId).2 = .frame g ∧ g.view.frameId = lastId + 1) ∧
    (1 ≤ q.region.writeSeq ∧ lastId + 1 + c.capacity ≤ q.region.writeSeq →
      (nextAfter c pid q.region lastId).2 = .tooFarBehind lastId q.region.writeSeq) ∧
    (q.region.writeSeq < lastId + 1 → (nextAfter c pid q.region lastId).2 = .upToDate) := by
  have hturn : nextAfter c pid q.region lastId =
      nextTurn c pid lastId q.region (nextTurns c pid lastId 254) := rfl
  have hcap := c.capacity_pos
  refine ⟨fun ⟨hid, hlow⟩ => ?_, fun ⟨h1, hfar⟩ => ?_, fun hahead => ?_⟩
  · have hwant : wanted lastId = lastId + 1 := by unfold wanted; omega
    rw [← hwant] at hid hlow hfree ⊢
    exact quiet_wanted h pid lastId hid hlow hfree
  · have hwant : wanted lastId = lastId + 1 := by unfold wanted; omega
    rw [hturn, nextTurn, hwant, if_neg (by omega), if_neg (by omega), if_pos (by omega)]
  · have hwant : q.region.writeSeq < wanted lastId := by unfold wanted; omega
    by_cases h0 : q.region.writeSeq = 0
    · rw [hturn, nextTurn, if_pos h0]
    · rw [hturn, nextTurn, if_neg h0, if_pos hwant]

/-- A consumer that runs alone counts no drop and publishes nothing. -/
theorem alone_counters {pid : ℕ} {x y : Region × (ConsumerPc ⊕ Answer)} (h : Alone c pid x y) :
    y.1.writeSeq = x.1.writeSeq ∧ y.1.droppedFrames = x.1.droppedFrames := by
  induction h with
  | refl => exact ⟨rfl, rfl⟩
  | tail _ hs ih =>
    obtain ⟨pc, -, rfl⟩ := hs
    exact ⟨(consumer_sameFrames c pid _ pc).writeSeq.trans ih.1,
      (consumer_droppedFrames c pid _ pc).trans ih.2⟩

/-- The accounts of `publish`: every frame of the right size was published, was dropped, or
came after the last frame id. -/
structure Accounts (q : Quiet) : Prop where
  total : q.region.writeSeq + q.dropped + q.overflowed = q.tried
  droppedFrames : q.region.droppedFrames = q.dropped % 2 ^ 64
  seq_lt : q.region.writeSeq < 2 ^ 64
  noOverflow : q.region.writeSeq < 2 ^ 64 - 1 → q.overflowed = 0

theorem accounts_publish (h : Accounts q) (data : List UInt8) (tsNs : ℕ) :
    Accounts (q.publishing c data tsNs) := by
  obtain ⟨htotal, hdropped, hlt, hover⟩ := h
  unfold Quiet.publishing
  rcases publish_cases c q.region data tsNs with
    ⟨hlen, h⟩ | ⟨hlen, hseq, h⟩ | ⟨p, rfl, hlen, hseq, ⟨h0, h⟩ | ⟨h0, h⟩⟩ <;>
    simp only [h, hlen, if_true, if_false, Nat.add_zero]
  · exact ⟨htotal, hdropped, hlt, hover⟩
  · refine ⟨?_, hdropped, hlt, fun hsmall => ?_⟩
    · simp only [Quiet.record]
      omega
    · simp only [Quiet.record] at hsmall ⊢
      omega
  · refine ⟨?_, ?_, hlt, hover⟩
    · simp only [Quiet.record]
      omega
    · simp only [Quiet.record, fetchAdd, hdropped]
      omega
  · refine ⟨?_, hdropped, hseq, fun _ => hover (by omega)⟩
    simp only [Quiet.record, Region.write]
    omega

theorem accounts_reachable (h : (operations c).Reachable q) : Accounts q := by
  refine Machine.ReachableBy.invariant (I := Accounts) ?_ ?_ h
  · rintro _ rfl
    exact ⟨rfl, rfl, by decide, fun _ => rfl⟩
  · rintro q o q' - hq - hs
    have hcall : ∀ {pid r answer k}, Alone c pid (q.region, .inl k) (r, .inr answer) →
        Accounts (q.taking pid r answer.guard?) := by
      intro pid r answer k ha
      obtain ⟨hw, hd⟩ := alone_counters ha
      refine ⟨?_, hd.trans hq.droppedFrames, ?_, fun hlt => hq.noOverflow ?_⟩
      · exact hw ▸ hq.total
      · exact hw ▸ hq.seq_lt
      · exact hw ▸ hlt
    cases o with
    | publish data tsNs => cases hs; exact accounts_publish hq data tsNs
    | latest pid => cases hs; exact hcall (alone_latest c pid _)
    | nextAfter pid lastId => cases hs; exact hcall (alone_nextTurns lastId _ _)
    | dropGuard g =>
      simp only [operations, Quiet.step] at hs
      split at hs <;> cases hs
      exact ⟨hq.total, hq.droppedFrames, hq.seq_lt, hq.noOverflow⟩

end AutoTargeting.Ring
