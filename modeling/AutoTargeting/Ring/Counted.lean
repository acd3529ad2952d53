import AutoTargeting.Ring.Counting

namespace AutoTargeting.Ring

open Runs

variable {c : CheckedConfig} {producerPid : ℕ} {s s' : State} {i : ℕ}

/-- What the words `ref_count` mean while the producer lives. -/
structure Counted (c : CheckedConfig) (producerPid : ℕ) (s : State) : Prop where
  producerUp : s.producerUp = true
  producerAlive : s.alive producerPid = true
  bound : ∀ i, (s.region.slot i).refCount < 2 ^ 32
  written : ∀ i, s.producer.writing c = some i →
    (s.region.slot i).refCount = writerLock ∧ s.holds i = 0
  free : ∀ i, s.producer.writing c ≠ some i → (s.region.slot i).refCount = s.holds i
  sane : ∀ op ∈ s.ops, op.pc.Sane
  reapers : ∀ rp ∈ s.reapers, rp.call.producerDead = false

/-- The slot of a held reference is not the one being written. -/
theorem Counted.writing_ne (h : Counted c producerPid s) (hi : 0 < s.holds i) :
    s.producer.writing c ≠ some i := by
  intro hw
  have := (h.written i hw).2
  omega

theorem Counted.refCount_eq (h : Counted c producerPid s) (hi : 0 < s.holds i) :
    (s.region.slot i).refCount = s.holds i := h.free i (h.writing_ne hi)

/-- The reaper only takes a reference that a dead process left. -/
def ReapsOrphans (s : State) : Event → Prop
  | .reaperStep rp => ∀ i, rp.pc.frees s.region = some i → i ∈ s.orphans
  | _ => True

theorem counted_start {alive : ℕ → Bool} (h : alive producerPid = true) :
    Counted c producerPid (.start alive) where
  producerUp := rfl
  producerAlive := h
  bound _ := by simp [State.start, Region.fresh, SlotMeta.zeroed]
  written _ hw := by cases hw
  free _ _ := rfl
  sane _ hop := by cases hop
  reapers _ hrp := by cases hrp

theorem counted_producerStep (h : Counted c producerPid s) :
    Counted c producerPid (s.afterProducer (s.producer.step c s.region)) := by
  rcases producer_locks c s.region s.producer with
    ⟨hw, hr⟩ | ⟨i, hw, hw', h0, hr⟩ | ⟨i, hw, hw', hr⟩
  · refine ⟨h.producerUp, h.producerAlive, fun j => ?_, fun j hj => ?_, fun j hj => ?_, h.sane,
      h.reapers⟩
    · exact (hr j).symm ▸ h.bound j
    · exact (hr j).symm ▸ h.written j (hw ▸ hj)
    · exact (hr j).trans (h.free j (hw ▸ hj))
  · -- the CAS found a count of zero, so nobody holds the slot it locks
    have hfree : ∀ j, (s.region.slot j).refCount = s.holds j := fun j => h.free j (by simp [hw])
    refine ⟨h.producerUp, h.producerAlive, fun j => ?_, fun j hj => ?_, fun j hj => ?_, h.sane,
      h.reapers⟩
    · refine (hr j).symm ▸ ?_
      split
      · decide
      · exact h.bound j
    · cases hw'.symm.trans hj
      exact ⟨(hr i).trans (if_pos rfl), (hfree i).symm.trans h0⟩
    · have hij : j ≠ i := fun hij => hj (hij ▸ hw')
      exact ((hr j).trans (if_neg hij)).trans (hfree j)
  · -- nobody could take the locked slot, so the release stores the right count
    refine ⟨h.producerUp, h.producerAlive, fun j => ?_, fun j hj => ?_, fun j hj => ?_, h.sane,
      h.reapers⟩
    · refine (hr j).symm ▸ ?_
      split
      · decide
      · exact h.bound j
    · cases hw'.symm.trans hj
    · refine (hr j).trans ?_
      split
      case isTrue hij => rw [hij]; exact (h.written i hw).2.symm
      case isFalse hij => exact h.free j (by simp [hw, Ne.symm hij])

theorem counted_consumerStep (h : Counted c producerPid s) {op : Op} (hop : op ∈ s.ops) :
    Counted c producerPid (s.afterConsumer op (op.pc.step c op.pid s.region)) := by
  obtain ⟨hup, halive, hreapers, -⟩ := afterConsumer_rest (s := s) op (op.pc.step c op.pid s.region)
  have hpos : ∀ j, op.pc.held j ≤ s.holds j := by
    intro j
    unfold ConsumerPc.held
    split
    case isTrue hj => exact holds_pos_of_op hop hj
    case isFalse => exact Nat.zero_le _
  -- nobody holds the slot that is written, and the others count exactly
  have hle : ∀ j, s.holds j ≤ (s.region.slot j).refCount := by
    intro j
    by_cases hj : s.producer.writing c = some j
    · rw [(h.written j hj).2]; exact Nat.zero_le _
    · exact (h.free j hj).ge
  have hcounts := fun j => consumer_counts c op.pid j (h.sane op hop) (h.bound j)
    ((hpos j).trans (hle j))
  have hholds := fun j => holds_afterConsumer hop (op.pc.step c op.pid s.region) j
  refine ⟨hup.trans h.producerUp, halive.symm ▸ h.producerAlive, fun j => ?_, fun j hj => ?_,
    fun j hj => ?_, fun o ho => ?_, fun rp hrp => h.reapers rp (hreapers ▸ hrp)⟩
  · rw [afterConsumer_region]
    exact (hcounts j).1
  · rw [afterConsumer_producer] at hj
    obtain ⟨hlock, hzero⟩ := h.written j hj
    obtain ⟨hlt, hsum⟩ := hcounts j
    have := hpos j
    have := hholds j
    rw [afterConsumer_region]
    unfold writerLock at *
    omega
  · rw [afterConsumer_producer] at hj
    have := h.free j hj
    have := (hcounts j).2
    have := hholds j
    rw [afterConsumer_region]
    omega
  · rcases mem_ops_afterConsumer ho with ho | ⟨pc, hpc, rfl⟩
    · exact h.sane o ho
    · exact consumer_sane hpc

theorem counted_dropGuard (h : Counted c producerPid s) {g : Hold} (hg : g ∈ s.guards) :
    Counted c producerPid { s with
      region := s.region.dropGuard g.guard, guards := s.guards.erase g } := by
  have hpos := holds_pos_of_guard hg
  -- the guard is counted, so that the count does not wrap around
  have hfetch : fetchSub (s.region.slot g.guard.slotIdx).refCount =
      s.holds g.guard.slotIdx - 1 := by
    have hb := h.bound g.guard.slotIdx
    rw [h.refCount_eq hpos] at hb ⊢
    exact fetchSub_of_pos hpos hb
  have hholds : ∀ j, State.holds { s with
      region := s.region.dropGuard g.guard, guards := s.guards.erase g } j +
        (if g.guard.slotIdx = j then 1 else 0) = s.holds j := by
    intro j
    have := countP_erase_add (fun h : Hold => h.guard.slotIdx = j) hg
    simp only [State.holds]
    omega
  have href : ∀ j, ((s.region.dropGuard g.guard).slot j).refCount =
      if j = g.guard.slotIdx then s.holds g.guard.slotIdx - 1 else (s.region.slot j).refCount := by
    intro j
    rw [Region.dropGuard, Region.setRef_refCount, hfetch]
  refine ⟨h.producerUp, h.producerAlive, fun j => ?_, fun j hj => ?_, fun j hj => ?_, h.sane,
    h.reapers⟩
  · have := h.bound j
    rw [href]
    split
    case isTrue hj => rw [hj, h.refCount_eq hpos] at this; omega
    case isFalse => exact this
  · have hne : g.guard.slotIdx ≠ j := fun hgj => h.writing_ne hpos (hgj ▸ hj)
    have := hholds j
    rw [if_neg hne] at this
    rw [href, if_neg (Ne.symm hne)]
    have := h.written j hj
    omega
  · have := hholds j
    have := h.free j hj
    rw [href]
    by_cases hgj : g.guard.slotIdx = j
    · subst hgj
      simp only [if_true] at *
      omega
    · simp only [hgj, Ne.symm hgj, if_false] at *
      omega

/-- A reference that the reaper takes from the dead leaves the count right. -/
theorem counted_reaperStep (h : Counted c producerPid s) {rp : Reap} (hrp : rp ∈ s.reapers)
    (ho : ∀ i, rp.pc.frees s.region = some i → i ∈ s.orphans) :
    Counted c producerPid (s.afterReaper rp (rp.pc.step c s.alive rp.call s.region)) := by
  have href := fun j => reaper_refCount c s.alive s.region rp.pc (h.reapers rp hrp) j
  have hreapers : ∀ q ∈ (s.afterReaper rp (rp.pc.step c s.alive rp.call s.region)).reapers,
      q.call.producerDead = false := by
    intro q hq
    simp only [State.afterReaper] at hq
    split at hq
    · rcases Multiset.mem_cons.mp hq with rfl | hq
      · exact h.reapers rp hrp
      · exact h.reapers q (Multiset.mem_of_mem_erase hq)
    · exact h.reapers q (Multiset.mem_of_mem_erase hq)
  cases hf : rp.pc.frees s.region with
  | none =>
    have hholds : ∀ j, State.holds (s.afterReaper rp (rp.pc.step c s.alive rp.call s.region)) j =
        s.holds j := by
      intro j; simp only [State.holds, State.afterReaper, hf]
    simp only [hf, reduceCtorEq, if_false] at href
    refine ⟨h.producerUp, h.producerAlive, fun j => ?_, fun j hj => ?_, fun j hj => ?_, h.sane,
      hreapers⟩
    · exact (href j).symm ▸ h.bound j
    · exact ⟨(href j).trans (h.written j hj).1, (hholds j).trans (h.written j hj).2⟩
    · exact ((href j).trans (h.free j hj)).trans (hholds j).symm
  | some i =>
    -- the reaper clears counts of one only, and the orphan is that one reference
    have hone := ReaperPc.refCount_of_frees hf
    have hi := holds_pos_of_orphan (ho i hf)
    have hi1 : s.holds i = 1 := (h.refCount_eq hi).symm.trans hone
    have hholds : ∀ j, State.holds (s.afterReaper rp (rp.pc.step c s.alive rp.call s.region)) j =
        if j = i then 0 else s.holds j := by
      intro j
      have horphan := Multiset.count_pos.mpr (ho i hf)
      split
      case isTrue hj =>
        subst hj
        simp only [State.holds, State.afterReaper, hf, Multiset.count_erase_self] at hi1 ⊢
        omega
      case isFalse hj =>
        simp only [State.holds, State.afterReaper, hf, Multiset.count_erase_of_ne hj]
    simp only [hf, Option.some.injEq] at href
    refine ⟨h.producerUp, h.producerAlive, fun j => ?_, fun j hj => ?_, fun j hj => ?_, h.sane,
      hreapers⟩
    · refine (href j).symm ▸ ?_
      split
      · decide
      · exact h.bound j
    · have hij : i ≠ j := fun hij => h.writing_ne hi (hij ▸ hj)
      exact ⟨(href j).trans ((if_neg hij).trans (h.written j hj).1),
        (hholds j).trans ((if_neg hij.symm).trans (h.written j hj).2)⟩
    · refine (href j).trans (Eq.trans ?_ (hholds j).symm)
      by_cases hij : i = j
      · simp [hij]
      · simpa [hij, Ne.symm hij] using h.free j hj

theorem counted_afterDeath (h : Counted c producerPid s) {pid : ℕ} (hne : pid ≠ producerPid) :
    Counted c producerPid (s.afterDeath producerPid pid) := by
  refine ⟨?_, ?_, h.bound, fun j hj => ?_, fun j hj => ?_, fun op hop => ?_, fun rp hrp => ?_⟩
  · simp [State.afterDeath, h.producerUp, hne]
  · simpa [State.afterDeath, Function.update_apply, Ne.symm hne] using h.producerAlive
  · rw [holds_afterDeath]; exact h.written j hj
  · rw [holds_afterDeath]; exact h.free j hj
  · exact h.sane op (Multiset.mem_of_mem_filter hop)
  · exact h.reapers rp (Multiset.mem_of_mem_filter hrp)

theorem counted_call (h : Counted c producerPid s) (pid : ℕ) (k : Call) :
    Counted c producerPid { s with ops := ⟨pid, k.enter⟩ ::ₘ s.ops } := by
  have hholds : ∀ j, State.holds { s with ops := ⟨pid, k.enter⟩ ::ₘ s.ops } j = s.holds j := by
    intro j
    simp [State.holds]
  refine ⟨h.producerUp, h.producerAlive, h.bound, fun j hj => ?_, fun j hj => ?_, ?_, h.reapers⟩
  · rw [hholds]; exact h.written j hj
  · rw [hholds]; exact h.free j hj
  · intro op hop
    rcases Multiset.mem_cons.mp hop with rfl | hop
    · cases k <;> trivial
    · exact h.sane op hop

/-- While the producer lives and the reaper takes from the dead only, every count is
right. -/
theorem counted_step (h : Counted c producerPid s) {e : Event} (hr : ReapsOrphans s e)
    (hd : e ≠ .die producerPid) (hs : s.step c producerPid e = some s') :
    Counted c producerPid s' := by
  cases step_stepped hs with
  | refused => exact h
  | publish hup hidle hlen =>
    have hw : s.producer.writing c = none := by rw [hidle]; rfl
    refine ⟨h.producerUp, h.producerAlive, h.bound, fun j hj => ?_, fun j _ => ?_, h.sane,
      h.reapers⟩
    · cases hj
    · exact h.free j (by simp [hw])
  | producerStep => exact counted_producerStep h
  | call => exact counted_call h ..
  | consumerStep hop => exact counted_consumerStep h hop
  | dropGuard hg => exact counted_dropGuard h hg
  | reap =>
    refine ⟨h.producerUp, h.producerAlive, h.bound, h.written, h.free, h.sane, ?_⟩
    intro rp hrp
    rcases Multiset.mem_cons.mp hrp with rfl | hrp
    · by_cases h0 : producerPid = 0 <;> simp [pidAlive, h.producerAlive, h0]
    · exact h.reapers rp hrp
  | reaperStep hrp => exact counted_reaperStep h hrp hr
  | spawn =>
    refine ⟨h.producerUp, ?_, h.bound, h.written, h.free, h.sane, h.reapers⟩
    simp [Function.update_apply, h.producerAlive]
  | die => exact counted_afterDeath h fun hp => hd (hp ▸ rfl)

end AutoTargeting.Ring
