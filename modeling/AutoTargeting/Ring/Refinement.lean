import AutoTargeting.Ring.Sequential

namespace AutoTargeting.Ring

open Runs

variable {c : CheckedConfig} {producerPid pid : ℕ} {r : Region} {q q' : Quiet}

/-- All spins of `try_acquire` on a locked slot fail. -/
theorem alone_busy {k : Caller} {a : Attempt} (hlock : (r.slot a.idx).refCount = writerLock)
    (n : ℕ) : Alone c pid (r, .inl (.loadRef k a n)) (r, k.resume .busy) := by
  induction n with
  | zero =>
    apply Alone.step r (k.resume .busy)
    · simp [ConsumerPc.step, hlock, Caller.spin]
    · exact .refl
  | succ n ih =>
    apply Alone.step r (.inl (.loadRef k a n))
    · simp [ConsumerPc.step, hlock, Caller.spin]
    · exact ih

theorem alone_reads (c : CheckedConfig) (pid : ℕ) (r : Region) (k : Caller) (a : Attempt) (actual : ℕ) :
    Alone c pid (r, .inl (.readTs k a actual))
      (r, k.resume (.got ⟨a.idx, ⟨actual, (r.slot a.idx).tsNs, (r.slot a.idx).width,
        (r.slot a.idx).height, (r.slot a.idx).format⟩⟩)) :=
  Alone.step _ _ rfl (Alone.step _ _ rfl (Alone.step _ _ rfl (Alone.step _ _ rfl .refl)))

theorem alone_tryAcquire (c : CheckedConfig) (pid : ℕ) (r : Region) (k : Caller) (slotIdx : ℕ) (e : Option ℕ) :
    Alone c pid (r, .inl (tryAcquire c k slotIdx e))
      ((acquire c pid r slotIdx e).1, k.resume (acquire c pid r slotIdx e).2) := by
  unfold tryAcquire acquire
  dsimp only
  by_cases hlock : (r.slot (slotIdx % c.capacity)).refCount = writerLock
  · rw [if_pos hlock]
    exact alone_busy (a := ⟨slotIdx % c.capacity, e⟩) hlock _
  · rw [if_neg hlock]
    generalize hidx : slotIdx % c.capacity = idx at *
    generalize hn : (r.slot idx).refCount = n at *
    let taken := (r.setRef idx (n + 1)).modifySlot idx fun m => { m with holderPid := pid }
    have hslot : taken.slot idx = { r.slot idx with refCount := n + 1, holderPid := pid } := by
      simp [taken, Region.setRef, Region.modifySlot_slot]
    have hids : (taken.slot idx).frameId = (r.slot idx).frameId := by rw [hslot]
    -- nobody is in the way: the reference is counted at the first attempt
    have htake : ∀ z, Alone c pid (taken, .inl (Attempt.checkId k ⟨idx, e⟩ (r.slot idx).frameId)) z →
        Alone c pid (r, .inl (.loadRef k ⟨idx, e⟩ (acquireSpins - 1))) z := by
      rintro ⟨r'', z⟩ hz
      apply Alone.step r (.inl (.casRef k ⟨idx, e⟩ (acquireSpins - 1) n))
      · simp [ConsumerPc.step, hn, hlock]
      apply Alone.step (r.setRef idx (n + 1)) (.inl (.storePid k ⟨idx, e⟩))
      · simp [ConsumerPc.step, hn]
      apply Alone.step taken (.inl (.loadId k ⟨idx, e⟩)) rfl
      refine Alone.step taken _ ?_ hz
      simp only [ConsumerPc.step, hids]
    have hgot : Alone c pid (taken, .inl (.readTs k ⟨idx, e⟩ (r.slot idx).frameId))
        (taken, k.resume (.got ⟨idx, ⟨(r.slot idx).frameId, (r.slot idx).tsNs,
          (r.slot idx).width, (r.slot idx).height, (r.slot idx).format⟩⟩)) := by
      have := alone_reads c pid taken k ⟨idx, e⟩ (r.slot idx).frameId
      simpa only [hslot] using this
    apply htake
    cases e with
    | none => exact hgot
    | some want =>
      simp only [Attempt.checkId]
      split
      · exact Alone.step _ _ rfl .refl
      · exact hgot

theorem alone_latest (c : CheckedConfig) (pid : ℕ) (r : Region) :
    Alone c pid (r, .inl .latestSeq) ((latest c pid r).1, .inr (.latest (latest c pid r).2)) := by
  unfold latest
  by_cases h0 : r.writeSeq = 0
  · rw [if_pos h0]
    apply Alone.step r (.inr (.latest none))
    · simp [ConsumerPc.step, h0]
    · exact .refl
  · rw [if_neg h0]
    have hacq := alone_tryAcquire c pid r .latest (r.writeSeq % c.capacity)
      none
    apply Alone.step r (.inl (tryAcquire c .latest (r.writeSeq % c.capacity) none))
    · simp [ConsumerPc.step, h0]
    · generalize acquire c pid r (r.writeSeq % c.capacity) none = t at hacq ⊢
      rcases t with ⟨r', g | _ | _⟩ <;> exact hacq

/-- One turn of `next_after`, where the rest of the loop is known to end as `again` says. -/
theorem alone_nextTurn {lastId n : ℕ} {again : Region → Region × NextStep}
    (hagain : ∀ r x, (∀ g, x ≠ .got g) →
      Alone c pid (r, (Caller.nextAfter lastId n).resume x) ((again r).1, .inr (.next (again r).2))) :
    Alone c pid (r, .inl (.nextSeq lastId n))
      ((nextTurn c pid lastId r again).1, .inr (.next (nextTurn c pid lastId r again).2)) := by
  unfold nextTurn
  split_ifs with h0 hahead hbehind
  · refine Alone.step r (.inr (.next .upToDate)) ?_ .refl
    simp [ConsumerPc.step, h0]
  · refine Alone.step r (.inr (.next .upToDate)) ?_ .refl
    simp [ConsumerPc.step, h0, hahead]
  · refine Alone.step r (.inr (.next (.tooFarBehind lastId r.writeSeq))) ?_ .refl
    simp [ConsumerPc.step, h0, hahead, hbehind]
  · have hacq := alone_tryAcquire c pid r (.nextAfter lastId n)
      (wanted lastId % c.capacity) (some (wanted lastId))
    apply Alone.step r (.inl (tryAcquire c (.nextAfter lastId n)
      (wanted lastId % c.capacity) (some (wanted lastId))))
    · simp [ConsumerPc.step, h0, hahead, hbehind]
    · generalize acquire c pid r (wanted lastId % c.capacity) (some (wanted lastId)) = t at hacq ⊢
      rcases t with ⟨r', g | _ | actual⟩
      · exact hacq
      · exact hacq.trans (hagain r' .busy (by simp))
      · exact hacq.trans (hagain r' (.mismatch actual) (by simp))

theorem alone_nextTurns (lastId n : ℕ) (r : Region) :
    Alone c pid (r, .inl (.nextSeq lastId n))
      ((nextTurns c pid lastId n r).1, .inr (.next (nextTurns c pid lastId n r).2)) := by
  induction n generalizing r with
  | zero =>
    apply alone_nextTurn
    rintro r (g | _ | actual) hx
    · exact absurd rfl (hx g)
    · exact .refl
    · exact .refl
  | succ n ih =>
    apply alone_nextTurn
    rintro r (g | _ | actual) hx
    · exact absurd rfl (hx g)
    · exact ih r
    · exact ih r

theorem run_call (q : Quiet) (k : Call) {r : Region} {answer : Answer}
    (h : Alone c pid (q.region, .inl k.enter) (r, .inr answer)) :
    (ring c producerPid).RunBy Undisturbed q.state (q.taking pid r answer.guard?).state := by
  refine .head ⟨.call pid k, trivial, ?_⟩ (alone_run h)
  simp [ring, State.step, Quiet.during, Quiet.state]

/-- The region while the producer copies: `k` bytes are there. -/
def copying (c : CheckedConfig) (r : Region) (p : Publication) (k : ℕ) : Region :=
  { r.setRef (p.idx c) writerLock with
    data := Function.update r.data (p.idx c)
      fun j => if j < k then p.data.getD j 0 else r.data (p.idx c) j }

theorem copying_zero (c : CheckedConfig) (r : Region) (p : Publication) :
    copying c r p 0 = r.setRef (p.idx c) writerLock := by
  simp [copying, Region.setRef, Region.modifySlot]

theorem copying_succ (c : CheckedConfig) (r : Region) (p : Publication) (k : ℕ) :
    (copying c r p k).writeByte (p.idx c) k (p.data.getD k 0) = copying c r p (k + 1) := by
  simp only [copying, Region.writeByte, Region.mk.injEq, true_and]
  rw [Function.update_self, Function.update_idem]
  congr 1
  funext j
  rw [Function.update_apply]
  by_cases hj : j = k
  · simp [hj]
  · have : j < k + 1 ↔ j < k := by omega
    simp [hj, this]

/-- The state of a ring in which the producer alone is at work. -/
def Quiet.producing (q : Quiet) (r : Region) (pc : ProducerPc) : State :=
  { q.state with region := r, producer := pc }

/-- One access of a producer that has not returned yet. -/
theorem run_producer {q : Quiet} {r : Region} {pc : ProducerPc} {t : ProducerStep}
    (ht : pc.step c r = t) (hpc : pc ≠ .idle) (hret : pc.returning = []) :
    (ring c producerPid).StepBy Undisturbed (q.producing r pc) (q.producing t.region t.pc) := by
  refine ⟨.producerStep, trivial, ?_⟩
  simp [ring, State.step, Quiet.producing, Quiet.state, State.afterProducer, State.calls, hpc, hret,
    ht]

theorem run_copy (q : Quiet) (r : Region) (p : Publication) {k : ℕ} (hk : k ≤ c.frameSize) :
    (ring c producerPid).RunBy Undisturbed (q.producing (r.setRef (p.idx c) writerLock) (.copy p 0))
      (q.producing (copying c r p k) (.copy p k)) := by
  induction k with
  | zero => rw [copying_zero]; exact .refl
  | succ k ih =>
    refine .tail (ih (by omega)) ?_
    rw [← copying_succ]
    have hstep : (ProducerPc.copy p k).step c (copying c r p k) =
        ⟨(copying c r p k).writeByte (p.idx c) k (p.data.getD k 0), .copy p (k + 1), none⟩ := by
      simp only [ProducerPc.step]
      rw [if_pos (by omega)]
    exact run_producer hstep (by simp) rfl

theorem write_eq (c : CheckedConfig) (r : Region) (p : Publication) :
    r.write c p =
      { ((((((copying c r p c.frameSize).modifySlot (p.idx c) fun m => { m with tsNs := p.tsNs })
          |>.modifySlot (p.idx c) fun m => { m with width := c.width })
          |>.modifySlot (p.idx c) fun m => { m with height := c.height })
          |>.modifySlot (p.idx c) fun m => { m with format := c.format.code })
          |>.modifySlot (p.idx c) fun m => { m with frameId := p.frameId }).setRef (p.idx c) 0 with
        writeSeq := p.frameId } := by
  simp [Region.write, copying, Region.setRef, Region.modifySlot]

theorem run_write (q : Quiet) (p : Publication) (h0 : (q.region.slot (p.idx c)).refCount = 0) :
    (ring c producerPid).RunBy Undisturbed (q.producing q.region (.takeSlot p))
      { q.state with region := q.region.write c p, published := q.published ++ [p] } := by
  have htake : (ProducerPc.takeSlot p).step c q.region =
      ⟨q.region.setRef (p.idx c) writerLock, .copy p 0, none⟩ := by simp [ProducerPc.step, h0]
  have hend : ∀ r, (ProducerPc.copy p c.frameSize).step c r =
      ⟨r.modifySlot (p.idx c) fun m => { m with tsNs := p.tsNs }, .writeWidth p, none⟩ := by
    intro r
    simp [ProducerPc.step]
  refine .head (run_producer htake (by simp) rfl) (.trans (run_copy q q.region p le_rfl) ?_)
  refine .head (run_producer (hend _) (by simp) rfl) ?_
  refine .head (run_producer rfl (by simp) rfl) ?_
  refine .head (run_producer rfl (by simp [ProducerPc.step]) rfl) ?_
  refine .head (run_producer rfl (by simp [ProducerPc.step]) rfl) ?_
  refine .head (run_producer rfl (by simp [ProducerPc.step]) rfl) ?_
  refine .head (run_producer rfl (by simp [ProducerPc.step]) rfl) ?_
  refine .single ⟨.producerStep, trivial, ?_⟩
  rw [write_eq]
  rfl

/-- A call of `publish` up to the choice of its id. -/
theorem run_chooseId (q : Quiet) {data : List UInt8} (tsNs : ℕ) (hlen : data.length = c.frameSize)
    (hseq : q.region.writeSeq + 1 < 2 ^ 64) :
    (ring c producerPid).RunBy Undisturbed q.state
      (q.producing q.region (.takeSlot ⟨q.region.writeSeq + 1, data, tsNs⟩)) := by
  have hload : (ProducerPc.loadSeq data tsNs).step c q.region =
      ⟨q.region, .takeSlot ⟨q.region.writeSeq + 1, data, tsNs⟩, none⟩ := by
    simp only [ProducerPc.step]
    rw [if_pos hseq]
  refine .head ⟨.publish data tsNs, trivial, ?_⟩ (.single (run_producer hload (by simp) rfl))
  simp [ring, State.step, Quiet.state, Quiet.producing, ProducerPc.enter, hlen]

theorem run_publish (q : Quiet) (data : List UInt8) (tsNs : ℕ) :
    (ring c producerPid).RunBy Undisturbed q.state
      (q.publishing c data tsNs).state := by
  unfold Quiet.publishing
  rcases publish_cases c q.region data tsNs with
    ⟨hlen, h⟩ | ⟨hlen, hseq, h⟩ | ⟨p, rfl, hlen, hseq, ⟨h0, h⟩ | ⟨h0, h⟩⟩ <;> rw [h]
  · refine .single ⟨.publish data tsNs, trivial, ?_⟩
    simp [ring, State.step, Quiet.state, Quiet.record, ProducerPc.enter, hlen]
  · have hload : (ProducerPc.loadSeq data tsNs).step c q.region =
        ⟨q.region, .idle, some (.error (.corrupted "frame id overflow"))⟩ := by
      simp only [ProducerPc.step]
      rw [if_neg hseq]
    refine .head ⟨.publish data tsNs, trivial, ?_⟩ (.single (run_producer hload (by simp) rfl))
    simp [ring, State.step, Quiet.state, Quiet.producing, Quiet.record, ProducerPc.enter, hlen]
  · have htake : (ProducerPc.takeSlot ⟨q.region.writeSeq + 1, data, tsNs⟩).step c q.region =
        ⟨q.region, .loadReaders ⟨q.region.writeSeq + 1, data, tsNs⟩, none⟩ := by
      simp [ProducerPc.step, h0]
    refine (run_chooseId q tsNs hlen hseq).trans ?_
    refine .head (run_producer htake (by simp) rfl) ?_
    refine .head (run_producer rfl (by simp) rfl) ?_
    exact .single (run_producer rfl (by simp [ProducerPc.step]) rfl)
  · exact (run_chooseId q tsNs hlen hseq).trans (run_write q _ h0)

/-- Each operation is a run of the interleaved ring. -/
theorem run_operation {o : Operation} (h : q.step c o = some q') :
    (ring c producerPid).RunBy Undisturbed q.state q'.state := by
  cases o with
  | publish data tsNs => cases h; exact run_publish q data tsNs
  | latest pid => cases h; exact run_call q .latest (alone_latest c pid _)
  | nextAfter pid lastId => cases h; exact run_call q (.nextAfter lastId) (alone_nextTurns lastId _ _)
  | dropGuard g =>
    simp only [Quiet.step] at h
    split at h
    case isFalse => cases h
    case isTrue hg =>
      cases h
      refine .single ⟨.dropGuard g, trivial, ?_⟩
      simp [ring, State.step, Quiet.state, hg]

/-- What the operations reach, one after the other, the interleaved ring reaches too. -/
theorem quiet_reachable (h : (operations c).Reachable q) :
    (ring c producerPid).ReachableBy Undisturbed q.state := by
  induction h with
  | init h0 => cases h0; exact .init ⟨fun _ => true, rfl, rfl⟩
  | step _ _ hs ih => exact ih.run (run_operation hs)

end AutoTargeting.Ring
