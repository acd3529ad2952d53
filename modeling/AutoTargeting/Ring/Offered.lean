import AutoTargeting.Ring.Invariant

namespace AutoTargeting.Ring

variable {c : CheckedConfig} {producerPid : ℕ} {s s' : State} {r : Region}

def ProducerPc.underWay : ProducerPc → List (List UInt8)
  | idle => []
  | loadSeq data _ => [data]
  | takeSlot p | loadReaders p | countDrop p _ | copy p _ | writeWidth p | writeHeight p
  | writeFormat p | storeId p | releaseSlot p | storeSeq p => [p.data]

/-- The frames that were published and the one that may yet be, in the order of the calls. -/
def State.offered (s : State) : List (List UInt8) :=
  s.published.map (·.data) ++ s.producer.underWay

/-- The access with which a call returns an error. -/
def ProducerPc.fails (c : CheckedConfig) (r : Region) (pc : ProducerPc) : Bool :=
  match (pc.step c r).result with
  | some (.error _) => true
  | some (.ok _) | none => false

theorem underWay_length {pc : ProducerPc} (hpc : pc ≠ .idle) : pc.underWay.length = 1 := by
  cases pc with
  | idle => exact absurd rfl hpc
  | loadSeq | takeSlot | loadReaders | countDrop | copy | writeWidth | writeHeight | writeFormat
  | storeId | releaseSlot | storeSeq => rfl

/-- One access of the producer carries the frame on, publishes it or drops it. -/
theorem producer_underWay (c : CheckedConfig) (r : Region) (pc : ProducerPc) :
    (pc.returning.map (·.data) ++ (pc.step c r).pc.underWay).Sublist pc.underWay := by
  cases pc with
  | loadSeq data tsNs =>
    simp only [ProducerPc.step]
    split
    · exact .refl _
    · exact List.nil_sublist _
  | takeSlot p =>
    simp only [ProducerPc.step]
    split <;> exact .refl _
  | copy p k =>
    simp only [ProducerPc.step]
    split <;> exact .refl _
  | countDrop p cur => exact List.nil_sublist _
  | idle | loadReaders | writeWidth | writeHeight | writeFormat | storeId | releaseSlot
  | storeSeq => exact .refl _

/-- A published frame counts as published, a dropped one as dropped. -/
theorem producer_counts {pc : ProducerPc} (hroom : r.droppedFrames + 1 < 2 ^ 64) :
    pc.returning.length + (pc.step c r).region.droppedFrames + (pc.step c r).pc.underWay.length +
      (if pc.fails c r = true then 1 else 0) = r.droppedFrames + pc.underWay.length := by
  cases pc with
  | loadSeq data tsNs =>
    simp only [ProducerPc.fails, ProducerPc.step]
    split <;> simp [ProducerPc.returning, ProducerPc.underWay]
  | takeSlot p =>
    simp only [ProducerPc.fails, ProducerPc.step]
    split <;> simp [ProducerPc.returning, ProducerPc.underWay, Region.setRef]
  | copy p k =>
    simp only [ProducerPc.fails, ProducerPc.step]
    split <;> simp [ProducerPc.returning, ProducerPc.underWay, Region.writeByte]
  | countDrop p cur =>
    have hadd : fetchAdd r.droppedFrames = r.droppedFrames + 1 := Nat.mod_eq_of_lt hroom
    simp [ProducerPc.fails, ProducerPc.step, ProducerPc.returning, ProducerPc.underWay, hadd]
  | storeSeq p =>
    simp [ProducerPc.fails, ProducerPc.step, ProducerPc.returning, ProducerPc.underWay]
    omega
  | idle | loadReaders | writeWidth | writeHeight | writeFormat | storeId | releaseSlot =>
    simp [ProducerPc.fails, ProducerPc.step, ProducerPc.returning, ProducerPc.underWay,
      Region.setRef]

theorem reaper_droppedFrames (c : CheckedConfig) (alive : ℕ → Bool) (call : ReapCall) (r : Region)
    (pc : ReaperPc) : (pc.step c alive call r).region.droppedFrames = r.droppedFrames := by
  cases pc <;> simp only [ReaperPc.step] <;> (try split_ifs) <;> rfl

theorem step_droppedFrames {e : Event} (hs : s.step c producerPid e = some s')
    (he : e ≠ .producerStep) : s'.region.droppedFrames = s.region.droppedFrames := by
  cases step_stepped hs with
  | producerStep => exact absurd rfl he
  | consumerStep =>
    exact (congrArg Region.droppedFrames (afterConsumer_region ..)).trans
      (consumer_droppedFrames ..)
  | reaperStep => exact reaper_droppedFrames ..
  | refused | publish | call | dropGuard | reap | spawn | die => rfl

theorem calls_sublist_offered (s : State) : (s.calls.map (·.data)).Sublist s.offered := by
  have hreturning : (s.producer.returning.map (·.data)).Sublist s.producer.underWay :=
    (List.sublist_append_left _ _).trans (producer_underWay tinyConfig .fresh s.producer)
  rw [State.calls, State.offered, List.map_append]
  exact (List.Sublist.refl _).append hreturning

/-- A call of `publish` is refused, or offers its frame. -/
theorem offered_publish {data : List UInt8} {tsNs : ℕ}
    (hs : s.step c producerPid (.publish data tsNs) = some s') :
    if data.length = c.frameSize then s'.offered = s.offered ++ [data] else s' = s := by
  cases step_stepped hs with
  | refused hup hidle hlen =>
    rw [if_neg hlen]
  | publish hup hidle hlen =>
    rw [if_pos hlen, State.offered, State.offered, hidle]
    simp [ProducerPc.underWay]

/-- Nothing else offers a frame. -/
theorem offered_step {e : Event} (hs : s.step c producerPid e = some s')
    (he : ∀ data tsNs, e ≠ .publish data tsNs) : s'.offered.Sublist s.offered := by
  by_cases hproducer : e = .producerStep
  · subst hproducer
    cases step_stepped hs with
    | producerStep =>
      rw [State.offered, State.offered]
      simp only [State.afterProducer, State.calls, List.map_append, List.append_assoc]
      exact (List.Sublist.refl _).append (producer_underWay c s.region s.producer)
  · obtain ⟨hproducer, hpublished⟩ := step_keeps_producer hs hproducer he
    rw [State.offered, State.offered, hproducer, hpublished]

/-- The calls that were not refused, up to those that failed. -/
def State.accounted (s : State) : ℕ :=
  s.published.length + s.region.droppedFrames + s.producer.underWay.length

theorem accounted_publish {data : List UInt8} {tsNs : ℕ}
    (hs : s.step c producerPid (.publish data tsNs) = some s') (hlen : data.length = c.frameSize) :
    s'.accounted = s.accounted + 1 := by
  cases step_stepped hs with
  | refused hup hidle hnot => exact absurd hlen hnot
  | publish hup hidle hlen =>
    simp [State.accounted, hidle, ProducerPc.underWay]

/-- A call that fails is not accounted for any more. -/
theorem accounted_producerStep (hs : s.step c producerPid .producerStep = some s')
    (hroom : s.region.droppedFrames + 1 < 2 ^ 64) :
    s'.accounted + (if s.producer.fails c s.region = true then 1 else 0) = s.accounted := by
  cases step_stepped hs with
  | producerStep =>
    have hcounts : s.producer.returning.length + (s.producer.step c s.region).region.droppedFrames +
        (s.producer.step c s.region).pc.underWay.length +
          (if s.producer.fails c s.region = true then 1 else 0) =
        s.region.droppedFrames + s.producer.underWay.length := producer_counts hroom
    simp only [State.accounted, State.afterProducer, State.calls, List.length_append]
    omega

/-- A call under way is accounted for beside those that were dropped. -/
theorem busy_of_producerStep (hs : s.step c producerPid .producerStep = some s') :
    s.producer ≠ .idle ∧ s.region.droppedFrames + 1 ≤ s.accounted := by
  cases step_stepped hs with
  | producerStep hup hbusy =>
    refine ⟨hbusy, ?_⟩
    have hone := underWay_length hbusy
    unfold State.accounted
    omega

theorem accounted_step {e : Event} (hs : s.step c producerPid e = some s')
    (hproducer : e ≠ .producerStep) (he : ∀ data tsNs, e ≠ .publish data tsNs) :
    s'.accounted = s.accounted := by
  obtain ⟨hpc, hpublished⟩ := step_keeps_producer hs hproducer he
  rw [State.accounted, State.accounted, hpc, hpublished, step_droppedFrames hs hproducer]

/-- The call is over when it returns, and not before. -/
theorem producer_offered (c : CheckedConfig) (r : Region) {pc : ProducerPc} (hpc : pc ≠ .idle) :
    (pc.step c r).pc = .idle ↔ (pc.step c r).result ≠ none := by
  cases pc with
  | idle => exact absurd rfl hpc
  | loadSeq | takeSlot | copy =>
    simp only [ProducerPc.step]
    split <;> simp
  | loadReaders | countDrop | writeWidth | writeHeight | writeFormat | storeId | releaseSlot
  | storeSeq => simp [ProducerPc.step]

end AutoTargeting.Ring
