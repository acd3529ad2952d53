import AutoTargeting.Library.Pool
import AutoTargeting.Ring.System

namespace AutoTargeting.Ring

open Runs

variable {c : CheckedConfig} {producerPid : ℕ} {s s' : State} {i : ℕ}

inductive Stepped (c : CheckedConfig) (producerPid : ℕ) (s : State) : Event → State → Prop
  | refused {data : List UInt8} {tsNs : ℕ} (hup : s.producerUp = true)
    (hidle : s.producer = .idle) (hlen : data.length ≠ c.frameSize) :
    Stepped c producerPid s (.publish data tsNs) s
  | publish {data : List UInt8} {tsNs : ℕ} (hup : s.producerUp = true)
    (hidle : s.producer = .idle) (hlen : data.length = c.frameSize) :
    Stepped c producerPid s (.publish data tsNs) { s with producer := .loadSeq data tsNs }
  | producerStep (hup : s.producerUp = true) (hbusy : s.producer ≠ .idle) :
    Stepped c producerPid s .producerStep (s.afterProducer (s.producer.step c s.region))
  | call {pid : ℕ} {k : Call} (halive : s.alive pid = true) :
    Stepped c producerPid s (.call pid k) { s with ops := ⟨pid, k.enter⟩ ::ₘ s.ops }
  | consumerStep {op : Op} (hop : op ∈ s.ops) :
    Stepped c producerPid s (.consumerStep op)
      (s.afterConsumer op (op.pc.step c op.pid s.region))
  | dropGuard {g : Hold} (hg : g ∈ s.guards) :
    Stepped c producerPid s (.dropGuard g)
      { s with region := s.region.dropGuard g.guard, guards := s.guards.erase g }
  | reap {pid maxAgeNs nowNs : ℕ} (halive : s.alive pid = true) :
    Stepped c producerPid s (.reap pid maxAgeNs nowNs)
      { s with reapers := ⟨⟨pid, maxAgeNs, producerPid != 0 && !pidAlive s.alive producerPid,
        nowNs⟩, .loadRef 0 0⟩ ::ₘ s.reapers }
  | reaperStep {rp : Reap} (hrp : rp ∈ s.reapers) :
    Stepped c producerPid s (.reaperStep rp)
      (s.afterReaper rp (rp.pc.step c s.alive rp.call s.region))
  | spawn {pid : ℕ} (hdead : s.alive pid = false) :
    Stepped c producerPid s (.spawn pid) { s with alive := Function.update s.alive pid true }
  | die {pid : ℕ} (halive : s.alive pid = true) :
    Stepped c producerPid s (.die pid) (s.afterDeath producerPid pid)

theorem step_stepped {e : Event} (hs : s.step c producerPid e = some s') :
    Stepped c producerPid s e s' := by
  cases e with
  | publish data tsNs =>
    simp only [State.step] at hs
    split at hs
    case isFalse => cases hs
    case isTrue hidle =>
      unfold ProducerPc.enter at hs
      split_ifs at hs with hlen <;> cases hs
      · exact .refused hidle.1 hidle.2 hlen
      · exact .publish hidle.1 hidle.2 (not_not.mp hlen)
  | producerStep =>
    simp only [State.step] at hs
    split at hs
    case isTrue hbusy =>
      cases hs
      exact .producerStep hbusy.1 hbusy.2
    case isFalse => cases hs
  | call | consumerStep | dropGuard | reap | reaperStep | die =>
    simp only [State.step] at hs
    split at hs <;> cases hs
    constructor
    assumption
  | spawn pid =>
    simp only [State.step] at hs
    split at hs
    case isTrue => cases hs
    case isFalse hdead =>
      cases hs
      exact .spawn (Bool.eq_false_of_not_eq_true hdead)

theorem holds_pos_of_op {op : Op} (hop : op ∈ s.ops) (hi : op.pc.holding = some i) :
    0 < s.holds i := by
  have : 0 < s.ops.countP (·.pc.holding = some i) := Multiset.countP_pos_of_mem hop hi
  unfold State.holds
  omega

theorem holds_pos_of_guard {g : Hold} (hg : g ∈ s.guards) : 0 < s.holds g.guard.slotIdx := by
  have : 0 < s.guards.countP (·.guard.slotIdx = g.guard.slotIdx) :=
    Multiset.countP_pos_of_mem hg rfl
  unfold State.holds
  omega

theorem holds_pos_of_orphan (hi : i ∈ s.orphans) : 0 < s.holds i := by
  have : 0 < s.orphans.count i := Multiset.count_pos.mpr hi
  unfold State.holds
  omega

theorem modifySlot_refCount (r : Region) (j : ℕ) (f : SlotMeta → SlotMeta)
    (hf : ∀ m, (f m).refCount = m.refCount) (i : ℕ) :
    ((r.modifySlot j f).slot i).refCount = (r.slot i).refCount := by
  rw [Region.modifySlot_slot]
  split
  case isTrue hi => rw [hf, hi]
  case isFalse => rfl

/-- All that a step of the producer does to the counts: nothing, or it locks a slot of
count zero, or it gives its slot back with count zero. -/
theorem producer_locks (c : CheckedConfig) (r : Region) (pc : ProducerPc) :
    ((pc.step c r).pc.writing c = pc.writing c ∧
      ∀ j, ((pc.step c r).region.slot j).refCount = (r.slot j).refCount) ∨
    (∃ i, pc.writing c = none ∧ (pc.step c r).pc.writing c = some i ∧ (r.slot i).refCount = 0 ∧
      ∀ j, ((pc.step c r).region.slot j).refCount =
        if j = i then writerLock else (r.slot j).refCount) ∨
    (∃ i, pc.writing c = some i ∧ (pc.step c r).pc.writing c = none ∧
      ∀ j, ((pc.step c r).region.slot j).refCount = if j = i then 0 else (r.slot j).refCount) := by
  cases pc with
  | idle | loadReaders | countDrop | storeSeq => exact .inl ⟨rfl, fun _ => rfl⟩
  | loadSeq data tsNs =>
    simp only [ProducerPc.step]
    split <;> exact .inl ⟨rfl, fun _ => rfl⟩
  | takeSlot p =>
    simp only [ProducerPc.step]
    split
    case isTrue h0 => exact .inr (.inl ⟨p.idx c, rfl, rfl, h0, fun j => Region.setRef_refCount ..⟩)
    case isFalse => exact .inl ⟨rfl, fun _ => rfl⟩
  | copy p k =>
    simp only [ProducerPc.step]
    split
    · exact .inl ⟨rfl, fun _ => rfl⟩
    · refine .inl ⟨rfl, fun j => ?_⟩
      dsimp only
      apply modifySlot_refCount
      intro m
      rfl
  | writeWidth | writeHeight | writeFormat | storeId =>
    refine .inl ⟨rfl, fun j => ?_⟩
    dsimp only [ProducerPc.step]
    apply modifySlot_refCount
    intro m
    rfl
  | releaseSlot p => exact .inr (.inr ⟨p.idx c, rfl, rfl, fun j => Region.setRef_refCount ..⟩)

/-- What a consumer's step adds to the references, beside what its call owned. -/
theorem holds_afterConsumer {op : Op} (hop : op ∈ s.ops) (t : ConsumerStep) (i : ℕ) :
    (s.afterConsumer op t).holds i + op.pc.held i = s.holds i + heldAfter i t.next := by
  have herase := countP_erase_add (fun o : Op => o.pc.holding = some i) hop
  unfold State.afterConsumer
  rcases ht : t.next with pc | answer
  · simp only [State.holds, Multiset.countP_cons, heldAfter, ConsumerPc.held]
    omega
  · rcases hg : answer.guard? with _ | g
    · simp only [State.holds, heldAfter, ConsumerPc.held, hg, Option.map_none, Option.getD_none]
      omega
    · simp only [State.holds, Multiset.countP_cons, heldAfter, ConsumerPc.held, hg,
        Option.map_some, Option.getD_some, FrameGuard.held]
      omega

@[simp] theorem afterConsumer_region (op : Op) (t : ConsumerStep) :
    (s.afterConsumer op t).region = t.region := by
  unfold State.afterConsumer; split <;> rfl

@[simp] theorem afterConsumer_producer (op : Op) (t : ConsumerStep) :
    (s.afterConsumer op t).producer = s.producer := by
  unfold State.afterConsumer; split <;> rfl

@[simp] theorem afterConsumer_published (op : Op) (t : ConsumerStep) :
    (s.afterConsumer op t).published = s.published := by
  unfold State.afterConsumer; split <;> rfl

theorem afterConsumer_rest (op : Op) (t : ConsumerStep) :
    (s.afterConsumer op t).producerUp = s.producerUp ∧
      (s.afterConsumer op t).alive = s.alive ∧
      (s.afterConsumer op t).reapers = s.reapers ∧
      (s.afterConsumer op t).orphans = s.orphans := by
  unfold State.afterConsumer
  split <;> exact ⟨rfl, rfl, rfl, rfl⟩

/-- The calls after a consumer's step: the others, and its own at its next position. -/
theorem mem_ops_afterConsumer {op o : Op} {t : ConsumerStep}
    (h : o ∈ (s.afterConsumer op t).ops) :
    o ∈ s.ops ∨ ∃ pc, t.next = .inl pc ∧ o = ⟨op.pid, pc⟩ := by
  unfold State.afterConsumer at h
  split at h
  case h_1 pc ht =>
    rcases Multiset.mem_cons.mp h with rfl | h
    · exact .inr ⟨pc, ht, rfl⟩
    · exact .inl (Multiset.mem_of_mem_erase h)
  case h_2 => exact .inl (Multiset.mem_of_mem_erase h)

/-- The guards after a consumer's step: the old ones, and the one it handed out. -/
theorem mem_guards_afterConsumer {op : Op} {g : Hold} {t : ConsumerStep}
    (h : g ∈ (s.afterConsumer op t).guards) :
    g ∈ s.guards ∨ ∃ answer, t.next = .inr answer ∧ answer.guard? = some g.guard := by
  unfold State.afterConsumer at h
  split at h
  case h_1 => exact .inl h
  case h_2 answer ht =>
    simp only at h
    split at h
    case h_1 g' hg =>
      rcases Multiset.mem_cons.mp h with rfl | h
      · exact .inr ⟨answer, ht, hg⟩
      · exact .inl h
    case h_2 => exact .inl h

/-- The references of a process that dies become orphans: no count changes. -/
theorem holds_afterDeath (s : State) (producerPid pid i : ℕ) :
    (s.afterDeath producerPid pid).holds i = s.holds i := by
  have hops := countP_filter_add_not (fun o : Op => o.pc.holding = some i) (·.pid = pid) s.ops
  have hguards :=
    countP_filter_add_not (fun h : Hold => h.guard.slotIdx = i) (·.pid = pid) s.guards
  simp only [State.holds, State.afterDeath, Multiset.count_add, count_filterMap,
    count_map_eq_countP, ne_eq]
  omega

end AutoTargeting.Ring
