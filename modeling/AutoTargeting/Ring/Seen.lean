import AutoTargeting.Ring.Counted
import AutoTargeting.Ring.FramesStep

namespace AutoTargeting.Ring

open Runs

variable {c : CheckedConfig} {producerPid : ℕ} {r r' : Region} {s s' : State}

/-- What a call knows about its slot: before it counted itself, that the slot has carried
a frame; after, what it read from the slot. -/
def ConsumerPc.Coherent (r : Region) : ConsumerPc → Prop
  | latestSeq | nextSeq _ _ | releaseMismatch _ _ _ => True
  | loadRef _ a _ | casRef _ a _ _ | storePid _ a | loadId _ a => (r.slot a.idx).frameId ≠ 0
  | readTs _ a actual => (r.slot a.idx).frameId ≠ 0 ∧ actual = (r.slot a.idx).frameId
  | readWidth _ a actual ts | readHeight _ a actual ts _ | readFormat _ a actual ts _ _ =>
    (r.slot a.idx).frameId ≠ 0 ∧ actual = (r.slot a.idx).frameId ∧ ts = (r.slot a.idx).tsNs

/-- The guard's view is that of the frame in its slot. -/
structure FrameGuard.Coherent (r : Region) (g : FrameGuard) : Prop where
  pos : g.view.frameId ≠ 0
  frameId : g.view.frameId = (r.slot g.slotIdx).frameId
  tsNs : g.view.tsNs = (r.slot g.slotIdx).tsNs

structure Seen (s : State) : Prop where
  ops : ∀ op ∈ s.ops, op.pc.Coherent s.region
  guards : ∀ h ∈ s.guards, h.guard.Coherent s.region

theorem coherent_congr (pc : ConsumerPc) (h : r.SameFrames r') (hc : pc.Coherent r) :
    pc.Coherent r' := by
  cases pc with
  | latestSeq | nextSeq | releaseMismatch => trivial
  | _ => simpa only [ConsumerPc.Coherent, h.frameId, h.tsNs] using hc

theorem FrameGuard.Coherent.congr {g : FrameGuard} (h : r.SameFrames r') (hc : g.Coherent r) :
    g.Coherent r' :=
  ⟨hc.pos, hc.frameId.trans (h.frameId _).symm, hc.tsNs.trans (h.tsNs _).symm⟩

/-- What a consumer's step leaves behind, an answer included. -/
def CoherentNext (r : Region) : ConsumerPc ⊕ Answer → Prop
  | .inl pc => pc.Coherent r
  | .inr answer => ∀ g, answer.guard? = some g → g.Coherent r

theorem coherentNext_of_none {answer : Answer} (h : answer.guard? = none) :
    CoherentNext r (.inr answer) := by
  intro g hg
  cases h.symm.trans hg

theorem coherentNext_resume {k : Caller} {x : Acquired}
    (hx : ∀ g, x = .got g → g.Coherent r) : CoherentNext r (k.resume x) := by
  rcases k with _ | ⟨_, _ | n⟩ <;> rcases x with g | _ | _ <;> simp_all [Caller.resume,
    CoherentNext, Answer.guard?, ConsumerPc.Coherent]

theorem coherentNext_spin {k : Caller} {a : Attempt} {n : ℕ} (ha : (r.slot a.idx).frameId ≠ 0) :
    CoherentNext r (k.spin a n) := by
  cases n with
  | zero => exact coherentNext_resume nofun
  | succ n => exact ha

/-- The slot of an id in the window has carried a frame. -/
theorem Window.acquirable (h : Window c r) {id : ℕ} (h1 : 1 ≤ id) (hid : id ≤ r.writeSeq)
    (k : Caller) (want : Option ℕ) : (tryAcquire c k (id % c.capacity) want).Coherent r := by
  have := h id h1 hid
  simp only [tryAcquire, ConsumerPc.Coherent, Nat.mod_mod]
  omega

theorem consumer_coherent (h : Window c r) {op : ConsumerPc} (pid : ℕ) (ho : op.Coherent r) :
    CoherentNext (op.step c pid r).region (op.step c pid r).next := by
  have hsame := consumer_sameFrames c pid r op
  cases op with
  | latestSeq =>
    simp only [ConsumerPc.step]
    split
    · exact coherentNext_of_none rfl
    · exact h.acquirable (by omega) le_rfl .latest none
  | nextSeq lastId n =>
    simp only [ConsumerPc.step]
    split_ifs with h0 hahead hbehind
    · exact coherentNext_of_none rfl
    · exact coherentNext_of_none rfl
    · exact coherentNext_of_none rfl
    · refine h.acquirable ?_ (by omega) (.nextAfter lastId n) (some (wanted lastId))
      unfold wanted
      omega
  | loadRef k a n =>
    simp only [ConsumerPc.step]
    split
    · exact coherentNext_spin ho
    · exact ho
  | casRef k a n cur =>
    simp only [ConsumerPc.step] at hsame ⊢
    split
    case isTrue hcur =>
      rw [if_pos hcur] at hsame
      exact coherent_congr (.storePid k a) hsame ho
    case isFalse => exact coherentNext_spin ho
  | storePid k a => exact coherent_congr (.loadId k a) hsame ho
  | loadId k a =>
    simp only [ConsumerPc.step, CoherentNext, Attempt.checkId]
    split
    · split
      · trivial
      · exact ⟨ho, rfl⟩
    · exact ⟨ho, rfl⟩
  | releaseMismatch k a actual => exact coherentNext_resume (by simp)
  | readTs k a actual => exact ⟨ho.1, ho.2, rfl⟩
  | readWidth k a actual ts => exact ho
  | readHeight k a actual ts w => exact ho
  | readFormat k a actual ts w hgt =>
    apply coherentNext_resume
    rintro g ⟨⟩
    exact ⟨ho.2.1 ▸ ho.1, ho.2.1, ho.2.2⟩

theorem seen_consumerStep (hw : Window c s.region) (h : Seen s) {op : Op} (hop : op ∈ s.ops) :
    Seen (s.afterConsumer op (op.pc.step c op.pid s.region)) := by
  have hsame := consumer_sameFrames c op.pid s.region op.pc
  have hnext := consumer_coherent hw op.pid (h.ops op hop)
  refine ⟨fun o ho => ?_, fun g hg => ?_⟩ <;> rw [afterConsumer_region]
  · rcases mem_ops_afterConsumer ho with ho | ⟨pc, hpc, rfl⟩
    · exact coherent_congr o.pc hsame (h.ops o ho)
    · rw [hpc] at hnext
      exact hnext
  · rcases mem_guards_afterConsumer hg with hg | ⟨answer, ha, hg⟩
    · exact (h.guards g hg).congr hsame
    · rw [ha] at hnext
      exact hnext _ hg

/-- The producer leaves alone whatever a call or a guard counts itself on. -/
theorem seen_producerStep (hc : Counted c producerPid s)
    (hf : Frames c s.region s.producer s.published) (h : Seen s) :
    Seen (s.afterProducer (s.producer.step c s.region)) := by
  refine ⟨fun op hop => ?_, fun g hg => ?_⟩
  · have hpos : ∀ i, (s.region.slot i).frameId ≠ 0 →
        ((s.producer.step c s.region).region.slot i).frameId ≠ 0 := by
      intro i hi
      rcases producer_frameId c s.region s.producer i with hsame | ⟨p, hp, hnew⟩
      · exact hsame ▸ hi
      · have := (hf.next p hp).1
        omega
    have hkeep : ∀ i, op.pc.holding = some i → _ := fun i hi =>
      producer_keeps c s.region s.producer (hc.writing_ne (holds_pos_of_op hop hi))
    have ho := h.ops op hop
    obtain ⟨pid, pc⟩ := op
    cases pc with
    | latestSeq | nextSeq | releaseMismatch => trivial
    | loadRef | casRef | storePid | loadId => exact hpos _ ho
    | readTs k a actual =>
      obtain ⟨hid, -, -⟩ := hkeep a.idx rfl
      exact ⟨hpos _ ho.1, ho.2.trans hid.symm⟩
    | readWidth k a | readHeight k a | readFormat k a =>
      obtain ⟨hid, hts, -⟩ := hkeep a.idx rfl
      exact ⟨hpos _ ho.1, ho.2.1.trans hid.symm, ho.2.2.trans hts.symm⟩
  · have hg' := h.guards g hg
    obtain ⟨hid, hts, -⟩ := producer_keeps c s.region s.producer
      (hc.writing_ne (holds_pos_of_guard hg))
    exact ⟨hg'.pos, hg'.frameId.trans hid.symm, hg'.tsNs.trans hts.symm⟩

end AutoTargeting.Ring
