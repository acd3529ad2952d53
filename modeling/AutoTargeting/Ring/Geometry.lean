import AutoTargeting.Ring.Invariant

namespace AutoTargeting.Ring

open Runs

variable {c : CheckedConfig} {producerPid : ℕ} {r r' : Region} {s s' : State}

/-- Width, height and format. -/
def SlotMeta.shape (m : SlotMeta) : ℕ × ℕ × ℕ := (m.width, m.height, m.format)

def FrameView.shape (v : FrameView) : ℕ × ℕ × ℕ := (v.width, v.height, v.format)

def CheckedConfig.shape (c : CheckedConfig) : ℕ × ℕ × ℕ := (c.width, c.height, c.format.code)

/-- What the call under way has stored of the shape so far. -/
def ProducerPc.Shaping (c : CheckedConfig) (r : Region) : ProducerPc → Prop
  | writeHeight p => (r.slot (p.idx c)).width = c.width
  | writeFormat p => (r.slot (p.idx c)).width = c.width ∧ (r.slot (p.idx c)).height = c.height
  | storeId p => (r.slot (p.idx c)).shape = c.shape
  | idle | loadSeq _ _ | takeSlot _ | loadReaders _ | countDrop _ _ | copy _ _ | writeWidth _
  | releaseSlot _ | storeSeq _ => True

/-- What a call has read of the shape so far. -/
def ConsumerPc.Shaped (c : CheckedConfig) : ConsumerPc → Prop
  | readHeight _ _ _ _ w => w = c.width
  | readFormat _ _ _ _ w h => w = c.width ∧ h = c.height
  | latestSeq | nextSeq _ _ | loadRef _ _ _ | casRef _ _ _ _ | storePid _ _ | loadId _ _
  | releaseMismatch _ _ _ | readTs _ _ _ | readWidth _ _ _ _ => True

/-- A slot that has carried a frame has the shape of the ring, and so has what is read of it. -/
structure Shapes (c : CheckedConfig) (s : State) : Prop where
  slots : ∀ i, (s.region.slot i).frameId ≠ 0 → (s.region.slot i).shape = c.shape
  writing : s.producer.Shaping c s.region
  ops : ∀ op ∈ s.ops, op.pc.Shaped c
  guards : ∀ h ∈ s.guards, h.guard.view.shape = c.shape

/-- No shape changes, nor what carries a frame. -/
structure Region.SameShapes (r r' : Region) : Prop where
  shape : ∀ i, (r'.slot i).shape = (r.slot i).shape
  frameId : ∀ i, (r'.slot i).frameId = (r.slot i).frameId

theorem Region.SameShapes.refl (r : Region) : r.SameShapes r := ⟨fun _ => rfl, fun _ => rfl⟩

theorem sameShapes_modifySlot (r : Region) (i : ℕ) {f : SlotMeta → SlotMeta}
    (hshape : ∀ m, (f m).shape = m.shape) (hid : ∀ m, (f m).frameId = m.frameId) :
    r.SameShapes (r.modifySlot i f) := by
  constructor
  all_goals
    intro j
    rw [Region.modifySlot_slot]
    by_cases hj : j = i
    · subst hj
      simp only [if_true, hshape, hid]
    · simp only [if_neg hj]

theorem sameShapes_setRef (r : Region) (i n : ℕ) : r.SameShapes (r.setRef i n) :=
  sameShapes_modifySlot r i (fun _ => rfl) (fun _ => rfl)

theorem ProducerPc.Shaping.congr {pc : ProducerPc} (hsame : r.SameShapes r')
    (h : pc.Shaping c r) : pc.Shaping c r' := by
  have hwidth (i : ℕ) : (r'.slot i).width = (r.slot i).width := congrArg (·.1) (hsame.shape i)
  have hheight (i : ℕ) : (r'.slot i).height = (r.slot i).height :=
    congrArg (·.2.1) (hsame.shape i)
  cases pc with
  | writeHeight p => exact (hwidth _).trans h
  | writeFormat p => exact ⟨(hwidth _).trans h.1, (hheight _).trans h.2⟩
  | storeId p => exact (hsame.shape _).trans h
  | idle | loadSeq | takeSlot | loadReaders | countDrop | copy | writeWidth | releaseSlot
  | storeSeq => trivial

theorem slots_sameShapes (hsame : r.SameShapes r')
    (h : ∀ i, (r.slot i).frameId ≠ 0 → (r.slot i).shape = c.shape) (i : ℕ)
    (hi : (r'.slot i).frameId ≠ 0) : (r'.slot i).shape = c.shape := by
  rw [hsame.frameId] at hi
  exact (hsame.shape i).trans (h i hi)

theorem Shapes.congr (h : Shapes c s) (hsame : s.region.SameShapes s'.region)
    (hproducer : s'.producer = s.producer) (hops : ∀ op ∈ s'.ops, op.pc.Shaped c)
    (hguards : ∀ g ∈ s'.guards, g.guard.view.shape = c.shape) : Shapes c s' where
  slots := slots_sameShapes hsame h.slots
  writing := hproducer ▸ h.writing.congr hsame
  ops := hops
  guards := hguards

theorem consumer_sameShapes (c : CheckedConfig) (pid : ℕ) (r : Region) (pc : ConsumerPc) :
    r.SameShapes (pc.step c pid r).region := by
  cases pc with
  | latestSeq | loadRef =>
    simp only [ConsumerPc.step]
    split <;> exact .refl r
  | nextSeq =>
    simp only [ConsumerPc.step]
    split_ifs <;> exact .refl r
  | casRef k a n cur =>
    simp only [ConsumerPc.step]
    split
    · exact sameShapes_setRef r a.idx (cur + 1)
    · exact .refl r
  | storePid k a =>
    exact sameShapes_modifySlot r a.idx (f := fun m => { m with holderPid := pid }) (fun _ => rfl)
      (fun _ => rfl)
  | releaseMismatch k a actual => exact sameShapes_setRef r a.idx _
  | loadId | readTs | readWidth | readHeight | readFormat => exact .refl r

theorem reaper_sameShapes (c : CheckedConfig) (alive : ℕ → Bool) (call : ReapCall) (r : Region)
    (pc : ReaperPc) : r.SameShapes (pc.step c alive call r).region := by
  cases pc with
  | loadRef | checkAlive =>
    simp only [ReaperPc.step]
    split_ifs <;> exact .refl r
  | casLock idx freed | casOne idx freed =>
    simp only [ReaperPc.step]
    split
    · exact sameShapes_setRef r idx 0
    · exact .refl r
  | loadPid | readTs => exact .refl r

/-- What a consumer's step leaves behind, an answer included. -/
def ShapedNext (c : CheckedConfig) : ConsumerPc ⊕ Answer → Prop
  | .inl pc => pc.Shaped c
  | .inr answer => ∀ g, answer.guard? = some g → g.view.shape = c.shape

theorem shapedNext_of_none {answer : Answer} (h : answer.guard? = none) :
    ShapedNext c (.inr answer) := by
  intro g hg
  cases h.symm.trans hg

theorem shapedNext_resume {k : Caller} {x : Acquired}
    (hx : ∀ g, x = .got g → g.view.shape = c.shape) : ShapedNext c (k.resume x) := by
  rcases k with _ | ⟨_, _ | n⟩ <;> rcases x with g | _ | _ <;> simp_all [Caller.resume,
    ShapedNext, Answer.guard?, ConsumerPc.Shaped]

theorem shapedNext_spin (k : Caller) (a : Attempt) (n : ℕ) : ShapedNext c (k.spin a n) := by
  cases n with
  | zero => exact shapedNext_resume nofun
  | succ n => trivial

theorem consumer_shaped (hslots : ∀ i, (r.slot i).frameId ≠ 0 → (r.slot i).shape = c.shape)
    {pc : ConsumerPc} (pid : ℕ) (hcoherent : pc.Coherent r) (h : pc.Shaped c) :
    ShapedNext c (pc.step c pid r).next := by
  cases pc with
  | latestSeq =>
    simp only [ConsumerPc.step]
    split
    · exact shapedNext_of_none rfl
    · trivial
  | nextSeq lastId n =>
    simp only [ConsumerPc.step]
    split_ifs
    · exact shapedNext_of_none rfl
    · exact shapedNext_of_none rfl
    · exact shapedNext_of_none rfl
    · trivial
  | loadRef k a n =>
    simp only [ConsumerPc.step]
    split
    · exact shapedNext_spin k a n
    · trivial
  | casRef k a n cur =>
    simp only [ConsumerPc.step]
    split
    · trivial
    · exact shapedNext_spin k a n
  | loadId k a =>
    simp only [ConsumerPc.step, ShapedNext, Attempt.checkId]
    split
    · split <;> trivial
    · trivial
  | releaseMismatch k a actual => exact shapedNext_resume (by simp)
  | storePid | readTs => trivial
  | readWidth k a actual ts => exact congrArg (·.1) (hslots a.idx hcoherent.1)
  | readHeight k a actual ts w => exact ⟨h, congrArg (·.2.1) (hslots a.idx hcoherent.1)⟩
  | readFormat k a actual ts w hgt =>
    apply shapedNext_resume
    rintro g ⟨⟩
    obtain ⟨rfl, rfl⟩ := h
    exact congrArg (fun shape => (c.width, c.height, shape.2.2)) (hslots a.idx hcoherent.1)

theorem shapes_consumerStep (hseen : Seen s) (h : Shapes c s) {op : Op} (hop : op ∈ s.ops) :
    Shapes c (s.afterConsumer op (op.pc.step c op.pid s.region)) := by
  have hnext := consumer_shaped h.slots op.pid (hseen.ops op hop) (h.ops op hop)
  refine h.congr ?_ (afterConsumer_producer ..) (fun o ho => ?_) (fun g hg => ?_)
  · rw [afterConsumer_region]
    exact consumer_sameShapes ..
  · rcases mem_ops_afterConsumer ho with ho | ⟨pc, hpc, rfl⟩
    · exact h.ops o ho
    · rw [hpc] at hnext
      exact hnext
  · rcases mem_guards_afterConsumer hg with hg | ⟨answer, ha, hg⟩
    · exact h.guards g hg
    · rw [ha] at hnext
      exact hnext _ hg

/-- A store into a slot keeps the shapes, if it leaves the slot with the shape of the ring or
without a frame. -/
theorem slots_modifySlot {i : ℕ} {f : SlotMeta → SlotMeta}
    (h : ∀ j, (r.slot j).frameId ≠ 0 → (r.slot j).shape = c.shape)
    (hf : (f (r.slot i)).frameId ≠ 0 → (f (r.slot i)).shape = c.shape) (j : ℕ)
    (hj : ((r.modifySlot i f).slot j).frameId ≠ 0) :
    ((r.modifySlot i f).slot j).shape = c.shape := by
  rw [Region.modifySlot_slot] at hj ⊢
  by_cases hji : j = i
  · rw [if_pos hji] at hj ⊢
    exact hf hj
  · rw [if_neg hji] at hj ⊢
    exact h j hj

theorem producer_shapes (hslots : ∀ i, (r.slot i).frameId ≠ 0 → (r.slot i).shape = c.shape)
    {pc : ProducerPc} (h : pc.Shaping c r) :
    (∀ i, ((pc.step c r).region.slot i).frameId ≠ 0 →
      ((pc.step c r).region.slot i).shape = c.shape) ∧
      (pc.step c r).pc.Shaping c (pc.step c r).region := by
  cases pc with
  | idle | loadReaders | countDrop | storeSeq => exact ⟨hslots, trivial⟩
  | loadSeq data tsNs =>
    simp only [ProducerPc.step]
    split <;> exact ⟨hslots, trivial⟩
  | takeSlot p =>
    simp only [ProducerPc.step]
    split
    · exact ⟨slots_sameShapes (sameShapes_setRef r _ _) hslots, trivial⟩
    · exact ⟨hslots, trivial⟩
  | copy p k =>
    simp only [ProducerPc.step]
    split
    · exact ⟨hslots, trivial⟩
    · have hsame := sameShapes_modifySlot r (p.idx c) (f := fun m => { m with tsNs := p.tsNs })
        (fun _ => rfl) (fun _ => rfl)
      exact ⟨slots_sameShapes hsame hslots, trivial⟩
  | writeWidth p =>
    refine ⟨slots_modifySlot (f := fun m => { m with width := c.width }) hslots fun hid => ?_, ?_⟩
    · exact congrArg (fun shape => (c.width, shape.2)) (hslots _ hid)
    · simp [ProducerPc.Shaping, ProducerPc.step, Region.modifySlot_slot]
  | writeHeight p =>
    have hwidth : (r.slot (p.idx c)).width = c.width := h
    refine ⟨slots_modifySlot (f := fun m => { m with height := c.height }) hslots fun hid => ?_, ?_⟩
    · exact congrArg (fun shape => (shape.1, c.height, shape.2.2)) (hslots _ hid)
    · simp [ProducerPc.Shaping, ProducerPc.step, Region.modifySlot_slot, hwidth]
  | writeFormat p =>
    obtain ⟨hwidth, hheight⟩ := h
    refine ⟨slots_modifySlot (f := fun m => { m with format := c.format.code }) hslots
      fun hid => ?_, ?_⟩
    · exact congrArg (fun shape => (shape.1, shape.2.1, c.format.code)) (hslots _ hid)
    · simp [ProducerPc.Shaping, ProducerPc.step, Region.modifySlot_slot, SlotMeta.shape, hwidth,
        hheight, CheckedConfig.shape]
  | storeId p =>
    exact ⟨slots_modifySlot (f := fun m => { m with frameId := p.frameId }) hslots fun _ => h,
      trivial⟩
  | releaseSlot p => exact ⟨slots_sameShapes (sameShapes_setRef r _ 0) hslots, trivial⟩

theorem shapes_step (hseen : Seen s) (h : Shapes c s) {e : Event}
    (hs : s.step c producerPid e = some s') : Shapes c s' := by
  cases step_stepped hs with
  | refused => exact h
  | publish => exact ⟨h.slots, trivial, h.ops, h.guards⟩
  | producerStep =>
    obtain ⟨hslots, hwriting⟩ := producer_shapes h.slots h.writing
    exact ⟨hslots, hwriting, h.ops, h.guards⟩
  | @call pid k =>
    refine h.congr (.refl _) rfl (fun op hop => ?_) h.guards
    rcases Multiset.mem_cons.mp hop with rfl | hop
    · cases k <;> trivial
    · exact h.ops op hop
  | consumerStep hop => exact shapes_consumerStep hseen h hop
  | dropGuard =>
    refine h.congr (sameShapes_setRef ..) rfl h.ops fun g hg => ?_
    exact h.guards g (Multiset.mem_of_mem_erase hg)
  | reaperStep => exact h.congr (reaper_sameShapes ..) rfl h.ops h.guards
  | reap | spawn => exact h.congr (.refl _) rfl h.ops h.guards
  | die =>
    exact h.congr (.refl _) rfl (fun op hop => h.ops op (Multiset.mem_of_mem_filter hop))
      fun g hg => h.guards g (Multiset.mem_of_mem_filter hg)

theorem shapes_start (alive : ℕ → Bool) : Shapes c (.start alive) where
  slots _ hi := absurd rfl hi
  writing := trivial
  ops _ hop := by cases hop
  guards _ hg := by cases hg

end AutoTargeting.Ring
