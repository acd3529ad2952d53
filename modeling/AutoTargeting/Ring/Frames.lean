import AutoTargeting.Ring.Publish

namespace AutoTargeting.Ring

variable {c : CheckedConfig} {r r' : Region} {pc : ProducerPc} {done : List Publication}

/-- The first `k` bytes of slot `i` are those of `p`. -/
def Copied (c : CheckedConfig) (r : Region) (p : Publication) (k : ℕ) : Prop :=
  ∀ j < k, r.data (p.idx c) j = p.data.getD j 0

/-- Slot `i` holds the whole frame of the call `p`. -/
structure Carries (c : CheckedConfig) (r : Region) (i : ℕ) (p : Publication) : Prop where
  idx : p.idx c = i
  frameId : (r.slot i).frameId = p.frameId
  tsNs : (r.slot i).tsNs = p.tsNs
  copied : Copied c r p c.frameSize

/-- Slot `i` had an id before the copy began: its bytes from `k` on are still those of the
call that stored the id. -/
def Remains (c : CheckedConfig) (r : Region) (done : List Publication) (i k : ℕ) : Prop :=
  (r.slot i).frameId = 0 ∨ ∃ q ∈ done, q.idx c = i ∧ (r.slot i).frameId = q.frameId ∧
    ∀ j, k ≤ j → j < c.frameSize → r.data i j = q.data.getD j 0

/-- How far the call under way has come. -/
def Progress (c : CheckedConfig) (r : Region) (done : List Publication) : ProducerPc → Prop
  | .loadSeq data _ => data.length = c.frameSize
  | .copy p k => k ≤ c.frameSize ∧ Copied c r p k ∧ Remains c r done (p.idx c) k
  | .writeWidth p | .writeHeight p | .writeFormat p | .storeId p =>
    Copied c r p c.frameSize ∧ (r.slot (p.idx c)).tsNs = p.tsNs ∧
      Remains c r done (p.idx c) c.frameSize
  | .releaseSlot p | .storeSeq p => Carries c r (p.idx c) p
  | .idle | .takeSlot _ | .loadReaders _ | .countDrop _ _ => True

/-- The ids up to `write_seq` were stored, each in its slot, unless a later one was. -/
def Window (c : CheckedConfig) (r : Region) : Prop :=
  ∀ id, 1 ≤ id → id ≤ r.writeSeq → id ≤ (r.slot (id % c.capacity)).frameId

/-- The frames in the segment, with the producer at `pc` and the calls in `done` returned. -/
structure Frames (c : CheckedConfig) (r : Region) (pc : ProducerPc) (done : List Publication) :
    Prop where
  numbered : done.map Publication.frameId = List.range' 1 r.writeSeq
  sized : ∀ p ∈ done, p.data.length = c.frameSize
  next : ∀ p, pc.publication = some p →
    p.frameId = r.writeSeq + 1 ∧ p.frameId < 2 ^ 64 ∧ p.data.length = c.frameSize
  carried : ∀ i, pc.writing c ≠ some i →
    (r.slot i).frameId = 0 ∨ ∃ p ∈ done ++ pc.returning, Carries c r i p
  progress : Progress c r done pc
  window : Window c r

theorem Carries.congr (h : r.SameFrames r') {i : ℕ} {p : Publication} (hc : Carries c r i p) :
    Carries c r' i p where
  idx := hc.idx
  frameId := (h.frameId i).trans hc.frameId
  tsNs := (h.tsNs i).trans hc.tsNs
  copied j hj := h.data ▸ hc.copied j hj

theorem Remains.congr (h : r.SameFrames r') {i k : ℕ} (hr : Remains c r done i k) :
    Remains c r' done i k := by
  unfold Remains at *
  rwa [h.frameId, h.data]

theorem Progress.congr (h : r.SameFrames r') (hp : Progress c r done pc) :
    Progress c r' done pc := by
  have hcopied : ∀ {p k}, Copied c r p k → Copied c r' p k := fun hk j hj => h.data ▸ hk j hj
  cases pc with
  | loadSeq => exact hp
  | copy p k => exact ⟨hp.1, hcopied hp.2.1, hp.2.2.congr h⟩
  | writeWidth p | writeHeight p | writeFormat p | storeId p =>
    exact ⟨hcopied hp.1, (h.tsNs _).trans hp.2.1, hp.2.2.congr h⟩
  | releaseSlot p | storeSeq p => exact Carries.congr h hp
  | idle | takeSlot | loadReaders | countDrop => trivial

/-- Reference counts, holder pids and the drop counter are no part of the frames. -/
theorem Frames.congr (h : r.SameFrames r') (hf : Frames c r pc done) : Frames c r' pc done where
  numbered := h.writeSeq ▸ hf.numbered
  sized := hf.sized
  next p hp := h.writeSeq ▸ hf.next p hp
  carried i hi := by
    rcases hf.carried i hi with h0 | ⟨p, hp, hc⟩
    · exact .inl ((h.frameId i).trans h0)
    · exact .inr ⟨p, hp, hc.congr h⟩
  progress := hf.progress.congr h
  window id h1 hid := by
    rw [h.frameId]
    exact hf.window id h1 (h.writeSeq ▸ hid)

/-- Every id up to `write_seq` belongs to one call. -/
theorem Frames.bounds (hf : Frames c r pc done) {p : Publication} (hp : p ∈ done) :
    1 ≤ p.frameId ∧ p.frameId ≤ r.writeSeq := by
  have := List.mem_map_of_mem (f := Publication.frameId) hp
  rw [hf.numbered, List.mem_range'_1] at this
  omega

theorem frames_fresh : Frames c .fresh .idle [] where
  numbered := rfl
  sized _ hp := by cases hp
  next _ hp := by cases hp
  carried _ _ := .inl rfl
  progress := trivial
  window id h1 hid := by
    have : id ≤ 0 := hid
    omega

theorem frames_enter {data : List UInt8} {tsNs : ℕ} (h : Frames c r .idle done)
    (he : ProducerPc.enter c data tsNs = .ok pc) : Frames c r pc done := by
  unfold ProducerPc.enter at he
  split at he <;> cases he
  case isFalse hlen =>
    refine ⟨h.numbered, h.sized, fun _ hp => ?_, h.carried, not_not.mp hlen, h.window⟩
    cases hp

/-- The producer touches no frame but the one of the slot it writes. -/
theorem producer_keeps (c : CheckedConfig) (r : Region) (pc : ProducerPc) {i : ℕ}
    (hi : pc.writing c ≠ some i) :
    ((pc.step c r).region.slot i).frameId = (r.slot i).frameId ∧
      ((pc.step c r).region.slot i).tsNs = (r.slot i).tsNs ∧
      (pc.step c r).region.data i = r.data i := by
  have hne : ∀ {p}, pc.writing c = some (Publication.idx c p) → i ≠ p.idx c :=
    fun hp hip => hi (hip ▸ hp)
  have hmodify : ∀ (j : ℕ) (f : SlotMeta → SlotMeta), i ≠ j → (r.modifySlot j f).slot i = r.slot i :=
    fun j f hij => by rw [Region.modifySlot_slot, if_neg hij]
  cases pc with
  | idle | loadReaders | countDrop | storeSeq => exact ⟨rfl, rfl, rfl⟩
  | loadSeq data tsNs =>
    simp only [ProducerPc.step]
    split <;> exact ⟨rfl, rfl, rfl⟩
  | takeSlot p =>
    simp only [ProducerPc.step]
    split
    · have hs := r.sameFrames_setRef (p.idx c) writerLock
      exact ⟨hs.frameId i, hs.tsNs i, congrFun hs.data i⟩
    · exact ⟨rfl, rfl, rfl⟩
  | copy p k =>
    simp only [ProducerPc.step]
    split
    · refine ⟨rfl, rfl, ?_⟩
      funext n
      simp [Region.writeByte_data, hne rfl]
    · simp [hmodify _ _ (hne rfl)]
  | writeWidth p | writeHeight p | writeFormat p | storeId p =>
    simp [ProducerPc.step, hmodify _ _ (hne rfl)]
  | releaseSlot p =>
    have hs := r.sameFrames_setRef (p.idx c) 0
    exact ⟨hs.frameId i, hs.tsNs i, congrFun hs.data i⟩

end AutoTargeting.Ring
