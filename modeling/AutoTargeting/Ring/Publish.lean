import AutoTargeting.Ring.Memory

namespace AutoTargeting.Ring

/-- Why a frame was thrown away (drop-new). -/
inductive DropReason
  | heldByReaders (slot readers : ℕ)
  | writerLockHeld (slot : ℕ)
  deriving DecidableEq, Repr

inductive PublishResult
  | published (frameId : ℕ)
  | dropped (reason : DropReason)
  deriving DecidableEq, Repr

/-- One `publish` call that chose its frame id. -/
structure Publication where
  frameId : ℕ
  data : List UInt8
  tsNs : ℕ
  deriving DecidableEq, Repr

/-- `next_id % capacity`: where the call writes. -/
def Publication.idx (c : CheckedConfig) (p : Publication) : ℕ := p.frameId % c.capacity

/-- Where the producer stands: before which access to the shared memory. In `copy p k`
it copied `k` bytes; after the last byte comes the store of `ts_ns`. -/
inductive ProducerPc
  | idle
  | loadSeq (data : List UInt8) (tsNs : ℕ)
  | takeSlot (p : Publication)
  | loadReaders (p : Publication)
  | countDrop (p : Publication) (cur : ℕ)
  | copy (p : Publication) (k : ℕ)
  | writeWidth (p : Publication)
  | writeHeight (p : Publication)
  | writeFormat (p : Publication)
  | storeId (p : Publication)
  | releaseSlot (p : Publication)
  | storeSeq (p : Publication)
  deriving DecidableEq, Repr

/-- What one access leads to: the memory, the next position, and the result where the
call returns. -/
structure ProducerStep where
  region : Region
  pc : ProducerPc
  result : Option (Except RingError PublishResult)

namespace ProducerPc

def enter (c : CheckedConfig) (data : List UInt8) (tsNs : ℕ) : Except RingError ProducerPc :=
  if data.length ≠ c.frameSize then .error (.invalidFrameSize c.frameSize data.length)
  else .ok (loadSeq data tsNs)

def dropReason (c : CheckedConfig) (p : Publication) (cur : ℕ) : DropReason :=
  if cur = writerLock then .writerLockHeld (p.idx c) else .heldByReaders (p.idx c) cur

def step (c : CheckedConfig) (r : Region) : ProducerPc → ProducerStep
  | idle => ⟨r, idle, none⟩
  | loadSeq data tsNs =>
    -- `seq.checked_add(1)`
    if r.writeSeq + 1 < 2 ^ 64 then ⟨r, takeSlot ⟨r.writeSeq + 1, data, tsNs⟩, none⟩
    else ⟨r, idle, some (.error (.corrupted "frame id overflow"))⟩
  | takeSlot p =>
    if (r.slot (p.idx c)).refCount = 0 then ⟨r.setRef (p.idx c) writerLock, copy p 0, none⟩
    else ⟨r, loadReaders p, none⟩
  | loadReaders p => ⟨r, countDrop p (r.slot (p.idx c)).refCount, none⟩
  | countDrop p cur =>
    ⟨{ r with droppedFrames := fetchAdd r.droppedFrames }, idle,
      some (.ok (.dropped (dropReason c p cur)))⟩
  | copy p k =>
    if k < c.frameSize then ⟨r.writeByte (p.idx c) k (p.data.getD k 0), copy p (k + 1), none⟩
    else ⟨r.modifySlot (p.idx c) fun m => { m with tsNs := p.tsNs }, writeWidth p, none⟩
  | writeWidth p =>
    ⟨r.modifySlot (p.idx c) fun m => { m with width := c.width }, writeHeight p, none⟩
  | writeHeight p =>
    ⟨r.modifySlot (p.idx c) fun m => { m with height := c.height }, writeFormat p, none⟩
  | writeFormat p =>
    ⟨r.modifySlot (p.idx c) fun m => { m with format := c.format.code }, storeId p, none⟩
  | storeId p =>
    ⟨r.modifySlot (p.idx c) fun m => { m with frameId := p.frameId }, releaseSlot p, none⟩
  | releaseSlot p => ⟨r.setRef (p.idx c) 0, storeSeq p, none⟩
  | storeSeq p => ⟨{ r with writeSeq := p.frameId }, idle, some (.ok (.published p.frameId))⟩

/-- The call under way, from the moment it chose its id. -/
def publication : ProducerPc → Option Publication
  | idle | loadSeq _ _ => none
  | takeSlot p | loadReaders p | countDrop p _ | copy p _ | writeWidth p | writeHeight p
  | writeFormat p | storeId p | releaseSlot p | storeSeq p => some p

/-- The slot between the producer's CAS and its release store. -/
def writing (c : CheckedConfig) : ProducerPc → Option ℕ
  | copy p _ | writeWidth p | writeHeight p | writeFormat p | storeId p | releaseSlot p =>
    some (p.idx c)
  | idle | loadSeq _ _ | takeSlot _ | loadReaders _ | countDrop _ _ | storeSeq _ => none

/-- The call about to return `Published`: only the store of `write_seq` is left. -/
def returning : ProducerPc → List Publication
  | storeSeq p => [p]
  | idle | loadSeq _ _ | takeSlot _ | loadReaders _ | countDrop _ _ | copy _ _ | writeWidth _
  | writeHeight _ | writeFormat _ | storeId _ | releaseSlot _ => []

end ProducerPc

/-- The write phase: data, metadata, id, release of the slot, then `write_seq`. -/
def Region.write (c : CheckedConfig) (r : Region) (p : Publication) : Region :=
  { r with
    writeSeq := p.frameId
    slot := Function.update r.slot (p.idx c)
      ⟨0, p.frameId, p.tsNs, c.width, c.height, c.format.code, (r.slot (p.idx c)).holderPid⟩
    data := Function.update r.data (p.idx c)
      fun k => if k < c.frameSize then p.data.getD k 0 else r.data (p.idx c) k }

/-- `FrameProducer::publish` where nothing else runs. -/
def publish (c : CheckedConfig) (r : Region) (data : List UInt8) (tsNs : ℕ) :
    Region × Except RingError PublishResult :=
  if data.length ≠ c.frameSize then (r, .error (.invalidFrameSize c.frameSize data.length))
  else if ¬ r.writeSeq + 1 < 2 ^ 64 then (r, .error (.corrupted "frame id overflow"))
  else
    let p : Publication := ⟨r.writeSeq + 1, data, tsNs⟩
    let cur := (r.slot (p.idx c)).refCount
    if cur ≠ 0 then
      ({ r with droppedFrames := fetchAdd r.droppedFrames },
        .ok (.dropped (ProducerPc.dropReason c p cur)))
    else (r.write c p, .ok (.published p.frameId))

theorem publish_cases (c : CheckedConfig) (r : Region) (data : List UInt8) (tsNs : ℕ) :
    (data.length ≠ c.frameSize ∧
      publish c r data tsNs = (r, .error (.invalidFrameSize c.frameSize data.length))) ∨
    (data.length = c.frameSize ∧ ¬ r.writeSeq + 1 < 2 ^ 64 ∧
      publish c r data tsNs = (r, .error (.corrupted "frame id overflow"))) ∨
    ∃ p : Publication, p = ⟨r.writeSeq + 1, data, tsNs⟩ ∧ data.length = c.frameSize ∧
      r.writeSeq + 1 < 2 ^ 64 ∧
      ((r.slot (p.idx c)).refCount ≠ 0 ∧ publish c r data tsNs =
        ({ r with droppedFrames := fetchAdd r.droppedFrames },
          .ok (.dropped (ProducerPc.dropReason c p (r.slot (p.idx c)).refCount))) ∨
      (r.slot (p.idx c)).refCount = 0 ∧
        publish c r data tsNs = (r.write c p, .ok (.published p.frameId))) := by
  unfold publish
  by_cases hlen : data.length = c.frameSize
  · rw [if_neg (not_not.mpr hlen)]
    by_cases hseq : r.writeSeq + 1 < 2 ^ 64
    · rw [if_neg (not_not.mpr hseq)]
      refine .inr (.inr ⟨_, rfl, hlen, hseq, ?_⟩)
      by_cases h0 : (r.slot (Publication.idx c ⟨r.writeSeq + 1, data, tsNs⟩)).refCount = 0
      · exact .inr ⟨h0, if_neg (not_not.mpr h0)⟩
      · exact .inl ⟨h0, if_pos h0⟩
    · exact .inr (.inl ⟨hlen, hseq, if_pos hseq⟩)
  · exact .inl ⟨hlen, if_pos hlen⟩

end AutoTargeting.Ring
