import AutoTargeting.Library.LittleEndian
import AutoTargeting.Ring.Acquire

namespace AutoTargeting.Ring

open Bytes

/-- `MAGIC`: `b"ATFB"`, little-endian. -/
def magic : ℕ := toWord [0x41, 0x54, 0x46, 0x42]

def layoutVersion : ℕ := 1

/-- `BufferHeader`: the words that are written once, and `write_seq`. -/
structure BufferHeader where
  magic : ℕ
  layoutVersion : ℕ
  capacity : ℕ
  width : ℕ
  height : ℕ
  format : ℕ
  frameSize : ℕ
  writeSeq : ℕ
  deriving DecidableEq, Repr

def BufferHeader.read (segment : List UInt8) : BufferHeader where
  magic := word segment 0 4
  layoutVersion := word segment 4 2
  capacity := word segment 8 4
  width := word segment 12 4
  height := word segment 16 4
  format := word segment 20 4
  frameSize := word segment 24 4
  writeSeq := word segment 32 8

/-- The offset in `Region::slot` and `slot_ptr_mut`. -/
def slotOffset (idx : ℕ) : ℕ := sizeOfBufferHeader + idx * sizeOfSlotMeta

def SlotMeta.read (segment : List UInt8) (idx : ℕ) : SlotMeta where
  refCount := word segment (slotOffset idx) 4
  frameId := word segment (slotOffset idx + 8) 8
  tsNs := word segment (slotOffset idx + 16) 8
  width := word segment (slotOffset idx + 24) 4
  height := word segment (slotOffset idx + 28) 4
  format := word segment (slotOffset idx + 32) 4
  holderPid := word segment (slotOffset idx + 36) 4

/-- The view that `try_acquire` copies from the slot. -/
def SlotMeta.view (m : SlotMeta) : FrameView := ⟨m.frameId, m.tsNs, m.width, m.height, m.format⟩

/-- `Region` as a process maps it, without the pointer. -/
structure RegionView where
  len : ℕ
  capacity : ℕ
  frameSize : ℕ
  deriving DecidableEq, Repr

namespace RegionView

/-- `init_heap`, and the mapping that `shm` creates. -/
def init (c : CheckedConfig) : RegionView :=
  ⟨segmentSize c.capacity c.frameSize, c.capacity, c.frameSize⟩

def dataOffset (r : RegionView) (idx : ℕ) : ℕ := dataAreaOffset r.capacity + idx * r.frameSize

end RegionView

/-- `Region::attach_raw`, with the texts of its `AttachFailed`. -/
def attachRaw (segment : List UInt8) : Except String RegionView :=
  if segment.length < sizeOfBufferHeader then .error "segment shorter than header"
  else
    let h := BufferHeader.read segment
    if h.magic ≠ magic then .error "bad magic"
    else if h.layoutVersion ≠ layoutVersion then
      .error s!"layout version {h.layoutVersion} != {layoutVersion}"
    else if h.capacity = 0 ∨ 4096 < h.capacity then .error "bad capacity"
    else if segment.length ≠ segmentSize h.capacity h.frameSize then
      .error s!"segment len {segment.length} != expected {segmentSize h.capacity h.frameSize}"
    else .ok ⟨segment.length, h.capacity, h.frameSize⟩

namespace RegionView

variable (r : RegionView) (segment : List UInt8)

def tryAcquire (slotIdx : ℕ) (expectedId : Option ℕ) : Option FrameView :=
  let slot := SlotMeta.read segment (slotIdx % r.capacity)
  -- all the spins find the writer's lock
  if slot.refCount = writerLock then none
  else
    match expectedId with
    | some want => if slot.frameId ≠ want then none else some slot.view
    | none => some slot.view

def latest : Option FrameView :=
  let seq := (BufferHeader.read segment).writeSeq
  if seq = 0 then none else r.tryAcquire segment (seq % r.capacity) none

def nextAfter (lastId : ℕ) : Option FrameView :=
  let seq := (BufferHeader.read segment).writeSeq
  if seq = 0 then none
  else if seq < wanted lastId then none
  else if r.capacity ≤ seq - wanted lastId then none
  else r.tryAcquire segment (wanted lastId % r.capacity) (some (wanted lastId))

end RegionView

/-- The header that `write_header_init` leaves: the fields in their order, and zeroed padding. -/
def headerInit (c : CheckedConfig) (createdNs producerPid : ℕ) : List UInt8 :=
  ofWord 4 magic ++ (ofWord 2 layoutVersion ++ (ofWord 2 0 ++ (ofWord 4 c.capacity ++
    (ofWord 4 c.width ++ (ofWord 4 c.height ++ (ofWord 4 c.format.code ++ (ofWord 4 c.frameSize ++
      (ofWord 4 0 ++ (ofWord 8 0 ++ (ofWord 8 0 ++ (ofWord 8 createdNs ++
        (ofWord 4 producerPid ++ ofWord 4 0))))))))))))

/-- A new segment: zeroed, with its header written. -/
def initSegment (c : CheckedConfig) (createdNs producerPid : ℕ) : List UInt8 :=
  headerInit c createdNs producerPid ++
    List.replicate (segmentSize c.capacity c.frameSize - sizeOfBufferHeader) 0

end AutoTargeting.Ring
