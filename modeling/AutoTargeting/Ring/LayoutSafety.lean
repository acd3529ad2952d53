import AutoTargeting.Ring.Segment

namespace AutoTargeting.Ring

open Bytes

structure Area where
  start : ℕ
  size : ℕ
  deriving DecidableEq, Repr

def Area.stop (a : Area) : ℕ := a.start + a.size

namespace RegionView

variable (r : RegionView)

def headerArea : Area := ⟨0, sizeOfBufferHeader⟩

def slotArea (idx : ℕ) : Area := ⟨slotOffset idx, sizeOfSlotMeta⟩

def dataArea (idx : ℕ) : Area := ⟨r.dataOffset idx, r.frameSize⟩

def areas : List Area :=
  headerArea :: ((List.range r.capacity).map slotArea ++ (List.range r.capacity).map r.dataArea)

/-- No area reaches into another, none beyond the end, and every offset fits in 64 bits. -/
structure LaidOut : Prop where
  apart : r.areas.Pairwise fun a b => a.stop ≤ b.start
  inside : ∀ a ∈ r.areas, a.stop ≤ r.len
  noOverflow : r.len < 2 ^ 64

end RegionView

def GeometryFits (format width height size : ℕ) : Prop :=
  0 < width ∧ 0 < height ∧
    (format = formatNv12 ∧ width % 2 = 0 ∧ height % 2 = 0 ∧ 2 * size = width * height * 3 ∨
      format = formatRgb24 ∧ size = width * height * 3)

instance (format width height size : ℕ) : Decidable (GeometryFits format width height size) :=
  inferInstanceAs (Decidable (_ ∧ _ ∧ (_ ∨ _)))

theorem tryFromU32_eq_some {a b : ℕ} : tryFromU32 a = some b ↔ a = b ∧ b < 2 ^ 32 := by
  unfold tryFromU32
  split <;> simp <;> omega

theorem checkedMulU64_eq_some {a b n : ℕ} :
    checkedMulU64 a b = some n ↔ a * b = n ∧ n < 2 ^ 64 := by
  unfold checkedMulU64
  split <;> simp <;> omega

theorem frameSize_eq_some_iff {format width height size : ℕ} (hsize : size < 2 ^ 32) :
    frameSize format width height = some size ↔ GeometryFits format width height size := by
  unfold frameSize GeometryFits
  by_cases hzero : width = 0 ∨ height = 0
  · rw [if_pos hzero]
    simp
    omega
  rw [if_neg hzero]
  by_cases hnv : format = formatNv12
  · have hrgb : ¬ format = formatRgb24 := by subst hnv; decide
    rw [if_pos hnv]
    by_cases hodd : width % 2 ≠ 0 ∨ height % 2 ≠ 0
    · rw [if_pos hodd]
      simp [hrgb]
      omega
    · rw [if_neg hodd]
      simp only [Option.bind_eq_some_iff, checkedMulU64_eq_some, tryFromU32_eq_some,
        Nat.shiftRight_eq_div_pow]
      -- of the two even sides one halves the product
      have heven : width * height * 3 % 2 = 0 := by
        have hw : width % 2 = 0 := by omega
        simp [Nat.mul_mod, hw]
      constructor
      · rintro ⟨n, ⟨rfl, -⟩, hhalf, -⟩
        exact ⟨by omega, by omega, .inl ⟨hnv, by omega, by omega, by omega⟩⟩
      · rintro ⟨-, -, ⟨-, -, -, hfits⟩ | ⟨hcontra, -⟩⟩
        · exact ⟨width * height * 3, ⟨rfl, by omega⟩, by omega, hsize⟩
        · exact absurd hcontra hrgb
  · rw [if_neg hnv]
    by_cases hrgb : format = formatRgb24
    · rw [if_pos hrgb]
      simp only [Option.bind_eq_some_iff, checkedMulU64_eq_some, tryFromU32_eq_some]
      constructor
      · rintro ⟨n, ⟨rfl, -⟩, rfl, -⟩
        exact ⟨by omega, by omega, .inr ⟨hrgb, rfl⟩⟩
      · rintro ⟨-, -, ⟨hcontra, -⟩ | ⟨-, rfl⟩⟩
        · exact absurd hcontra hnv
        · exact ⟨_, ⟨rfl, by omega⟩, rfl, hsize⟩
    · rw [if_neg hrgb]
      simp [hnv, hrgb]

theorem CheckedConfig.frameSizeCheck_eq (c : CheckedConfig) :
    c.frameSizeCheck = some c.frameSize := by
  have h := c.valid
  unfold RingConfig.validate at h
  split_ifs at h with hcap hnone
  unfold CheckedConfig.frameSize
  cases hcheck : c.frameSizeCheck with
  | none => exact absurd hcheck hnone
  | some size => rfl

theorem frameSize_lt {format width height size : ℕ} (h : frameSize format width height = some size) :
    size < 2 ^ 32 := by
  have hbound : ∀ {o : Option ℕ} {f : ℕ → ℕ}, (o.bind fun n => tryFromU32 (f n)) = some size →
      size < 2 ^ 32 := by
    intro o f ho
    obtain ⟨n, -, hn⟩ := Option.bind_eq_some_iff.mp ho
    exact (tryFromU32_eq_some.mp hn).2
  unfold frameSize at h
  split_ifs at h
  · exact hbound h
  · exact hbound (f := id) h

theorem CheckedConfig.frameSize_lt (c : CheckedConfig) : c.frameSize < 2 ^ 32 :=
  Ring.frameSize_lt c.frameSizeCheck_eq

namespace RegionView

variable {r : RegionView}

@[simp] theorem headerArea_stop : headerArea.stop = slotOffset 0 := by
  simp [Area.stop, headerArea, slotOffset]

@[simp] theorem slotArea_start (idx : ℕ) : (slotArea idx).start = slotOffset idx := rfl

@[simp] theorem slotArea_stop (idx : ℕ) : (slotArea idx).stop = slotOffset (idx + 1) := by
  simp [Area.stop, slotArea, slotOffset, Nat.add_mul, Nat.add_assoc]

@[simp] theorem dataArea_start (idx : ℕ) : (r.dataArea idx).start = r.dataOffset idx := rfl

@[simp] theorem dataArea_stop (idx : ℕ) : (r.dataArea idx).stop = r.dataOffset (idx + 1) := by
  simp [Area.stop, dataArea, dataOffset, Nat.add_mul, Nat.add_assoc]

theorem slotOffset_mono {i j : ℕ} (h : i ≤ j) : slotOffset i ≤ slotOffset j := by
  unfold slotOffset
  gcongr

theorem dataOffset_mono {i j : ℕ} (h : i ≤ j) : r.dataOffset i ≤ r.dataOffset j := by
  unfold dataOffset
  gcongr

theorem slotOffset_le_dataOffset {i : ℕ} (hi : i ≤ r.capacity) (j : ℕ) :
    slotOffset i ≤ r.dataOffset j :=
  calc slotOffset i ≤ slotOffset r.capacity := slotOffset_mono hi
    _ = r.dataOffset 0 := by simp [slotOffset, dataOffset, dataAreaOffset]
    _ ≤ r.dataOffset j := dataOffset_mono (Nat.zero_le j)

theorem areas_apart (r : RegionView) : r.areas.Pairwise fun a b => a.stop ≤ b.start := by
  apply List.pairwise_cons.mpr
  constructor
  · intro a ha
    rcases List.mem_append.mp ha with ha | ha
    · obtain ⟨i, -, rfl⟩ := List.mem_map.mp ha
      simpa using slotOffset_mono (Nat.zero_le i)
    · obtain ⟨i, -, rfl⟩ := List.mem_map.mp ha
      simpa using slotOffset_le_dataOffset (Nat.zero_le r.capacity) i
  · refine List.pairwise_append.mpr ⟨?_, ?_, ?_⟩
    · apply List.pairwise_map.mpr
      apply List.pairwise_lt_range.imp
      intro i j hij
      simpa using slotOffset_mono hij
    · apply List.pairwise_map.mpr
      apply List.pairwise_lt_range.imp
      intro i j hij
      simpa using dataOffset_mono hij
    · intro a ha b hb
      obtain ⟨i, hi, rfl⟩ := List.mem_map.mp ha
      obtain ⟨j, -, rfl⟩ := List.mem_map.mp hb
      simpa using slotOffset_le_dataOffset (List.mem_range.mp hi) j

theorem areas_inside (hlen : r.len = segmentSize r.capacity r.frameSize) {a : Area}
    (ha : a ∈ r.areas) : a.stop ≤ r.len := by
  have hend : r.dataOffset r.capacity = r.len := hlen.symm
  rw [← hend]
  rcases List.mem_cons.mp ha with rfl | ha
  · simpa using slotOffset_le_dataOffset (Nat.zero_le r.capacity) r.capacity
  rcases List.mem_append.mp ha with ha | ha
  · obtain ⟨i, hi, rfl⟩ := List.mem_map.mp ha
    simpa using slotOffset_le_dataOffset (List.mem_range.mp hi) r.capacity
  · obtain ⟨i, hi, rfl⟩ := List.mem_map.mp ha
    simpa using dataOffset_mono (List.mem_range.mp hi)

/-- The slots, and then the data areas, follow the header without a gap. -/
theorem laidOut_of_len (hcap : r.capacity ≤ 4096) (hsize : r.frameSize < 2 ^ 32)
    (hlen : r.len = segmentSize r.capacity r.frameSize) : r.LaidOut where
  apart := r.areas_apart
  inside _ ha := areas_inside hlen ha
  noOverflow := by
    have hdata : r.capacity * r.frameSize ≤ 4096 * 2 ^ 32 := Nat.mul_le_mul hcap hsize.le
    simp [hlen, segmentSize, dataAreaOffset, sizeOfBufferHeader, sizeOfSlotMeta]
    omega

end RegionView

theorem laidOut_init (c : CheckedConfig) : (RegionView.init c).LaidOut :=
  RegionView.laidOut_of_len c.capacity_bounds.2 c.frameSize_lt rfl

theorem attachRaw_eq {segment : List UInt8} {r : RegionView} (h : attachRaw segment = .ok r) :
    r = ⟨segment.length, (BufferHeader.read segment).capacity,
        (BufferHeader.read segment).frameSize⟩ ∧
      1 ≤ r.capacity ∧ r.capacity ≤ 4096 ∧ r.len = segmentSize r.capacity r.frameSize := by
  unfold attachRaw at h
  simp only at h
  split_ifs at h with hlen hmagic hversion hcap hsize
  cases h
  obtain ⟨hpos, hcap⟩ := not_or.mp hcap
  exact ⟨rfl, Nat.pos_of_ne_zero hpos, not_lt.mp hcap, not_not.mp hsize⟩

theorem laidOut_attached {segment : List UInt8} {r : RegionView}
    (h : attachRaw segment = .ok r) : r.LaidOut := by
  obtain ⟨heq, -, hcap, hlen⟩ := attachRaw_eq h
  refine RegionView.laidOut_of_len hcap ?_ hlen
  rw [heq]
  exact word_lt segment 24 4

/-- The geometry of a frame gives the bytes behind its guard. -/
def FrameView.Describes (v : FrameView) (len : ℕ) : Prop :=
  frameSize v.format v.width v.height = some len

namespace RegionView

variable (r : RegionView) (segment : List UInt8)

/-- Header, frames and guards agree on the size of a frame. -/
structure Described : Prop where
  header : Ring.frameSize (BufferHeader.read segment).format (BufferHeader.read segment).width
    (BufferHeader.read segment).height = some r.frameSize
  latest : ∀ v, r.latest segment = some v → v.Describes r.frameSize
  nextAfter : ∀ lastId v, r.nextAfter segment lastId = some v → v.Describes r.frameSize

/-- `write_seq` points to the slot, or the slot carries one of the last ids; and no writer is
in it. -/
def Offers (idx : ℕ) : Prop :=
  let seq := (BufferHeader.read segment).writeSeq
  let slot := SlotMeta.read segment idx
  seq ≠ 0 ∧ slot.refCount ≠ writerLock ∧ (idx = seq % r.capacity ∨
    slot.frameId % r.capacity = idx ∧ 1 ≤ slot.frameId ∧ slot.frameId ≤ seq ∧
      seq - slot.frameId < r.capacity)

/-- The words of the header, and those of every slot that can be taken, are a geometry of
`frame_size` bytes. -/
structure Fits : Prop where
  header : GeometryFits (BufferHeader.read segment).format (BufferHeader.read segment).width
    (BufferHeader.read segment).height r.frameSize
  slots : ∀ idx, r.Offers segment idx → GeometryFits (SlotMeta.read segment idx).format
    (SlotMeta.read segment idx).width (SlotMeta.read segment idx).height r.frameSize

variable {r segment}

theorem tryAcquire_eq_some {slotIdx : ℕ} {expectedId : Option ℕ} {v : FrameView} :
    r.tryAcquire segment slotIdx expectedId = some v ↔
      (SlotMeta.read segment (slotIdx % r.capacity)).refCount ≠ writerLock ∧
        (∀ want ∈ expectedId, (SlotMeta.read segment (slotIdx % r.capacity)).frameId = want) ∧
        v = (SlotMeta.read segment (slotIdx % r.capacity)).view := by
  unfold tryAcquire
  dsimp only
  split_ifs with hlock
  · simp [hlock]
  · cases expectedId with
    | none => simp [hlock, eq_comm]
    | some want =>
      by_cases hid : (SlotMeta.read segment (slotIdx % r.capacity)).frameId = want
      · simp [hlock, hid, eq_comm]
      · simp [hid]

theorem latest_eq_some {v : FrameView} :
    r.latest segment = some v ↔ (BufferHeader.read segment).writeSeq ≠ 0 ∧
      (SlotMeta.read segment ((BufferHeader.read segment).writeSeq % r.capacity)).refCount ≠
        writerLock ∧
      v = (SlotMeta.read segment ((BufferHeader.read segment).writeSeq % r.capacity)).view := by
  unfold latest
  dsimp only
  split_ifs with hseq
  · simp [hseq]
  · simp [tryAcquire_eq_some, hseq]

theorem nextAfter_eq_some {lastId idx : ℕ} {v : FrameView} (hidx : idx = wanted lastId % r.capacity) :
    r.nextAfter segment lastId = some v ↔ (BufferHeader.read segment).writeSeq ≠ 0 ∧
      wanted lastId ≤ (BufferHeader.read segment).writeSeq ∧
      (BufferHeader.read segment).writeSeq - wanted lastId < r.capacity ∧
      (SlotMeta.read segment idx).refCount ≠ writerLock ∧
      (SlotMeta.read segment idx).frameId = wanted lastId ∧
      v = (SlotMeta.read segment idx).view := by
  subst hidx
  unfold nextAfter
  dsimp only
  split_ifs with hseq hahead hbehind
  · simp [hseq]
  · simp [hahead]
  · simp [Nat.not_lt.mpr hbehind]
  · simp [tryAcquire_eq_some, hseq, Nat.not_lt.mp hahead, Nat.not_le.mp hbehind]

theorem view_describes {idx : ℕ} (hsize : r.frameSize < 2 ^ 32) :
    (SlotMeta.read segment idx).view.Describes r.frameSize ↔
      GeometryFits (SlotMeta.read segment idx).format (SlotMeta.read segment idx).width
        (SlotMeta.read segment idx).height r.frameSize := frameSize_eq_some_iff hsize

theorem described_iff_fits (hsize : r.frameSize < 2 ^ 32) :
    r.Described segment ↔ r.Fits segment := by
  constructor
  · intro h
    refine ⟨(frameSize_eq_some_iff hsize).mp h.header, fun idx hoffers => ?_⟩
    apply (view_describes hsize).mp
    obtain ⟨hseq, hlock, rfl | ⟨hidx, hpos, hle, hnear⟩⟩ := hoffers
    · exact h.latest _ (latest_eq_some.mpr ⟨hseq, hlock, rfl⟩)
    · -- the call for the id in the slot
      have hlt : (BufferHeader.read segment).writeSeq < 2 ^ 64 := word_lt segment 32 8
      have hwanted : wanted ((SlotMeta.read segment idx).frameId - 1) =
          (SlotMeta.read segment idx).frameId := by
        unfold wanted
        omega
      apply h.nextAfter ((SlotMeta.read segment idx).frameId - 1)
      apply (nextAfter_eq_some (hwanted ▸ hidx.symm)).mpr
      rw [hwanted]
      exact ⟨hseq, hle, hnear, hlock, rfl, rfl⟩
  · intro h
    refine ⟨(frameSize_eq_some_iff hsize).mpr h.header, fun v hv => ?_, fun lastId v hv => ?_⟩
    · obtain ⟨hseq, hlock, rfl⟩ := latest_eq_some.mp hv
      exact (view_describes hsize).mpr (h.slots _ ⟨hseq, hlock, .inl rfl⟩)
    · obtain ⟨hseq, hle, hnear, hlock, hid, rfl⟩ := (nextAfter_eq_some rfl).mp hv
      apply (view_describes hsize).mpr
      apply h.slots
      refine ⟨hseq, hlock, .inr ?_⟩
      rw [hid]
      refine ⟨rfl, ?_, hle, hnear⟩
      unfold wanted
      omega

end RegionView

theorem CheckedConfig.geometryFits (c : CheckedConfig) :
    GeometryFits c.format.code c.width c.height c.frameSize :=
  (frameSize_eq_some_iff c.frameSize_lt).mp c.frameSizeCheck_eq

theorem CheckedConfig.words_lt (c : CheckedConfig) :
    c.capacity < 256 ^ 4 ∧ c.width < 256 ^ 4 ∧ c.height < 256 ^ 4 ∧ c.format.code < 256 ^ 4 ∧
      c.frameSize < 256 ^ 4 := by
  obtain ⟨hwidth, hheight, hfits⟩ := c.geometryFits
  have hsize := c.frameSize_lt
  have hw : c.width ≤ c.width * c.height := Nat.le_mul_of_pos_right _ hheight
  have hh : c.height ≤ c.width * c.height := Nat.le_mul_of_pos_left _ hwidth
  have hcap := c.capacity_bounds.2
  refine ⟨by omega, ?_, ?_, by cases c.format <;> decide, hsize⟩ <;>
    rcases hfits with ⟨-, -, -, hfits⟩ | ⟨-, hfits⟩ <;> omega

theorem read_initSegment (c : CheckedConfig) (createdNs producerPid : ℕ) :
    BufferHeader.read (initSegment c createdNs producerPid) =
      ⟨magic, layoutVersion, c.capacity, c.width, c.height, c.format.code, c.frameSize, 0⟩ := by
  obtain ⟨hcap, hwidth, hheight, hformat, hsize⟩ := c.words_lt
  have hmagic : magic < 256 ^ 4 := by decide
  have hversion : layoutVersion < 256 ^ 2 := by decide
  have hzero : ∀ w, 0 < 256 ^ w := fun w => Nat.pow_pos (by decide)
  unfold BufferHeader.read initSegment headerInit
  simp only [List.append_assoc, BufferHeader.mk.injEq]
  simp [word_behind (length_ofWord hmagic), word_behind (length_ofWord hversion),
    word_behind (length_ofWord hcap), word_behind (length_ofWord hwidth),
    word_behind (length_ofWord hheight), word_behind (length_ofWord hformat),
    word_behind (length_ofWord hsize), word_behind (length_ofWord (hzero _)), word_here hmagic,
    word_here hversion, word_here hcap, word_here hwidth, word_here hheight, word_here hformat,
    word_here hsize, word_here (hzero _)]

theorem length_initSegment (c : CheckedConfig) {createdNs producerPid : ℕ}
    (hcreated : createdNs < 256 ^ 8) (hpid : producerPid < 256 ^ 4) :
    (initSegment c createdNs producerPid).length = segmentSize c.capacity c.frameSize := by
  obtain ⟨hcap, hwidth, hheight, hformat, hsize⟩ := c.words_lt
  have hmagic : magic < 256 ^ 4 := by decide
  have hversion : layoutVersion < 256 ^ 2 := by decide
  have hzero : ∀ w, 0 < 256 ^ w := fun w => Nat.pow_pos (by decide)
  have hheader : (headerInit c createdNs producerPid).length = sizeOfBufferHeader := by
    simp [headerInit, length_ofWord hmagic, length_ofWord hversion, length_ofWord hcap,
      length_ofWord hwidth, length_ofWord hheight, length_ofWord hformat, length_ofWord hsize,
      length_ofWord hcreated, length_ofWord hpid, length_ofWord (hzero _), sizeOfBufferHeader]
  simp only [initSegment, List.length_append, hheader, List.length_replicate, segmentSize,
    dataAreaOffset]
  omega

/-- What a producer creates, a consumer attaches to. -/
theorem attachRaw_initSegment (c : CheckedConfig) {createdNs producerPid : ℕ}
    (hcreated : createdNs < 256 ^ 8) (hpid : producerPid < 256 ^ 4) :
    attachRaw (initSegment c createdNs producerPid) = .ok (RegionView.init c) := by
  have hcap := c.capacity_bounds
  unfold attachRaw
  rw [read_initSegment, length_initSegment c hcreated hpid]
  have hlong : ¬ segmentSize c.capacity c.frameSize < sizeOfBufferHeader := by
    unfold segmentSize dataAreaOffset
    omega
  have hrange : ¬ (c.capacity = 0 ∨ 4096 < c.capacity) := by omega
  simp [hlong, hrange, RegionView.init]

/-- A new segment offers no frame yet. -/
theorem fits_initSegment (c : CheckedConfig) (createdNs producerPid : ℕ) :
    (RegionView.init c).Fits (initSegment c createdNs producerPid) := by
  constructor
  · rw [read_initSegment]
    exact c.geometryFits
  · intro idx hoffers
    obtain ⟨hseq, -⟩ := hoffers
    rw [read_initSegment] at hseq
    exact absurd rfl hseq

/-- Created segments and attached ones are laid out safely. What an attached one says about
its frames is true of them exactly if its words agree, which `attach_raw` does not check. -/
theorem segments_laid_out (c : CheckedConfig) (segment : List UInt8) (r : RegionView) :
    (RegionView.init c).LaidOut ∧
    (attachRaw segment = .ok r → r.LaidOut ∧ (r.Described segment ↔ r.Fits segment)) := by
  refine ⟨laidOut_init c, fun h => ⟨laidOut_attached h, ?_⟩⟩
  apply RegionView.described_iff_fits
  rw [(attachRaw_eq h).1]
  exact word_lt segment 24 4

/-- Two slots for one pixel each, the second with the frame 1. -/
def publishedPixel : List UInt8 :=
  [0x41, 0x54, 0x46, 0x42, 1, 0, 0, 0, 2, 0, 0, 0, 1, 0, 0, 0, 1, 0, 0, 0, 1, 0, 0, 0, 3, 0, 0, 0,
    0, 0, 0, 0, 1] ++ List.replicate 31 0 ++ List.replicate 64 0 ++
  (List.replicate 8 0 ++ [1] ++ List.replicate 7 0 ++ [9] ++ List.replicate 7 0 ++
    [1, 0, 0, 0, 1, 0, 0, 0, 1] ++ List.replicate 31 0) ++ [0, 0, 0, 7, 8, 9]

theorem fits_publishedPixel : (RegionView.init tinyConfig).Fits publishedPixel := by
  constructor
  · decide +kernel
  · intro idx hoffers
    have hsecond : idx = 1 := by
      have hseq : (BufferHeader.read publishedPixel).writeSeq = 1 := by decide +kernel
      have hfirst : (SlotMeta.read publishedPixel 0).frameId = 0 := by decide +kernel
      obtain ⟨-, -, hidx⟩ := hoffers
      rw [hseq] at hidx
      rcases hidx with hidx | ⟨hidx, hpos, hle, -⟩
      · exact hidx
      · have hone : (SlotMeta.read publishedPixel idx).frameId = 1 := by omega
        rw [hone] at hidx
        exact hidx.symm
    rw [hsecond]
    decide +kernel

theorem segments_laid_out_new : (RegionView.init tinyConfig).LaidOut ∧
    (RegionView.init tinyConfig).latest publishedPixel = some ⟨1, 9, 1, 1, 1⟩ ∧
    (RegionView.init tinyConfig).Described publishedPixel := by
  have hattached : attachRaw publishedPixel = .ok (RegionView.init tinyConfig) := by decide +kernel
  have h := segments_laid_out tinyConfig publishedPixel (RegionView.init tinyConfig)
  exact ⟨h.1, by decide +kernel, (h.2 hattached).2.mpr fits_publishedPixel⟩

/-- One slot with the frame 1: 640 by 480 in NV12, in four bytes. -/
def shortFrames : List UInt8 :=
  [0x41, 0x54, 0x46, 0x42, 1, 0, 0, 0, 1, 0, 0, 0, 128, 2, 0, 0, 224, 1, 0, 0, 0, 0, 0, 0,
    4, 0, 0, 0, 0, 0, 0, 0, 1] ++ List.replicate 31 0 ++
  (List.replicate 8 0 ++ [1] ++ List.replicate 15 0 ++ [128, 2, 0, 0, 224, 1, 0, 0] ++
    List.replicate 32 0) ++ [0, 0, 0, 0]

theorem short_frames_attached :
    ¬ ((∀ c : CheckedConfig, (RegionView.init c).LaidOut) ∧
      ∀ segment r, attachRaw segment = .ok r → r.LaidOut ∧ r.Described segment) := by
  intro h
  have hattached : attachRaw shortFrames = .ok ⟨132, 1, 4⟩ := by decide +kernel
  have hheader := (h.2 _ _ hattached).2.header
  revert hheader
  decide +kernel

end AutoTargeting.Ring
