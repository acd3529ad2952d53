import AutoTargeting.Ring.Layout
import Mathlib.Data.List.OfFn
import Mathlib.Logic.Function.Basic

namespace AutoTargeting.Ring

/-- `SlotMeta`; every field is a machine word of the segment. -/
structure SlotMeta where
  refCount : ℕ
  frameId : ℕ
  tsNs : ℕ
  width : ℕ
  height : ℕ
  format : ℕ
  holderPid : ℕ
  deriving DecidableEq, Repr

def SlotMeta.zeroed : SlotMeta := ⟨0, 0, 0, 0, 0, 0, 0⟩

/-- The part of the segment that changes: two header words, the slot records and the
data areas, one of them for each slot. -/
structure Region where
  writeSeq : ℕ
  droppedFrames : ℕ
  slot : ℕ → SlotMeta
  data : ℕ → ℕ → UInt8

def fetchSub (n : ℕ) : ℕ := (n + 2 ^ 32 - 1) % 2 ^ 32

def fetchAdd (n : ℕ) : ℕ := (n + 1) % 2 ^ 64

theorem fetchSub_of_pos {n : ℕ} (h0 : 0 < n) (hn : n < 2 ^ 32) : fetchSub n = n - 1 := by
  unfold fetchSub; omega

namespace Region

/-- A fresh segment: the kernel or `write_bytes` zeroed it. -/
def fresh : Region := ⟨0, 0, fun _ => SlotMeta.zeroed, fun _ _ => 0⟩

def modifySlot (r : Region) (i : ℕ) (f : SlotMeta → SlotMeta) : Region :=
  { r with slot := Function.update r.slot i (f (r.slot i)) }

def setRef (r : Region) (i n : ℕ) : Region := r.modifySlot i fun m => { m with refCount := n }

def writeByte (r : Region) (i k : ℕ) (b : UInt8) : Region :=
  { r with data := Function.update r.data i (Function.update (r.data i) k b) }

variable (r : Region) (i j k n : ℕ) (f : SlotMeta → SlotMeta) (b : UInt8)

@[simp] theorem modifySlot_writeSeq : (r.modifySlot i f).writeSeq = r.writeSeq := rfl
@[simp] theorem modifySlot_droppedFrames :
    (r.modifySlot i f).droppedFrames = r.droppedFrames := rfl
@[simp] theorem modifySlot_data : (r.modifySlot i f).data = r.data := rfl

theorem modifySlot_slot :
    (r.modifySlot i f).slot j = if j = i then f (r.slot i) else r.slot j := by
  simp [modifySlot, Function.update_apply]

@[simp] theorem writeByte_writeSeq : (r.writeByte i k b).writeSeq = r.writeSeq := rfl
@[simp] theorem writeByte_slot : (r.writeByte i k b).slot = r.slot := rfl

theorem writeByte_data :
    (r.writeByte i k b).data j n = if j = i ∧ n = k then b else r.data j n := by
  by_cases hj : j = i
  · subst hj
    simp [writeByte, Function.update_apply]
  · simp [writeByte, hj]

theorem setRef_refCount :
    ((r.setRef i n).slot j).refCount = if j = i then n else (r.slot j).refCount := by
  simp only [setRef, modifySlot_slot]
  split <;> simp_all

/-- Everything the producer publishes is the same in both regions: they differ in
reference counts, holder pids and the drop counter at most. -/
structure SameFrames (r r' : Region) : Prop where
  writeSeq : r'.writeSeq = r.writeSeq
  frameId : ∀ i, (r'.slot i).frameId = (r.slot i).frameId
  tsNs : ∀ i, (r'.slot i).tsNs = (r.slot i).tsNs
  data : r'.data = r.data

theorem SameFrames.refl : SameFrames r r := ⟨rfl, fun _ => rfl, fun _ => rfl, rfl⟩

/-- Writing a reference count or a holder pid leaves the frames alone. -/
theorem sameFrames_modifySlot (hid : ∀ m, (f m).frameId = m.frameId)
    (hts : ∀ m, (f m).tsNs = m.tsNs) : SameFrames r (r.modifySlot i f) := by
  refine ⟨rfl, fun j => ?_, fun j => ?_, rfl⟩
  · rw [modifySlot_slot]; split
    · rename_i h; rw [hid, h]
    · rfl
  · rw [modifySlot_slot]; split
    · rename_i h; rw [hts, h]
    · rfl

theorem sameFrames_setRef : SameFrames r (r.setRef i n) :=
  sameFrames_modifySlot r i _ (fun _ => rfl) (fun _ => rfl)

end Region

/-- `FrameView`: the metadata a reader copied while it held the slot. -/
structure FrameView where
  frameId : ℕ
  tsNs : ℕ
  width : ℕ
  height : ℕ
  format : ℕ
  deriving DecidableEq, Repr

/-- `FrameGuard`; its data pointer and length are those of slot `slotIdx`. -/
structure FrameGuard where
  slotIdx : ℕ
  view : FrameView
  deriving DecidableEq, Repr

/-- `FrameGuard::deref`: what the data area holds now. -/
def Region.deref (c : CheckedConfig) (r : Region) (g : FrameGuard) : List UInt8 :=
  List.ofFn fun k : Fin c.frameSize => r.data g.slotIdx k

theorem Region.deref_eq_iff {c : CheckedConfig} {r : Region} {g : FrameGuard} {d : List UInt8}
    (hd : d.length = c.frameSize) :
    r.deref c g = d ↔ ∀ k < c.frameSize, r.data g.slotIdx k = d.getD k 0 := by
  constructor
  · rintro rfl k hk
    simp [Region.deref, List.getD_eq_getElem?_getD, hk]
  · intro h
    apply List.ext_getElem (by simp [Region.deref, hd])
    intro k hk hk'
    have hkc : k < c.frameSize := hd ▸ hk'
    simp [Region.deref, h k hkc, List.getD_eq_getElem?_getD, List.getElem?_eq_getElem hk']

def Region.dropGuard (r : Region) (g : FrameGuard) : Region :=
  r.setRef g.slotIdx (fetchSub (r.slot g.slotIdx).refCount)

end AutoTargeting.Ring
