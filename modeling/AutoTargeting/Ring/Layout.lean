import Mathlib.Algebra.Group.Nat.Defs

namespace AutoTargeting.Ring

/-- `WRITER_LOCK = u32::MAX` in `SlotMeta::ref_count`: the producer writes the slot. -/
def writerLock : ℕ := 2 ^ 32 - 1

def formatNv12 : ℕ := 0
def formatRgb24 : ℕ := 1

def sizeOfBufferHeader : ℕ := 64
def sizeOfSlotMeta : ℕ := 64

inductive StorageFormat
  | nv12
  | rgb24
  deriving DecidableEq, Repr

namespace StorageFormat

def code : StorageFormat → ℕ
  | nv12 => formatNv12
  | rgb24 => formatRgb24

def debugName : StorageFormat → String
  | nv12 => "Nv12"
  | rgb24 => "Rgb24"

end StorageFormat

def checkedMulU64 (a b : ℕ) : Option ℕ := if a * b < 2 ^ 64 then some (a * b) else none

def tryFromU32 (a : ℕ) : Option ℕ := if a < 2 ^ 32 then some a else none

def frameSize (format width height : ℕ) : Option ℕ :=
  if width = 0 ∨ height = 0 then none
  else if format = formatNv12 then
    if width % 2 ≠ 0 ∨ height % 2 ≠ 0 then none
    else (checkedMulU64 (width * height) 3).bind fun total => tryFromU32 (total >>> 1)
  else if format = formatRgb24 then (checkedMulU64 (width * height) 3).bind tryFromU32
  else none

def dataAreaOffset (capacity : ℕ) : ℕ := sizeOfBufferHeader + capacity * sizeOfSlotMeta

def segmentSize (capacity frameSize : ℕ) : ℕ := dataAreaOffset capacity + capacity * frameSize

inductive RingError
  | invalidFrameSize (expected got : ℕ)
  | invalidConfig (message : String)
  | corrupted (message : String)
  deriving DecidableEq, Repr

structure RingConfig where
  capacity : ℕ
  width : ℕ
  height : ℕ
  format : StorageFormat
  deriving DecidableEq, Repr

namespace RingConfig

def frameSizeCheck (c : RingConfig) : Option ℕ := frameSize c.format.code c.width c.height

def validate (c : RingConfig) : Except RingError Unit :=
  if c.capacity = 0 ∨ 4096 < c.capacity then
    .error (.invalidConfig "capacity must be 1..=4096")
  else if c.frameSizeCheck = none then
    .error (.invalidConfig
      s!"unsupported geometry {c.width}x{c.height} {c.format.debugName} (NV12 requires even dims)")
  else
    let total := segmentSize c.capacity (c.frameSizeCheck.getD 0)
    if 256 * 1024 * 1024 < total then
      .error (.invalidConfig s!"segment {total} bytes exceeds 256 MiB cap")
    else .ok ()

end RingConfig

/-- A configuration that `RingConfig::validate` accepted. -/
structure CheckedConfig extends RingConfig where
  valid : toRingConfig.validate = .ok ()

namespace CheckedConfig

variable (c : CheckedConfig)

/-- `RingConfig::frame_size`, whose `expect` is discharged by `validate`. -/
def frameSize : ℕ := c.frameSizeCheck.getD 0

theorem capacity_bounds : 1 ≤ c.capacity ∧ c.capacity ≤ 4096 := by
  have h := c.valid
  unfold RingConfig.validate at h
  split at h
  case isTrue => cases h
  case isFalse hc => omega

theorem capacity_pos : 0 < c.capacity := c.capacity_bounds.1

end CheckedConfig

/-- A ring of three-byte frames. -/
def tinyConfig : CheckedConfig := ⟨⟨2, 1, 1, .rgb24⟩, rfl⟩

example : (RingConfig.mk 0 64 48 .nv12).validate =
    .error (.invalidConfig "capacity must be 1..=4096") := rfl

end AutoTargeting.Ring
