import AutoTargeting.Ring.Layout
import AutoTargeting.Yolo.Letterbox
import Mathlib.Data.Int.Bitwise

namespace AutoTargeting.Detector

open Yolo

-- A `none` is a panic, or an error of `preprocess_frame`.

def slice (buf : List UInt8) (start len : ℕ) : Option (List UInt8) :=
  if start + len ≤ buf.length then some ((buf.drop start).take len) else none

/-- `buf[start..][..row.len()].copy_from_slice(row)`. -/
def copyFromSlice (buf : List UInt8) (start : ℕ) (row : List UInt8) : Option (List UInt8) :=
  if start + row.length ≤ buf.length then
    some (buf.take start ++ row ++ buf.drop (start + row.length))
  else none

def clamp8 (v : ℤ) : UInt8 := UInt8.ofNat (max 0 (min 255 v)).toNat

/-- The three colours of a pixel with these `y`, `u` and `v`. -/
def rgbPixel (y u v : ℤ) : List UInt8 :=
  [clamp8 (y + (359 * v) >>> 8), clamp8 (y - (88 * u + 183 * v) >>> 8),
    clamp8 (y + (454 * u) >>> 8)]

/-- Row `j` of `nv12_to_rgb24`: two pixels for each pair of chroma bytes, and black for an odd
pixel at the end. -/
def nv12Row (data : List UInt8) (w h j : ℕ) : Option (List UInt8) := do
  let yRow ← slice data (j * w) w
  let uvRow ← slice data (w * h + j / 2 * w) w
  let pixels := (List.range (w / 2)).flatMap fun k =>
    let u : ℤ := (uvRow.getD (k * 2) 0).toNat - 128
    let v : ℤ := (uvRow.getD (k * 2 + 1) 0).toNat - 128
    rgbPixel (yRow.getD (k * 2) 0).toNat u v ++ rgbPixel (yRow.getD (k * 2 + 1) 0).toNat u v
  return pixels ++ List.replicate (w % 2 * 3) 0

def nv12ToRgb24 (data : List UInt8) (w h : ℕ) : Option (List UInt8) :=
  if data.length ≠ w * h * 3 / 2 ∨ w = 0 then none
  else ((List.range h).mapM (nv12Row data w h)).map List.flatten

def padValue : UInt8 := 114

def pixelsAt (row : List UInt8) (columns : List ℕ) : Option (List UInt8) :=
  (columns.mapM fun sx => slice row (sx * 3) 3).map List.flatten

/-- The rows of the visible part, copied into the square of padding. -/
def drawRows (row : ℕ → Option (List UInt8)) (padX padY rows : ℕ) : Option (List UInt8) :=
  (List.range rows).foldlM
    (fun out ty => (row ty).bind
      (copyFromSlice out ((padY + ty) * inputSize * 3 + padX * 3)))
    (List.replicate (inputSize * inputSize * 3) padValue)

/-- `letterbox`: the source, scaled, in the middle of a square of padding. -/
def letterbox (rgb : List UInt8) (srcW srcH : ℕ) : Option (List UInt8) :=
  if rgb.length ≠ srcW * srcH * 3 then none
  else
    let params := LetterboxParams.forSize srcW srcH
    let visW := asU32 (roundAway (srcW * params.scale))
    let visH := asU32 (roundAway (srcH * params.scale))
    let inv := if 0 < params.scale then 1 / params.scale else 0
    let padX := asU32 (roundAway params.padX)
    let padY := asU32 (roundAway params.padY)
    if params.scale = 1 ∧ visW = srcW then
      drawRows (fun ty => slice rgb (ty * srcW * 3) (srcW * 3)) padX padY visH
    else
      -- the nearest column and row of the source
      let sx (tx : ℕ) := min (asU32 (roundAway (tx * inv))) (srcW - 1)
      let sy (ty : ℕ) := min (asU32 (roundAway (ty * inv))) (srcH - 1)
      let columns := (List.range visW).map sx
      drawRows (fun ty => (slice rgb (sy ty * srcW * 3) (srcW * 3)).bind (pixelsAt · columns))
        padX padY visH

inductive BackendKind
  | bridge
  | cpuOnnx
  | mock
  deriving DecidableEq, Repr

structure Frame where
  data : List UInt8
  width : ℕ
  height : ℕ
  deriving DecidableEq, Repr

def preprocessFrame (raw : Frame) (format : Ring.StorageFormat) (backend : BackendKind) :
    Option Frame :=
  match backend, format with
  | .bridge, .nv12 => do
    let rgb ← nv12ToRgb24 raw.data raw.width raw.height
    let lb ← letterbox rgb raw.width raw.height
    return ⟨lb, inputSize, inputSize⟩
  | .bridge, .rgb24 => do
    let lb ← letterbox raw.data raw.width raw.height
    return ⟨lb, inputSize, inputSize⟩
  | .cpuOnnx, _ | .mock, _ => some raw

theorem length_copyFromSlice {buf row out : List UInt8} {start : ℕ}
    (h : copyFromSlice buf start row = some out) : out.length = buf.length := by
  unfold copyFromSlice at h
  split at h <;> cases h
  simp only [List.length_append, List.length_take, List.length_drop]
  omega

/-- A loop whose turns keep the length of the buffer. -/
theorem length_foldlM {β : Type*} {f : List UInt8 → β → Option (List UInt8)} {xs : List β}
    {buf out : List UInt8} (hf : ∀ b x b', f b x = some b' → b'.length = b.length)
    (h : xs.foldlM f buf = some out) : out.length = buf.length := by
  induction xs generalizing buf with
  | nil => cases h; rfl
  | cons x xs ih =>
    rw [List.foldlM_cons] at h
    obtain ⟨b, hb, h⟩ := Option.bind_eq_some_iff.mp h
    rw [ih h, hf _ _ _ hb]

theorem length_drawRows {row : ℕ → Option (List UInt8)} {padX padY rows : ℕ} {out : List UInt8}
    (h : drawRows row padX padY rows = some out) : out.length = inputSize * inputSize * 3 := by
  have hlen := length_foldlM (fun b ty b' hb => ?_) h
  · rw [hlen, List.length_replicate]
  · obtain ⟨pixels, -, hb⟩ := Option.bind_eq_some_iff.mp hb
    exact length_copyFromSlice hb

/-- Whatever its source, a letterboxed frame fills the square. -/
theorem length_letterbox {rgb out : List UInt8} {srcW srcH : ℕ}
    (h : letterbox rgb srcW srcH = some out) : out.length = inputSize * inputSize * 3 := by
  unfold letterbox at h
  split at h
  case isTrue => cases h
  case isFalse =>
    simp only at h
    split at h <;> exact length_drawRows h

/-- What the bridge is given is the square, whatever the geometry of the ring. -/
theorem length_preprocessFrame {raw prepared : Frame} {format : Ring.StorageFormat}
    (h : preprocessFrame raw format .bridge = some prepared) :
    prepared.data.length = inputSize * inputSize * 3 := by
  cases format with
  | nv12 =>
    obtain ⟨rgb, -, h⟩ := Option.bind_eq_some_iff.mp h
    obtain ⟨lb, hlb, h⟩ := Option.bind_eq_some_iff.mp h
    cases h
    exact length_letterbox hlb
  | rgb24 =>
    obtain ⟨lb, hlb, h⟩ := Option.bind_eq_some_iff.mp h
    cases h
    exact length_letterbox hlb

theorem slice_isSome {buf : List UInt8} {start len : ℕ} (h : start + len ≤ buf.length) :
    ∃ row, slice buf start len = some row ∧ row.length = len := by
  refine ⟨(buf.drop start).take len, if_pos h, ?_⟩
  rw [List.length_take, List.length_drop]
  omega

theorem copyFromSlice_isSome {buf row : List UInt8} {start : ℕ}
    (h : start + row.length ≤ buf.length) : ∃ out, copyFromSlice buf start row = some out :=
  ⟨_, if_pos h⟩

/-- A `mapM` that never fails, where each result has `n` bytes. -/
theorem length_mapM {β : Type*} {f : β → Option (List UInt8)} {xs : List β} {n : ℕ}
    (hf : ∀ x ∈ xs, ∃ row, f x = some row ∧ row.length = n) :
    ∃ rows, xs.mapM f = some rows ∧ rows.flatten.length = xs.length * n := by
  induction xs with
  | nil => exact ⟨[], rfl, by simp⟩
  | cons x xs ih =>
    obtain ⟨row, hrow, hlen⟩ := hf x List.mem_cons_self
    obtain ⟨rows, hrows, hlens⟩ := ih fun y hy => hf y (List.mem_cons_of_mem _ hy)
    refine ⟨row :: rows, by simp [hrow, hrows], ?_⟩
    rw [List.flatten_cons, List.length_append, hlen, hlens, List.length_cons, Nat.succ_mul,
      Nat.add_comm]

theorem nv12Row_isSome {data : List UInt8} {w h j : ℕ} (hh : h % 2 = 0)
    (hlen : 2 * data.length = w * h * 3) (hj : j < h) :
    ∃ row, nv12Row data w h j = some row ∧ row.length = w * 3 := by
  have hluma : (j + 1) * w ≤ h * w := Nat.mul_le_mul_right _ hj
  have hchroma : (j / 2 + 1) * w ≤ h / 2 * w := Nat.mul_le_mul_right _ (by omega)
  have hhalf : 2 * (h / 2 * w) = h * w := by
    rw [← Nat.mul_assoc]
    congr 1
    omega
  rw [Nat.succ_mul] at hluma hchroma
  rw [Nat.mul_comm w h] at hlen
  obtain ⟨yRow, hy, -⟩ := slice_isSome (show j * w + w ≤ data.length by omega)
  obtain ⟨uvRow, huv, -⟩ := slice_isSome (show w * h + j / 2 * w + w ≤ data.length by
    rw [Nat.mul_comm w h]
    omega)
  refine ⟨_, by simp only [nv12Row, hy, huv, Option.bind_eq_bind, Option.bind_some]; rfl, ?_⟩
  simp only [List.length_append, List.length_replicate, List.length_flatMap, rgbPixel,
    List.length_cons, List.length_nil, List.map_const', List.sum_replicate_nat, List.length_range]
  omega

theorem nv12ToRgb24_isSome {data : List UInt8} {w h : ℕ} (hw0 : 0 < w) (hh : h % 2 = 0)
    (hlen : 2 * data.length = w * h * 3) :
    ∃ rgb, nv12ToRgb24 data w h = some rgb ∧ rgb.length = w * h * 3 := by
  have hrow : ∀ j ∈ List.range h, ∃ row, nv12Row data w h j = some row ∧ row.length = w * 3 :=
    fun j hj => nv12Row_isSome hh hlen (List.mem_range.mp hj)
  obtain ⟨rows, hrows, hflat⟩ := length_mapM hrow
  refine ⟨rows.flatten, ?_, ?_⟩
  · have hok : ¬ (data.length ≠ w * h * 3 / 2 ∨ w = 0) := by omega
    rw [nv12ToRgb24, if_neg hok, hrows, Option.map_some]
  · rw [hflat, List.length_range, ← Nat.mul_assoc, Nat.mul_comm h w]

end AutoTargeting.Detector
