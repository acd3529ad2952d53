import AutoTargeting.Detector.BufferFits

namespace AutoTargeting.Detector

open Yolo

/-- Byte `i` of the chroma that pixel `(x, y)` of an NV12 frame shares with its neighbours. -/
def chromaByte (data : List UInt8) (w h x y i : ℕ) : UInt8 :=
  data.getD (w * h + y / 2 * w + (x / 2 * 2 + i)) 0

/-- The three colours of pixel `(x, y)` of an NV12 frame. -/
def nv12Pixel (data : List UInt8) (w h x y : ℕ) : List UInt8 :=
  rgbPixel (data.getD (y * w + x) 0).toNat ((chromaByte data w h x y 0).toNat - 128)
    ((chromaByte data w h x y 1).toNat - 128)

/-- The three colours of pixel `(x, y)` of a frame in this format. -/
def framePixel (format : Ring.StorageFormat) (raw : Frame) (x y : ℕ) : List UInt8 :=
  match format with
  | .nv12 => nv12Pixel raw.data raw.width raw.height x y
  | .rgb24 => pixel raw.data raw.width x y

section
variable {data : List UInt8} {w h x y c : ℕ}

theorem getD_slice {buf out : List UInt8} {start len i : ℕ} (h : slice buf start len = some out)
    (hi : i < len) : out.getD i 0 = buf.getD (start + i) 0 := by
  unfold slice at h
  split at h
  case isFalse => cases h
  case isTrue =>
    cases h
    rw [List.getD_eq_getElem?_getD, List.getElem?_take_of_lt hi, List.getElem?_drop,
      List.getD_eq_getElem?_getD]

theorem nv12Row_eq_pixels (hw : w % 2 = 0) (hh : h % 2 = 0) (hlen : 2 * data.length = w * h * 3)
    (hy : y < h) :
    nv12Row data w h y = some ((List.range w).flatMap fun x => nv12Pixel data w h x y) := by
  obtain ⟨row, hrow, -⟩ := nv12Row_isSome hh hlen hy
  rw [hrow]
  unfold nv12Row at hrow
  obtain ⟨yRow, hyRow, hrow⟩ := Option.bind_eq_some_iff.mp hrow
  obtain ⟨uvRow, huvRow, hrow⟩ := Option.bind_eq_some_iff.mp hrow
  cases hrow
  have hpairs : w = 2 * (w / 2) := by omega
  rw [hw, Nat.zero_mul, List.replicate_zero, List.append_nil]
  conv_rhs => rw [hpairs]
  rw [Blocks.flatMap_range_pairs]
  apply congrArg some
  apply List.flatMap_congr
  intro k hk
  have hk : k < w / 2 := List.mem_range.mp hk
  -- the two pixels of a pair have a luma each, and the chroma in common
  have heven : k * 2 / 2 * 2 = k * 2 := by omega
  have hodd : (k * 2 + 1) / 2 * 2 = k * 2 := by omega
  rw [getD_slice hyRow (by omega), getD_slice hyRow (by omega), getD_slice huvRow (by omega),
    getD_slice huvRow (by omega)]
  simp only [nv12Pixel, chromaByte, heven, hodd, ← hpairs, Nat.mul_comm 2 k, Nat.add_zero]

theorem nv12ToRgb24_eq_pixels (hw0 : 0 < w) (hw : w % 2 = 0) (hh : h % 2 = 0)
    (hlen : 2 * data.length = w * h * 3) :
    nv12ToRgb24 data w h = some ((List.range h).flatMap fun y =>
      (List.range w).flatMap fun x => nv12Pixel data w h x y) := by
  have hok : ¬ (data.length ≠ w * h * 3 / 2 ∨ w = 0) := by omega
  rw [nv12ToRgb24, if_neg hok,
    mapM_eq_some fun y hy => nv12Row_eq_pixels hw hh hlen (List.mem_range.mp hy), Option.map_some,
    List.flatMap_def]

theorem channel_pixels {px : ℕ → ℕ → List UInt8} (hpx : ∀ x y, (px x y).length = 3) (hx : x < w)
    (hy : y < h) (hc : c < 3) :
    channel ((List.range h).flatMap fun y => (List.range w).flatMap fun x => px x y) w x y c =
      (px x y)[c]? := by
  have hrow : ∀ y, ((List.range w).flatMap fun x => px x y).length = w * 3 :=
    fun y => Blocks.length_flatMap_range fun x _ => hpx x y
  have hplace : (y * w + x) * 3 + c = y * (w * 3) + (x * 3 + c) := by ring
  rw [channel, hplace, Blocks.getElem?_flatMap_range (fun y _ => hrow y) hy (by omega),
    Blocks.getElem?_flatMap_range (fun x _ => hpx x y) hx hc]

end

/-- A picture in RGB that shows every pixel of a frame. -/
structure Pictures (format : Ring.StorageFormat) (raw : Frame) (rgb : List UInt8) : Prop where
  length : rgb.length = raw.width * raw.height * 3
  pixels : ∀ x < raw.width, ∀ y < raw.height, ∀ c < 3,
    channel rgb raw.width x y c = (framePixel format raw x y)[c]?

theorem pictures_rgb24 {raw : Frame} (hlen : raw.data.length = raw.width * raw.height * 3) :
    Pictures .rgb24 raw raw.data := by
  refine ⟨hlen, fun x _ y _ c hc => ?_⟩
  rw [channel, framePixel, pixel, List.getElem?_take_of_lt hc, List.getElem?_drop]

theorem pictures_nv12 {raw : Frame} (hw0 : 0 < raw.width) (hw : raw.width % 2 = 0)
    (hh : raw.height % 2 = 0) (hlen : 2 * raw.data.length = raw.width * raw.height * 3) :
    ∃ rgb, nv12ToRgb24 raw.data raw.width raw.height = some rgb ∧ Pictures .nv12 raw rgb := by
  have hpx : ∀ x y, (nv12Pixel raw.data raw.width raw.height x y).length = 3 := fun _ _ => rfl
  refine ⟨_, nv12ToRgb24_eq_pixels hw0 hw hh hlen, ?_, fun x hx y hy c hc =>
    channel_pixels hpx hx hy hc⟩
  rw [Blocks.length_flatMap_range fun y _ => Blocks.length_flatMap_range fun x _ => hpx x y]
  ring

end AutoTargeting.Detector
