import AutoTargeting.VideoCapture.Convert

namespace AutoTargeting.VideoCapture

open Buffers
open Detector (slice slice_isSome)

section
variable {data srcRow : List UInt8} {w h : ℕ}

theorem mem_chunks_four {l pair : List UInt8} (hpair : pair ∈ chunks 4 l) :
    ∃ a b c d, pair = [a, b, c, d] := by
  have hlen := length_of_mem_chunks hpair
  match pair, hlen with
  | [a, b, c, d], _ => exact ⟨a, b, c, d, rfl⟩

theorem keeps_pairs {body : List UInt8 → List UInt8 → Option (List UInt8)} {n : ℕ} (hn : 0 < n)
    (hbody : ∀ a b c d, Keeps n (body [a, b, c, d])) (l : List UInt8) (m : ℕ) :
    Keeps m (zipChunksMut n body (chunks 4 l)) := by
  apply keeps_zipChunksMut hn
  intro pair hpair
  obtain ⟨a, b, c, d, rfl⟩ := mem_chunks_four hpair
  exact hbody a b c d

theorem keeps_yuyvLumaRow (w : ℕ) (srcRow : List UInt8) : Keeps w (yuyvLumaRow w srcRow) := by
  unfold yuyvLumaRow
  rw [chunksExact_eq (by decide)]
  refine Keeps.bind (keeps_pairs (by decide) ?_ srcRow w) ?_
  · exact fun a b c d => keeps_overwrite rfl
  · intro yRow hlen
    dsimp only
    split
    case isTrue =>
      split
      · exact ⟨_, rfl, List.length_set.trans hlen⟩
      · exact ⟨yRow, rfl, hlen⟩
    case isFalse => exact ⟨yRow, rfl, hlen⟩

/-- Row `k` of a picture with `c` bytes for each pixel. -/
theorem pictureRow_isSome {k c : ℕ} (hlen : data.length = w * h * c) (hk : k < h) :
    ∃ row, slice data (k * w * c) (w * c) = some row ∧ row.length = w * c := by
  apply slice_isSome
  have hmul : (k + 1) * (w * c) ≤ h * (w * c) := Nat.mul_le_mul_right _ hk
  calc k * w * c + w * c = (k + 1) * (w * c) := by ring
    _ ≤ h * (w * c) := hmul
    _ = data.length := by rw [hlen]; ring

theorem keeps_yuyvChromaRow (hw : 0 < w) (hlen : data.length = w * h * 2) {rowIdx : ℕ}
    (hrow : rowIdx < h / 2) : Keeps w (yuyvChromaRow w data rowIdx) := by
  obtain ⟨srcRow, hsrc, -⟩ := pictureRow_isSome (k := 2 * rowIdx) hlen (by omega)
  unfold yuyvChromaRow
  simp only [hsrc, chunksExact_eq (show 0 < 4 by decide), Option.bind_eq_bind, Option.bind_some]
  refine Keeps.bind (keeps_pairs (by decide) ?_ srcRow w) ?_
  · exact fun a b c d => keeps_overwrite rfl
  · by_cases hodd : w % 2 = 1
    · simp only [if_pos hodd]
      apply Keeps.onTail ?_ (Nat.sub_le w 1)
      -- one byte is left of the row, and one of the pair is written
      have hone : w - (w - 1) = 1 := by omega
      rw [hone]
      exact keeps_overwrite rfl
    · simp only [if_neg hodd]
      exact keeps_some

theorem planes (w h : ℕ) : w * h ≤ w * h * 3 / 2 ∧ h / 2 * w ≤ w * h * 3 / 2 - w * h := by
  have hhalf : h / 2 * w * 2 ≤ w * h := by
    calc h / 2 * w * 2 = h / 2 * 2 * w := by ring
      _ ≤ h * w := Nat.mul_le_mul_right _ (Nat.div_mul_le_self h 2)
      _ = w * h := Nat.mul_comm h w
  omega

theorem yuyvToNv12Pixels_total (hw : 0 < w) (hlen : data.length = w * h * 2) :
    ∃ out, yuyvToNv12Pixels data w h = some out ∧ out.length = w * h * 3 / 2 := by
  obtain ⟨hluma, hchroma⟩ := planes w h
  unfold yuyvToNv12Pixels
  rw [chunksExact_eq (by omega)]
  refine Keeps.replicate (Keeps.onSplit ?_ (Keeps.onSlice ?_ ?_) hluma) 0
  · exact keeps_zipChunksMut hw (fun srcRow _ => keeps_yuyvLumaRow w srcRow) _
  · apply keeps_enumerateChunksMut hw
    intro rowIdx hrow
    rw [Nat.mul_div_cancel _ hw] at hrow
    exact keeps_yuyvChromaRow hw hlen hrow
  · rwa [Nat.zero_add]

theorem keeps_yuyvRgbRow (hw : 0 < w) (srcRow : List UInt8) :
    Keeps (w * 3) (yuyvRgbRow w srcRow) := by
  unfold yuyvRgbRow
  simp only [chunksExact_eq (show 0 < 4 by decide), Option.bind_eq_bind, Option.bind_some]
  refine Keeps.bind (keeps_pairs (by decide) ?_ srcRow _) ?_
  · exact fun a b c d => keeps_overwrite rfl
  · by_cases hodd : w % 2 = 1
    · simp only [if_pos hodd]
      apply Keeps.onTail ?_ (by omega)
      -- three bytes are left of the row
      have hthree : w * 3 - (w - 1) * 3 = 3 := by omega
      rw [hthree]
      exact (keeps_setAt (by decide) _).bind
        ((keeps_setAt (by decide) _).bind (keeps_setAt (by decide) _))
    · simp only [if_neg hodd]
      exact keeps_some

theorem yuyvToRgb24Pixels_total (hw : 0 < w) (data : List UInt8) (h : ℕ) :
    ∃ out, yuyvToRgb24Pixels data w h = some out ∧ out.length = w * h * 3 := by
  unfold yuyvToRgb24Pixels
  rw [chunksExact_eq (by omega)]
  exact (keeps_zipChunksMut (by omega) (fun srcRow _ => keeps_yuyvRgbRow hw srcRow) _).replicate 0

theorem rgbToCb_isSome {px : List UInt8} (h : px.length = 3) : ∃ c, rgbToCb px = some c := by
  match px, h with
  | [r, g, b], _ => exact ⟨_, rfl⟩

theorem rgbToCr_isSome {px : List UInt8} (h : px.length = 3) : ∃ c, rgbToCr px = some c := by
  match px, h with
  | [r, g, b], _ => exact ⟨_, rfl⟩

theorem chroma_isSome (start : ℕ) (hsrc : srcRow.length = w * 3) (hstart : start + 3 ≤ w * 3) :
    ∃ px cb cr, slice srcRow start 3 = some px ∧ rgbToCb px = some cb ∧ rgbToCr px = some cr := by
  obtain ⟨px, hpx, hlen⟩ := slice_isSome (show start + 3 ≤ srcRow.length by omega)
  obtain ⟨cb, hcb⟩ := rgbToCb_isSome hlen
  obtain ⟨cr, hcr⟩ := rgbToCr_isSome hlen
  exact ⟨px, cb, cr, hpx, hcb, hcr⟩

theorem keeps_rgbLumaRow (srcRow : List UInt8) (n : ℕ) : Keeps n (rgbLumaRow srcRow) := by
  unfold rgbLumaRow
  simp only [chunksExact_eq (show 0 < 3 by decide), Option.bind_eq_bind, Option.bind_some]
  refine keeps_zipChunksMut (by decide) ?_ n
  intro px hpx
  have hlen := length_of_mem_chunks hpx
  match px, hlen with
  | [r, g, b], _ => exact keeps_overwrite rfl

theorem keeps_rgbChromaBlock {src0 src1 : List UInt8} (h0 : src0.length = w * 3)
    (h1 : src1.length = w * 3) {x : ℕ} (hx : x + 1 < w) :
    Keeps w (rgbChromaBlock src0 src1 · x) := by
  obtain ⟨p0, cb0, cr0, hp0, hcb0, hcr0⟩ := chroma_isSome (x * 3) h0 (by omega)
  obtain ⟨p1, cb1, cr1, hp1, hcb1, hcr1⟩ := chroma_isSome (x * 3 + 3) h0 (by omega)
  obtain ⟨p2, cb2, cr2, hp2, hcb2, hcr2⟩ := chroma_isSome (x * 3) h1 (by omega)
  obtain ⟨p3, cb3, cr3, hp3, hcb3, hcr3⟩ := chroma_isSome (x * 3 + 3) h1 (by omega)
  unfold rgbChromaBlock
  simp only [hp0, hp1, hp2, hp3, hcb0, hcb1, hcb2, hcb3, hcr0, hcr1, hcr2, hcr3,
    Option.bind_eq_bind, Option.bind_some]
  exact (keeps_setAt (by omega) _).bind (keeps_setAt (by omega) _)

theorem keeps_rgbChromaPair {src : List UInt8} (hsrc : src.length = w * 3) {x n : ℕ}
    (hx : x + 1 < w) (hn : x + 1 < n) : Keeps n (rgbChromaPair src · x) := by
  obtain ⟨p0, cb0, cr0, hp0, hcb0, hcr0⟩ := chroma_isSome (x * 3) hsrc (by omega)
  obtain ⟨p1, cb1, cr1, hp1, hcb1, hcr1⟩ := chroma_isSome (x * 3 + 3) hsrc (by omega)
  unfold rgbChromaPair
  simp only [hp0, hp1, hcb0, hcb1, hcr0, hcr1, Option.bind_eq_bind, Option.bind_some]
  exact (keeps_setAt (by omega) _).bind (keeps_setAt (by omega) _)

theorem mem_pairs {n x : ℕ} (hx : x ∈ List.range' 0 (n / 2) 2) : x + 1 < n := by
  obtain ⟨k, hk, rfl⟩ := List.mem_range'.mp hx
  omega

theorem keeps_rgbChromaRow {src0 src1 : List UInt8} (h0 : src0.length = w * 3)
    (h1 : src1.length = w * 3) : Keeps w (rgbChromaRow w src0 src1) := by
  unfold rgbChromaRow
  refine Keeps.bind (keeps_foldlM fun x hx => keeps_rgbChromaBlock h0 h1 (mem_pairs hx)) ?_
  by_cases hodd : w / 2 * 2 < w
  · obtain ⟨p0, cb0, cr0, hp0, hcb0, hcr0⟩ := chroma_isSome (w / 2 * 2 * 3) h0 (by omega)
    obtain ⟨p2, cb2, cr2, hp2, hcb2, hcr2⟩ := chroma_isSome (w / 2 * 2 * 3) h1 (by omega)
    simp only [if_pos hodd, hp0, hp2, hcb0, hcb2, hcr0, hcr2, Option.bind_eq_bind, Option.bind_some]
    exact keeps_setAt hodd _
  · simp only [if_neg hodd]
    exact keeps_some

theorem keeps_rgbChroma (hlen : data.length = w * h * 3) :
    Keeps (w * h * 3 / 2 - w * h) (rgbChroma data w h) := by
  have hchroma := (planes w h).2
  unfold rgbChroma
  refine Keeps.bind (keeps_foldlM fun row hrow => ?_) ?_
  · rw [List.mem_range] at hrow
    obtain ⟨src0, hsrc0, h0⟩ := pictureRow_isSome (k := 2 * row) hlen (by omega)
    obtain ⟨src1, hsrc1, h1⟩ := pictureRow_isSome (k := 2 * row + 1) hlen (by omega)
    simp only [hsrc0, hsrc1, Option.bind_eq_bind, Option.bind_some]
    apply (keeps_rgbChromaRow h0 h1).onSlice
    have hmul : (row + 1) * w ≤ h / 2 * w := Nat.mul_le_mul_right _ hrow
    rw [Nat.succ_mul] at hmul
    omega
  · by_cases hodd : h % 2 = 1
    · obtain ⟨src, hsrc, hs⟩ := pictureRow_isSome (k := h - 1) hlen (by omega)
      simp only [if_pos hodd, hsrc, Option.bind_eq_bind, Option.bind_some]
      apply Keeps.onTail ?_ hchroma
      -- what is left of the plane is half a row
      have hhalf : w * h * 3 / 2 - w * h - h / 2 * w ≤ w / 2 := by
        have hh : h = h / 2 * 2 + 1 := by omega
        have hsplit : w * h = h / 2 * w * 2 + w := by
          calc w * h = w * (h / 2 * 2 + 1) := by rw [← hh]
            _ = h / 2 * w * 2 + w := by ring
        omega
      intro uvRow hroom
      refine keeps_foldlM (fun x hx => ?_) uvRow hroom
      have hx := mem_pairs hx
      exact keeps_rgbChromaPair hs (by omega) (hroom ▸ hx)
    · simp only [if_neg hodd]
      exact keeps_some

theorem rgb24ToNv12Pixels_total (hw : 0 < w) (hlen : data.length = w * h * 3) :
    ∃ out, rgb24ToNv12Pixels data w h = some out ∧ out.length = w * h * 3 / 2 := by
  unfold rgb24ToNv12Pixels
  rw [chunksExact_eq (by omega)]
  refine Keeps.replicate (Keeps.onSplit ?_ (keeps_rgbChroma hlen) (planes w h).1) 0
  exact keeps_zipChunksMut hw (fun srcRow _ => keeps_rgbLumaRow srcRow w) _

end

/-- The length that the format and the size of a frame require. -/
def WellSized (frame : Frame) : Prop :=
  match frame.metadata.format with
  | .rgb24 => frame.data.length = frame.metadata.width * frame.metadata.height * 3
  | .nv12 => frame.data.length = frame.metadata.width * frame.metadata.height * 3 / 2
  | .yuyv | .mjpeg => True

/-- A conversion that returns, and what holds of its frame where it succeeds. -/
def Returns (r : Option ConversionResult) (P : Frame → Prop) : Prop :=
  ∃ result, r = some result ∧ ∀ out, result = .ok out → P out

/-- Neither an empty picture of width 0 nor an NV12 picture of an odd height; a JPEG may be empty. -/
structure Convertible (frame : Frame) : Prop where
  width_ne : frame.metadata.format ≠ .mjpeg → frame.data = [] → frame.metadata.width ≠ 0
  even : frame.metadata.format = .nv12 → frame.metadata.height % 2 = 1 →
    frame.data.length ≠ frame.metadata.width * frame.metadata.height * 3 / 2

/-- The decoded picture has three bytes for each pixel. -/
def JpegDecoder.Coloured (jpeg : JpegDecoder) (data : List UInt8) : Prop :=
  ∀ pixels w h, jpeg.decode data = .ok pixels → jpeg.info data = some (w, h) →
    pixels.length = w * h * 3

section
variable {source target : PixelFormat} {expectedLen : ℕ → ℕ → ℕ} {frame : Frame}
  {pixels : List UInt8 → ℕ → ℕ → Option (List UInt8)} {jpeg : JpegDecoder}

theorem convertPixels_returns {len : ℕ}
    (hpixels : frame.metadata.format = source →
      frame.data.length = expectedLen frame.metadata.width frame.metadata.height →
      ∃ out, pixels frame.data frame.metadata.width frame.metadata.height = some out ∧
        out.length = len) :
    Returns (convertPixels source target expectedLen pixels frame) fun out =>
      out.metadata = { frame.metadata with format := target } ∧ out.data.length = len := by
  unfold convertPixels
  dsimp only
  split
  case isTrue => exact ⟨_, rfl, nofun⟩
  case isFalse hformat =>
    split
    case isTrue => exact ⟨_, rfl, nofun⟩
    case isFalse hlen =>
      obtain ⟨out, hout, hsize⟩ := hpixels (not_not.mp hformat) (not_not.mp hlen)
      refine ⟨_, by rw [hout]; rfl, ?_⟩
      rintro _ ⟨⟩
      exact ⟨rfl, hsize⟩

theorem Returns.imp {r : Option ConversionResult} {P Q : Frame → Prop} (h : Returns r P)
    (hPQ : ∀ out, P out → Q out) : Returns r Q := by
  obtain ⟨result, hr, hP⟩ := h
  exact ⟨result, hr, fun out hout => hPQ out (hP out hout)⟩

theorem wellSized_rgb24 {out : Frame}
    (h : out.metadata = { frame.metadata with format := .rgb24 } ∧
      out.data.length = frame.metadata.width * frame.metadata.height * 3) : WellSized out := by
  unfold WellSized
  rw [h.1]
  exact h.2

theorem wellSized_nv12 {out : Frame}
    (h : out.metadata = { frame.metadata with format := .nv12 } ∧
      out.data.length = frame.metadata.width * frame.metadata.height * 3 / 2) :
    WellSized out := by
  unfold WellSized
  rw [h.1]
  exact h.2

theorem Convertible.width_pos (h : Convertible frame) (hformat : frame.metadata.format ≠ .mjpeg)
    (hlen : frame.metadata.width = 0 → frame.data.length = 0) : 0 < frame.metadata.width := by
  by_contra hzero
  have hwidth : frame.metadata.width = 0 := by omega
  exact h.width_ne hformat (List.length_eq_zero_iff.mp (hlen hwidth)) hwidth

theorem yuyvToNv12_returns (h : Convertible frame) : Returns (yuyvToNv12 frame) WellSized := by
  refine (convertPixels_returns fun hformat hlen => ?_).imp fun _ => wellSized_nv12
  exact yuyvToNv12Pixels_total (h.width_pos (by simp [hformat]) fun hw => by simp [hlen, hw]) hlen

theorem yuyvToRgb24_returns (h : Convertible frame) : Returns (yuyvToRgb24 frame) WellSized := by
  refine (convertPixels_returns fun hformat hlen => ?_).imp fun _ => wellSized_rgb24
  exact yuyvToRgb24Pixels_total (h.width_pos (by simp [hformat]) fun hw => by simp [hlen, hw]) _ _

theorem rgb24ToNv12_returns (h : Convertible frame) : Returns (rgb24ToNv12 frame) WellSized := by
  refine (convertPixels_returns fun hformat hlen => ?_).imp fun _ => wellSized_nv12
  exact rgb24ToNv12Pixels_total (h.width_pos (by simp [hformat]) fun hw => by simp [hlen, hw]) hlen

theorem nv12ToRgb24_returns (h : Convertible frame) : Returns (nv12ToRgb24 frame) WellSized := by
  refine (convertPixels_returns fun hformat hlen => ?_).imp fun _ => wellSized_rgb24
  -- an odd height is excluded for the lengths that get here
  have heven : frame.metadata.height % 2 = 0 := by
    by_contra hodd
    exact h.even hformat (by omega) hlen
  obtain ⟨q, hq⟩ := Nat.dvd_of_mod_eq_zero heven
  have hdouble : frame.metadata.width * frame.metadata.height * 3 =
      2 * (frame.metadata.width * q * 3) := by
    rw [hq]
    ring
  exact Detector.nv12ToRgb24_isSome
    (h.width_pos (by simp [hformat]) fun hw => by simp [hlen, hw]) heven (by omega)

/-- The decoded frame; its length is up to the decoder. -/
theorem decodeMjpegToRgb_ok {out : Frame} (h : decodeMjpegToRgb jpeg frame = .ok out) :
    jpeg.decode frame.data = .ok out.data ∧
      jpeg.info frame.data = some (out.metadata.width, out.metadata.height) ∧
      out.metadata.format = .rgb24 := by
  unfold decodeMjpegToRgb at h
  split at h
  · cases h
  split at h
  · cases h
  split at h
  · cases h
  · cases h
    exact ⟨‹_›, ‹_›, rfl⟩

theorem decodeMjpegToNv12_returns
    (hjpeg : ∀ data w h, jpeg.info data = some (w, h) → 0 < w ∧ 0 < h) (frame : Frame) :
    Returns (decodeMjpegToNv12 jpeg frame) WellSized := by
  unfold decodeMjpegToNv12
  cases hdecode : decodeMjpegToRgb jpeg frame with
  | error e => exact ⟨_, rfl, nofun⟩
  | ok rgb =>
    -- a decoded picture is not empty, and is not NV12
    obtain ⟨-, hinfo, hformat⟩ := decodeMjpegToRgb_ok hdecode
    apply rgb24ToNv12_returns
    refine ⟨fun _ _ => (hjpeg _ _ _ hinfo).1.ne', fun hnv12 => ?_⟩
    rw [hformat] at hnv12
    cases hnv12

end

/-- Every conversion returns, and its frames have the length that their format requires; only a
picture of one byte per pixel is not checked. A frame that has the target's format already comes
back as it is, whatever its length. -/
theorem conversions_return (jpeg : JpegDecoder)
    (hjpeg : ∀ data w h, jpeg.info data = some (w, h) → 0 < w ∧ 0 < h) (frame : Frame)
    (hframe : Convertible frame) :
    (∀ convert ∈ [yuyvToNv12, yuyvToRgb24, nv12ToRgb24, rgb24ToNv12],
      Returns (convert frame) WellSized) ∧
    ∀ target, Returns (convertTo jpeg frame target) fun out =>
      if frame.metadata.format = target then out = frame
      else (frame.metadata.format = .mjpeg → target = .rgb24 → jpeg.Coloured frame.data) →
        WellSized out := by
  refine ⟨?_, fun target => ?_⟩
  · rw [List.forall_mem_cons, List.forall_mem_cons, List.forall_mem_cons, List.forall_mem_singleton]
    exact ⟨yuyvToNv12_returns hframe, yuyvToRgb24_returns hframe, nv12ToRgb24_returns hframe,
      rgb24ToNv12_returns hframe⟩
  · unfold convertTo
    split
    case isTrue hsame =>
      refine ⟨_, rfl, ?_⟩
      rintro out ⟨⟩
      rfl
    case isFalse =>
      split
      case h_1 hformat _ =>
        refine ⟨_, rfl, fun out hout hcoloured => ?_⟩
        obtain ⟨hpixels, hinfo, hrgb⟩ := decodeMjpegToRgb_ok hout
        unfold WellSized
        rw [hrgb]
        exact hcoloured hformat rfl _ _ _ hpixels hinfo
      case h_2 => exact (decodeMjpegToNv12_returns hjpeg frame).imp fun _ hout _ => hout
      case h_3 => exact (yuyvToNv12_returns hframe).imp fun _ hout _ => hout
      case h_4 => exact (yuyvToRgb24_returns hframe).imp fun _ hout _ => hout
      case h_5 => exact (rgb24ToNv12_returns hframe).imp fun _ hout _ => hout
      case h_6 => exact (nv12ToRgb24_returns hframe).imp fun _ hout _ => hout
      case h_7 => exact ⟨_, rfl, nofun⟩

/-- Every picture is a single grey pixel. -/
def greyJpeg : JpegDecoder := ⟨fun _ => .ok [200], fun _ => some (1, 1)⟩

def yuyvFrame : Frame := ⟨[100, 128, 110, 128, 120, 128, 130, 128], ⟨2, 2, .yuyv, 0, 1⟩⟩

theorem conversions_return_yuyv :
    Returns (yuyvToNv12 yuyvFrame) WellSized ∧ Returns (yuyvToRgb24 yuyvFrame) WellSized := by
  have hframe : Convertible yuyvFrame := ⟨nofun, nofun⟩
  have hjpeg : ∀ data w h, greyJpeg.info data = some (w, h) → 0 < w ∧ 0 < h := by
    rintro data w h ⟨⟩
    decide
  have hall := (conversions_return greyJpeg hjpeg yuyvFrame hframe).1
  exact ⟨hall _ (by simp), hall _ (by simp)⟩

/-- 10x10 pixels with 100 bytes. -/
def shortRgb : Frame := ⟨List.replicate 100 0, ⟨10, 10, .rgb24, 0, 1⟩⟩

/-- A frame of the wrong length is returned as it is; chunks of width 0 and the chroma row of an odd
last row panic; and a grey picture is called RGB. -/
theorem conversions_fail :
    (convertTo greyJpeg shortRgb .rgb24 = some (.ok shortRgb) ∧ ¬ WellSized shortRgb) ∧
    yuyvToRgb24 ⟨[], ⟨0, 0, .yuyv, 0, 1⟩⟩ = none ∧
    nv12ToRgb24 ⟨[16, 16, 128], ⟨2, 1, .nv12, 0, 1⟩⟩ = none ∧
    ∃ out, convertTo greyJpeg ⟨[255, 216], ⟨1, 1, .mjpeg, 0, 1⟩⟩ .rgb24 = some (.ok out) ∧
      ¬ WellSized out := by
  refine ⟨⟨rfl, ?_⟩, rfl, by decide, _, rfl, ?_⟩
  · change ¬ shortRgb.data.length = 10 * 10 * 3
    decide
  · change ¬ [200].length = 1 * 1 * 3
    decide

end AutoTargeting.VideoCapture
