import AutoTargeting.Detector.Sampling
import AutoTargeting.VideoCapture.Convert

namespace AutoTargeting.VideoCapture

open Blocks Buffers
open Detector (channel nv12Row rgbPixel slice)

/-- Byte `i` of pair `k` in row `j`: a luma, U, the other luma, V. -/
def pairByte (data : List UInt8) (w j k i : ℕ) : UInt8 := data.getD (j * (w * 2) + k * 4 + i) 0

/-- The chroma that pixel `(x, y)` shares with its neighbour. -/
def chromaPair (data : List UInt8) (w x y : ℕ) : UInt8 × UInt8 :=
  (pairByte data w y (x / 2) 1, pairByte data w y (x / 2) 3)

/-- A YUYV frame of even sides. -/
structure EvenYuyv (frame : Frame) : Prop where
  format : frame.metadata.format = .yuyv
  width : 2 ≤ frame.metadata.width ∧ frame.metadata.width % 2 = 0
  height : 2 ≤ frame.metadata.height ∧ frame.metadata.height % 2 = 0
  length : frame.data.length = frame.metadata.width * frame.metadata.height * 2

def rgbPair (y0 u y1 v : UInt8) : List UInt8 :=
  rgbPixel y0.toNat (u.toNat - 128) (v.toNat - 128) ++
    rgbPixel y1.toNat (u.toNat - 128) (v.toNat - 128)

def yuyvRow (data : List UInt8) (w j : ℕ) : List UInt8 := (data.drop (j * (w * 2))).take (w * 2)

section
variable {data : List UInt8} {w h j : ℕ}

theorem row_end {n : ℕ} (hlen : data.length = w * h * n) (hj : j < h) :
    j * (w * n) + w * n ≤ data.length := by
  have hmul : (j + 1) * (w * n) ≤ h * (w * n) := Nat.mul_le_mul_right _ hj
  calc j * (w * n) + w * n = (j + 1) * (w * n) := by ring
    _ ≤ h * (w * n) := hmul
    _ = data.length := by rw [hlen]; ring

theorem chunks_rows (hw : 0 < w) (hlen : data.length = w * h * 2) :
    chunksExact (w * 2) data = some ((List.range h).map (yuyvRow data w)) := by
  have hcount : data.length / (w * 2) = h := by
    rw [hlen, show w * h * 2 = h * (w * 2) by ring, Nat.mul_div_cancel _ (by omega)]
  rw [chunksExact_eq (by omega), chunks, hcount]
  rfl

theorem length_yuyvRow (hlen : data.length = w * h * 2) (hj : j < h) :
    (yuyvRow data w j).length = w * 2 := by
  have hend := row_end hlen hj
  rw [yuyvRow, List.length_take, List.length_drop]
  omega

theorem chunks_pairs (hw : w % 2 = 0) (hlen : data.length = w * h * 2) (hj : j < h) :
    chunks 4 (yuyvRow data w j) = (List.range (w / 2)).map fun k =>
      [pairByte data w j k 0, pairByte data w j k 1, pairByte data w j k 2,
        pairByte data w j k 3] := by
  have hrow : (yuyvRow data w j).length = w / 2 * 4 := by
    rw [length_yuyvRow hlen hj]
    omega
  rw [chunks_eq_map hrow (by decide) 0]
  apply List.map_congr_left
  intro k hk
  have hk : k < w / 2 := List.mem_range.mp hk
  have hbyte : ∀ i < 4, (yuyvRow data w j).getD (k * 4 + i) 0 = pairByte data w j k i := by
    intro i hi
    rw [yuyvRow, pairByte, List.getD_eq_getElem?_getD, List.getD_eq_getElem?_getD,
      List.getElem?_take_of_lt (by omega), List.getElem?_drop, Nat.add_assoc]
  have hfour : List.range 4 = [0, 1, 2, 3] := rfl
  simp only [hfour, List.map_cons, List.map_nil, hbyte 0 (by decide), hbyte 1 (by decide),
    hbyte 2 (by decide), hbyte 3 (by decide)]

/-- The loop over the pairs of a row that writes `n` bytes for each. -/
theorem pairs_loop {body : List UInt8 → List UInt8 → Option (List UInt8)}
    {g : UInt8 → UInt8 → UInt8 → UInt8 → List UInt8} {n : ℕ} (hn : 0 < n)
    (hbody : ∀ a b c d chunk, chunk.length = n → body [a, b, c, d] chunk = some (g a b c d))
    (hw : w % 2 = 0) (hlen : data.length = w * h * 2) (hj : j < h) {buf : List UInt8}
    (hbuf : buf.length = w / 2 * n) :
    zipChunksMut n body (chunks 4 (yuyvRow data w j)) buf =
      some ((List.range (w / 2)).flatMap fun k => g (pairByte data w j k 0)
        (pairByte data w j k 1) (pairByte data w j k 2) (pairByte data w j k 3)) := by
  rw [chunks_pairs hw hlen hj, zipChunksMut_map]
  apply zipChunksMut_overwrites hn
  · exact fun k _ chunk hchunk => hbody _ _ _ _ chunk hchunk
  · rw [hbuf, List.length_range]

def lumaBytes (data : List UInt8) (w j : ℕ) : List UInt8 :=
  (List.range (w / 2)).flatMap fun k => [pairByte data w j k 0, pairByte data w j k 2]

def chromaBytes (data : List UInt8) (w j : ℕ) : List UInt8 :=
  (List.range (w / 2)).flatMap fun k => [pairByte data w j k 1, pairByte data w j k 3]

/-- Row `j` in the colours of row `r`. -/
def rgbBytes (data : List UInt8) (w j r : ℕ) : List UInt8 :=
  (List.range (w / 2)).flatMap fun k => rgbPair (pairByte data w j k 0) (pairByte data w r k 1)
    (pairByte data w j k 2) (pairByte data w r k 3)

/-- The row of which the NV12 picture keeps the chroma for row `j`. -/
def chromaRow (j : ℕ) : ℕ := 2 * (j / 2)

theorem length_lumaBytes (hw : w % 2 = 0) : (lumaBytes data w j).length = w := by
  have hlength := length_flatMap_range (n := w / 2) (m := 2)
    (g := fun k => [pairByte data w j k 0, pairByte data w j k 2]) fun _ _ => rfl
  rw [lumaBytes, hlength]
  omega

theorem length_chromaBytes (hw : w % 2 = 0) : (chromaBytes data w j).length = w := by
  have hlength := length_flatMap_range (n := w / 2) (m := 2)
    (g := fun k => [pairByte data w j k 1, pairByte data w j k 3]) fun _ _ => rfl
  rw [chromaBytes, hlength]
  omega

theorem length_rgbBytes (hw : w % 2 = 0) (j r : ℕ) : (rgbBytes data w j r).length = w * 3 := by
  have hlength := length_flatMap_range (n := w / 2) (m := 6)
    (g := fun k => rgbPair (pairByte data w j k 0) (pairByte data w r k 1)
      (pairByte data w j k 2) (pairByte data w r k 3)) fun _ _ => rfl
  rw [rgbBytes, hlength]
  omega

theorem yuyvRgbRow_eq (hw : w % 2 = 0) (hlen : data.length = w * h * 2) (hj : j < h)
    {dstRow : List UInt8} (hdst : dstRow.length = w * 3) :
    yuyvRgbRow w (yuyvRow data w j) dstRow = some (rgbBytes data w j j) := by
  unfold yuyvRgbRow
  rw [chunksExact_eq (by decide), Option.bind_eq_bind, Option.bind_some,
    pairs_loop (n := 6) (by decide) ?_ hw hlen hj (by omega), Option.bind_eq_bind,
    Option.bind_some, if_neg (by omega)]
  · rfl
  · exact fun a b c d chunk hchunk => if_pos hchunk.symm

/-- The direct way keeps the chroma of every row. -/
theorem yuyvToRgb24Pixels_eq (hw0 : 0 < w) (hw : w % 2 = 0) (hlen : data.length = w * h * 2) :
    yuyvToRgb24Pixels data w h = some ((List.range h).flatMap fun j => rgbBytes data w j j) := by
  unfold yuyvToRgb24Pixels
  rw [chunks_rows hw0 hlen, Option.bind_eq_bind, Option.bind_some, zipChunksMut_map]
  apply zipChunksMut_overwrites (by omega)
  · exact fun j hj dstRow hdst => yuyvRgbRow_eq hw hlen (List.mem_range.mp hj) hdst
  · rw [List.length_replicate, List.length_range]
    ring

theorem yuyvLumaRow_eq (hw : w % 2 = 0) (hlen : data.length = w * h * 2) (hj : j < h)
    {yRow : List UInt8} (hrow : yRow.length = w) :
    yuyvLumaRow w (yuyvRow data w j) yRow = some (lumaBytes data w j) := by
  unfold yuyvLumaRow
  rw [chunksExact_eq (by decide), Option.bind_eq_bind, Option.bind_some,
    pairs_loop (g := fun a _ c _ => [a, c]) (by decide) ?_ hw hlen hj (by omega),
    Option.bind_eq_bind, Option.bind_some, if_neg (by omega)]
  · rfl
  · exact fun a b c d chunk hchunk => if_pos hchunk.symm

theorem yuyvChromaRow_eq (hw : w % 2 = 0) (hlen : data.length = w * h * 2) {r : ℕ}
    (hr : 2 * r < h) {uvRow : List UInt8} (hrow : uvRow.length = w) :
    yuyvChromaRow w data r uvRow = some (chromaBytes data w (2 * r)) := by
  have hend := row_end hlen hr
  have hslice : slice data (2 * r * w * 2) (w * 2) = some (yuyvRow data w (2 * r)) := by
    rw [slice, Nat.mul_assoc (2 * r) w 2, if_pos hend]
    rfl
  unfold yuyvChromaRow
  rw [hslice, Option.bind_eq_bind, Option.bind_some, chunksExact_eq (by decide),
    Option.bind_eq_bind, Option.bind_some,
    pairs_loop (g := fun _ b _ d => [b, d]) (by decide) ?_ hw hlen hr (by omega),
    Option.bind_some, if_neg (by omega)]
  · rfl
  · exact fun a b c d chunk hchunk => if_pos hchunk.symm

/-- The NV12 picture: the luma of every row, and the chroma of every second one. -/
def nv12Bytes (data : List UInt8) (w h : ℕ) : List UInt8 :=
  ((List.range h).flatMap fun j => lumaBytes data w j) ++
    (List.range (h / 2)).flatMap fun r => chromaBytes data w (2 * r)

theorem length_lumaPlane (data : List UInt8) (hw : w % 2 = 0) (h : ℕ) :
    ((List.range h).flatMap fun j => lumaBytes data w j).length = w * h := by
  rw [length_flatMap_range fun j _ => length_lumaBytes hw, Nat.mul_comm]

theorem length_nv12Bytes (hw : w % 2 = 0) (hh : h % 2 = 0) :
    (nv12Bytes data w h).length = w * h * 3 / 2 := by
  obtain ⟨m, rfl⟩ : ∃ m, h = 2 * m := ⟨h / 2, by omega⟩
  rw [nv12Bytes, List.length_append, length_lumaPlane data hw,
    length_flatMap_range fun r _ => length_chromaBytes hw]
  have hsize : w * (2 * m) * 3 = 2 * (w * (2 * m) + m * w) := by ring
  rw [hsize, Nat.mul_div_cancel_left _ (by decide), Nat.mul_div_cancel_left _ (by decide)]

theorem yuyvToNv12Pixels_eq (hw0 : 0 < w) (hw : w % 2 = 0) (hh : h % 2 = 0)
    (hlen : data.length = w * h * 2) : yuyvToNv12Pixels data w h = some (nv12Bytes data w h) := by
  obtain ⟨m, rfl⟩ : ∃ m, h = 2 * m := ⟨h / 2, by omega⟩
  have hhalf : 2 * m / 2 = m := by omega
  have hsize : w * (2 * m) * 3 / 2 = w * (2 * m) + m * w := by
    rw [show w * (2 * m) * 3 = (w * (2 * m) + m * w) * 2 by ring, Nat.mul_div_cancel _ (by decide)]
  have hluma : ∀ buf : List UInt8, buf.length = w * (2 * m) →
      zipChunksMut w (yuyvLumaRow w) ((List.range (2 * m)).map (yuyvRow data w)) buf =
        some ((List.range (2 * m)).flatMap fun j => lumaBytes data w j) := by
    intro buf hbuf
    rw [zipChunksMut_map]
    apply zipChunksMut_overwrites hw0
    · exact fun j hj row hrow => yuyvLumaRow_eq hw hlen (List.mem_range.mp hj) hrow
    · rw [hbuf, List.length_range, Nat.mul_comm]
  have hchroma : ∀ buf : List UInt8, buf.length = m * w →
      enumerateChunksMut w (yuyvChromaRow w data) buf =
        some ((List.range m).flatMap fun r => chromaBytes data w (2 * r)) := by
    intro buf hbuf
    rw [enumerateChunksMut, hbuf, Nat.mul_div_cancel _ hw0]
    apply zipChunksMut_overwrites hw0
    · intro r hr row hrow
      have hr : r < m := List.mem_range.mp hr
      exact yuyvChromaRow_eq hw hlen (by omega) hrow
    · rw [hbuf, List.length_range]
  unfold yuyvToNv12Pixels
  rw [chunks_rows hw0 hlen, Option.bind_eq_bind, Option.bind_some, hhalf, hsize, nv12Bytes, hhalf]
  apply onSplit_eq hluma
  · intro buf hbuf
    rw [onSlice_all hbuf, hchroma buf hbuf]
  · exact List.length_replicate

theorem slice_luma (hw : w % 2 = 0) (hj : j < h) :
    slice (nv12Bytes data w h) (j * w) w = some (lumaBytes data w j) := by
  have hplane := length_lumaPlane data hw h
  have hmul : (j + 1) * w ≤ h * w := Nat.mul_le_mul_right _ hj
  rw [Nat.succ_mul, Nat.mul_comm h w] at hmul
  have hin : j * w + w ≤ (nv12Bytes data w h).length := by
    rw [nv12Bytes, List.length_append, hplane]
    omega
  rw [slice, if_pos hin, nv12Bytes, List.drop_append_of_le_length (by omega),
    List.take_append_of_le_length (by rw [List.length_drop]; omega),
    take_drop_flatMap_range (fun k _ => length_lumaBytes hw) hj]

theorem slice_chroma (hw : w % 2 = 0) (hj : j < h / 2 * 2) :
    slice (nv12Bytes data w h) (w * h + j / 2 * w) w = some (chromaBytes data w (chromaRow j)) := by
  have hplane := length_lumaPlane data hw h
  have hchroma := length_flatMap_range (n := h / 2) (m := w)
    (g := fun r => chromaBytes data w (2 * r)) fun _ _ => length_chromaBytes hw
  have hr : j / 2 < h / 2 := by omega
  have hmul : (j / 2 + 1) * w ≤ h / 2 * w := Nat.mul_le_mul_right _ hr
  rw [Nat.succ_mul] at hmul
  have hin : w * h + j / 2 * w + w ≤ (nv12Bytes data w h).length := by
    rw [nv12Bytes, List.length_append, hplane, hchroma]
    omega
  have hdrop : (nv12Bytes data w h).drop (w * h + j / 2 * w) =
      ((List.range (h / 2)).flatMap fun r => chromaBytes data w (2 * r)).drop (j / 2 * w) := by
    rw [nv12Bytes, ← List.drop_drop, List.drop_left' hplane]
  rw [slice, if_pos hin, hdrop, take_drop_flatMap_range (fun r _ => length_chromaBytes hw) hr]
  rfl

theorem getD_lumaBytes (data : List UInt8) (j : ℕ) {k i : ℕ} (hk : k < w / 2) (hi : i < 2) :
    (lumaBytes data w j).getD (k * 2 + i) 0 = pairByte data w j k (2 * i) := by
  rw [List.getD_eq_getElem?_getD, lumaBytes, getElem?_flatMap_range (m := 2) (fun _ _ => rfl) hk hi]
  match i, hi with
  | 0, _ => rfl
  | 1, _ => rfl

theorem getD_chromaBytes (data : List UInt8) (j : ℕ) {k i : ℕ} (hk : k < w / 2) (hi : i < 2) :
    (chromaBytes data w j).getD (k * 2 + i) 0 = pairByte data w j k (2 * i + 1) := by
  rw [List.getD_eq_getElem?_getD, chromaBytes, getElem?_flatMap_range (m := 2) (fun _ _ => rfl) hk hi]
  match i, hi with
  | 0, _ => rfl
  | 1, _ => rfl

theorem nv12Row_eq (hw : w % 2 = 0) (hh : h % 2 = 0) (hj : j < h) :
    nv12Row (nv12Bytes data w h) w h j = some (rgbBytes data w j (chromaRow j)) := by
  unfold nv12Row
  rw [slice_luma hw hj, slice_chroma hw (by omega), hw, Nat.zero_mul]
  simp only [Option.bind_eq_bind, Option.bind_some, List.replicate_zero, List.append_nil]
  apply congrArg some
  apply List.flatMap_congr
  intro k hk
  have hk : k < w / 2 := List.mem_range.mp hk
  have hluma0 := getD_lumaBytes data j hk (i := 0) (by decide)
  have hchroma0 := getD_chromaBytes data (chromaRow j) hk (i := 0) (by decide)
  rw [Nat.add_zero] at hluma0 hchroma0
  rw [hluma0, hchroma0, getD_lumaBytes data j hk (by decide),
    getD_chromaBytes data (chromaRow j) hk (by decide)]
  rfl

theorem nv12ToRgb24_eq (hw0 : 0 < w) (hw : w % 2 = 0) (hh : h % 2 = 0) :
    Detector.nv12ToRgb24 (nv12Bytes data w h) w h =
      some ((List.range h).flatMap fun j => rgbBytes data w j (chromaRow j)) := by
  have hok : ¬ ((nv12Bytes data w h).length ≠ w * h * 3 / 2 ∨ w = 0) := by
    rw [length_nv12Bytes hw hh]
    omega
  rw [Detector.nv12ToRgb24, if_neg hok,
    Detector.mapM_eq_some fun j hj => nv12Row_eq hw hh (List.mem_range.mp hj), Option.map_some,
    List.flatMap_def]

/-- A byte of pixel `(x, y)`: of the luma there and of the chroma in another row. -/
theorem channel_rows (row : ℕ → ℕ) (hw : w % 2 = 0) {x y c : ℕ} (hx : x < w) (hy : y < h)
    (hc : c < 3) :
    channel ((List.range h).flatMap fun j => rgbBytes data w j (row j)) w x y c =
      (rgbPixel (pairByte data w y (x / 2) (x % 2 * 2)).toNat
        ((chromaPair data w x (row y)).1.toNat - 128)
        ((chromaPair data w x (row y)).2.toNat - 128))[c]? := by
  have hplace : (y * w + x) * 3 + c = y * (w * 3) + (x / 2 * 6 + (x % 2 * 3 + c)) := by
    calc (y * w + x) * 3 + c = y * (w * 3) + (x * 3 + c) := by ring
      _ = y * (w * 3) + (x / 2 * 6 + (x % 2 * 3 + c)) := by omega
  have hpair : x / 2 * 6 + (x % 2 * 3 + c) < w * 3 := by omega
  rw [channel, hplace, getElem?_flatMap_range (fun j _ => length_rgbBytes hw j (row j)) hy hpair,
    rgbBytes, getElem?_flatMap_range (m := 6) (fun _ _ => rfl) (by omega) (by omega), rgbPair]
  have hlength : ∀ a u v : ℤ, (rgbPixel a u v).length = 3 := fun _ _ _ => rfl
  rcases Nat.mod_two_eq_zero_or_one x with heven | hodd
  · rw [heven, Nat.zero_mul, Nat.zero_add, List.getElem?_append_left (by rwa [hlength])]
    rfl
  · rw [hodd, Nat.one_mul, List.getElem?_append_right (by rw [hlength]; omega), hlength,
      Nat.add_sub_cancel_left]
    rfl

end

/-- The way over NV12 shows the same pixels as the direct one: on the even rows, and on the odd
ones where the chroma is that of the row above. -/
theorem yuyv_paths_agree (frame : Frame) (heven : EvenYuyv frame) :
    ∃ nv12 via direct,
      yuyvToNv12 frame = some (.ok nv12) ∧ nv12ToRgb24 nv12 = some (.ok via) ∧
        yuyvToRgb24 frame = some (.ok direct) ∧ via.metadata = direct.metadata ∧
        via.data.length = direct.data.length ∧
        ∀ y < frame.metadata.height, ∀ x < frame.metadata.width,
          (y % 2 = 0 ∨ chromaPair frame.data frame.metadata.width x y =
            chromaPair frame.data frame.metadata.width x (y - 1)) →
          ∀ c < 3, channel via.data frame.metadata.width x y c =
            channel direct.data frame.metadata.width x y c := by
  obtain ⟨data, ⟨w, h, format, capturedAt, seq⟩⟩ := frame
  obtain ⟨rfl, ⟨hw0, hw⟩, ⟨hh0, hh⟩, hlen⟩ := heven
  dsimp only at hw0 hw hh0 hh hlen ⊢
  have hw0 : 0 < w := by omega
  refine ⟨⟨nv12Bytes data w h, w, h, .nv12, capturedAt, seq⟩,
    ⟨(List.range h).flatMap fun j => rgbBytes data w j (chromaRow j), w, h, .rgb24, capturedAt, seq⟩,
    ⟨(List.range h).flatMap fun j => rgbBytes data w j j, w, h, .rgb24, capturedAt, seq⟩,
    ?_, ?_, ?_, rfl, ?_, ?_⟩
  · simp [yuyvToNv12, convertPixels, hlen, yuyvToNv12Pixels_eq hw0 hw hh hlen]
  · simp [nv12ToRgb24, convertPixels, length_nv12Bytes hw hh, nv12ToRgb24_eq hw0 hw hh]
  · simp [yuyvToRgb24, convertPixels, hlen, yuyvToRgb24Pixels_eq hw0 hw hlen]
  · rw [length_flatMap_range fun j _ => length_rgbBytes hw j (chromaRow j),
      length_flatMap_range fun j _ => length_rgbBytes hw j j]
  · intro y hy x hx hchroma c hc
    have hsame : chromaPair data w x (chromaRow y) = chromaPair data w x y := by
      by_cases hodd : y % 2 = 0
      · rw [chromaRow, show 2 * (y / 2) = y by omega]
      · rw [chromaRow, show 2 * (y / 2) = y - 1 by omega]
        exact (hchroma.resolve_left hodd).symm
    refine (channel_rows chromaRow hw hx hy hc).trans ?_
    rw [hsame]
    exact (channel_rows id hw hx hy hc).symm

/-- The rows differ in their chroma. -/
def smallYuyv : Frame := ⟨[16, 128, 235, 128, 81, 90, 81, 240], ⟨2, 2, .yuyv, 0, 7⟩⟩

theorem yuyv_paths_agree_small : ∃ nv12 via direct,
    yuyvToNv12 smallYuyv = some (.ok nv12) ∧ nv12ToRgb24 nv12 = some (.ok via) ∧
      yuyvToRgb24 smallYuyv = some (.ok direct) ∧ via.metadata = direct.metadata ∧
      via.data.length = direct.data.length ∧ ∀ y < 2, ∀ x < 2,
        (y % 2 = 0 ∨ chromaPair smallYuyv.data 2 x y = chromaPair smallYuyv.data 2 x (y - 1)) →
        ∀ c < 3, channel via.data 2 x y c = channel direct.data 2 x y c :=
  yuyv_paths_agree smallYuyv ⟨rfl, by decide, by decide, rfl⟩

end AutoTargeting.VideoCapture
