import AutoTargeting.CvInference.CpuOnnx

namespace AutoTargeting.CvInference

open Detector (channel Near OfRing padValue Pictures Visible)
open VideoCapture (Frame PixelFormat)
open Yolo

def level (b : UInt8) : ℚ := b.toNat * (1 / 255)

/-- The entry of a tensor `[1, 3, 640, 640]` in this channel, row and column. -/
def entry (tensor : List ℚ) (c y x : ℕ) : Option ℚ :=
  tensor[c * (inputSize * inputSize) + (y * inputSize + x)]?

/-- The tensor shows the pixels of a frame in its visible part, and padding around it. -/
structure Sees (f : FrameSize) (px : ℕ → ℕ → List UInt8) (tensor : List ℚ) : Prop where
  length : tensor.length = 3 * (inputSize * inputSize)
  outside : ∀ x < inputSize, ∀ y < inputSize, ¬ Visible f x y → ∀ c < 3,
    entry tensor c y x = some (level padValue)
  inside : ∀ x y, Visible f x y → ∃ sx < f.width, ∃ sy < f.height,
    (∀ c < 3, entry tensor c y x = (px sx sy)[c]?.map level) ∧
      Near f sx (f.params.unprojectXy x y).1 ∧ Near f sy (f.params.unprojectXy x y).2

section
variable {rgb : List UInt8}

theorem length_plane (rgb : List UInt8) (c : ℕ) : (plane rgb c).length = inputSize * inputSize := by
  rw [plane, List.length_map, List.length_range]

theorem rgbToNchwF32_eq (hlen : rgb.length = inputSize * inputSize * 3) :
    rgbToNchwF32 rgb = some ((List.range 3).flatMap (plane rgb)) := if_neg (not_not.mpr hlen)

/-- The bytes of a pixel are a whole square apart in the tensor. -/
theorem entry_nchw (hlen : rgb.length = inputSize * inputSize * 3) {x y c : ℕ}
    (hx : x < inputSize) (hy : y < inputSize) (hc : c < 3) :
    entry ((List.range 3).flatMap (plane rgb)) c y x =
      (channel rgb inputSize x y c).map level := by
  have hrow : (y + 1) * inputSize ≤ inputSize * inputSize := Nat.mul_le_mul_right _ hy
  rw [Nat.succ_mul] at hrow
  have hpixel : y * inputSize + x < inputSize * inputSize := by omega
  have hbyte : (y * inputSize + x) * 3 + c < rgb.length := by omega
  rw [entry, Blocks.getElem?_flatMap_range (fun c _ => length_plane rgb c) hc hpixel, plane,
    List.getElem?_map, List.getElem?_range hpixel, channel, List.getElem?_eq_getElem hbyte,
    Option.map_some, Option.map_some, List.getD_eq_getElem _ _ hbyte]
  rfl

end

/-- A picture of a frame becomes a tensor that shows the frame. -/
theorem sees_of_pictures {format : Ring.StorageFormat} {raw : Detector.Frame} {rgb : List UInt8}
    (f : FrameSize) (hw : raw.width = f.width) (hh : raw.height = f.height)
    (h : Pictures format raw rgb) :
    ∃ out tensor, Detector.letterbox rgb raw.width raw.height = some out ∧
      rgbToNchwF32 out = some tensor ∧ Sees f (Detector.framePixel format raw) tensor := by
  obtain ⟨hlen, hpixels⟩ := h
  rw [hw, hh] at hlen ⊢
  rw [hw, hh] at hpixels
  obtain ⟨out, hout, hshows⟩ := Detector.letterbox_shows f rgb hlen
  refine ⟨out, _, hout, rgbToNchwF32_eq hshows.length, ?_, ?_, ?_⟩
  · exact Blocks.length_flatMap_range fun c _ => length_plane out c
  · intro x hx y hy hvisible c hc
    rw [entry_nchw hshows.length hx hy hc, hshows.outside x hx y hy hvisible c hc, Option.map_some]
  · intro x y hvisible
    have hx : x < inputSize := by
      have hright := hvisible.1.2
      have hfits := hshows.fits.1
      omega
    have hy : y < inputSize := by
      have hbottom := hvisible.2.2
      have hfits := hshows.fits.2
      omega
    obtain ⟨sx, hsx, sy, hsy, hsame, hnear⟩ := hshows.inside x y hvisible
    refine ⟨sx, hsx, sy, hsy, fun c hc => ?_, hnear⟩
    rw [entry_nchw hshows.length hx hy hc, hsame c hc, hpixels sx hsx sy hsy c hc]

def pixelFormat : Ring.StorageFormat → PixelFormat
  | .nv12 => .nv12
  | .rgb24 => .rgb24

def bytes (frame : Frame) : Detector.Frame :=
  ⟨frame.data, frame.metadata.width, frame.metadata.height⟩

structure RingFrame (c : Ring.CheckedConfig) (frame : Frame) : Prop where
  bytes : OfRing c (bytes frame)
  format : frame.metadata.format = pixelFormat c.format

theorem frameToRgb24_of_ring {c : Ring.CheckedConfig} {frame : Frame} (h : RingFrame c frame) :
    ∃ rgb, frameToRgb24 frame = some (.ok rgb) ∧ Pictures c.format (bytes frame) rgb := by
  obtain ⟨hw, hh, hfits⟩ := c.geometryFits
  have hsmall : c.frameSize < 256 ^ 4 := c.words_lt.2.2.2.2
  obtain ⟨⟨hwidth, hheight, hdata⟩, hformat⟩ := h
  rw [bytes] at hwidth hheight hdata
  dsimp only at hwidth hheight hdata
  cases hc : c.format with
  | nv12 =>
    rw [hc] at hfits hformat
    have hnv12 : c.width % 2 = 0 ∧ c.height % 2 = 0 ∧ 2 * c.frameSize = c.width * c.height * 3 := by
      simpa [Ring.StorageFormat.code, Ring.formatNv12, Ring.formatRgb24] using hfits
    obtain ⟨hw2, hh2, hsize⟩ := hnv12
    rw [← hwidth] at hw hw2
    rw [← hheight] at hh2
    rw [← hwidth, ← hheight, ← hdata] at hsize
    obtain ⟨rgb, hrgb, hpictures⟩ := @Detector.pictures_nv12 (bytes frame) hw hw2 hh2 hsize
    have hgot : frame.data.length = frame.metadata.width * frame.metadata.height * 3 / 2 := by omega
    have hpanic : ¬ (frame.data.length ≠ frame.metadata.width * frame.metadata.height * 3 / 2 ∨
        frame.metadata.width = 0) := by omega
    refine ⟨rgb, ?_, hpictures⟩
    rw [Detector.nv12ToRgb24, bytes, if_neg hpanic] at hrgb
    simp only [frameToRgb24, hformat, pixelFormat, nv12ToRgb24, expectedBytes]
    rw [if_neg (by omega), if_neg (Nat.pos_iff_ne_zero.mp hw), hrgb, Option.map_some]
  | rgb24 =>
    rw [hc] at hfits hformat
    have hrgb : c.frameSize = c.width * c.height * 3 := by
      simpa [Ring.StorageFormat.code, Ring.formatNv12, Ring.formatRgb24] using hfits
    rw [← hwidth, ← hheight, ← hdata] at hrgb
    refine ⟨frame.data, ?_, Detector.pictures_rgb24 hrgb⟩
    simp only [frameToRgb24, hformat, pixelFormat, expectedBytes]
    rw [if_neg (by omega)]

/-- The frames that the conversion panics on: the last row of NV12 has no chroma. -/
def Panics (frame : Frame) : Prop :=
  frame.metadata.format = .nv12 ∧
    frame.data.length = frame.metadata.width * frame.metadata.height * 3 / 2 ∧
    frame.metadata.height % 2 = 1

theorem isSome_of_mapM {α β : Type*} {g : α → Option β} {xs : List α} {ys : List β}
    (h : xs.mapM g = some ys) : ∀ x ∈ xs, ∃ y, g x = some y := by
  induction xs generalizing ys with
  | nil => exact fun x hx => absurd hx List.not_mem_nil
  | cons x xs ih =>
    rw [List.mapM_cons] at h
    obtain ⟨y, hy, h⟩ := Option.bind_eq_some_iff.mp h
    obtain ⟨ys, hys, -⟩ := Option.bind_eq_some_iff.mp h
    exact List.forall_mem_cons.mpr ⟨⟨y, hy⟩, ih hys⟩

/-- The last row of an odd height has no chroma. -/
theorem nv12ToRgb24_odd {data : List UInt8} {w h : ℕ} (hw : 0 < w) (hh : h % 2 = 1)
    (hlen : data.length = w * h * 3 / 2) : nv12ToRgb24 data w h = none := by
  rw [nv12ToRgb24, if_neg (Nat.pos_iff_ne_zero.mp hw), Option.map_eq_none_iff]
  by_contra hsome
  obtain ⟨rows, hrows⟩ := Option.ne_none_iff_exists'.mp hsome
  obtain ⟨row, hrow⟩ := isSome_of_mapM hrows (h - 1) (List.mem_range.mpr (by omega))
  obtain ⟨yRow, -, hrow⟩ := Option.bind_eq_some_iff.mp hrow
  obtain ⟨uvRow, huvRow, -⟩ := Option.bind_eq_some_iff.mp hrow
  have hfits : w * h + (h - 1) / 2 * w + w ≤ data.length := by
    by_contra hout
    rw [Detector.slice, if_neg hout] at huvRow
    cases huvRow
  obtain ⟨k, rfl⟩ : ∃ k, h = 2 * k + 1 := ⟨h / 2, by omega⟩
  have hhalf : (2 * k + 1 - 1) / 2 * w = w * k := by
    rw [Nat.add_sub_cancel, Nat.mul_div_cancel_left _ (by decide), Nat.mul_comm]
  have hall : w * (2 * k + 1) = 2 * (w * k) + w := by ring
  rw [hhalf] at hfits
  omega

theorem nv12ToRgb24_even {data : List UInt8} {w h : ℕ} (hw : 0 < w) (hh : h % 2 = 0)
    (hlen : data.length = w * h * 3 / 2) :
    ∃ rgb, nv12ToRgb24 data w h = some rgb ∧ rgb.length = w * h * 3 := by
  have hpanic : ¬ (data.length ≠ w * h * 3 / 2 ∨ w = 0) := by omega
  have hwhole : 2 * data.length = w * h * 3 := by
    obtain ⟨k, rfl⟩ : ∃ k, h = 2 * k := ⟨h / 2, by omega⟩
    have hall : w * (2 * k) * 3 = 2 * (w * k * 3) := by ring
    omega
  obtain ⟨rgb, hrgb, hrgblen⟩ := Detector.nv12ToRgb24_isSome hw hh hwhole
  refine ⟨rgb, ?_, hrgblen⟩
  rw [Detector.nv12ToRgb24, if_neg hpanic] at hrgb
  rw [nv12ToRgb24, if_neg (Nat.pos_iff_ne_zero.mp hw), hrgb]

/-- Another length than the one that is asked for is an error, whatever the product wraps to. -/
theorem frameToRgb24_refuses {frame : Frame} (h : frame.data.length ≠
    expectedBytes frame.metadata.format frame.metadata.width frame.metadata.height) :
    ∃ e, frameToRgb24 frame = some (.error e) := by
  unfold frameToRgb24
  cases hformat : frame.metadata.format with
  | yuyv | mjpeg => exact ⟨_, rfl⟩
  | rgb24 | nv12 =>
    rw [hformat] at h
    exact ⟨_, if_pos h⟩

theorem frameToRgb24_cases {frame : Frame} (hw : 0 < frame.metadata.width)
    (hfits : frame.metadata.width * frame.metadata.height * 3 < 2 ^ 64) :
    (frameToRgb24 frame = none ∧ Panics frame) ∨
      ((∃ e, frameToRgb24 frame = some (.error e)) ∧ ¬ Panics frame) ∨
      ∃ rgb, (frameToRgb24 frame = some (.ok rgb) ∧
        rgb.length = frame.metadata.width * frame.metadata.height * 3) ∧ ¬ Panics frame := by
  by_cases hlen : frame.data.length =
      expectedBytes frame.metadata.format frame.metadata.width frame.metadata.height
  · unfold frameToRgb24 Panics
    cases hformat : frame.metadata.format with
    | yuyv | mjpeg => exact .inr (.inl ⟨⟨_, rfl⟩, fun h => absurd h.1 (by decide)⟩)
    | rgb24 =>
      rw [hformat] at hlen
      refine .inr (.inr ⟨frame.data, ⟨if_neg (not_not.mpr hlen), ?_⟩,
        fun h => absurd h.1 (by decide)⟩)
      rw [hlen, expectedBytes, Nat.mod_eq_of_lt hfits]
      exact PixelFormat.noConfusion
    | nv12 =>
      rw [hformat] at hlen
      have hreal : frame.data.length =
          frame.metadata.width * frame.metadata.height * 3 / 2 := by
        rw [hlen, expectedBytes, Nat.mod_eq_of_lt hfits]
      simp only [if_neg (not_not.mpr hlen)]
      rcases Nat.mod_two_eq_zero_or_one frame.metadata.height with heven | hodd
      · obtain ⟨rgb, hrgb, hrgblen⟩ := nv12ToRgb24_even hw heven hreal
        exact .inr (.inr ⟨rgb, ⟨by rw [hrgb, Option.map_some], hrgblen⟩, fun h => by omega⟩)
      · exact .inl ⟨by rw [nv12ToRgb24_odd hw hodd hreal, Option.map_none], trivial, hreal, hodd⟩
  · refine .inr (.inl ⟨frameToRgb24_refuses hlen, fun hpanics => hlen ?_⟩)
    rw [hpanics.1, expectedBytes, Nat.mod_eq_of_lt hfits]
    exact hpanics.2.1

variable {V O : Type}

/-- What an output holds: by falling confidence, at least that of the threshold, each of a class of
the model and no more than a pixel out of the frame. The boxes that overlap one of no less
confidence are gone, and no others. -/
structure Found (be : CpuInferenceBackend V O) (f : FrameSize) (t : Tensor) (seq now : ℕ)
    (ds : List Detection) : Prop where
  ranked : ds.Pairwise fun d e => e.confidence ≤ d.confidence
  sure : ∀ d ∈ ds, be.confidenceThreshold ≤ d.confidence ∧ d.confidence ≤ 1
  named : ∀ d ∈ ds, d.classId < t.numClasses ∧ d.className = be.labels.getD d.classId "unknown"
  sized : ∀ d ∈ ds, 1 ≤ d.bbox.width ∧ 1 ≤ d.bbox.height
  bounded : ∀ d ∈ ds, d.bbox.x + d.bbox.width ≤ f.width + 1 ∧
    d.bbox.y + d.bbox.height ≤ f.height + 1
  stamped : ∀ d ∈ ds, d.frameSeq = seq ∧ d.detectedAt = now
  selected : ∃ cs,
    Greedy.Selected (fun a b => be.iouThreshold < iou640 a b)
      (fun a b => b.confidence ≤ a.confidence) cs (candidates t be.confidenceThreshold) ∧
    ds.map Detection.found = cs.map fun c => (c.classId, c.confidence, frameBox f.params c)

section
variable {t : Tensor} {confThreshold iouThreshold : ℚ} {c : Candidate}

/-- The class that leads was one of the scanned ones, or led before. -/
theorem pick_id (score : ℕ → ℚ) (cs : List ℕ) (b : Best) :
    (cs.foldl (fun b c => b.pick c (score c)) b).id = b.id ∨
      (cs.foldl (fun b c => b.pick c (score c)) b).id ∈ cs := by
  induction cs generalizing b with
  | nil => exact .inl rfl
  | cons c cs ih =>
    rw [List.foldl_cons]
    rcases ih (b.pick c (score c)) with hled | hmem
    · rw [hled, Best.pick]
      split
      case isTrue => exact .inr List.mem_cons_self
      case isFalse => exact .inl rfl
    · exact .inr (List.mem_cons_of_mem _ hmem)

theorem classScan_id_lt (hclasses : 0 < t.numClasses) (a : ℕ) :
    (classScan t a).id < t.numClasses := by
  rw [classScan_eq]
  rcases pick_id (fun c => t.elem (4 + c) a) (List.range t.numClasses) .none with hnone | hmem
  · rw [hnone]
    exact hclasses
  · exact List.mem_range.mp hmem

theorem candidate_sure (h : c ∈ candidates t confThreshold) (hclasses : 0 < t.numClasses) :
    (confThreshold ≤ c.confidence ∧ c.confidence ≤ 1) ∧ c.classId < t.numClasses := by
  obtain ⟨a, -, hc⟩ := List.mem_filterMap.mp h
  unfold candidate? at hc
  split_ifs at hc with hsure hbox
  cases hc
  exact ⟨⟨not_lt.mp hsure, (clamp_mem zero_le_one _).2⟩, classScan_id_lt hclasses a⟩

theorem mem_candidates_of_kept (h : c ∈ kept t confThreshold iouThreshold) :
    c ∈ candidates t confThreshold :=
  (List.mem_insertionSort _).mp ((Greedy.suppress_sublist _ _).mem h)

/-- A side that starts and ends in the frame, of a pixel at least. -/
theorem side_bounded {W : ℕ} {start stop : ℚ} (hstart : start ≤ W) (hstop : stop ≤ W) :
    nearest start + max (nearest stop - nearest start) 1 ≤ W + 1 := by
  have hs : nearest start ≤ W := nearest_le hstart
  have he : nearest stop ≤ W := nearest_le hstop
  omega

theorem frameBox_bounded (f : FrameSize) (hw : 0 < c.w) (hh : 0 < c.h) :
    (frameBox f.params c).x + (frameBox f.params c).width ≤ f.width + 1 ∧
      (frameBox f.params c).y + (frameBox f.params c).height ≤ f.height + 1 := by
  obtain ⟨-, hx, hX⟩ := sideX_bounds f hw
  obtain ⟨-, hy, hY⟩ := sideY_bounds f hh
  rw [frameBox_eq]
  exact ⟨side_bounded (hx.trans hX) hX, side_bounded (hy.trans hY) hY⟩

end

theorem found_postprocess (be : CpuInferenceBackend V O) (f : FrameSize) {t : Tensor}
    (hclasses : 0 < t.numClasses) (seq now : ℕ) :
    Found be f t seq now
      (postprocess t f.params be.confidenceThreshold be.iouThreshold seq now be.labels) := by
  have hselected := kept_selected t be.confidenceThreshold be.iouThreshold
  refine ⟨?_, ?_, ?_, ?_, ?_, ?_, kept t be.confidenceThreshold be.iouThreshold,
    hselected.of_perm (sortCandidates_perm _), ?_⟩
  · exact List.pairwise_map.mpr hselected.ordered
  · refine List.forall_mem_map.mpr fun c hc => ?_
    exact (candidate_sure (mem_candidates_of_kept hc) hclasses).1
  · refine List.forall_mem_map.mpr fun c hc => ?_
    exact ⟨(candidate_sure (mem_candidates_of_kept hc) hclasses).2, rfl⟩
  · exact List.forall_mem_map.mpr fun c _ => ⟨le_max_right _ _, le_max_right _ _⟩
  · refine List.forall_mem_map.mpr fun c hc => ?_
    obtain ⟨hw, hh⟩ := mem_kept hc
    exact frameBox_bounded f hw hh
  · exact List.forall_mem_map.mpr fun c _ => ⟨rfl, rfl⟩
  · rw [postprocess, List.map_map]
    rfl

inductive Call (V O : Type)
  | init (loaded : Except (InitStep × String) (Session V O))
  | infer (frame : Frame) (now : ℕ)

namespace CpuInferenceBackend

def call (be : CpuInferenceBackend V O) : Call V O → CpuInferenceBackend V O
  | .init loaded => (be.init loaded).1
  | .infer _ _ => be

def after (be : CpuInferenceBackend V O) (calls : List (Call V O)) : CpuInferenceBackend V O :=
  calls.foldl call be

end CpuInferenceBackend

def lastLoaded : List (Call V O) → Option (Session V O) :=
  List.foldl (fun last call =>
    match call with
    | .init (.ok s) => some s
    | .init (.error _) | .infer _ _ => last) none

/-- The backend holds the model that was loaded last and the name of that model's input. -/
structure Holds (start : CpuInferenceBackend V O) (calls : List (Call V O))
    (be : CpuInferenceBackend V O) : Prop where
  session : be.session = lastLoaded calls
  inputName : be.inputName = (lastLoaded calls).bind Session.inputName
  thresholds : be.confidenceThreshold = start.confidenceThreshold ∧
    be.iouThreshold = start.iouThreshold
  labels : be.labels = start.labels

theorem Holds.call {start be : CpuInferenceBackend V O} {calls : List (Call V O)}
    (h : Holds start calls be) (last : Call V O) : Holds start (calls ++ [last]) (be.call last) := by
  have hlast : lastLoaded (calls ++ [last]) =
      match last with
      | .init (.ok s) => some s
      | .init (.error _) | .infer _ _ => lastLoaded calls := by
    rw [lastLoaded, List.foldl_append]
    rfl
  cases last with
  | infer frame now => exact ⟨h.session.trans hlast.symm, hlast ▸ h.inputName, h.thresholds, h.labels⟩
  | init loaded =>
    cases loaded with
    | ok s => exact ⟨hlast.symm, hlast ▸ rfl, h.thresholds, h.labels⟩
    | error e => exact ⟨h.session.trans hlast.symm, hlast ▸ h.inputName, h.thresholds, h.labels⟩

theorem holds_after {start : CpuInferenceBackend V O} (hsession : start.session = none)
    (hname : start.inputName = none) (calls : List (Call V O)) :
    Holds start calls (start.after calls) := by
  induction calls using List.reverseRecOn with
  | nil => exact ⟨hsession, hname, ⟨rfl, rfl⟩, rfl⟩
  | append_singleton calls last ih =>
    rw [CpuInferenceBackend.after, List.foldl_append]
    exact ih.call last

theorem infer_of_rgb {be : CpuInferenceBackend V O} {s : Session V O} {frame : Frame}
    {rgb out : List UInt8} {tensor : List ℚ} (hs : be.session = some s)
    (hrgb : frameToRgb24 frame = some (.ok rgb))
    (hout : Detector.letterbox rgb frame.metadata.width frame.metadata.height = some out)
    (htensor : rgbToNchwF32 out = some tensor) (now : ℕ) :
    be.infer frame now =
      match CpuInferenceBackend.output be.inputName s tensor with
      | .error e => some (.error e)
      | .ok floats => be.detections frame now floats := by
  simp only [CpuInferenceBackend.infer, hs, hrgb, Option.bind_eq_bind, Option.bind_some, hout,
    htensor]
  rfl

/-- A backend with a model panics on the frames that the conversion panics on, and on no others,
as long as their bytes are counted in 64 bits. Where the count wraps, a length that it does not
wrap to is refused. -/
theorem infer_panics_iff (be : CpuInferenceBackend V O) {s : Session V O} (hs : be.session = some s)
    (hrows : ∀ tensor floats, CpuInferenceBackend.output be.inputName s tensor = .ok floats →
      rows floats < 2 ^ 32)
    (f : FrameSize) (frame : Frame) (hw : frame.metadata.width = f.width)
    (hh : frame.metadata.height = f.height) (now : ℕ) :
    (f.width * f.height * 3 < 2 ^ 64 → (be.infer frame now = none ↔ Panics frame)) ∧
      (2 ^ 64 ≤ f.width * f.height * 3 →
        frame.data.length ≠ expectedBytes frame.metadata.format f.width f.height →
        ∃ e, be.infer frame now = some (.error e)) := by
  have hpos : 0 < frame.metadata.width := hw ▸ f.width_pos
  have refused {e : InferenceError} (he : frameToRgb24 frame = some (.error e)) :
      be.infer frame now = some (.error e) := by
    simp only [CpuInferenceBackend.infer, hs, he]
    rfl
  refine ⟨fun hfits => ?_, fun _ hlen => ?_⟩
  · rw [← hw, ← hh] at hfits
    rcases frameToRgb24_cases hpos hfits with
      ⟨hnone, hpanics⟩ | ⟨⟨e, he⟩, hfine⟩ | ⟨rgb, ⟨hrgb, hlen⟩, hfine⟩
    · refine iff_of_true ?_ hpanics
      simp only [CpuInferenceBackend.infer, hs, hnone]
      rfl
    · exact iff_of_false (refused he ▸ Option.some_ne_none _) hfine
    · refine iff_of_false ?_ hfine
      rw [hw, hh] at hlen
      obtain ⟨out, hout, hshows⟩ := Detector.letterbox_shows f rgb hlen
      rw [← hw, ← hh] at hout
      rw [infer_of_rgb hs hrgb hout (rgbToNchwF32_eq hshows.length)]
      cases houtput : CpuInferenceBackend.output be.inputName s _ with
      | error e => exact Option.some_ne_none _
      | ok floats =>
        have hsmall := hrows _ _ houtput
        simp only [CpuInferenceBackend.detections]
        split
        case isTrue => exact Option.some_ne_none _
        case isFalse =>
          rw [if_neg (by omega)]
          exact Option.some_ne_none _
  · rw [← hw, ← hh] at hlen
    obtain ⟨e, he⟩ := frameToRgb24_refuses hlen
    exact ⟨e, refused he⟩

/-- What a model makes of a frame that it sees as this tensor. -/
def Answers (be : CpuInferenceBackend V O) (s : Session V O) (f : FrameSize) (frame : Frame)
    (now : ℕ) (tensor : List ℚ) (answer : Option (Except InferenceError (List Detection))) : Prop :=
  match CpuInferenceBackend.output s.inputName s tensor with
  | .error e => answer = some (.error e)
  | .ok floats =>
    if h : Unexpected floats then ∃ message, answer = some (.error (.inference message))
    else rows floats < 2 ^ 32 → ∃ ds, answer = some (.ok ds) ∧
      Found be f (tensorOf floats h) frame.metadata.seq now ds

theorem answers_of_holds {start be : CpuInferenceBackend V O} {calls : List (Call V O)}
    (hbe : Holds start calls be) {s : Session V O} (hs : lastLoaded calls = some s)
    {c : Ring.CheckedConfig} {frame : Frame} (h : RingFrame c frame) (now : ℕ) :
    ∃ tensor, Sees (Detector.sizeOf c) (Detector.framePixel c.format (bytes frame)) tensor ∧
      Answers start s (Detector.sizeOf c) frame now tensor (be.infer frame now) := by
  obtain ⟨rgb, hrgb, hpictures⟩ := frameToRgb24_of_ring h
  obtain ⟨out, tensor, hout, htensor, hsees⟩ :=
    sees_of_pictures (Detector.sizeOf c) h.bytes.width h.bytes.height hpictures
  refine ⟨tensor, hsees, ?_⟩
  have hname : be.inputName = s.inputName := by rw [hbe.inputName, hs, Option.bind_some]
  rw [infer_of_rgb (hbe.session.trans hs) hrgb hout htensor, hname, Answers]
  cases CpuInferenceBackend.output s.inputName s tensor with
  | error e => rfl
  | ok floats =>
    dsimp only
    by_cases hbad : Unexpected floats
    · rw [dif_pos hbad]
      exact ⟨_, dif_pos hbad⟩
    · rw [dif_neg hbad]
      intro hrows
      refine ⟨_, by rw [CpuInferenceBackend.detections, dif_neg hbad, if_neg (by omega)], ?_⟩
      have hclasses : 0 < (tensorOf floats hbad).numClasses :=
        Nat.sub_pos_of_lt (not_lt.mp (not_or.mp hbad).2)
      have hw : frame.metadata.width = (Detector.sizeOf c).width := h.bytes.width
      have hh : frame.metadata.height = (Detector.sizeOf c).height := h.bytes.height
      rw [hbe.thresholds.1, hbe.thresholds.2, hbe.labels, hw, hh]
      exact found_postprocess start (Detector.sizeOf c) hclasses frame.metadata.seq now

/-- Whatever calls came before, a frame of a ring is refused until a model is loaded. From then on
the model that was loaded last sees the frame, and is answered for. -/
theorem detections_of_ring_frames (modelPath : String) (confThreshold iouThreshold : ℚ)
    (labels : List String) (calls : List (Call V O)) {c : Ring.CheckedConfig} {frame : Frame}
    (h : RingFrame c frame) (now : ℕ) :
    let start : CpuInferenceBackend V O :=
      (((CpuInferenceBackend.new modelPath).withConfidenceThreshold confThreshold).withIouThreshold
        iouThreshold).withLabels labels
    let be := start.after calls
    match lastLoaded calls with
    | none => be.healthCheck = .error .modelNotLoaded ∧
        be.infer frame now = some (.error .modelNotLoaded)
    | some s => be.healthCheck = .ok () ∧ ∃ tensor,
        Sees (Detector.sizeOf c) (Detector.framePixel c.format (bytes frame)) tensor ∧
          Answers start s (Detector.sizeOf c) frame now tensor (be.infer frame now) := by
  intro start be
  have hbe : Holds start calls be := holds_after rfl rfl calls
  cases hlast : lastLoaded calls with
  | none =>
    have hnone : be.session = none := hbe.session.trans hlast
    constructor
    · rw [CpuInferenceBackend.healthCheck, hnone]
      rfl
    · rw [CpuInferenceBackend.infer, hnone]
  | some s =>
    refine ⟨?_, answers_of_holds hbe hlast h now⟩
    rw [CpuInferenceBackend.healthCheck, hbe.session.trans hlast]
    rfl

@[irreducible] def zeros : List ℚ := List.replicate (5 * anchors640) 0

def blankModel : Session Unit Unit :=
  ⟨some "images", fun _ => .ok (), fun _ _ => .ok [()], fun _ => .ok zeros⟩

def vgaFrame : Frame :=
  ⟨List.replicate Detector.vgaConfig.frameSize 0, ⟨640, 480, .nv12, 0, 7⟩⟩

theorem vgaFrame_of_ring : RingFrame Detector.vgaConfig vgaFrame :=
  ⟨⟨rfl, rfl, List.length_replicate⟩, rfl⟩

theorem length_zeros : zeros.length = 5 * anchors640 := by
  rw [zeros, List.length_replicate]

theorem rows_zeros : rows zeros = 5 := by
  rw [rows, length_zeros]
  rfl

theorem zeros_expected : ¬ Unexpected zeros := by
  rw [Unexpected, rows_zeros, length_zeros]
  decide

/-- The first attempt to load the model fails. -/
def secondAttempt : List (Call Unit Unit) :=
  [.init (.error (.commitFromFile, "no such file")), .infer vgaFrame 2, .init (.ok blankModel)]

theorem detections_of_ring_frames_vga :
    ∃ tensor, Sees (Detector.sizeOf Detector.vgaConfig)
        (Detector.framePixel .nv12 (bytes vgaFrame)) tensor ∧
      ∃ ds, ((CpuInferenceBackend.new "yolov8n.onnx").after secondAttempt).infer vgaFrame 3 =
          some (.ok ds) ∧
        Found (CpuInferenceBackend.new "yolov8n.onnx" : CpuInferenceBackend Unit Unit)
          (Detector.sizeOf Detector.vgaConfig) (tensorOf zeros zeros_expected) 7 3 ds := by
  obtain ⟨-, tensor, hsees, hanswers⟩ := detections_of_ring_frames "yolov8n.onnx" (9 / 20) (9 / 20)
    cocoLabels secondAttempt vgaFrame_of_ring 3
  refine ⟨tensor, hsees, ?_⟩
  have houtput : CpuInferenceBackend.output blankModel.inputName blankModel tensor = .ok zeros := rfl
  rw [Answers, houtput] at hanswers
  dsimp only at hanswers
  rw [dif_neg zeros_expected, rows_zeros] at hanswers
  exact hanswers (by decide)

/-- A frame of three bytes whose sides are the largest there are. -/
def hugeFrame : Frame := ⟨[0, 0, 0], ⟨2 ^ 32 - 1, 2 ^ 32 - 1, .rgb24, 0, 8⟩⟩

/-- An odd frame: its last row has no chroma. -/
def oddFrame : Frame := ⟨List.replicate 13 0, ⟨3, 3, .nv12, 0, 7⟩⟩

theorem infer_panics_iff_odd :
    let be := (CpuInferenceBackend.new "yolov8n.onnx").after secondAttempt
    (be.infer oddFrame 3 = none ∧ Panics oddFrame) ∧
      ∃ e, be.infer hugeFrame 4 = some (.error e) := by
  intro be
  have hpanics : Panics oddFrame := ⟨rfl, by decide, by decide⟩
  have hrows : ∀ tensor floats, CpuInferenceBackend.output (some "images") blankModel tensor =
      .ok floats → rows floats < 2 ^ 32 := by
    intro tensor floats h
    have houtput : CpuInferenceBackend.output (some "images") blankModel tensor = .ok zeros := rfl
    rw [houtput] at h
    cases h
    rw [rows_zeros]
    decide
  have hodd := infer_panics_iff be rfl hrows ⟨3, 3, by decide, by decide, by decide, by decide⟩
    oddFrame rfl rfl 3
  have hhuge := infer_panics_iff be rfl hrows
    ⟨2 ^ 32 - 1, 2 ^ 32 - 1, by decide, by decide, by decide, by decide⟩ hugeFrame rfl rfl 4
  exact ⟨⟨(hodd.1 (by decide)).mpr hpanics, hpanics⟩, hhuge.2 (by decide) (by decide)⟩

end AutoTargeting.CvInference
