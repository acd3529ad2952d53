import AutoTargeting.Detector.Preprocess
import AutoTargeting.Library.Blocks
import Mathlib.Tactic.FieldSimp

namespace AutoTargeting.Detector

open Yolo

def visW (f : FrameSize) : ℕ := asU32 (roundAway (f.width * f.params.scale))

def visH (f : FrameSize) : ℕ := asU32 (roundAway (f.height * f.params.scale))

def inv (f : FrameSize) : ℚ := if 0 < f.params.scale then 1 / f.params.scale else 0

def padX (f : FrameSize) : ℕ := asU32 (roundAway f.params.padX)

def padY (f : FrameSize) : ℕ := asU32 (roundAway f.params.padY)

def sourceX (f : FrameSize) (tx : ℕ) : ℕ := min (asU32 (roundAway (tx * inv f))) (f.width - 1)

def sourceY (f : FrameSize) (ty : ℕ) : ℕ := min (asU32 (roundAway (ty * inv f))) (f.height - 1)

def copiedRow (f : FrameSize) (rgb : List UInt8) (ty : ℕ) : Option (List UInt8) :=
  slice rgb (ty * f.width * 3) (f.width * 3)

def sampledRow (f : FrameSize) (rgb : List UInt8) (ty : ℕ) : Option (List UInt8) :=
  (slice rgb (sourceY f ty * f.width * 3) (f.width * 3)).bind
    (pixelsAt · ((List.range (visW f)).map (sourceX f)))

theorem letterbox_eq (f : FrameSize) (rgb : List UInt8) :
    letterbox rgb f.width f.height =
      if rgb.length ≠ f.width * f.height * 3 then none
      else if f.params.scale = 1 ∧ visW f = f.width then
        drawRows (copiedRow f rgb) (padX f) (padY f) (visH f)
      else drawRows (sampledRow f rgb) (padX f) (padY f) (visH f) := rfl

/-- A byte of the pixel `(x, y)` of a picture of this width. -/
def channel (buf : List UInt8) (width x y c : ℕ) : Option UInt8 := buf[(y * width + x) * 3 + c]?

def Visible (f : FrameSize) (x y : ℕ) : Prop :=
  (padX f ≤ x ∧ x < padX f + visW f) ∧ padY f ≤ y ∧ y < padY f + visH f

/-- How far a sampled pixel may be from where its target is unprojected to. -/
def Near (f : FrameSize) (s : ℕ) (target : ℚ) : Prop :=
  |s - target| ≤ 1 + 1 / (2 * f.params.scale)

/-- The square shows the frame in its visible part, and padding around it. -/
structure Shows (f : FrameSize) (rgb out : List UInt8) : Prop where
  length : out.length = inputSize * inputSize * 3
  fits : padX f + visW f ≤ inputSize ∧ padY f + visH f ≤ inputSize
  outside : ∀ x < inputSize, ∀ y < inputSize, ¬ Visible f x y → ∀ c < 3,
    channel out inputSize x y c = some padValue
  inside : ∀ x y, Visible f x y → ∃ sx < f.width, ∃ sy < f.height,
    (∀ c < 3, channel out inputSize x y c = channel rgb f.width sx sy c) ∧
      Near f sx (f.params.unprojectXy x y).1 ∧ Near f sy (f.params.unprojectXy x y).2
  paths : f.params.scale = 1 → drawRows (copiedRow f rgb) (padX f) (padY f) (visH f) =
    drawRows (sampledRow f rgb) (padX f) (padY f) (visH f)

section
variable {f : FrameSize}

/-- A side, scaled, is not longer than the square's. -/
theorem scaled_side (f : FrameSize) :
    (f.width * f.params.scale ≤ inputSize) ∧ (f.height * f.params.scale ≤ inputSize) := by
  have hw : (0 : ℚ) < f.width := by exact_mod_cast f.width_pos
  have hh : (0 : ℚ) < f.height := by exact_mod_cast f.height_pos
  rw [f.scale_eq]
  constructor
  · calc f.width * min (inputSize / f.width : ℚ) (inputSize / f.height)
        ≤ f.width * (inputSize / f.width) := by
          apply mul_le_mul_of_nonneg_left (min_le_left _ _) hw.le
      _ = inputSize := by field_simp
  · calc f.height * min (inputSize / f.width : ℚ) (inputSize / f.height)
        ≤ f.height * (inputSize / f.height) := by
          apply mul_le_mul_of_nonneg_left (min_le_right _ _) hh.le
      _ = inputSize := by field_simp

/-- The visible part and the padding before it are inside the square. -/
theorem visible_fits {x : ℚ} (h0 : 0 ≤ x) (h : x ≤ inputSize) :
    nearest ((inputSize - x) * (1 / 2)) + nearest x ≤ inputSize := by
  have hbounds := nearest_bounds h0
  have hvis : nearest x ≤ inputSize := nearest_le h
  have hpad : nearest ((inputSize - x) * (1 / 2)) ≤ inputSize - nearest x := by
    rw [nearest_le_iff, Nat.cast_sub hvis]
    have hvis' : (nearest x : ℚ) ≤ inputSize := by exact_mod_cast hvis
    have hsize : (inputSize : ℚ) = 640 := by norm_num [inputSize]
    rw [hsize] at hvis' ⊢
    linarith [hbounds.1]
  omega

theorem scaled_nonneg (f : FrameSize) (n : ℕ) : 0 ≤ n * f.params.scale :=
  mul_nonneg (Nat.cast_nonneg n) f.scale_pos.le

theorem visW_eq (f : FrameSize) : visW f = nearest (f.width * f.params.scale) :=
  asU32_roundAway (by decide) (scaled_nonneg f _) (scaled_side f).1

theorem visH_eq (f : FrameSize) : visH f = nearest (f.height * f.params.scale) :=
  asU32_roundAway (by decide) (scaled_nonneg f _) (scaled_side f).2

/-- The padding is half of what a scaled side leaves over. -/
theorem pad_rounded {x pad : ℚ} (h0 : 0 ≤ x) (h : x ≤ inputSize)
    (hpad : pad = (inputSize - x) * (1 / 2)) :
    0 ≤ pad ∧ asU32 (roundAway pad) = nearest pad := by
  have hpad0 : 0 ≤ pad := by linarith
  have hsize : (0 : ℚ) ≤ inputSize := Nat.cast_nonneg _
  have hle : pad ≤ inputSize := by linarith
  exact ⟨hpad0, asU32_roundAway (by decide) hpad0 hle⟩

theorem padX_eq (f : FrameSize) : 0 ≤ f.params.padX ∧ padX f = nearest f.params.padX :=
  pad_rounded (scaled_nonneg f _) (scaled_side f).1 rfl

theorem padY_eq (f : FrameSize) : 0 ≤ f.params.padY ∧ padY f = nearest f.params.padY :=
  pad_rounded (scaled_nonneg f _) (scaled_side f).2 rfl

theorem visible_inside (f : FrameSize) :
    padX f + visW f ≤ inputSize ∧ padY f + visH f ≤ inputSize := by
  rw [(padX_eq f).2, (padY_eq f).2, visW_eq, visH_eq]
  exact ⟨visible_fits (scaled_nonneg f _) (scaled_side f).1,
    visible_fits (scaled_nonneg f _) (scaled_side f).2⟩

/-- The last visible pixel of a side of `n` pixels does not reach beyond it. -/
theorem target_lt {n t : ℕ} {scale : ℚ} (hscale : 0 < scale) (ht : t < nearest (n * scale)) :
    t / scale ≤ n - 1 / (2 * scale) := by
  have hbounds := (nearest_bounds (mul_nonneg (Nat.cast_nonneg n) hscale.le)).1
  have ht1 : ((t + 1 : ℕ) : ℚ) ≤ nearest (n * scale) := by exact_mod_cast ht
  rw [Nat.cast_add, Nat.cast_one] at ht1
  have hle : (t : ℚ) ≤ n * scale - 1 / 2 := by linarith
  calc (t : ℚ) / scale ≤ (n * scale - 1 / 2) / scale := div_le_div_of_nonneg_right hle hscale.le
    _ = n - 1 / (2 * scale) := by field_simp

theorem source_eq {n t : ℕ} (hn : n < 2 ^ 32) (hscale : 0 < f.params.scale)
    (ht : t < nearest (n * f.params.scale)) :
    asU32 (roundAway (t * inv f)) = nearest (t / f.params.scale) := by
  have hinv : t * inv f = t / f.params.scale := by rw [inv, if_pos hscale, mul_one_div]
  have hpos : 0 < 1 / (2 * f.params.scale) := by positivity
  have hle := target_lt hscale ht
  rw [hinv]
  exact asU32_roundAway hn (by positivity) (by linarith)

/-- The sampled column or row of a side with `n` pixels. -/
theorem sample_near {n t : ℕ} {scale pad : ℚ} (hscale : 0 < scale) (hpad : 0 ≤ pad)
    (hn : 0 < n) (ht : t < nearest (n * scale)) :
    |((min (nearest (t / scale)) (n - 1) : ℕ) : ℚ) - (((nearest pad + t : ℕ) : ℚ) - pad) / scale| ≤
      1 + 1 / (2 * scale) := by
  -- a sample is its target rounded, or the last pixel where that is beyond it
  have hlast := target_lt hscale ht
  have hn1 : (1 : ℚ) ≤ n := by exact_mod_cast hn
  obtain ⟨hlow, hhigh⟩ := nearest_bounds (div_nonneg (Nat.cast_nonneg t) hscale.le)
  obtain ⟨hpadlow, hpadhigh⟩ := nearest_bounds hpad
  -- the padding is rounded by half a pixel of the square at most
  have hhalf : (1 / 2 : ℚ) / scale = 1 / (2 * scale) := by field_simp
  have hshiftlow : -(1 / (2 * scale)) ≤ (nearest pad - pad) / scale := by
    rw [← hhalf, ← neg_div]
    apply div_le_div_of_nonneg_right ?_ hscale.le
    linarith
  have hshifthigh : (nearest pad - pad) / scale ≤ 1 / (2 * scale) := by
    rw [← hhalf]
    apply div_le_div_of_nonneg_right ?_ hscale.le
    linarith
  have htarget : (((nearest pad + t : ℕ) : ℚ) - pad) / scale =
      t / scale + (nearest pad - pad) / scale := by
    rw [Nat.cast_add]
    ring
  have hsample : |((min (nearest (t / scale)) (n - 1) : ℕ) : ℚ) - t / scale| ≤ 1 := by
    have hpos : 0 < 1 / (2 * scale) := by positivity
    rw [Nat.cast_min, Nat.cast_sub hn, Nat.cast_one, abs_le]
    rcases le_total (nearest (t / scale) : ℚ) (n - 1) with hle | hle
    · rw [min_eq_left hle]
      constructor <;> linarith
    · rw [min_eq_right hle]
      constructor <;> linarith
  rw [htarget, abs_le]
  rw [abs_le] at hsample
  constructor <;> linarith [hsample.1, hsample.2]

end

section
variable {f : FrameSize} {rgb : List UInt8}

def pixel (buf : List UInt8) (width x y : ℕ) : List UInt8 := (buf.drop ((y * width + x) * 3)).take 3

/-- The row of the square that is made for `ty`. -/
def rowOf (f : FrameSize) (rgb : List UInt8) (ty : ℕ) : List UInt8 :=
  (List.range (visW f)).flatMap fun tx => pixel rgb f.width (sourceX f tx) (sourceY f ty)

theorem pixel_fits (hlen : rgb.length = f.width * f.height * 3) {sx sy : ℕ} (hx : sx < f.width)
    (hy : sy < f.height) : (sy * f.width + sx) * 3 + 3 ≤ rgb.length := by
  have hmul : (sy + 1) * f.width ≤ f.height * f.width := Nat.mul_le_mul_right _ hy
  rw [Nat.succ_mul] at hmul
  rw [hlen, Nat.mul_comm f.width f.height]
  omega

theorem pixel_length (hlen : rgb.length = f.width * f.height * 3) {sx sy : ℕ} (hx : sx < f.width)
    (hy : sy < f.height) : (pixel rgb f.width sx sy).length = 3 := by
  have hfits := pixel_fits hlen hx hy
  rw [pixel, List.length_take, List.length_drop]
  omega

theorem sourceX_lt (f : FrameSize) (tx : ℕ) : sourceX f tx < f.width := by
  have := f.width_pos
  unfold sourceX
  omega

theorem sourceY_lt (f : FrameSize) (ty : ℕ) : sourceY f ty < f.height := by
  have := f.height_pos
  unfold sourceY
  omega

theorem rowOf_length (hlen : rgb.length = f.width * f.height * 3) (ty : ℕ) :
    (rowOf f rgb ty).length = visW f * 3 :=
  Blocks.length_flatMap_range fun tx _ => pixel_length hlen (sourceX_lt f tx) (sourceY_lt f ty)

theorem mapM_eq_some {α β : Type*} {g : α → Option β} {g' : α → β} {l : List α}
    (hg : ∀ x ∈ l, g x = some (g' x)) : l.mapM g = some (l.map g') := by
  induction l with
  | nil => rfl
  | cons x l ih =>
    rw [List.mapM_cons, hg x List.mem_cons_self, ih fun y hy => hg y (List.mem_cons_of_mem _ hy)]
    rfl

theorem sourceRow_eq (hlen : rgb.length = f.width * f.height * 3) {sy : ℕ} (hy : sy < f.height) :
    slice rgb (sy * f.width * 3) (f.width * 3) =
      some ((rgb.drop (sy * f.width * 3)).take (f.width * 3)) := by
  have hmul : (sy + 1) * f.width ≤ f.height * f.width := Nat.mul_le_mul_right _ hy
  rw [Nat.succ_mul] at hmul
  apply if_pos
  rw [hlen, Nat.mul_comm f.width f.height]
  omega

/-- A row of the general path is made of its pixels. -/
theorem sampledRow_eq (hlen : rgb.length = f.width * f.height * 3) (ty : ℕ) :
    sampledRow f rgb ty = some (rowOf f rgb ty) := by
  have hy := sourceY_lt f ty
  have hpixels : ∀ sx ∈ (List.range (visW f)).map (sourceX f),
      slice ((rgb.drop (sourceY f ty * f.width * 3)).take (f.width * 3)) (sx * 3) 3 =
        some (pixel rgb f.width sx (sourceY f ty)) := by
    intro sx hsx
    obtain ⟨tx, -, rfl⟩ := List.mem_map.mp hsx
    have hx := sourceX_lt f tx
    have hfits := pixel_fits hlen hx hy
    rw [Nat.add_mul] at hfits
    have hin : sourceX f tx * 3 + 3 ≤
        ((rgb.drop (sourceY f ty * f.width * 3)).take (f.width * 3)).length := by
      rw [List.length_take, List.length_drop]
      omega
    -- the pixel is a whole one of the row
    have hmin : min 3 (f.width * 3 - sourceX f tx * 3) = 3 := by omega
    rw [slice, if_pos hin, List.drop_take, List.take_take, hmin, List.drop_drop, ← Nat.add_mul]
    rfl
  rw [sampledRow, sourceRow_eq hlen hy, Option.bind_some, pixelsAt, mapM_eq_some hpixels,
    Option.map_some, List.map_map, ← List.flatMap_def]
  rfl

/-- At the scale 1 every pixel is its own sample. -/
theorem copiedRow_eq (hlen : rgb.length = f.width * f.height * 3) (hscale : f.params.scale = 1)
    {ty : ℕ} (hty : ty < visH f) : copiedRow f rgb ty = some (rowOf f rgb ty) := by
  have hw : visW f = f.width := by rw [visW_eq, hscale, mul_one, nearest_natCast]
  have hh : visH f = f.height := by rw [visH_eq, hscale, mul_one, nearest_natCast]
  have hsource : ∀ {n t : ℕ}, n < 2 ^ 32 → t < n → asU32 (roundAway (t * inv f)) = t := by
    intro n t hn ht
    rw [source_eq hn f.scale_pos (by rwa [hscale, mul_one, nearest_natCast]), hscale, div_one,
      nearest_natCast]
  have hy : sourceY f ty = ty := by
    rw [hh] at hty
    rw [sourceY, hsource f.height_lt hty]
    omega
  have hpixels : ∀ tx ∈ List.range f.width, pixel rgb f.width (sourceX f tx) (sourceY f ty) =
      ((rgb.drop (ty * f.width * 3)).drop (tx * 3)).take 3 := by
    intro tx htx
    have hx : sourceX f tx = tx := by
      have htx := List.mem_range.mp htx
      rw [sourceX, hsource f.width_lt htx]
      omega
    rw [hx, hy, List.drop_drop, ← Nat.add_mul]
    rfl
  rw [copiedRow, sourceRow_eq hlen (hh ▸ hty), rowOf, hw, List.flatMap_congr hpixels,
    Blocks.flatMap_range_take]

/-- A square after the first rows are drawn. -/
structure Drawn (padX padY width n : ℕ) (row : ℕ → List UInt8) (out : List UInt8) : Prop where
  length : out.length = inputSize * inputSize * 3
  inside : ∀ tx < width, ∀ ty < n, ∀ c < 3,
    channel out inputSize (padX + tx) (padY + ty) c = (row ty)[tx * 3 + c]?
  outside : ∀ x < inputSize, ∀ y < inputSize,
    ¬ ((padX ≤ x ∧ x < padX + width) ∧ padY ≤ y ∧ y < padY + n) → ∀ c < 3,
      channel out inputSize x y c = some padValue

theorem getElem?_copyFromSlice {buf row out : List UInt8} {start : ℕ}
    (h : copyFromSlice buf start row = some out) (i : ℕ) :
    out[i]? = if start ≤ i ∧ i < start + row.length then row[i - start]? else buf[i]? := by
  unfold copyFromSlice at h
  split at h <;> cases h
  have hstart : (buf.take start).length = start := by
    rw [List.length_take]
    omega
  rw [List.append_assoc]
  by_cases hbefore : i < start
  · rw [List.getElem?_append_left (by omega), if_neg (by omega), List.getElem?_take_of_lt hbefore]
  · rw [List.getElem?_append_right (by omega), hstart]
    by_cases hrow : i < start + row.length
    · rw [List.getElem?_append_left (by omega), if_pos (by omega)]
    · rw [List.getElem?_append_right (by omega), if_neg (by omega), List.getElem?_drop]
      congr 1
      omega

theorem drawRows_succ (row : ℕ → Option (List UInt8)) (padX padY n : ℕ) :
    drawRows row padX padY (n + 1) = (drawRows row padX padY n).bind fun out =>
      (row n).bind (copyFromSlice out ((padY + n) * inputSize * 3 + padX * 3)) := by
  rw [drawRows, List.range_succ, List.foldlM_append]
  simp only [List.foldlM_cons, List.foldlM_nil, Option.bind_eq_bind, bind_pure]
  rfl

theorem drawRows_congr {row row' : ℕ → Option (List UInt8)} {padX padY n : ℕ}
    (h : ∀ ty < n, row ty = row' ty) : drawRows row padX padY n = drawRows row' padX padY n := by
  induction n with
  | zero => rfl
  | succ n ih =>
    rw [drawRows_succ, drawRows_succ, ih fun ty hty => h ty (Nat.lt_succ_of_lt hty),
      h n (Nat.lt_succ_self n)]

/-- Drawing one row more. -/
theorem Drawn.step {padX padY width n : ℕ} {row : ℕ → List UInt8} {out : List UInt8}
    (h : Drawn padX padY width n row out) (hx : padX + width ≤ inputSize)
    (hy : padY + (n + 1) ≤ inputSize) (hrow : (row n).length = width * 3) :
    ∃ out', copyFromSlice out ((padY + n) * inputSize * 3 + padX * 3) (row n) = some out' ∧
      Drawn padX padY width (n + 1) row out' := by
  have hlen := h.length
  unfold inputSize at hx hy hlen ⊢
  -- the row ends inside the square
  have hfits : (padY + n) * 640 * 3 + padX * 3 + (row n).length ≤ out.length := by omega
  obtain ⟨out', hout⟩ := copyFromSlice_isSome hfits
  refine ⟨out', hout, ?_, ?_, ?_⟩
  · rw [length_copyFromSlice hout, hlen]
    rfl
  · intro tx htx ty hty c hc
    rw [channel, getElem?_copyFromSlice hout, inputSize]
    rcases Nat.lt_succ_iff_lt_or_eq.mp hty with hlt | rfl
    · rw [if_neg (by omega)]
      exact h.inside tx htx ty hlt c hc
    · rw [if_pos (by omega)]
      congr 1
      omega
  · intro x hx' y hy' hnot c hc
    rw [channel, getElem?_copyFromSlice hout, inputSize, if_neg]
    · exact h.outside x hx' y hy' (by omega) c hc
    · unfold inputSize at hx' hy'
      omega

theorem drawn {padX padY width n : ℕ} {row : ℕ → Option (List UInt8)} {row' : ℕ → List UInt8}
    (hx : padX + width ≤ inputSize) (hy : padY + n ≤ inputSize)
    (hrow : ∀ ty < n, row ty = some (row' ty)) (hlen : ∀ ty, (row' ty).length = width * 3) :
    ∃ out, drawRows row padX padY n = some out ∧ Drawn padX padY width n row' out := by
  induction n with
  | zero =>
    refine ⟨_, rfl, List.length_replicate, fun tx _ ty hty => absurd hty (Nat.not_lt_zero ty), ?_⟩
    intro x hx' y hy' _ c hc
    have hin : (y * inputSize + x) * 3 + c < inputSize * inputSize * 3 := by
      unfold inputSize at hx' hy' ⊢
      omega
    rw [channel, List.getElem?_replicate_of_lt hin]
  | succ n ih =>
    obtain ⟨out, hout, hdrawn⟩ := ih (by omega) fun ty hty => hrow ty (Nat.lt_succ_of_lt hty)
    obtain ⟨out', hout', hdrawn'⟩ := hdrawn.step hx hy (hlen n)
    refine ⟨out', ?_, hdrawn'⟩
    rw [drawRows_succ, hout, Option.bind_some, hrow n (Nat.lt_succ_self n), Option.bind_some, hout']

theorem getElem?_rowOf (hlen : rgb.length = f.width * f.height * 3) {tx : ℕ} (htx : tx < visW f)
    (ty : ℕ) {c : ℕ} (hc : c < 3) :
    (rowOf f rgb ty)[tx * 3 + c]? = channel rgb f.width (sourceX f tx) (sourceY f ty) c := by
  rw [rowOf, Blocks.getElem?_flatMap_range
    (fun tx _ => pixel_length hlen (sourceX_lt f tx) (sourceY_lt f ty)) htx hc, pixel,
    List.getElem?_take_of_lt hc, List.getElem?_drop]
  rfl

/-- On both axes a sample is near to where its target is unprojected to. -/
theorem source_near (f : FrameSize) {tx ty : ℕ} (htx : tx < visW f) (hty : ty < visH f) :
    Near f (sourceX f tx) (f.params.unprojectXy (padX f + tx : ℕ) (padY f + ty : ℕ)).1 ∧
      Near f (sourceY f ty) (f.params.unprojectXy (padX f + tx : ℕ) (padY f + ty : ℕ)).2 := by
  rw [visW_eq] at htx
  rw [visH_eq] at hty
  rw [Near, Near, sourceX, sourceY, source_eq f.width_lt f.scale_pos htx,
    source_eq f.height_lt f.scale_pos hty, (padX_eq f).2, (padY_eq f).2]
  exact ⟨sample_near f.scale_pos (padX_eq f).1 f.width_pos htx,
    sample_near f.scale_pos (padY_eq f).1 f.height_pos hty⟩

theorem paths_agree (hlen : rgb.length = f.width * f.height * 3) (hscale : f.params.scale = 1) :
    drawRows (copiedRow f rgb) (padX f) (padY f) (visH f) =
      drawRows (sampledRow f rgb) (padX f) (padY f) (visH f) := by
  apply drawRows_congr
  intro ty hty
  rw [copiedRow_eq hlen hscale hty, sampledRow_eq hlen]

/-- Nothing that `letterbox` reads or writes is out of bounds. -/
theorem letterbox_drawn (f : FrameSize) {rgb : List UInt8}
    (hlen : rgb.length = f.width * f.height * 3) :
    ∃ out, letterbox rgb f.width f.height = some out ∧
      Drawn (padX f) (padY f) (visW f) (visH f) (rowOf f rgb) out := by
  obtain ⟨hx, hy⟩ := visible_inside f
  have hrows : ∀ ty < visH f, sampledRow f rgb ty = some (rowOf f rgb ty) :=
    fun ty _ => sampledRow_eq hlen ty
  obtain ⟨out, hout, hdrawn⟩ := drawn hx hy hrows (rowOf_length hlen)
  refine ⟨out, ?_, hdrawn⟩
  rw [letterbox_eq, if_neg (not_not.mpr hlen)]
  split
  case isTrue hone => rw [paths_agree hlen hone.1, hout]
  case isFalse => exact hout

end

/-- Whatever the size of the frame, `letterbox` does not read or write out of bounds, and shows the
frame. -/
theorem letterbox_shows (f : FrameSize) (rgb : List UInt8)
    (hlen : rgb.length = f.width * f.height * 3) :
    ∃ out, letterbox rgb f.width f.height = some out ∧ Shows f rgb out := by
  obtain ⟨out, hout, hdrawn⟩ := letterbox_drawn f hlen
  refine ⟨out, hout, hdrawn.length, visible_inside f, hdrawn.outside, ?_, paths_agree hlen⟩
  rintro x y ⟨⟨hx0, hx1⟩, hy0, hy1⟩
  obtain ⟨tx, rfl⟩ := Nat.exists_eq_add_of_le hx0
  obtain ⟨ty, rfl⟩ := Nat.exists_eq_add_of_le hy0
  have htx : tx < visW f := by omega
  have hty : ty < visH f := by omega
  refine ⟨sourceX f tx, sourceX_lt f tx, sourceY f ty, sourceY_lt f ty, fun c hc => ?_,
    source_near f htx hty⟩
  rw [hdrawn.inside tx htx ty hty c hc, getElem?_rowOf hlen htx ty hc]

/-- A frame of 3 × 2 pixels, which is scaled by 640/3 and has padding above and below it. -/
def wideFrame : FrameSize := ⟨3, 2, by decide, by decide, by decide, by decide⟩

def widePixels : List UInt8 := [1, 2, 3, 4, 5, 6, 7, 8, 9, 10, 11, 12, 13, 14, 15, 16, 17, 18]

theorem letterbox_shows_pixel : ∃ out, letterbox widePixels 3 2 = some out ∧
    Shows wideFrame widePixels out ∧ channel out inputSize 320 0 0 = some padValue ∧
    ∃ sx < 3, ∃ sy < 2, ∀ c < 3, channel out inputSize 320 320 c = channel widePixels 3 sx sy c := by
  obtain ⟨out, hout, hshows⟩ := letterbox_shows wideFrame widePixels rfl
  have habove : ¬ Visible wideFrame 320 0 := by
    unfold Visible
    decide +kernel
  have hmiddle : Visible wideFrame 320 320 := by
    unfold Visible
    decide +kernel
  obtain ⟨sx, hsx, sy, hsy, hsame, -⟩ := hshows.inside 320 320 hmiddle
  exact ⟨out, hout, hshows, hshows.outside 320 (by decide) 0 (by decide) habove 0 (by decide),
    sx, hsx, sy, hsy, hsame⟩

end AutoTargeting.Detector
