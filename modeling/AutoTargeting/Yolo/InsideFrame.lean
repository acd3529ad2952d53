import AutoTargeting.Yolo.Agreement

namespace AutoTargeting.Yolo

open Control (BoundingBox)

/-- A box of at least one pixel that does not leave the frame. -/
structure InsideFrame (f : FrameSize) (b : BoundingBox) : Prop where
  width_pos : 1 ≤ b.width
  height_pos : 1 ≤ b.height
  right : b.x + b.width ≤ f.width
  bottom : b.y + b.height ≤ f.height

/-- `x0`: the left edge before it is rounded. -/
def leftEdge (p : LetterboxParams) (c : Candidate) : ℚ :=
  (p.unprojectXy c.cx c.cy).1 - c.w / p.scale * (1 / 2)

/-- `y0`. -/
def topEdge (p : LetterboxParams) (c : Candidate) : ℚ :=
  (p.unprojectXy c.cx c.cy).2 - c.h / p.scale * (1 / 2)

/-- The upper left corner is more than half a pixel from the right and the bottom edge of the
frame, or outside on the left or above. -/
def StartsInside (f : FrameSize) (c : Candidate) : Prop :=
  leftEdge f.params c < f.width - 1 / 2 ∧ topEdge f.params c < f.height - 1 / 2

/-- A side of at least one pixel ends in the frame exactly where it starts in it. -/
theorem side_inside_iff {W : ℕ} (hW : 0 < W) {start stop : ℚ} (hstop : stop ≤ W) :
    nearest (clamp 0 W start) + max (nearest stop - nearest (clamp 0 W start)) 1 ≤ W ↔
      start < W - 1 / 2 := by
  have hW1 : (1 : ℚ) ≤ W := by exact_mod_cast hW
  have hend : nearest stop ≤ W := nearest_le hstop
  -- the side is a pixel long at least, so that what counts is the pixel it starts in
  have hstart : nearest (clamp 0 W start) ≤ W - 1 ↔ start < W - 1 / 2 := by
    rw [nearest_le_iff, Nat.cast_sub hW, Nat.cast_one]
    unfold clamp
    constructor
    · intro h
      split_ifs at h <;> linarith
    · intro h
      split_ifs <;> linarith
  rw [← hstart]
  omega

theorem frameBox_inside_iff (f : FrameSize) {c : Candidate} (hw : 0 < c.w) (hh : 0 < c.h) :
    InsideFrame f (frameBox f.params c) ↔ StartsInside f c := by
  have hx : (sideX f.params c).2 ≤ f.width := (sideX_bounds f hw).2.2
  have hy : (sideY f.params c).2 ≤ f.height := (sideY_bounds f hh).2.2
  rw [frameBox_eq, StartsInside, ← side_inside_iff f.width_pos hx,
    ← side_inside_iff f.height_pos hy]
  exact ⟨fun h => ⟨h.right, h.bottom⟩, fun h => ⟨le_max_right _ _, le_max_right _ _, h.1, h.2⟩⟩

/-- All boxes lie inside the frame exactly if each box that survives starts inside of it: the
corner is clamped to the frame, but not to its last pixel. -/
theorem postprocess_inside_iff (t : Tensor) (f : FrameSize) (confThreshold iouThreshold : ℚ)
    (frameSeq now : ℕ) (labels : List String) :
    (∀ d ∈ postprocess t f.params confThreshold iouThreshold frameSeq now labels,
        InsideFrame f d.bbox) ↔
      ∀ c ∈ kept t confThreshold iouThreshold, StartsInside f c := by
  rw [postprocess, List.forall_mem_map]
  refine forall₂_congr fun c hc => ?_
  obtain ⟨hw, hh⟩ := mem_kept hc
  exact frameBox_inside_iff f hw hh

def portraitFrame : FrameSize :=
  ⟨360, 640, by decide, squareFrame.height_pos, by decide, squareFrame.height_lt⟩

def anchorAt (cx cy w h : ℚ) : Tensor := ⟨1, 1, [cx, cy, w, h, 9 / 10], rfl⟩

/-- A box in the padding to the right starts at the edge of the frame and is one pixel wide. -/
theorem box_leaves_frame :
    (postprocess (anchorAt 520 320 20 10) portraitFrame.params (1 / 4) (9 / 20) 7 0 []).map
        (·.bbox) = [⟨360, 315, 1, 10⟩] ∧
      ¬ ∀ d ∈ postprocess (anchorAt 520 320 20 10) portraitFrame.params (1 / 4) (9 / 20) 7 0 [],
        InsideFrame portraitFrame d.bbox := by
  have hboxes : (postprocess (anchorAt 520 320 20 10) portraitFrame.params (1 / 4) (9 / 20) 7 0
      []).map (·.bbox) = [⟨360, 315, 1, 10⟩] := by
    decide +kernel
  refine ⟨hboxes, fun h => ?_⟩
  have hall := List.forall_mem_map (f := Detection.bbox) (P := InsideFrame portraitFrame) |>.mpr h
  rw [hboxes] at hall
  have hright := (hall _ (List.mem_singleton_self _)).right
  revert hright
  decide

end AutoTargeting.Yolo
