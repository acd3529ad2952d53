import AutoTargeting.Yolo.InsideFrame

namespace AutoTargeting.Yolo

open Control (BoundingBox)

/-- A box in the square, by its center. -/
structure SquareBox where
  cx : ℚ
  cy : ℚ
  w : ℚ
  h : ℚ

/-- A box of the frame in the square: scaled, then moved by the padding. -/
def LetterboxParams.project (p : LetterboxParams) (b : BoundingBox) : SquareBox where
  cx := (b.x + b.width * (1 / 2)) * p.scale + p.padX
  cy := (b.y + b.height * (1 / 2)) * p.scale + p.padY
  w := b.width * p.scale
  h := b.height * p.scale

/-- The anchor has the box and passes the threshold, and no other anchor does. -/
structure OnlyAnchor (t : Tensor) (confThreshold : ℚ) (a : ℕ) (b : SquareBox) : Prop where
  lt : a < t.numAnchors
  cx : t.elem 0 a = b.cx
  cy : t.elem 1 a = b.cy
  w : t.elem 2 a = b.w
  h : t.elem 3 a = b.h
  passes : confThreshold ≤ (classScan t a).confidence
  others : ∀ a' < t.numAnchors, a' ≠ a → (classScan t a').confidence < confThreshold

section
variable {t : Tensor} {confThreshold : ℚ} {a : ℕ} {f : FrameSize} {b : BoundingBox}

theorem filterMap_eq_singleton {α β : Type*} {g : α → Option β} {l : List α} {x : α} {y : β}
    (hl : l.Nodup) (hx : x ∈ l) (hy : g x = some y) (hothers : ∀ z ∈ l, z ≠ x → g z = none) :
    l.filterMap g = [y] := by
  obtain ⟨before, after, rfl⟩ := List.append_of_mem hx
  have hnodup := List.nodup_middle.mp hl
  have hnot : x ∉ before ++ after := (List.nodup_cons.mp hnodup).1
  have hnone : ∀ z ∈ before ++ after, g z = none := by
    intro z hz
    apply hothers z
    · rcases List.mem_append.mp hz with h | h <;> simp [h]
    · rintro rfl
      exact hnot hz
  rw [List.filterMap_append, List.filterMap_cons, hy,
    List.filterMap_eq_nil_iff.mpr fun z hz => hnone z (List.mem_append_left _ hz),
    List.filterMap_eq_nil_iff.mpr fun z hz => hnone z (List.mem_append_right _ hz)]
  rfl

/-- The only anchor above the threshold is the only candidate, and survives. -/
theorem kept_of_only {sb : SquareBox} (h : OnlyAnchor t confThreshold a sb) (hw : 0 < sb.w)
    (hh : 0 < sb.h) (iouThreshold : ℚ) :
    kept t confThreshold iouThreshold =
      [⟨sb.cx, sb.cy, sb.w, sb.h, (classScan t a).id, (classScan t a).confidence⟩] := by
  -- neither side is so small that the anchor is dropped
  have hcandidate : candidate? t (classScan t a) confThreshold a =
      some ⟨sb.cx, sb.cy, sb.w, sb.h, (classScan t a).id, (classScan t a).confidence⟩ := by
    unfold candidate?
    rw [if_neg (not_lt.mpr h.passes), h.cx, h.cy, h.w, h.h, if_neg]
    rintro (hle | hle) <;> linarith
  have hcandidates : candidates t confThreshold =
      [⟨sb.cx, sb.cy, sb.w, sb.h, (classScan t a).id, (classScan t a).confidence⟩] := by
    unfold candidates
    refine filterMap_eq_singleton List.nodup_range (List.mem_range.mpr h.lt) hcandidate ?_
    intro a' ha' hne
    exact if_pos (h.others a' (List.mem_range.mp ha') hne)
  rw [kept, hcandidates]
  rfl

/-- Scaled and moved back, a side that lies in the frame has its ends again. -/
theorem frameSide_project {W x size : ℕ} {scale : ℚ} (pad : ℚ) (hscale : 0 < scale)
    (hfits : x + size ≤ W) :
    frameSide W scale pad ((x + size * (1 / 2)) * scale + pad) (size * scale) =
      ((x : ℚ), ((x + size : ℕ) : ℚ)) := by
  have hne : scale ≠ 0 := hscale.ne'
  have hx : (0 : ℚ) ≤ x := Nat.cast_nonneg x
  have hsize : (0 : ℚ) ≤ size := Nat.cast_nonneg size
  have hW : (x + size : ℚ) ≤ W := by exact_mod_cast hfits
  unfold frameSide
  dsimp only
  rw [add_sub_cancel_right, mul_div_cancel_right₀ _ hne, mul_div_cancel_right₀ _ hne]
  have hstart : (x : ℚ) + size * (1 / 2) - size * (1 / 2) = x := by ring
  have hstop : (x : ℚ) + size * (1 / 2) + size * (1 / 2) = x + size := by ring
  rw [hstart, hstop, clamp, clamp, if_neg (not_lt.mpr hx), if_neg (by linarith),
    if_neg (by linarith), if_neg (not_lt.mpr hW), Nat.cast_add]

theorem frameBox_project (hb : InsideFrame f b) (classId : ℕ) (confidence : ℚ) :
    frameBox f.params ⟨(f.params.project b).cx, (f.params.project b).cy, (f.params.project b).w,
      (f.params.project b).h, classId, confidence⟩ = b := by
  have hright : b.x + b.width ≤ f.params.origW := hb.right
  have hbottom : b.y + b.height ≤ f.params.origH := hb.bottom
  rw [frameBox_eq]
  unfold sideX sideY LetterboxParams.project
  rw [frameSide_project f.params.padX f.scale_pos hright,
    frameSide_project f.params.padY f.scale_pos hbottom]
  simp only [nearest_natCast, Nat.add_sub_cancel_left]
  rw [max_eq_left hb.width_pos, max_eq_left hb.height_pos]

end

/-- A box inside the frame comes back from its projection as it was. -/
theorem postprocess_project (f : FrameSize) (b : BoundingBox) (hb : InsideFrame f b) (t : Tensor)
    (confThreshold iouThreshold : ℚ) (a : ℕ)
    (h : OnlyAnchor t confThreshold a (f.params.project b)) (frameSeq now : ℕ)
    (labels : List String) :
    postprocess t f.params confThreshold iouThreshold frameSeq now labels =
      [⟨b, labels.getD (classScan t a).id "unknown", (classScan t a).id,
        (classScan t a).confidence, frameSeq, now⟩] := by
  have hw : 0 < (f.params.project b).w :=
    mul_pos (Nat.cast_pos.mpr hb.width_pos) f.scale_pos
  have hh : 0 < (f.params.project b).h :=
    mul_pos (Nat.cast_pos.mpr hb.height_pos) f.scale_pos
  rw [postprocess, kept_of_only h hw hh, List.map_singleton, frameBox_project hb]

def wideFrame : FrameSize := ⟨1280, 720, by decide, by decide, by decide, by decide⟩

/-- Half the size, 140 down: the only anchor of the tensor. -/
theorem postprocess_project_wide :
    postprocess (anchorAt 320 320 100 50) wideFrame.params (9 / 20) (9 / 20) 1 0 ["thing"] =
      [⟨⟨540, 310, 200, 100⟩, "thing", 0, 9 / 10, 1, 0⟩] := by
  have honly : OnlyAnchor (anchorAt 320 320 100 50) (9 / 20) 0
      (wideFrame.params.project ⟨540, 310, 200, 100⟩) := by
    refine ⟨by decide, ?_, ?_, ?_, ?_, by decide +kernel, ?_⟩
    case refine_5 =>
      intro a' ha' hne
      exact absurd (Nat.lt_one_iff.mp ha') hne
    all_goals decide +kernel
  have hinside : InsideFrame wideFrame ⟨540, 310, 200, 100⟩ := by
    constructor <;> decide
  have hresult := postprocess_project wideFrame ⟨540, 310, 200, 100⟩ hinside
    (anchorAt 320 320 100 50) (9 / 20) (9 / 20) 0 honly 1 0 ["thing"]
  have hid : (classScan (anchorAt 320 320 100 50) 0).id = 0 := by decide +kernel
  have hconfidence : (classScan (anchorAt 320 320 100 50) 0).confidence = 9 / 10 := by
    decide +kernel
  rw [hid, hconfidence] at hresult
  exact hresult

end AutoTargeting.Yolo
