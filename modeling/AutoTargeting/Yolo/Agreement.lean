import AutoTargeting.Yolo.RknnInfer
import Mathlib.Tactic.IntervalCases

namespace AutoTargeting.Yolo

open Control (BoundingBox)

variable {t raw : Tensor} {p : LetterboxParams} {f : FrameSize} {sigmoid : ℚ → ℚ}
  {confThreshold iouThreshold : ℚ}

/-- The two models put out the same boxes, and the sigmoid of the one's logits is the other's
class probabilities. -/
structure SameAnchors (sigmoid : ℚ → ℚ) (t raw : Tensor) : Prop where
  classes : raw.numClasses = t.numClasses
  anchors : raw.numAnchors = t.numAnchors
  boxes : ∀ row < 4, ∀ a < t.numAnchors, raw.elem row a = t.elem row a
  scores : ∀ c < t.numClasses, ∀ a < t.numAnchors,
    sigmoid (raw.elem (4 + c) a) = t.elem (4 + c) a

/-- No two candidates have the same confidence. -/
def DistinctConfidences (t : Tensor) (confThreshold : ℚ) : Prop :=
  ((candidates t confThreshold).map Candidate.confidence).Nodup

theorem bestClass_eq (h : SameAnchors sigmoid t raw) {a : ℕ} (ha : a < t.numAnchors) :
    RknnBackend.bestClass sigmoid raw a = classScan t a := by
  rw [classScan_eq, RknnBackend.bestClass, h.classes]
  apply List.foldl_ext
  intro b c hc
  rw [h.scores c (List.mem_range.mp hc) a ha]

theorem confidence_eq (b : Best) : RknnBackend.confidence b = b.confidence := by
  unfold RknnBackend.confidence Best.confidence clamp
  dsimp only
  split_ifs <;> linarith

theorem candidates_eq (h : SameAnchors sigmoid t raw) :
    RknnBackend.candidates sigmoid raw confThreshold = candidates t confThreshold := by
  unfold RknnBackend.candidates candidates
  rw [h.anchors]
  apply List.filterMap_congr
  intro a ha
  have ha := List.mem_range.mp ha
  unfold RknnBackend.candidate? candidate?
  rw [bestClass_eq h ha, confidence_eq, h.boxes 0 (by decide) a ha, h.boxes 1 (by decide) a ha,
    h.boxes 2 (by decide) a ha, h.boxes 3 (by decide) a ha]

theorem iou_eq (a b : Candidate) : RknnBackend.iou a b = iou640 a b := by
  unfold RknnBackend.iou iou640
  simp only [max_comm (0 : ℚ)]
  split_ifs with h1 h2 h2
  · exact absurd h1 (not_lt.mpr h2)
  · rfl
  · rfl
  · exact absurd (not_lt.mp h1) h2

/-- A list sorted by distinct confidences is the only one of its permutations. -/
theorem sort_unique {l l' : List Candidate} (hperm : l.Perm l')
    (h : l.Pairwise fun x y => y.confidence ≤ x.confidence)
    (h' : l'.Pairwise fun x y => y.confidence ≤ x.confidence)
    (hdistinct : (l.map Candidate.confidence).Nodup) : l = l' := by
  apply hperm.eq_of_pairwise ?_ h h'
  intro a b ha hb hba hab
  have hb : b ∈ l := hperm.mem_iff.mpr hb
  exact List.inj_on_of_nodup_map hdistinct ha hb (le_antisymm hab hba)

theorem sortCandidates_perm (cands : List Candidate) : (sortCandidates cands).Perm cands :=
  List.perm_insertionSort _ cands

theorem sortCandidates_sorted (cands : List Candidate) :
    (sortCandidates cands).Pairwise fun x y => y.confidence ≤ x.confidence := by
  have : Std.Total fun a b : Candidate => b.confidence ≤ a.confidence :=
    ⟨fun a b => le_total b.confidence a.confidence⟩
  have : IsTrans Candidate fun a b => b.confidence ≤ a.confidence :=
    ⟨fun _ _ _ hab hbc => hbc.trans hab⟩
  exact List.pairwise_insertionSort _ cands

/-- What survives does not overlap, and what does not is overlapped by something that does, of at
least its confidence. -/
theorem kept_selected (t : Tensor) (confThreshold iouThreshold : ℚ) :
    Greedy.Selected (fun a b => iouThreshold < iou640 a b) (fun a b => b.confidence ≤ a.confidence)
      (kept t confThreshold iouThreshold) (sortCandidates (candidates t confThreshold)) := by
  rw [kept, Greedy.suppress_eq_keep]
  exact Greedy.keep_selected (sortCandidates_sorted _)

theorem stdSort_eq (std : RknnBackend.StdSort) {cands : List Candidate}
    (hdistinct : (cands.map Candidate.confidence).Nodup) :
    std.sort cands = sortCandidates cands := by
  have hperm := (std.perm cands).trans (sortCandidates_perm cands).symm
  apply sort_unique hperm (std.sorted cands) (sortCandidates_sorted cands)
  exact ((std.perm cands).map Candidate.confidence).nodup_iff.mpr hdistinct

theorem letterbox_eq (f : FrameSize) : RknnBackend.letterbox f.width f.height = f.params := by
  have hscale : RknnBackend.letterboxScale f.width f.height = f.params.scale := by
    have hpos := f.scale_pos
    rw [f.scale_eq] at hpos ⊢
    exact if_neg (not_le.mpr hpos)
  unfold RknnBackend.letterbox
  rw [hscale]
  rfl

/-- The two ends of a side in the frame, before anything is rounded. -/
def frameSide (W : ℕ) (scale pad center size : ℚ) : ℚ × ℚ :=
  let o := (center - pad) / scale
  let s := size / scale
  (clamp 0 W (o - s * (1 / 2)), clamp 0 W (o + s * (1 / 2)))

def sideX (p : LetterboxParams) (c : Candidate) : ℚ × ℚ :=
  frameSide p.origW p.scale p.padX c.cx c.w

def sideY (p : LetterboxParams) (c : Candidate) : ℚ × ℚ :=
  frameSide p.origH p.scale p.padY c.cy c.h

/-- On both axes the ends of the box lie alike in their pixels, or the side is short. -/
def SidesAgree (p : LetterboxParams) (c : Candidate) : Prop :=
  SizesAgree (sideX p c).1 (sideX p c).2 ∧ SizesAgree (sideY p c).1 (sideY p c).2

theorem frameSide_bounds (W : ℕ) {scale size : ℚ} (pad center : ℚ) (hscale : 0 < scale)
    (hsize : 0 < size) :
    0 ≤ (frameSide W scale pad center size).1 ∧
      (frameSide W scale pad center size).1 ≤ (frameSide W scale pad center size).2 ∧
      (frameSide W scale pad center size).2 ≤ W := by
  have hW : (0 : ℚ) ≤ W := Nat.cast_nonneg W
  have hpos : 0 < size / scale := div_pos hsize hscale
  refine ⟨(clamp_mem hW _).1, clamp_mono hW ?_, (clamp_mem hW _).2⟩
  linarith

theorem sideX_bounds (f : FrameSize) {c : Candidate} (hw : 0 < c.w) :
    0 ≤ (sideX f.params c).1 ∧ (sideX f.params c).1 ≤ (sideX f.params c).2 ∧
      (sideX f.params c).2 ≤ f.params.origW :=
  frameSide_bounds f.params.origW f.params.padX c.cx f.scale_pos hw

theorem sideY_bounds (f : FrameSize) {c : Candidate} (hh : 0 < c.h) :
    0 ≤ (sideY f.params c).1 ∧ (sideY f.params c).1 ≤ (sideY f.params c).2 ∧
      (sideY f.params c).2 ≤ f.params.origH :=
  frameSide_bounds f.params.origH f.params.padY c.cy f.scale_pos hh

theorem asU32_clamp_roundAway {W : ℕ} (hW : W < 2 ^ 32) (x : ℚ) :
    asU32 (clamp 0 W (roundAway x)) = nearest (clamp 0 W x) := by
  rw [clamp_roundAway]
  exact asU32_natCast ((nearest_le (clamp_mem (Nat.cast_nonneg W) x).2).trans_lt hW)

theorem frameBox_eq (f : FrameSize) (c : Candidate) :
    frameBox f.params c =
      ⟨nearest (sideX f.params c).1, nearest (sideY f.params c).1,
        max (nearest (sideX f.params c).2 - nearest (sideX f.params c).1) 1,
        max (nearest (sideY f.params c).2 - nearest (sideY f.params c).1) 1⟩ := by
  have hW : f.params.origW < 2 ^ 32 := f.width_lt
  have hH : f.params.origH < 2 ^ 32 := f.height_lt
  unfold frameBox sideX sideY frameSide LetterboxParams.unprojectXy
  simp only [asU32_clamp_roundAway hW, asU32_clamp_roundAway hH]

theorem rknn_frameBox_eq (f : FrameSize) {c : Candidate} (hw : 0 < c.w) (hh : 0 < c.h) :
    RknnBackend.frameBox f.params c =
      ⟨nearest (sideX f.params c).1, nearest (sideY f.params c).1,
        max 1 (nearest ((sideX f.params c).2 - (sideX f.params c).1)),
        max 1 (nearest ((sideY f.params c).2 - (sideY f.params c).1))⟩ := by
  -- in exact arithmetic the factor `1 / scale` is the division by `scale`
  have hinv : ∀ x, x * RknnBackend.invScale f.params = x / f.params.scale := by
    intro x
    rw [RknnBackend.invScale, if_pos f.scale_pos, mul_one_div]
  have hcorner : ∀ (W : ℕ) (x : ℚ), max 0 (min (W : ℚ) x) = clamp 0 W x :=
    fun W x => (clamp_eq_max_min (Nat.cast_nonneg W) x).symm
  obtain ⟨hx0, hx1, hx2⟩ := sideX_bounds f hw
  obtain ⟨hy0, hy1, hy2⟩ := sideY_bounds f hh
  have hW : f.params.origW < 2 ^ 32 := f.width_lt
  have hH : f.params.origH < 2 ^ 32 := f.height_lt
  rw [← asU32_roundAway hW hx0 (hx1.trans hx2), ← asU32_roundAway hH hy0 (hy1.trans hy2),
    ← asU32_roundAway hW (sub_nonneg.mpr hx1) (by linarith),
    ← asU32_roundAway hH (sub_nonneg.mpr hy1) (by linarith)]
  unfold RknnBackend.frameBox
  simp only [hinv, hcorner]
  rfl

theorem frameBox_agrees_iff (f : FrameSize) {c : Candidate} (hw : 0 < c.w) (hh : 0 < c.h) :
    frameBox f.params c = RknnBackend.frameBox f.params c ↔ SidesAgree f.params c := by
  have hx := (sideX_bounds f hw).2.1
  have hy := (sideY_bounds f hh).2.1
  rw [frameBox_eq, rknn_frameBox_eq f hw hh, BoundingBox.mk.injEq, SidesAgree,
    ← sizes_agree_iff hx, ← sizes_agree_iff hy]
  simp only [true_and]

theorem kept_of_no_anchors (hanchors : t.numAnchors = 0) :
    kept t confThreshold iouThreshold = [] := by
  simp [kept, candidates, hanchors, sortCandidates, Greedy.suppress, Greedy.survivors]

/-- The candidates that survive in `infer` are those that survive in `postprocess`, unless the
model has no class: there `infer` gives up. -/
theorem infer_eq (std : RknnBackend.StdSort) (h : SameAnchors sigmoid t raw)
    (hdistinct : DistinctConfidences t confThreshold) (f : FrameSize) (frameSeq nowMs : ℕ) :
    RknnBackend.infer std sigmoid raw f.width f.height confThreshold iouThreshold frameSeq nowMs =
      (if t.numClasses = 0 then [] else kept t confThreshold iouThreshold).map fun c =>
        ⟨RknnBackend.frameBox f.params c, RknnBackend.cocoLabel c.classId, c.classId, c.confidence,
          frameSeq, nowMs⟩ := by
  have hiou : (fun a b => decide (iouThreshold < RknnBackend.iou a b)) =
      fun a b => decide (iouThreshold < iou640 a b) := by
    funext a b
    rw [iou_eq]
  unfold RknnBackend.infer
  dsimp only
  rw [candidates_eq h, stdSort_eq std hdistinct, letterbox_eq, hiou, h.classes, h.anchors]
  by_cases hclasses : t.numClasses = 0
  · rw [if_pos (.inl (by omega)), if_pos hclasses, List.map_nil]
  · rw [if_neg hclasses]
    by_cases hanchors : t.numAnchors = 0
    · rw [if_pos (.inr hanchors), kept_of_no_anchors hanchors, List.map_nil]
    · rw [if_neg (by omega)]
      rfl

/-- What the claim of identical results is about: class, confidence and box. -/
def Detection.found (d : Detection) : ℕ × ℚ × BoundingBox := (d.classId, d.confidence, d.bbox)

/-- The two post-processings return the same list exactly if the sides of every surviving box
agree, and nothing survives of a model without classes. -/
theorem postprocess_agrees_iff (std : RknnBackend.StdSort) (h : SameAnchors sigmoid t raw)
    (hdistinct : DistinctConfidences t confThreshold) (f : FrameSize) (frameSeq now nowMs : ℕ)
    (labels : List String) :
    (postprocess t f.params confThreshold iouThreshold frameSeq now labels).map Detection.found =
        (RknnBackend.infer std sigmoid raw f.width f.height confThreshold iouThreshold frameSeq
          nowMs).map Detection.found ↔
      (t.numClasses = 0 → kept t confThreshold iouThreshold = []) ∧
        ∀ c ∈ kept t confThreshold iouThreshold, SidesAgree f.params c := by
  rw [infer_eq std h hdistinct, postprocess, List.map_map, List.map_map]
  by_cases hclasses : t.numClasses = 0
  · rw [if_pos hclasses, List.map_nil, List.map_eq_nil_iff]
    constructor
    · intro hnil
      refine ⟨fun _ => hnil, fun c hc => ?_⟩
      rw [hnil] at hc
      cases hc
    · intro h
      exact h.1 hclasses
  · rw [if_neg hclasses, List.map_inj_left, and_iff_right fun hzero => absurd hzero hclasses]
    refine forall₂_congr fun c hc => ?_
    obtain ⟨hw, hh⟩ := mem_kept hc
    rw [← frameBox_agrees_iff f hw hh]
    simp [Detection.found]

instance (t : Tensor) (confThreshold : ℚ) : Decidable (DistinctConfidences t confThreshold) :=
  inferInstanceAs (Decidable (List.Nodup _))

instance (a b : ℚ) : Decidable (SizesAgree a b) :=
  inferInstanceAs (Decidable ((_ ∧ _) ∨ _ ∧ _))

instance (p : LetterboxParams) (c : Candidate) : Decidable (SidesAgree p c) :=
  inferInstanceAs (Decidable (_ ∧ _))

/-- A sort that keeps the order of equal ones is one that `std::sort` may be. -/
def stableSort : RknnBackend.StdSort := ⟨sortCandidates, sortCandidates_perm, sortCandidates_sorted⟩

def squareFrame : FrameSize := ⟨640, 640, by decide, by decide, by decide, by decide⟩

/-- One class and one anchor; the box is 4 high and `w` wide around `(1, 10)`. -/
def oneAnchor (w score : ℚ) : Tensor := ⟨1, 1, [1, 10, w, 4, score], rfl⟩

/-- The sigmoid of the logit 0 is 1/2. -/
theorem sameAnchors_oneAnchor (w : ℚ) :
    SameAnchors (fun _ => 1 / 2) (oneAnchor w (1 / 2)) (oneAnchor w 0) where
  classes := rfl
  anchors := rfl
  boxes row hrow a ha := by
    obtain rfl : a = 0 := Nat.lt_one_iff.mp ha
    interval_cases row <;> rfl
  scores c hc a ha := by
    obtain rfl : a = 0 := Nat.lt_one_iff.mp ha
    obtain rfl : c = 0 := Nat.lt_one_iff.mp hc
    rfl

theorem postprocess_agrees_on_even_box :
    (postprocess (oneAnchor (3 / 2) (1 / 2)) squareFrame.params (1 / 4) (9 / 20) 7 0 []).map
        Detection.found =
      (RknnBackend.infer stableSort (fun _ => 1 / 2) (oneAnchor (3 / 2) 0) 640 640 (1 / 4)
        (9 / 20) 7 0).map Detection.found :=
  (postprocess_agrees_iff stableSort (sameAnchors_oneAnchor (3 / 2)) (by decide +kernel)
    squareFrame 7 0 0 []).mpr (by decide +kernel)

/-- From 0.4 to 1.6, the rounded corners are 2 apart and the rounded width is 1. -/
theorem postprocess_differs :
    ¬ ∀ (std : RknnBackend.StdSort) (sigmoid : ℚ → ℚ) (t raw : Tensor) (f : FrameSize)
      (confThreshold iouThreshold : ℚ) (frameSeq now nowMs : ℕ) (labels : List String),
      SameAnchors sigmoid t raw → DistinctConfidences t confThreshold →
      (postprocess t f.params confThreshold iouThreshold frameSeq now labels).map Detection.found =
        (RknnBackend.infer std sigmoid raw f.width f.height confThreshold iouThreshold frameSeq
          nowMs).map Detection.found := by
  intro hall
  have heq := hall stableSort (fun _ => 1 / 2) (oneAnchor (6 / 5) (1 / 2)) (oneAnchor (6 / 5) 0)
    squareFrame (1 / 4) (9 / 20) 7 0 0 [] (sameAnchors_oneAnchor (6 / 5)) (by decide +kernel)
  revert heq
  decide +kernel

end AutoTargeting.Yolo
