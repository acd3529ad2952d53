import AutoTargeting.Control.Types
import AutoTargeting.Library.Greedy
import AutoTargeting.Yolo.Letterbox
import Mathlib.Data.List.Sort
import Mathlib.Order.WithBot

namespace AutoTargeting.Yolo

open Control (BoundingBox)

/-- An output tensor `[1, 4+nc, anchors]`, flat and row-major. -/
structure Tensor where
  numClasses : ℕ
  numAnchors : ℕ
  data : List ℚ
  size : data.length = (4 + numClasses) * numAnchors

def Tensor.elem (t : Tensor) (row anchor : ℕ) : ℚ := t.data.getD (row * t.numAnchors + anchor) 0

structure Candidate where
  cx : ℚ
  cy : ℚ
  w : ℚ
  h : ℚ
  classId : ℕ
  confidence : ℚ
  deriving DecidableEq

structure Detection where
  bbox : BoundingBox
  className : String
  classId : ℕ
  confidence : ℚ
  frameSeq : ℕ
  detectedAt : ℕ
  deriving DecidableEq

/-- The best score of an anchor so far, with its class; `⊥` is `f32::NEG_INFINITY`. -/
structure Best where
  score : WithBot ℚ
  id : ℕ
  deriving DecidableEq

def Best.none : Best := ⟨⊥, 0⟩

/-- The class `c` with score `s` comes next. -/
def Best.pick (b : Best) (c : ℕ) (s : ℚ) : Best := if b.score < s then ⟨s, c⟩ else b

/-- The best score clamped to `[0, 1]`. -/
def Best.confidence (b : Best) : ℚ := clamp 0 1 (b.score.unbotD 0)

def scanRow (t : Tensor) (best : ℕ → Best) (c : ℕ) : ℕ → Best :=
  fun a => (best a).pick c (t.elem (4 + c) a)

/-- `best_score` and `best_id` after the scan. -/
def classScan (t : Tensor) : ℕ → Best :=
  (List.range t.numClasses).foldl (scanRow t) fun _ => .none

/-- The candidate of an anchor, if it passes the threshold and its box is not degenerate. -/
def candidate? (t : Tensor) (best : Best) (confThreshold : ℚ) (a : ℕ) : Option Candidate :=
  if best.confidence < confThreshold then none
  else if t.elem 2 a ≤ 0 ∨ t.elem 3 a ≤ 0 then none
  else some ⟨t.elem 0 a, t.elem 1 a, t.elem 2 a, t.elem 3 a, best.id, best.confidence⟩

def candidates (t : Tensor) (confThreshold : ℚ) : List Candidate :=
  (List.range t.numAnchors).filterMap fun a => candidate? t (classScan t a) confThreshold a

/-- `cands.sort_by(..)`: stable, by confidence descending. -/
def sortCandidates (cands : List Candidate) : List Candidate :=
  cands.insertionSort fun a b => b.confidence ≤ a.confidence

def iou640 (a b : Candidate) : ℚ :=
  let interX1 := max (a.cx - a.w * (1 / 2)) (b.cx - b.w * (1 / 2))
  let interY1 := max (a.cy - a.h * (1 / 2)) (b.cy - b.h * (1 / 2))
  let interX2 := min (a.cx + a.w * (1 / 2)) (b.cx + b.w * (1 / 2))
  let interY2 := min (a.cy + a.h * (1 / 2)) (b.cy + b.h * (1 / 2))
  let iw := max (interX2 - interX1) 0
  let ih := max (interY2 - interY1) 0
  let inter := iw * ih
  let union := a.w * a.h + b.w * b.h - inter
  if union ≤ 0 then 0 else inter / union

/-- The box of a candidate in the frame: corners rounded, then clamped. -/
def frameBox (p : LetterboxParams) (c : Candidate) : BoundingBox :=
  let o := p.unprojectXy c.cx c.cy
  let bw := c.w / p.scale
  let bh := c.h / p.scale
  let x := asU32 (clamp 0 p.origW (roundAway (o.1 - bw * (1 / 2))))
  let y := asU32 (clamp 0 p.origH (roundAway (o.2 - bh * (1 / 2))))
  let x1 := asU32 (clamp 0 p.origW (roundAway (o.1 + bw * (1 / 2))))
  let y1 := asU32 (clamp 0 p.origH (roundAway (o.2 + bh * (1 / 2))))
  ⟨x, y, max (x1 - x) 1, max (y1 - y) 1⟩

/-- The candidates that survive the greedy suppression. -/
def kept (t : Tensor) (confThreshold iouThreshold : ℚ) : List Candidate :=
  Greedy.suppress (fun a b => iouThreshold < iou640 a b) (sortCandidates (candidates t confThreshold))

def postprocess (t : Tensor) (p : LetterboxParams) (confThreshold iouThreshold : ℚ)
    (frameSeq now : ℕ) (labels : List String) : List Detection :=
  (kept t confThreshold iouThreshold).map fun c =>
    ⟨frameBox p c, labels.getD c.classId "unknown", c.classId, c.confidence, frameSeq, now⟩

variable {t : Tensor} {p : LetterboxParams} {confThreshold iouThreshold : ℚ}

/-- The scan by rows does at each anchor what a scan of the anchor does. -/
theorem classScan_eq (t : Tensor) (a : ℕ) :
    classScan t a =
      (List.range t.numClasses).foldl (fun b c => b.pick c (t.elem (4 + c) a)) .none := by
  have hscan : ∀ (rows : List ℕ) (best : ℕ → Best), rows.foldl (scanRow t) best a =
      rows.foldl (fun b c => b.pick c (t.elem (4 + c) a)) (best a) := by
    intro rows
    induction rows with
    | nil => exact fun _ => rfl
    | cons c rows ih => exact fun best => ih (scanRow t best c)
  exact hscan _ _

theorem candidate_eq_some {best : Best} {a : ℕ} {c : Candidate}
    (h : candidate? t best confThreshold a = some c) : 0 < c.w ∧ 0 < c.h := by
  unfold candidate? at h
  split_ifs at h with _ hbox
  obtain ⟨hw, hh⟩ := not_or.mp hbox
  cases h
  exact ⟨not_le.mp hw, not_le.mp hh⟩

theorem mem_candidates {c : Candidate} (h : c ∈ candidates t confThreshold) : 0 < c.w ∧ 0 < c.h := by
  obtain ⟨a, -, hc⟩ := List.mem_filterMap.mp h
  exact candidate_eq_some hc

theorem mem_kept {c : Candidate} (h : c ∈ kept t confThreshold iouThreshold) :
    0 < c.w ∧ 0 < c.h := by
  have hsorted := (Greedy.suppress_sublist _ _).mem h
  exact mem_candidates ((List.mem_insertionSort _).mp hsorted)

end AutoTargeting.Yolo
