import AutoTargeting.Yolo.Postprocess

namespace AutoTargeting.Yolo.RknnBackend

open Control (BoundingBox)

/-- What `std::sort` promises for a comparison by confidence, descending: nothing about the
order of equal ones. -/
structure StdSort where
  sort : List Candidate → List Candidate
  perm : ∀ cands, (sort cands).Perm cands
  sorted : ∀ cands, (sort cands).Pairwise fun x y => y.confidence ≤ x.confidence

def letterboxScale (inputWidth inputHeight : ℕ) : ℚ :=
  let scale := min (640 / inputWidth : ℚ) (640 / inputHeight)
  if scale ≤ 0 then 1 else scale

def letterbox (inputWidth inputHeight : ℕ) : LetterboxParams :=
  let scale := letterboxScale inputWidth inputHeight
  let newW := inputWidth * scale
  let newH := inputHeight * scale
  ⟨inputWidth, inputHeight, scale, (640 - newW) * (1 / 2), (640 - newH) * (1 / 2)⟩

def invScale (p : LetterboxParams) : ℚ := if 0 < p.scale then 1 / p.scale else 0

/-- The best class of an anchor. The model's class rows are logits. -/
def bestClass (sigmoid : ℚ → ℚ) (raw : Tensor) (a : ℕ) : Best :=
  (List.range raw.numClasses).foldl (fun b c => b.pick c (sigmoid (raw.elem (4 + c) a))) .none

/-- `if (conf < 0.0f) conf = 0.0f; if (conf > 1.0f) conf = 1.0f`. -/
def confidence (b : Best) : ℚ :=
  let conf := if b.score.unbotD 0 < 0 then 0 else b.score.unbotD 0
  if 1 < conf then 1 else conf

def candidate? (raw : Tensor) (best : Best) (confThreshold : ℚ) (a : ℕ) : Option Candidate :=
  if confidence best < confThreshold then none
  else if raw.elem 2 a ≤ 0 ∨ raw.elem 3 a ≤ 0 then none
  else some ⟨raw.elem 0 a, raw.elem 1 a, raw.elem 2 a, raw.elem 3 a, best.id, confidence best⟩

def candidates (sigmoid : ℚ → ℚ) (raw : Tensor) (confThreshold : ℚ) : List Candidate :=
  (List.range raw.numAnchors).filterMap fun a =>
    candidate? raw (bestClass sigmoid raw a) confThreshold a

/-- The overlap inside the loop of `infer`. -/
def iou (ci cj : Candidate) : ℚ :=
  let ix1 := max (ci.cx - ci.w * (1 / 2)) (cj.cx - cj.w * (1 / 2))
  let iy1 := max (ci.cy - ci.h * (1 / 2)) (cj.cy - cj.h * (1 / 2))
  let ix2 := min (ci.cx + ci.w * (1 / 2)) (cj.cx + cj.w * (1 / 2))
  let iy2 := min (ci.cy + ci.h * (1 / 2)) (cj.cy + cj.h * (1 / 2))
  let iw := max 0 (ix2 - ix1)
  let ih := max 0 (iy2 - iy1)
  let inter := iw * ih
  let uni := ci.w * ci.h + cj.w * cj.h - inter
  if 0 < uni then inter / uni else 0

/-- The box of a candidate in the frame: corners clamped, then the corner and the sizes
rounded. -/
def frameBox (p : LetterboxParams) (c : Candidate) : BoundingBox :=
  let ox := (c.cx - p.padX) * invScale p
  let oy := (c.cy - p.padY) * invScale p
  let bw := c.w * invScale p
  let bh := c.h * invScale p
  let x0 := max 0 (min (p.origW : ℚ) (ox - bw * (1 / 2)))
  let y0 := max 0 (min (p.origH : ℚ) (oy - bh * (1 / 2)))
  let x1 := max 0 (min (p.origW : ℚ) (ox + bw * (1 / 2)))
  let y1 := max 0 (min (p.origH : ℚ) (oy + bh * (1 / 2)))
  ⟨asU32 (roundAway x0), asU32 (roundAway y0),
    max 1 (asU32 (roundAway (x1 - x0))), max 1 (asU32 (roundAway (y1 - y0)))⟩

def coco : List String :=
  ["person", "bicycle", "car", "motorcycle", "airplane", "bus", "train", "truck", "boat",
    "traffic light", "fire hydrant", "stop sign", "parking meter", "bench", "bird", "cat",
    "dog", "horse", "sheep", "cow", "elephant", "bear", "zebra", "giraffe", "backpack",
    "umbrella", "handbag", "tie", "suitcase", "frisbee", "skis", "snowboard", "sports ball",
    "kite", "baseball bat", "baseball glove", "skateboard", "surfboard", "tennis racket",
    "bottle", "wine glass", "cup", "fork", "knife", "spoon", "bowl", "banana", "apple",
    "sandwich", "orange", "broccoli", "carrot", "hot dog", "pizza", "donut", "cake", "chair",
    "couch", "potted plant", "bed", "dining table", "toilet", "tv", "laptop", "mouse",
    "remote", "keyboard", "cell phone", "microwave", "oven", "toaster", "sink",
    "refrigerator", "book", "clock", "vase", "scissors", "teddy bear", "hair drier",
    "toothbrush"]

def cocoLabel (classId : ℕ) : String := coco.getD classId "unknown"

/-- `RknnBackend::infer` from the output of the model on. -/
def infer (std : StdSort) (sigmoid : ℚ → ℚ) (raw : Tensor) (inputWidth inputHeight : ℕ)
    (confThreshold nmsThreshold : ℚ) (frameSeq nowMs : ℕ) : List Detection :=
  if 4 + raw.numClasses < 5 ∨ raw.numAnchors = 0 then []
  else
    let p := letterbox inputWidth inputHeight
    let cands := std.sort (candidates sigmoid raw confThreshold)
    (Greedy.suppress (fun a b => nmsThreshold < iou a b) cands).map fun c =>
      ⟨frameBox p c, cocoLabel c.classId, c.classId, c.confidence, frameSeq, nowMs⟩

end AutoTargeting.Yolo.RknnBackend
