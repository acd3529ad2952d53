import AutoTargeting.Detector.FramePixels
import AutoTargeting.VideoCapture.Convert
import AutoTargeting.Yolo.InsideFrame

namespace AutoTargeting.CvInference

open Detector (letterbox nv12Row)
open VideoCapture (Frame PixelFormat)
open Yolo (Tensor inputSize postprocess)

inductive InferenceError
  | bridgeConnection (message : String)
  | bridgeProtocol (message : String)
  | inference (message : String)
  | modelNotLoaded
  | unavailable (message : String)
  deriving DecidableEq, Repr

/-- A loaded model, with what `ort` answers: `V` are its values and `O` its outputs. -/
structure Session (V O : Type) where
  inputName : Option String
  fromArray : List ℚ → Except String V
  run : String → V → Except String (List O)
  extract : O → Except String (List ℚ)

structure CpuInferenceBackend (V O : Type) where
  modelPath : String
  confidenceThreshold : ℚ
  iouThreshold : ℚ
  labels : List String
  session : Option (Session V O)
  inputName : Option String

inductive InitStep
  | builder
  | optLevel
  | threads
  | commitFromFile
  deriving DecidableEq, Repr

def InitStep.text : InitStep → String
  | .builder => "ort builder"
  | .optLevel => "ort opt level"
  | .threads => "ort threads"
  | .commitFromFile => "ort commit_from_file"

/-- `COCO_LABELS`: the names that the bridge has too. -/
def cocoLabels : List String := Yolo.RknnBackend.coco

def anchors640 : ℕ := 8400

/-- `nv12_to_rgb24`: no check of the length, which the caller made. -/
def nv12ToRgb24 (nv12 : List UInt8) (w h : ℕ) : Option (List UInt8) :=
  if w = 0 then none else ((List.range h).mapM (nv12Row nv12 w h)).map List.flatten

def formatName : PixelFormat → String
  | .nv12 => "Nv12"
  | .yuyv => "Yuyv"
  | .rgb24 => "Rgb24"
  | .mjpeg => "Mjpeg"

/-- The bytes that `frame_to_rgb24` asks for, whose products wrap in 64 bits. -/
def expectedBytes (format : PixelFormat) (w h : ℕ) : ℕ :=
  match format with
  | .nv12 => w * h * 3 % 2 ^ 64 / 2
  | _ => w * h * 3 % 2 ^ 64

/-- A `none` is a panic. -/
def frameToRgb24 (frame : Frame) : Option (Except InferenceError (List UInt8)) :=
  let w := frame.metadata.width
  let h := frame.metadata.height
  let got := frame.data.length
  let expected := expectedBytes frame.metadata.format w h
  match frame.metadata.format with
  | .rgb24 =>
    if got ≠ expected then
      some (.error (.inference s!"RGB24 frame size mismatch: got {got}, expected {expected}"))
    else some (.ok frame.data)
  | .nv12 =>
    if got ≠ expected then
      some (.error (.inference s!"NV12 frame size mismatch: got {got}, expected {expected}"))
    else (nv12ToRgb24 frame.data w h).map .ok
  | other =>
    let name := formatName other
    some (.error (.inference (s!"CpuInferenceBackend expects RGB24 or NV12 frame; got {name}. " ++
      "Decode MJPEG/YUYV upstream via video-capture::convert.")))

/-- One of the three planes of `rgb_to_nchw_f32`. -/
def plane (rgb : List UInt8) (c : ℕ) : List ℚ :=
  (List.range (inputSize * inputSize)).map fun i => (rgb.getD (i * 3 + c) 0).toNat * (1 / 255)

def rgbToNchwF32 (rgb : List UInt8) : Option (List ℚ) :=
  if rgb.length ≠ inputSize * inputSize * 3 then none else some ((List.range 3).flatMap (plane rgb))

/-- The rows of an output with a whole number of them. -/
def rows (floats : List ℚ) : ℕ := floats.length / anchors640

/-- The output cannot be one of a model for detection. -/
def Unexpected (floats : List ℚ) : Prop := floats.length % anchors640 ≠ 0 ∨ rows floats < 5

instance (floats : List ℚ) : Decidable (Unexpected floats) :=
  inferInstanceAs (Decidable (_ ∨ _))

def tensorOf (floats : List ℚ) (h : ¬ Unexpected floats) : Tensor where
  numClasses := rows floats - 4
  numAnchors := anchors640
  data := floats
  size := by
    obtain ⟨hwhole, hrows⟩ := not_or.mp h
    have hdiv : anchors640 * rows floats + floats.length % anchors640 = floats.length :=
      Nat.div_add_mod _ _
    have hfour : 4 + (rows floats - 4) = rows floats := by omega
    rw [not_not.mp hwhole, Nat.add_zero] at hdiv
    rw [hfour, Nat.mul_comm, hdiv]

namespace CpuInferenceBackend

variable {V O : Type}

def new (modelPath : String) : CpuInferenceBackend V O :=
  ⟨modelPath, 9 / 20, 9 / 20, cocoLabels, none, none⟩

def withConfidenceThreshold (be : CpuInferenceBackend V O) (t : ℚ) : CpuInferenceBackend V O :=
  { be with confidenceThreshold := t }

def withIouThreshold (be : CpuInferenceBackend V O) (t : ℚ) : CpuInferenceBackend V O :=
  { be with iouThreshold := t }

def withLabels (be : CpuInferenceBackend V O) (labels : List String) : CpuInferenceBackend V O :=
  { be with labels := labels }

/-- The steps 4 to 6 of `infer_sync`: the floats of the first output. -/
def output (inputName : Option String) (s : Session V O) (tensor : List ℚ) :
    Except InferenceError (List ℚ) := do
  let inputValue ← (s.fromArray tensor).mapError fun e => .inference s!"ort tensor from array: {e}"
  let inputName ← inputName.elim (.error (.inference "backend not initialized")) .ok
  let outputs ← (s.run inputName inputValue).mapError fun e => .inference s!"ort run: {e}"
  let outValue ← outputs.head?.elim (.error (.inference "model produced no outputs")) .ok
  (s.extract outValue).mapError fun e => .inference s!"ort extract f32: {e}"

/-- The step 7: the classes are counted in 32 bits, and `postprocess` asserts the length. -/
def detections (be : CpuInferenceBackend V O) (frame : Frame) (now : ℕ) (floats : List ℚ) :
    Option (Except InferenceError (List Yolo.Detection)) :=
  if h : Unexpected floats then
    let n := floats.length
    some (.error (.inference
      s!"unexpected YOLOv8 output: {n} floats (expected rows*{anchors640}, rows>=5)"))
  else if 2 ^ 32 ≤ rows floats then none
  else
    let params := Yolo.LetterboxParams.forSize frame.metadata.width frame.metadata.height
    some (.ok (postprocess (tensorOf floats h) params be.confidenceThreshold be.iouThreshold
      frame.metadata.seq now be.labels))

/-- `infer` and `infer_sync`. -/
def infer (be : CpuInferenceBackend V O) (frame : Frame) (now : ℕ) :
    Option (Except InferenceError (List Yolo.Detection)) :=
  match be.session with
  | none => some (.error .modelNotLoaded)
  | some s => do
    match ← frameToRgb24 frame with
    | .error e => return .error e
    | .ok rgb =>
      let letterboxed ← letterbox rgb frame.metadata.width frame.metadata.height
      let tensor ← rgbToNchwF32 letterboxed
      match output be.inputName s tensor with
      | .error e => return .error e
      | .ok floats => be.detections frame now floats

/-- `init`, by what the library makes of the model's file. -/
def init (be : CpuInferenceBackend V O) :
    Except (InitStep × String) (Session V O) → CpuInferenceBackend V O × Except InferenceError Unit
  | .ok s => ({ be with session := some s, inputName := s.inputName }, .ok ())
  | .error (step, e) =>
    let text := step.text
    (be, .error (.inference s!"{text}: {e}"))

def healthCheck (be : CpuInferenceBackend V O) : Except InferenceError Unit :=
  if be.session.isSome then .ok () else .error .modelNotLoaded

end CpuInferenceBackend

end AutoTargeting.CvInference
