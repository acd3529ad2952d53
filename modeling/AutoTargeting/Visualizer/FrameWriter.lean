import AutoTargeting.Library.JsonLines
import AutoTargeting.VideoCapture.Replay

namespace AutoTargeting.Visualizer

open EventBus (Detection JsonFloat writeFloat writeU32)
open Json
open VideoCapture (Dir Frame PixelFormat WriteOutcome)

inductive VisualizerError
  | io (message : String)
  | imageEncode (message : String)
  | unsupportedFormat (format : PixelFormat)
  | frameSize (declW declH dataLen : ℕ)
  deriving DecidableEq, Repr

structure RgbImage where
  width : ℕ
  height : ℕ
  data : Bytes
  deriving DecidableEq, Repr

def frameToRgbImage (frame : Frame) : Except VisualizerError RgbImage :=
  let w := frame.metadata.width
  let h := frame.metadata.height
  if frame.metadata.format ≠ .rgb24 then .error (.unsupportedFormat frame.metadata.format)
  else if frame.data.length ≠ w * h * 3 then .error (.frameSize w h frame.data.length)
  else .ok ⟨w, h, frame.data⟩

/-- A `Rect` has no empty side. -/
structure Rect where
  left : Int32
  top : Int32
  width : ℕ
  height : ℕ
  deriving DecidableEq, Repr

/-- `Rect::at(..).of_size(..)`, which panics on an empty side. -/
def Rect.ofSize (left top : Int32) (width height : ℕ) : Option Rect :=
  if width = 0 ∨ height = 0 then none else some ⟨left, top, width, height⟩

abbrev Color := UInt8 × UInt8 × UInt8

def boxColor : Color := (0, 255, 255)

def labelBg : Color := (0, 0, 0)

def textColor : Color := (255, 255, 255)

def thickness : ℕ := 2

/-- What the label asks of a font at its scale, rounded up to pixels: how far the glyphs of a text
go, and the height. -/
structure Font where
  advance : String → UInt32
  height : UInt32

/-- The font of the writer, how a confidence is printed, and what `imageproc` and the JPEG encoder
make of an image. A drawing that is `none` panics. -/
structure Codec (F : Type) where
  font : Option Font
  formatConfidence : F → String
  drawHollowRect : RgbImage → Rect → Color → Option RgbImage
  drawFilledRect : RgbImage → Rect → Color → Option RgbImage
  drawText : RgbImage → Color → Int32 → Int32 → Font → String → Option RgbImage
  encodeJpeg : RgbImage → Except String Bytes

section
variable {F : Type}

/-- Hollow rectangles one inside the other, as many as have room. -/
def drawThickRect (codec : Codec F) (img : RgbImage) (rect : Rect) (color : Color)
    (thickness : ℕ) : Option RgbImage :=
  (List.range thickness).foldlM (fun img i =>
    let w := Int32.ofNat rect.width - 2 * Int32.ofNat i
    let h := Int32.ofNat rect.height - 2 * Int32.ofNat i
    if 0 < w ∧ 0 < h then
      (Rect.ofSize (rect.left + Int32.ofNat i) (rect.top + Int32.ofNat i) w.toNatClampNeg
        h.toNatClampNeg).bind fun r => codec.drawHollowRect img r color
    else some img) img

/-- The label stands above the box, or below it where there is no room above. -/
def drawDetection (codec : Codec F) (img : RgbImage) (det : Detection F) : Option RgbImage := do
  let b := det.bbox
  let rect ← Rect.ofSize b.x.toInt32 b.y.toInt32 b.width.toNat b.height.toNat
  let img ← drawThickRect codec img rect boxColor thickness
  match codec.font with
  | none => return img
  | some font =>
    let label := det.className ++ " " ++ codec.formatConfidence det.confidence
    let labelW := (font.advance label + 6).toNat
    let labelH := (font.height + 4).toNat
    let lx := min b.x.toNat (img.width - labelW)
    let lyAbove := b.y.toNat - labelH
    let ly := if 0 < lyAbove then lyAbove else (b.y + b.height + 2).toNat
    let bg ← Rect.ofSize (Int32.ofNat lx) (Int32.ofNat ly) (min labelW img.width)
      (min labelH img.height)
    let img ← codec.drawFilledRect img bg labelBg
    codec.drawText img textColor (Int32.ofNat lx + 3) (Int32.ofNat ly + 2) font label

/-- `none` is a panic. -/
def annotate (codec : Codec F) (frame : Frame) (detections : List (Detection F)) :
    Option (Except VisualizerError RgbImage) :=
  match frameToRgbImage frame with
  | .error e => some (.error e)
  | .ok img => (detections.foldlM (drawDetection codec) img).map .ok

section
variable [JsonFloat F]

def detectionJson (d : Detection F) : Doc :=
  .struct [("class", .string d.className), ("class_id", writeU32 d.classId),
    ("confidence", writeFloat d.confidence),
    ("bbox", .array [writeU32 d.bbox.x, writeU32 d.bbox.y, writeU32 d.bbox.width,
      writeU32 d.bbox.height])]

def detectionRecord (frame : Frame) (timestamp : String) (detections : List (Detection F)) : Doc :=
  .struct [("frame_seq", .int frame.metadata.seq), ("timestamp", .string timestamp),
    ("width", .int frame.metadata.width), ("height", .int frame.metadata.height),
    ("n", .int detections.length), ("detections", .array (detections.map detectionJson))]

end

inductive AppendOutcome
  | done
  | openFailed (error : String)
  | torn (error : String) (bytes : ℕ)

/-- A line at the end of a file, which is created if it is not there. -/
def append (dir : Dir) (name : String) (d : Doc) : AppendOutcome → Except String Unit × Dir
  | .done => (.ok (), Function.update dir name
      (some ((dir name).getD [] ++ appendedBytes (d, .whole))))
  | .openFailed error => (.error error, dir)
  | .torn error bytes => (.error error, Function.update dir name
      (some ((dir name).getD [] ++ appendedBytes (d, .torn bytes))))

def imageName (seq : ℕ) : String :=
  "frames/seq_" ++ String.ofList ((Nat.toDigits 10 seq).leftpad 6 '0') ++ ".jpg"

def jsonlName : String := "detections.jsonl"

/-- The writer without its paths and its font. The counters have 64 bits and wrap. -/
structure FrameWriter where
  saveEveryN : ℕ
  frameCounter : ℕ
  savedCounter : ℕ
  deriving DecidableEq, Repr

structure SaveCall (F : Type) where
  frame : Frame
  detections : List (Detection F)
  timestamp : String
  written : WriteOutcome
  appended : AppendOutcome

namespace FrameWriter

def new (saveEveryN : ℕ) : FrameWriter := ⟨max saveEveryN 1, 0, 0⟩

def shouldSave (s : FrameWriter) : Bool := s.frameCounter % s.saveEveryN = 0

/-- A call that panics in its drawing (`none`) has counted its frame. -/
def save [JsonFloat F] (codec : Codec F) (s : FrameWriter) (dir : Dir) (c : SaveCall F) :
    Option (Except VisualizerError (Option String)) × FrameWriter × Dir :=
  let s := { s with frameCounter := (s.frameCounter + 1) % 2 ^ 64 }
  if !s.shouldSave then (some (.ok none), s, dir)
  else
    match annotate codec c.frame c.detections with
    | none => (none, s, dir)
    | some (.error e) => (some (.error e), s, dir)
    | some (.ok annotated) =>
      match codec.encodeJpeg annotated with
      | .error e => (some (.error (.imageEncode e)), s, dir)
      | .ok jpeg =>
        let savedSeq := (s.savedCounter + 1) % 2 ^ 64
        let name := imageName savedSeq
        match dir.write name jpeg c.written with
        | (.error e, dir) => (some (.error (.io e)), s, dir)
        | (.ok (), dir) =>
          let s := { s with savedCounter := savedSeq }
          let record := detectionRecord c.frame c.timestamp c.detections
          match append dir jsonlName record c.appended with
          | (.error e, dir) => (some (.error (.io e)), s, dir)
          | (.ok (), dir) => (some (.ok (some name)), s, dir)

end FrameWriter

end

end AutoTargeting.Visualizer
