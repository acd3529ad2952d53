import AutoTargeting.Ring.HandedOut
import AutoTargeting.Ring.LayoutSafety
import AutoTargeting.VideoCapture.ConvertTotal

namespace AutoTargeting.VideoRecorder

open AutoTargeting.Ring (FrameView StorageFormat)
open VideoCapture (ConversionError FrameMetadata PixelFormat nv12ToRgb24)

inductive RecorderError
  | ffmpeg (message : String)
  | pipeWrite (message : String)
  | convert (error : ConversionError)
  | font (message : String)
  | invalidConfig (message : String)
  deriving DecidableEq, Repr

structure RecorderConfig where
  output : String
  fps : ℕ
  osd : Bool
  font : Option String
  deriving DecidableEq, Repr

structure RecorderStats where
  framesReceived : ℕ
  framesWritten : ℕ
  jumps : ℕ
  osdFrames : ℕ
  deriving DecidableEq, Repr

structure RecorderStatus where
  framesWritten : ℕ
  jumps : ℕ
  recording : Bool
  output : String
  deriving DecidableEq, Repr

def pixelFormat : StorageFormat → PixelFormat
  | .nv12 => .nv12
  | .rgb24 => .rgb24

def toMetadata (v : FrameView) : FrameMetadata where
  width := v.width
  height := v.height
  format := (v.storageFormat.map pixelFormat).getD .nv12
  capturedAt := v.tsNs
  seq := v.frameId

/-- `piped` has the bytes that the encoder's stdin took, and `killed` says that the encoder was
killed before it had all. -/
structure FfmpegRawWriter where
  width : ℕ
  height : ℕ
  bytesWritten : ℕ
  stdinOpen : Bool
  killed : Bool
  piped : List UInt8
  deriving DecidableEq, Repr

/-- What comes of `write_all` and `flush` on the pipe: all is taken, or an error after the first
bytes. -/
inductive PipeOutcome
  | done
  | failed (taken : ℕ) (message : String)
  deriving DecidableEq, Repr

namespace FfmpegRawWriter

def spawn (width height : ℕ) : FfmpegRawWriter := ⟨width, height, 0, true, false, []⟩

def writeFrame (w : FfmpegRawWriter) (rgb : List UInt8) (outcome : PipeOutcome) :
    Except RecorderError Unit × FfmpegRawWriter :=
  let expected := w.width * w.height * 3
  if rgb.length ≠ expected then
    (.error (.invalidConfig s!"frame size {rgb.length} != {expected}"), w)
  else if ¬ w.stdinOpen then (.error (.pipeWrite "ffmpeg stdin closed"), w)
  else
    match outcome with
    | .done =>
      (.ok (), { w with piped := w.piped ++ rgb, bytesWritten := w.bytesWritten + expected })
    | .failed taken message =>
      (.error (.pipeWrite message), { w with piped := w.piped ++ rgb.take taken })

def abort (w : FfmpegRawWriter) : FfmpegRawWriter := { w with stdinOpen := false, killed := true }

end FfmpegRawWriter

/-- What the recorder uses of fonts and of the calendar: a font from its file, the text of a
time, and the lines burnt into a picture. -/
structure Overlay (Font : Type) where
  load : String → Except String Font
  timestamp : ℕ → String
  drawOsd : Font → List String → ℕ → ℕ → List UInt8 → List UInt8

/-- An `RgbImage` keeps its size when it is drawn on. -/
def Overlay.KeepsSize {Font : Type} (o : Overlay Font) : Prop :=
  ∀ font lines w h rgb, (o.drawOsd font lines w h rgb).length = rgb.length

structure Recorder (Font : Type) where
  cfg : RecorderConfig
  font : Option Font

/-- How `run` goes on, apart from the ring: the encoder that is started, the pipe at each write,
the bus, and whether a second has passed since the last status. -/
structure Environment where
  spawned : Except RecorderError Unit
  pipe : ℕ → PipeOutcome
  bus : Bool
  second : ℕ → Bool

structure Session where
  width : ℕ
  height : ℕ
  format : StorageFormat
  writer : FfmpegRawWriter
  stats : RecorderStats
  statuses : List RecorderStatus
  deriving DecidableEq, Repr

inductive Phase
  | waiting
  | refused (e : RecorderError)
  | encoding (s : Session)
  | failed (e : RecorderError) (s : Session)
  | panicked
  deriving DecidableEq, Repr

namespace Recorder

variable {Font : Type} (o : Overlay Font) (rec : Recorder Font) (env : Environment)

def new (cfg : RecorderConfig) : Except RecorderError (Recorder Font) :=
  if cfg.fps = 0 then .error (.invalidConfig "fps must be > 0")
  else
    match cfg.font, cfg.osd with
    | some path, true =>
      match o.load path with
      | .ok font => .ok ⟨cfg, some font⟩
      | .error e => .error (.font e)
    | none, true | none, false | some _, false => .ok ⟨cfg, none⟩

/-- The pixels that leave the guard. -/
def rgbOf (format : StorageFormat) (view : FrameView) (data : List UInt8) :
    Option (Except RecorderError (List UInt8)) :=
  match format with
  | .nv12 =>
    (nv12ToRgb24 ⟨data, toMetadata view⟩).map fun
      | .ok frame => .ok frame.data
      | .error e => .error (.convert e)
  | .rgb24 => some (.ok data)

def osdLines (format : StorageFormat) (w h : ℕ) (view : FrameView) : List String :=
  [o.timestamp view.tsNs, s!"frame {view.frameId}", s!"{w}x{h} {format.debugName}"]

/-- The font with which the lines are burnt into the pixels. -/
def osdFont : Option Font := if rec.cfg.osd then rec.font else none

/-- The pixels that are written; `RgbImage::from_raw` takes any buffer that is long enough. -/
def burn (format : StorageFormat) (w h : ℕ) (view : FrameView) (rgb : List UInt8) :
    Except RecorderError (List UInt8) :=
  match rec.osdFont with
  | some font =>
    if rgb.length < w * h * 3 then .error (.invalidConfig "rgb buffer")
    else .ok (o.drawOsd font (osdLines o format w h view) w h rgb)
  | none => .ok rgb

def turn (s : Session) (view : FrameView) (data : List UInt8) : Phase :=
  let n := s.stats.framesWritten
  let s := { s with stats := { s.stats with framesReceived := s.stats.framesReceived + 1 } }
  match rgbOf s.format view data with
  | none => .panicked
  | some (.error e) => .failed e s
  | some (.ok rgb) =>
    match rec.burn o s.format s.width s.height view rgb with
    | .error e => .failed e s
    | .ok rgb =>
      match s.writer.writeFrame rgb (env.pipe n) with
      | (.error e, writer) => .failed e { s with writer := writer.abort }
      | (.ok (), writer) =>
        let s := { s with writer, stats := { s.stats with framesWritten := n + 1 } }
        -- with an overlay the turn ends here
        if rec.osdFont.isNone ∧ env.second n ∧ env.bus then
          .encoding { s with statuses := s.statuses ++ [⟨n + 1, s.stats.jumps, true, rec.cfg.output⟩] }
        else .encoding s

/-- The first frame says what the encoder is started for. -/
def begin (view : FrameView) : Except RecorderError Session :=
  match view.storageFormat with
  | none => .error (.invalidConfig "unsupported ring storage format")
  | some format =>
    env.spawned.map fun _ =>
      ⟨view.width, view.height, format, .spawn view.width view.height, ⟨0, 0, 0, 0⟩, []⟩

def frame (jumps : ℕ) (view : FrameView) (data : List UInt8) : Phase → Phase
  | .waiting =>
    match begin env view with
    | .error e => .refused e
    | .ok s => rec.turn o env s view data
  | .encoding s => rec.turn o env { s with stats := { s.stats with jumps } } view data
  | .refused e => .refused e
  | .failed e s => .failed e s
  | .panicked => .panicked

end Recorder

end AutoTargeting.VideoRecorder
