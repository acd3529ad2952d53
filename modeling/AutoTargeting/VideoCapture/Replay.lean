import AutoTargeting.EventBus.Messages
import AutoTargeting.Library.JsonPretty
import AutoTargeting.VideoCapture.Convert
import Mathlib.Logic.Function.Basic

namespace AutoTargeting.VideoCapture

open EventBus (DateTime Rfc3339 writeU32 writeU64 readU32 readU64 readRfc3339)
open Json

inductive VideoCaptureError
  | deviceOpen (message : String)
  | capture (message : String)
  deriving DecidableEq, Repr

abbrev Dir := String → Option Bytes

/-- What comes of writing a file. Where it fails, anything may be in the file. -/
inductive WriteOutcome
  | done
  | failed (error : String) (left : Option Bytes)

def Dir.write (dir : Dir) (name : String) (data : Bytes) : WriteOutcome → Except String Unit × Dir
  | .done => (.ok (), Function.update dir name (some data))
  | .failed error left => (.error error, Function.update dir name left)

structure RecordingMeta where
  width : UInt32
  height : UInt32
  fps : UInt32
  format : String
  frameCount : UInt64
  createdAt : DateTime

structure Recording where
  recordingMeta : RecordingMeta
  nextSeq : UInt64

def frameName (seq : UInt64) : String :=
  "frame_" ++ String.ofList ((Nat.toDigits 10 seq.toNat).leftpad 6 '0') ++ ".bin"

def metaName : String := "meta.json"

namespace RecordingMeta

def serialize (rfc : Rfc3339) (m : RecordingMeta) : List (String × Doc) :=
  [("width", writeU32 m.width), ("height", writeU32 m.height), ("fps", writeU32 m.fps),
    ("format", .string m.format), ("frame_count", writeU64 m.frameCount),
    ("created_at", .string (rfc.format m.createdAt))]

def deserialize (rfc : Rfc3339) (v : Value) : Option RecordingMeta := do
  let fs ← v.fields
  let width ← Value.required "width" readU32 fs
  let height ← Value.required "height" readU32 fs
  let fps ← Value.required "fps" readU32 fs
  let format ← Value.required "format" Value.text fs
  let frameCount ← Value.required "frame_count" readU64 fs
  let createdAt ← Value.required "created_at" (readRfc3339 rfc) fs
  some ⟨width, height, fps, format, frameCount, createdAt⟩

end RecordingMeta

namespace Recording

/-- `made` is the result of `create_dir_all`; what is in the directory stays there. -/
def create (made : Except String Unit) (width height fps : UInt32) (now : DateTime) :
    Except VideoCaptureError Recording :=
  match made with
  | .error e => .error (.deviceOpen ("create dir: " ++ e))
  | .ok () => .ok ⟨⟨width, height, fps, "rgb24", 0, now⟩, 0⟩

def append (recording : Recording) (dir : Dir) (frame : Frame) (outcome : WriteOutcome) :
    Except VideoCaptureError Unit × Recording × Dir :=
  let (result, dir) := dir.write (frameName recording.nextSeq) frame.data outcome
  match result with
  | .error e => (.error (.capture ("write frame: " ++ e)), recording, dir)
  | .ok () =>
    let nextSeq := recording.nextSeq + 1
    (.ok (), ⟨{ recording.recordingMeta with frameCount := nextSeq }, nextSeq⟩, dir)

def finalize (rfc : Rfc3339) (recording : Recording) (dir : Dir) (outcome : WriteOutcome) :
    Except VideoCaptureError Unit × Dir :=
  let json := renderStructPretty (recording.recordingMeta.serialize rfc)
  let (result, dir) := dir.write metaName json outcome
  match result with
  | .error e => (.error (.capture ("write meta: " ++ e)), dir)
  | .ok () => (.ok (), dir)

end Recording

structure ReplaySource where
  recordingMeta : RecordingMeta
  realTime : Bool
  loopPlayback : Bool

namespace ReplaySource

/-- `explain` is the message for a text that is no UTF-8, or not the JSON of a `RecordingMeta`. -/
def openDir (rfc : Rfc3339) (explain : Bytes → String) (dir : Dir) :
    Except VideoCaptureError ReplaySource :=
  match dir metaName with
  | none =>
    .error (.deviceOpen "read meta.json: No such file or directory (os error 2)")
  | some text =>
    match (parse text).bind (RecordingMeta.deserialize rfc) with
    | none => .error (.deviceOpen (explain text))
    | some recordingMeta => .ok ⟨recordingMeta, true, false⟩

def withRealTime (source : ReplaySource) (realTime : Bool) : ReplaySource :=
  { source with realTime }

def withLoop (source : ReplaySource) (loopPlayback : Bool) : ReplaySource :=
  { source with loopPlayback }

def format (source : ReplaySource) : PixelFormat :=
  match source.recordingMeta.format with
  | "rgb24" => .rgb24
  | "nv12" => .nv12
  | "yuyv" => .yuyv
  | "mjpeg" => .mjpeg
  | _ => .rgb24

/-- The frames from `seq` on, `remaining` of them, and whether all could be read; `clock` is the
time at which each is made. -/
def pass (source : ReplaySource) (dir : Dir) (clock : ℕ → ℤ) : ℕ → ℕ → List Frame × Bool
  | 0, _ => ([], true)
  | remaining + 1, seq =>
    match dir (frameName (UInt64.ofNat seq)) with
    | none => ([], false)
    | some data =>
      let frame := ⟨data, ⟨source.recordingMeta.width.toNat, source.recordingMeta.height.toNat,
        source.format, clock seq, seq⟩⟩
      let (frames, complete) := pass source dir clock remaining (seq + 1)
      (frame :: frames, complete)

/-- The loop of the task, for this many passes at most. How long it sleeps between frames does not
matter to what it sends. -/
def playback (source : ReplaySource) (dir : Dir) (clock : ℕ → ℤ) : ℕ → List Frame
  | 0 => []
  | passes + 1 =>
    let (frames, complete) := source.pass dir clock source.recordingMeta.frameCount.toNat 0
    if ¬ complete then frames
    else if ¬ source.loopPlayback then frames
    else if frames = [] then frames
    else frames ++ source.playback dir (fun i => clock (i + frames.length)) passes

/-- What `start` sends to a receiver that takes every frame. For a rate of 0 the interval is
infinite, which `Duration::from_secs_f64` does not take: the task panics before the first frame. -/
def start (source : ReplaySource) (dir : Dir) (clock : ℕ → ℤ) (passes : ℕ) : List Frame :=
  if source.recordingMeta.fps = 0 then [] else source.playback dir clock passes

end ReplaySource

end AutoTargeting.VideoCapture
