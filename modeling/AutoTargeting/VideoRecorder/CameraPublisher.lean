import AutoTargeting.Detector.Chain
import AutoTargeting.Ring.Offered
import AutoTargeting.VideoCapture.Direct

namespace AutoTargeting.VideoRecorder

open Runs Control EventBus Detector VideoCapture
open AutoTargeting.Ring (CheckedConfig)

inductive PublisherPc
  | top
  | publishing
  | left
  | broke
  | panicked
  deriving DecidableEq, Repr

structure CameraPublisher where
  pc : PublisherPc
  convertErrors : ℕ
  deriving DecidableEq, Repr

structure CameraStatus where
  published : ℕ
  dropped : ℕ
  convertErrors : ℕ
  deriving DecidableEq, Repr

def CameraStatus.frames (s : CameraStatus) : ℕ := s.published + s.dropped + s.convertErrors

def toNv12 (jpeg : JpegDecoder) (srcFormat : PixelFormat) (frame : VideoCapture.Frame) :
    Option ConversionResult :=
  match srcFormat with
  | .yuyv => yuyvToNv12 frame
  | .mjpeg => decodeMjpegToNv12 jpeg frame
  -- the arguments have no other format
  | .nv12 | .rgb24 => none

/-- The bytes of a picture that was converted. -/
def converted (r : ConversionResult) : Option (List UInt8) := r.toOption.map (·.data)

def pixels (jpeg : JpegDecoder) (n : Configured) (shot : List UInt8) : Option (List UInt8) :=
  (toNv12 jpeg n.format ⟨shot, ⟨n.width, n.height, n.format, 0, 0⟩⟩).bind converted

/-- The camera with its publisher, and the processes behind the ring. -/
structure Pipeline (F T : Type) where
  camera : Logged Capture (List UInt8)
  publisher : CameraPublisher
  chain : Chain F T

/-- An event of the driver or the capture thread, a turn of the publisher, its deadline, or an
event behind it. -/
inductive PipelineEvent (E : Type)
  | capture (e : CaptureEvent)
  | turn (nowNs : ℕ)
  | deadline
  | chain (e : ChainEvent E)

/-- The publisher stops the source when it leaves its loop, and drops the receiver after that;
only in its turns does it receive. -/
def CameraPublisher.Allows (p : CameraPublisher) : CaptureEvent → Bool
  | .receive => false
  | .stop => p.pc = .left ∨ p.pc = .broke
  | .hangUp => p.pc = .left ∨ p.pc = .broke ∨ p.pc = .panicked
  | .write _ _ _ | .fill _ _ | .dequeue _ | .dequeueUnmapped _ | .dequeueFails | .check | .copy
  | .requeue _ | .send _ => true

/-- `publish` goes on, and may return. -/
def CameraPublisher.after (c : CheckedConfig) (s : Ring.State) (p : CameraPublisher) :
    Ring.Event → CameraPublisher
  | .producerStep =>
    match (s.producer.step c s.region).result with
    | none => p
    | some (.ok _) => { p with pc := .top }
    | some (.error _) => { p with pc := .broke }
  | .publish _ _ | .call _ _ | .consumerStep _ | .dropGuard _ | .reap _ _ _ | .reaperStep _
  | .spawn _ | .die _ => p

namespace Pipeline

section
variable {F T E : Type} [JsonFloat F] [PartialCmp F] [F32 F] (rfc : Rfc3339)
  (mt : MultiTargetTracker F T E) (trackerCfg : TrackerConfig) (cfg : DetectorConfig)
  (env : Surroundings F) (c : CheckedConfig) (producerPid pid : ℕ) (jpeg : JpegDecoder)
  (n : Configured)

def take (s : Pipeline F T) (frame : VideoCapture.Frame) (nowNs : ℕ) : Option (Pipeline F T) :=
  match toNv12 jpeg n.format frame with
  | none => some { s with publisher := { s.publisher with pc := .panicked } }
  | some (.error _) =>
    some { s with publisher := { s.publisher with convertErrors := s.publisher.convertErrors + 1 } }
  | some (.ok nv12) =>
    ((Chain.machine rfc mt trackerCfg cfg env c producerPid pid).step s.chain
      (.ring (.publish nv12.data nowNs))).map fun chain =>
        { s with
          chain
          -- a frame of another size than the ring's ends the loop
          publisher := { s.publisher with
            pc := if nv12.data.length = c.frameSize then .publishing else .broke } }

def step (s : Pipeline F T) : PipelineEvent E → Option (Pipeline F T)
  | .capture e =>
    if s.publisher.Allows e = true then
      ((Capture.machine n 4).step s.camera e).map fun camera => { s with camera }
    else none
  | .turn nowNs =>
    if s.publisher.pc = .top then
      match s.camera.state.channel.waiting with
      | frame :: _ =>
        ((Capture.machine n 4).step s.camera .receive).bind fun camera =>
          take rfc mt trackerCfg cfg env c producerPid pid jpeg n { s with camera } frame nowNs
      | [] =>
        -- `recv` gives nothing once the capture thread is gone
        if s.camera.state.pc = .ended then
          some { s with publisher := { s.publisher with pc := .left } }
        else none
    else none
  | .deadline =>
    if s.publisher.pc = .top then some { s with publisher := { s.publisher with pc := .left } }
    else none
  | .chain (.ring (.publish _ _)) => none
  | .chain (.ring e) =>
    ((Chain.machine rfc mt trackerCfg cfg env c producerPid pid).step s.chain (.ring e)).map
      fun chain => { s with chain, publisher := s.publisher.after c s.chain.detector.state e }
  -- the bus behind the detector, and the tracker
  | .chain e =>
    ((Chain.machine rfc mt trackerCfg cfg env c producerPid pid).step s.chain e).map
      fun chain => { s with chain }

def machine : Machine (Pipeline F T) (PipelineEvent E) where
  Init s := (Capture.machine n 4).Init s.camera ∧ s.publisher = ⟨.top, 0⟩ ∧
    (Chain.machine rfc mt trackerCfg cfg env c producerPid pid).Init s.chain
  step := step rfc mt trackerCfg cfg env c producerPid pid jpeg n

def Calling (s : Pipeline F T) : PipelineEvent E → Prop
  | .chain e => Chain.Calling cfg env c producerPid pid s.chain e
  | .capture _ | .turn _ | .deadline => True

instance (s : Pipeline F T) (e : PipelineEvent E) :
    Decidable (Calling cfg env c producerPid pid s e) :=
  match e with
  | .chain e => inferInstanceAs (Decidable (Chain.Calling cfg env c producerPid pid s.chain e))
  | .capture _ | .turn _ | .deadline => inferInstanceAs (Decidable True)

end

variable {F T : Type}

def received (s : Pipeline F T) : List VideoCapture.Frame := s.camera.state.channel.received

def ring (s : Pipeline F T) : Ring.State := s.chain.detector.state

def status (s : Pipeline F T) : CameraStatus :=
  ⟨s.ring.region.writeSeq, s.ring.region.droppedFrames, s.publisher.convertErrors⟩

end Pipeline

end AutoTargeting.VideoRecorder
