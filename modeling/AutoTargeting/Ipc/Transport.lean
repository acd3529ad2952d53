import AutoTargeting.Ipc.Base64
import AutoTargeting.Library.Machine
import Mathlib.Logic.Function.Basic

namespace AutoTargeting.Ipc

/-- The part of `RknnBridgeConfig` that the transport of frames depends on. -/
structure ClientConfig where
  inputWidth : ℕ
  inputHeight : ℕ
  frameShm : Option String
  frameShmBuffers : ℕ
  deriving DecidableEq, Repr

/-- `FrameShm`. A segment is shared memory, which outlives its file while someone maps it. -/
structure FrameShm where
  path : String
  segment : ℕ
  frameSize : ℕ
  buffers : ℕ
  deriving DecidableEq, Repr

abbrev Memory := ℕ → ℕ → UInt8

/-- The files under `/dev/shm`: the segment of a path, and its size. -/
abbrev Files := String → Option (ℕ × ℕ)

/-- How an infer request hands over its frame. -/
inductive FrameRef
  | base64 (text : List Char)
  | buffer (index : ℕ)
  deriving DecidableEq, Repr

/-- The `frame_shm` fields of an init request. -/
structure Announcement where
  path : String
  buffers : ℕ
  size : ℕ
  deriving DecidableEq, Repr

/-- The requests of a client. The frame of an infer request is not in the message: it is the
`frame.data` that `infer` was called with. -/
inductive Request
  | init (frameShm : Option Announcement)
  | infer (ref : FrameRef) (frame : List UInt8)
  | shutdown
  deriving DecidableEq, Repr

namespace FrameShm

def offset (shm : FrameShm) (index : ℕ) : ℕ := index * shm.frameSize

/-- The copy in `write_frame`. -/
def write (shm : FrameShm) (m : Memory) (index : ℕ) (data : List UInt8) : Memory :=
  Function.update m shm.segment fun o =>
    if shm.offset index ≤ o ∧ o < shm.offset index + data.length then
      data.getD (o - shm.offset index) 0
    else m shm.segment o

/-- `write_frame`, and `none` for its errors. -/
def writeFrame (shm : FrameShm) (m : Memory) (index : ℕ) (data : List UInt8) : Option Memory :=
  if shm.buffers ≤ index then none
  else if shm.frameSize < data.length then none
  else some (shm.write m index data)

def announcement (shm : FrameShm) : Announcement := ⟨shm.path, shm.buffers, shm.frameSize⟩

end FrameShm

/-- `RknnBridgeClient`; `stream` names its connection. -/
structure Client where
  config : ClientConfig
  stream : Option ℕ
  initialized : Bool
  frameShm : Option FrameShm
  shmBufCursor : ℕ
  deriving DecidableEq, Repr

namespace Client

def new (config : ClientConfig) : Client := ⟨config, none, false, none, 0⟩

/-- The buffer size of `init`: the letterboxed tensor, in RGB24. -/
def tensorSize (c : Client) : ℕ :=
  let tensor := max c.config.inputWidth c.config.inputHeight
  tensor * tensor * 3

/-- `FrameShm::create` for a segment of this client; `created` is whether the system calls
succeed, which they cannot for an empty mapping or one beyond the address space. -/
def createShm (c : Client) (path : String) (segment : ℕ) (created : Bool) : Option FrameShm :=
  let len := c.tensorSize * c.config.frameShmBuffers
  if created ∧ 0 < len ∧ len < 2 ^ 48 then
    some ⟨path, segment, c.tensorSize, c.config.frameShmBuffers⟩
  else none

/-- `init` asks for a segment only while the client has none. -/
def wantsShm (c : Client) : Option String :=
  match c.frameShm with
  | some _ => none
  | none => c.config.frameShm

end Client

structure FrameSource where
  segment : ℕ
  bufferCount : ℕ
  frameSize : ℕ
  deriving DecidableEq, Repr

/-- `ShmFrameSource::read_frame`, and `none` for its errors. -/
def FrameSource.readFrame (src : FrameSource) (m : Memory) (bufferIndex expectedBytes : ℕ) :
    Option (List UInt8) :=
  if src.bufferCount ≤ bufferIndex then none
  else if src.frameSize < expectedBytes then none
  else some ((List.range expectedBytes).map fun j =>
    m src.segment (bufferIndex * src.frameSize + j))

/-- The variables of `run_bridge`: its frame source, and the frame size of the last init. -/
structure Bridge where
  source : Option FrameSource
  initSize : ℕ
  deriving DecidableEq, Repr

/-- What serde writes for a character of a string. -/
def jsonEscape (c : Char) : List Char :=
  if c = '"' then ['\\', '"']
  else if c = '\\' then ['\\', '\\']
  else if c = '\n' then ['\\', 'n']
  else if c = '\r' then ['\\', 'r']
  else if c = '\t' then ['\\', 't']
  else if c.toNat = 8 then ['\\', 'b']
  else if c.toNat = 12 then ['\\', 'f']
  else if c.toNat < 32 then
    ['\\', 'u', '0', '0', Nat.digitChar (c.toNat / 16), Nat.digitChar (c.toNat % 16)]
  else [c]

/-- The path that `find_string` reads back: the escaped one, up to its first quote. -/
def pathAsRead (path : String) : String :=
  String.ofList ((path.toList.flatMap jsonEscape).takeWhile (· ≠ '"'))

namespace Bridge

def start : Bridge := ⟨none, 0⟩

/-- `ShmFrameSource::open`: its first check comes before the old mapping is closed. -/
def openSource (b : Bridge) (files : Files) (a : Announcement) (opened : Bool) : Bridge :=
  if a.buffers = 0 ∨ a.size = 0 then b
  else
    match if opened then files (pathAsRead a.path) else none with
    | none => { b with source := none }
    | some (segment, size) =>
      if size < a.buffers * a.size then { b with source := none }
      else { b with source := some ⟨segment, a.buffers, a.size⟩ }

/-- The init branch: `loaded` is whether the model loads, `opened` whether the system calls on
the segment succeed. -/
def onInit (b : Bridge) (files : Files) (frameShm : Option Announcement) (loaded opened : Bool) :
    Bridge :=
  if !loaded then b
  else
    match frameShm with
    | none => { b with initSize := 0 }
    | some a =>
      let b := if pathAsRead a.path = "" then b else b.openSource files a opened
      { b with initSize := a.size }

/-- The pixel bytes that the infer branch hands to the backend; its answer is always
`ok: true`. -/
def frameData (b : Bridge) (m : Memory) (ref : FrameRef) : List UInt8 :=
  let (text, index) : List Char × ℕ := match ref with
    | .base64 text => (text, 0)
    | .buffer index => ([], index)
  match b.source.bind fun src => src.readFrame m index b.initSize with
  | some bytes => bytes
  | none => base64Decode text

end Bridge

/-- Client and bridge have the same transport: the mapping of the client's own segment, with its
geometry, or none. -/
def Bridge.Agrees (b : Bridge) : Option FrameShm → Prop
  | none => b.source = none
  | some shm =>
    b.source = some ⟨shm.segment, shm.buffers, shm.frameSize⟩ ∧ b.initSize = shm.frameSize

instance (b : Bridge) : (transport : Option FrameShm) → Decidable (b.Agrees transport)
  | none => inferInstanceAs (Decidable (b.source = none))
  | some shm => inferInstanceAs (Decidable
      (b.source = some ⟨shm.segment, shm.buffers, shm.frameSize⟩ ∧ b.initSize = shm.frameSize))

/-- What a loaded init needs, in the bridge and in `/dev/shm`, to leave both sides in step. -/
def Bridge.Finds (b : Bridge) (files : Files) (opened : Bool) :
    Option FrameShm → Option Announcement → Prop
  | none, none => b.source = none
  | some shm, some a => opened = true ∧ pathAsRead a.path ≠ "" ∧
      files (pathAsRead a.path) = some (shm.segment, shm.buffers * shm.frameSize)
  | _, _ => False

instance (b : Bridge) (files : Files) (opened : Bool) : (transport : Option FrameShm) →
    (frameShm : Option Announcement) → Decidable (b.Finds files opened transport frameShm)
  | none, none => inferInstanceAs (Decidable (b.source = none))
  | some shm, some a => inferInstanceAs (Decidable (opened = true ∧ pathAsRead a.path ≠ "" ∧
      files (pathAsRead a.path) = some (shm.segment, shm.buffers * shm.frameSize)))
  | none, some _ => inferInstanceAs (Decidable False)
  | some _, none => inferInstanceAs (Decidable False)

/-- An init whose model does not load leaves the bridge as it is. -/
def Bridge.InStep (b : Bridge) (files : Files) (transport : Option FrameShm)
    (frameShm : Option Announcement) (loaded opened : Bool) : Prop :=
  if loaded = true then b.Finds files opened transport frameShm else b.Agrees transport

instance (b : Bridge) (files : Files) (transport : Option FrameShm)
    (frameShm : Option Announcement) (loaded opened : Bool) :
    Decidable (b.InStep files transport frameShm loaded opened) :=
  inferInstanceAs (Decidable
    (if loaded = true then b.Finds files opened transport frameShm else b.Agrees transport))

/-- A connection. `transport` is the segment of its client when it connected; `inStep` is
whether its init left both sides in step. No code reads these two. -/
structure Connection where
  id : ℕ
  queue : List Request
  transport : Option FrameShm
  inStep : Bool
  deriving DecidableEq, Repr

/-- The frame of an `infer` that the bridge answered with ok, and the bytes its backend got. -/
structure Answer where
  frame : List UInt8
  bytes : List UInt8
  deriving DecidableEq, Repr

/-- The bridge serves the first connection; the others wait to be accepted. -/
structure System where
  clients : ℕ → Option Client
  connections : List Connection
  nextConnection : ℕ
  bridge : Bridge
  memory : Memory
  files : Files
  nextSegment : ℕ
  answers : List Answer

end AutoTargeting.Ipc
