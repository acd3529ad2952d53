import AutoTargeting.Library.Machine
import AutoTargeting.Library.WordStore
import AutoTargeting.Ring.Segment

-- Named segments: the objects in `/dev/shm`, and the processes that create, attach to and remove
-- them.

namespace AutoTargeting.Ring

open Bytes Runs

def segmentPath (name : String) : String := "/dev/shm/" ++ name

/-- What `create_shared` and `attach_shared` return as `RingError`. -/
inductive ShmError
  | ring (e : RingError)
  | shm (message : String)
  | segmentExists (name : String)
  | attachFailed (message : String)
  deriving DecidableEq, Repr

/-- A call of `create_shared`, with the clock and the pid that its header gets. -/
structure CreateCall where
  name : String
  config : CheckedConfig
  createdNs : UInt64
  pid : UInt32

def createShared (name : String) (cfg : RingConfig) (createdNs : UInt64) (pid : UInt32) :
    Except ShmError CreateCall :=
  match h : cfg.validate with
  | .error e => .error (.ring e)
  | .ok () =>
    if '\x00' ∈ name.toList then .error (.ring (.invalidConfig "name contains NUL"))
    else .ok ⟨name, ⟨cfg, h⟩, createdNs, pid⟩

namespace CreateCall

variable (c : CreateCall)

def len : ℕ := segmentSize c.config.capacity c.config.frameSize

/-- The stores of `write_header_init`, in their order: offset, width, value. -/
def headerWrites : List (ℕ × ℕ × ℕ) :=
  [(4, 2, layoutVersion), (8, 4, c.config.capacity), (12, 4, c.config.width),
    (16, 4, c.config.height), (20, 4, c.config.format.code), (24, 4, c.config.frameSize),
    (32, 8, 0), (40, 8, 0), (48, 8, c.createdNs.toNat), (56, 4, c.pid.toNat), (0, 4, magic)]

def prepared (k : ℕ) : List UInt8 :=
  (c.headerWrites.take k).foldl (fun memory w => store memory w.1 w.2.1 w.2.2)
    (List.replicate c.len 0)

end CreateCall

/-- Where `create_shared` is: before its operation of this name, or with its result. The last
ones are of the producer that it returned. -/
inductive CreatorPc
  | idle
  | opening
  | ftruncate
  | mmap
  | header (written : ℕ)
  | created
  | dropped
  | returned (e : ShmError)
  | dead
  deriving DecidableEq

/-- Where `attach_shared` is, with what it has read so far. The object that it opened is named
after the call that created it. -/
inductive AttacherPc
  | idle
  | opening
  | fstat (object : ℕ)
  | mmap (object len : ℕ)
  | magic (object len : ℕ)
  | version (object len : ℕ)
  | capacity (object len : ℕ)
  | frameSize (object len capacity : ℕ)
  | attached (object : ℕ) (r : RegionView)
  | returned (e : ShmError)
  | gone
  deriving DecidableEq

/-- `dir` leads from names to objects. An object has the number of the call that created it, and
stays as long as it is mapped. -/
structure Shm where
  dir : String → Option ℕ
  memory : ℕ → List UInt8
  creator : ℕ → CreatorPc
  attacher : ℕ → AttacherPc

/-- `e` is the text of a system error. -/
inductive ShmEvent
  | create (i : ℕ)
  | creatorStep (i : ℕ)
  | creatorFails (i : ℕ) (e : String)
  | creatorDies (i : ℕ)
  | drop (i : ℕ)
  | attach (j : ℕ)
  | attacherStep (j : ℕ)
  | attacherFails (j : ℕ) (e : String)
  | detach (j : ℕ)
  | removeSegment (name : String)
  | use (i : ℕ) (memory : List UInt8)
  deriving DecidableEq

namespace Shm

variable (call : ℕ → CreateCall) (asked : ℕ → String) (s : Shm)

def setCreator (i : ℕ) (pc : CreatorPc) : Shm :=
  { s with creator := Function.update s.creator i pc }

def setAttacher (j : ℕ) (pc : AttacherPc) : Shm :=
  { s with attacher := Function.update s.attacher j pc }

def setMemory (i : ℕ) (memory : List UInt8) : Shm :=
  { s with memory := Function.update s.memory i memory }

def link (name : String) (i : ℕ) : Shm :=
  { s with dir := Function.update s.dir name (some i) }

/-- `unlink`, whatever the name leads to. -/
def unlink (name : String) : Shm :=
  { s with dir := Function.update s.dir name none }

/-- The next operation of `create_shared`, where it does what it is asked for. -/
def creatorStep (i : ℕ) : Option Shm :=
  let c := call i
  match s.creator i with
  | .opening =>
    match s.dir c.name with
    | some _ => some (s.setCreator i (.returned (.segmentExists c.name)))
    | none => some ((s.link c.name i).setCreator i .ftruncate)
  | .ftruncate => some ((s.setMemory i (List.replicate c.len 0)).setCreator i .mmap)
  | .mmap => some (s.setCreator i (.header 0))
  | .header k =>
    match c.headerWrites[k]? with
    | none => none
    | some w =>
      let s := s.setMemory i (store (s.memory i) w.1 w.2.1 w.2.2)
      some (s.setCreator i
        (if k + 1 = c.headerWrites.length then .created else .header (k + 1)))
  | _ => none

/-- The same where it fails. Only a failed `ftruncate` takes the name away again. -/
def creatorFails (i : ℕ) (e : String) : Option Shm :=
  let c := call i
  match s.creator i with
  | .opening => some (s.setCreator i (.returned (.shm s!"open({segmentPath c.name}): {e}")))
  | .ftruncate => some ((s.unlink c.name).setCreator i (.returned (.shm s!"ftruncate: {e}")))
  | .mmap => some (s.setCreator i (.returned (.shm s!"mmap: {e}")))
  | _ => none

def creatorDies (i : ℕ) : Option Shm :=
  match s.creator i with
  | .opening | .ftruncate | .mmap | .header _ | .created => some (s.setCreator i .dead)
  | _ => none

/-- `teardown_mapped` for the last holder in the producer's process. -/
def drop (i : ℕ) : Option Shm :=
  match s.creator i with
  | .created => some ((s.unlink (call i).name).setCreator i .dropped)
  | _ => none

/-- The next operation of `attach_shared`; `attach_raw` reads the header word by word. -/
def attacherStep (j : ℕ) : Option Shm :=
  let fails (message : String) := some (s.setAttacher j (.returned (.attachFailed message)))
  match s.attacher j with
  | .opening => (s.dir (asked j)).map fun i => s.setAttacher j (.fstat i)
  | .fstat i =>
    let len := (s.memory i).length
    if len = 0 then fails "segment has zero length" else some (s.setAttacher j (.mmap i len))
  | .mmap i len =>
    if len < sizeOfBufferHeader then fails "segment shorter than header"
    else some (s.setAttacher j (.magic i len))
  | .magic i len =>
    if word (s.memory i) 0 4 ≠ Ring.magic then fails "bad magic"
    else some (s.setAttacher j (.version i len))
  | .version i len =>
    let version := word (s.memory i) 4 2
    if version ≠ layoutVersion then fails s!"layout version {version} != {layoutVersion}"
    else some (s.setAttacher j (.capacity i len))
  | .capacity i len => some (s.setAttacher j (.frameSize i len (word (s.memory i) 8 4)))
  | .frameSize i len capacity =>
    let frameSize := word (s.memory i) 24 4
    if capacity = 0 ∨ 4096 < capacity then fails "bad capacity"
    else if len ≠ segmentSize capacity frameSize then
      fails s!"segment len {len} != expected {segmentSize capacity frameSize}"
    else some (s.setAttacher j (.attached i ⟨len, capacity, frameSize⟩))
  | _ => none

def attacherFails (j : ℕ) (e : String) : Option Shm :=
  let fails (message : String) := some (s.setAttacher j (.returned (.attachFailed message)))
  match s.attacher j with
  | .opening => fails s!"open {segmentPath (asked j)}: {e}"
  | .fstat _ => fails s!"fstat: {e}"
  | .mmap _ _ => fails s!"mmap: {e}"
  | _ => none

/-- An attacher that dies or drops its mapping. -/
def detach (j : ℕ) : Option Shm :=
  match s.attacher j with
  | .idle | .returned _ | .gone => none
  | _ => some (s.setAttacher j .gone)

/-- What the ring writes once the magic is there leaves the words in front of `write_seq`. -/
def use (i : ℕ) (memory : List UInt8) : Option Shm :=
  if word (s.memory i) 0 4 = Ring.magic ∧ memory.length = (s.memory i).length ∧
      memory.take 32 = (s.memory i).take 32 then
    some (s.setMemory i memory)
  else none

def step (s : Shm) : ShmEvent → Option Shm
  | .create i => if s.creator i = .idle then some (s.setCreator i .opening) else none
  | .creatorStep i => s.creatorStep call i
  | .creatorFails i e => s.creatorFails call i e
  | .creatorDies i => s.creatorDies i
  | .drop i => s.drop call i
  | .attach j => if s.attacher j = .idle then some (s.setAttacher j .opening) else none
  | .attacherStep j => s.attacherStep asked j
  | .attacherFails j e => s.attacherFails asked j e
  | .detach j => s.detach j
  | .removeSegment name => some (s.unlink name)
  | .use i memory => s.use i memory

def empty : Shm := ⟨fun _ => none, fun _ => [], fun _ => .idle, fun _ => .idle⟩

end Shm

/-- Any number of calls, each of which may begin at any time, or never. -/
def shmMachine (call : ℕ → CreateCall) (asked : ℕ → String) : Machine Shm ShmEvent where
  Init s := s = Shm.empty
  step := Shm.step call asked

end AutoTargeting.Ring
