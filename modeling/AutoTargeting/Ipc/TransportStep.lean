import AutoTargeting.Ipc.Transport

namespace AutoTargeting.Ipc

/-- `k` names a client object. `created` and `opened` are whether the system calls on a segment
succeed, `left` is what a failed `create` leaves under the path, `sent` whether the whole request
reaches the connection. -/
inductive Event
  | start (k : ℕ) (config : ClientConfig)
  | init (k : ℕ) (created : Bool) (left : Option (ℕ × ℕ)) (sent : Bool)
  | initAck (k : ℕ)
  | infer (k : ℕ) (data : List UInt8) (sent : Bool)
  | drop (k : ℕ) (sent : Bool)
  | crash (k : ℕ)
  | handle (loaded opened : Bool)
  | hangUp
  | restart

/-- The request at the end of the connection with this id. -/
def pushTo (id : ℕ) (r : Request) (conn : Connection) : Connection :=
  if conn.id = id then { conn with queue := conn.queue ++ [r] } else conn

namespace System

def start : System := ⟨fun _ => none, [], 0, .start, fun _ _ => 0, fun _ => none, 0, []⟩

def setClient (s : System) (k : ℕ) (c : Option Client) : System :=
  { s with clients := Function.update s.clients k c }

/-- The request on the client's stream. -/
def send (s : System) (c : Client) (r : Request) (sent : Bool) : System :=
  match c.stream with
  | some id => if sent then { s with connections := s.connections.map (pushTo id r) } else s
  | none => s

/-- The first part of `init`: with a path, the file is removed and the segment created. -/
def prepareShm (s : System) (c : Client) (created : Bool) (left : Option (ℕ × ℕ)) :
    System × Client × Option Announcement :=
  match c.wantsShm with
  | none => (s, c, none)
  | some path =>
    match c.createShm path s.nextSegment created with
    | some shm =>
      ({ s with
          files := Function.update s.files path (some (s.nextSegment, shm.buffers * shm.frameSize))
          memory := Function.update s.memory s.nextSegment fun _ => 0
          nextSegment := s.nextSegment + 1 },
        { c with frameShm := some shm }, some shm.announcement)
    | none =>
      ({ s with files := Function.update s.files path left },
        { c with config := { c.config with frameShm := none } }, none)

/-- The new connection of `init`, with its init request. -/
def connect (s : System) (k : ℕ) (c : Client) (ann : Option Announcement) (sent : Bool) : System :=
  { s.setClient k (some { c with stream := some s.nextConnection }) with
    connections := s.connections ++
      [⟨s.nextConnection, if sent then [.init ann] else [], c.frameShm, false⟩]
    nextConnection := s.nextConnection + 1 }

/-- `init`, up to its response. -/
def init (s : System) (k : ℕ) (c : Client) (created : Bool) (left : Option (ℕ × ℕ)) (sent : Bool) :
    System :=
  let (s, c, ann) := s.prepareShm c created left
  s.connect k c ann sent

/-- `infer`, up to its response. -/
def infer (s : System) (k : ℕ) (c : Client) (data : List UInt8) (sent : Bool) : System :=
  if !c.initialized then s
  else
    match c.frameShm with
    | some shm =>
      let index := c.shmBufCursor % shm.buffers
      let c := { c with shmBufCursor := (c.shmBufCursor + 1) % 2 ^ 32 }
      let s := s.setClient k (some c)
      match shm.writeFrame s.memory index data with
      | none => s
      | some memory => { s with memory }.send c (.infer (.buffer index) data) sent
    | none => s.send c (.infer (.base64 (base64Encode data)) data) sent

/-- `Drop` of the client, and then of its segment. -/
def drop (s : System) (k : ℕ) (c : Client) (sent : Bool) : System :=
  let s := if c.initialized then s.send c .shutdown sent else s
  let s := match c.frameShm with
    | some shm => { s with files := Function.update s.files shm.path none }
    | none => s
  s.setClient k none

/-- One turn of `run_bridge`: the first request of the connection it serves. -/
def handle (s : System) (loaded opened : Bool) : Option System :=
  match s.connections with
  | [] => none
  | conn :: rest =>
    match conn.queue with
    | [] => none
    | .init ann :: queue =>
      let inStep := decide (s.bridge.InStep s.files conn.transport ann loaded opened)
      some { s with
        bridge := s.bridge.onInit s.files ann loaded opened
        connections := { conn with queue, inStep } :: rest }
    | .infer ref frame :: queue =>
      some { s with
        connections := { conn with queue } :: rest
        answers := s.answers ++ [⟨frame, s.bridge.frameData s.memory ref⟩] }
    | .shutdown :: _ => some { s with bridge := .start, connections := [] }

/-- One event. A segment of a crashed client keeps its file. -/
def step (s : System) : Event → Option System
  | .start k config =>
    match s.clients k with
    | none => some (s.setClient k (some (.new config)))
    | some _ => none
  | .init k created left sent => (s.clients k).map fun c => s.init k c created left sent
  | .initAck k => (s.clients k).map fun c => s.setClient k (some { c with initialized := true })
  | .infer k data sent => (s.clients k).map fun c => s.infer k c data sent
  | .drop k sent => (s.clients k).map fun c => s.drop k c sent
  | .crash k => some (s.setClient k none)
  | .handle loaded opened => s.handle loaded opened
  | .hangUp =>
    match s.connections with
    | [] => none
    | _ :: rest => some { s with connections := rest }
  | .restart => some { s with bridge := .start, connections := [] }

end System

/-- The request hands over a frame that is not empty. -/
def Request.HasFrame : Request → Prop
  | .infer _ frame => frame ≠ []
  | _ => False

/-- The request has its frame in this buffer, and `data` in its place changes the frame. -/
def Request.Clashes (index : ℕ) (data : List UInt8) : Request → Prop
  | .infer (.buffer i) frame => i = index ∧ ¬ (frame <+: data ∨ data <+: frame)
  | _ => False

/-- `data` in this buffer changes the frame of a request that the bridge has yet to handle. -/
def System.Overwrites (s : System) (segment index : ℕ) (data : List UInt8) : Prop :=
  ∃ conn ∈ s.connections, (∃ shm ∈ conn.transport, shm.segment = segment) ∧
    ∃ r ∈ conn.queue, r.Clashes index data

/-- The bridge handles frames only of a connection that its init left in step, and no client
overwrites a frame that the bridge has yet to handle. -/
def System.KeepsStep (s : System) : Event → Prop
  | .infer k data _ => ∀ c ∈ s.clients k, c.initialized = true → ∀ shm ∈ c.frameShm,
      data.length ≤ shm.frameSize →
        ¬ s.Overwrites shm.segment (c.shmBufCursor % shm.buffers) data
  | .handle _ _ => ∀ conn ∈ s.connections.head?, ∀ r ∈ conn.queue.head?,
      r.HasFrame → conn.inStep = true
  | _ => True

instance : (r : Request) → Decidable r.HasFrame
  | .infer _ frame => inferInstanceAs (Decidable (frame ≠ []))
  | .init _ | .shutdown => inferInstanceAs (Decidable False)

instance (index : ℕ) (data : List UInt8) : (r : Request) → Decidable (r.Clashes index data)
  | .infer (.buffer i) frame =>
    inferInstanceAs (Decidable (i = index ∧ ¬ (frame <+: data ∨ data <+: frame)))
  | .infer (.base64 _) _ | .init _ | .shutdown => inferInstanceAs (Decidable False)

instance (s : System) (segment index : ℕ) (data : List UInt8) :
    Decidable (s.Overwrites segment index data) :=
  inferInstanceAs (Decidable (∃ conn ∈ s.connections,
    (∃ shm ∈ conn.transport, shm.segment = segment) ∧ ∃ r ∈ conn.queue, r.Clashes index data))

instance (s : System) : (e : Event) → Decidable (s.KeepsStep e)
  | .infer k data _ => inferInstanceAs (Decidable (∀ c ∈ s.clients k, c.initialized = true →
      ∀ shm ∈ c.frameShm, data.length ≤ shm.frameSize →
        ¬ s.Overwrites shm.segment (c.shmBufCursor % shm.buffers) data))
  | .handle _ _ => inferInstanceAs (Decidable (∀ conn ∈ s.connections.head?,
      ∀ r ∈ conn.queue.head?, r.HasFrame → conn.inStep = true))
  | .start _ _ | .init _ _ _ _ | .initAck _ | .drop _ _ | .crash _ | .hangUp | .restart =>
    inferInstanceAs (Decidable True)

end AutoTargeting.Ipc
