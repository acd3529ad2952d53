import AutoTargeting.Ipc.InitRequest
import AutoTargeting.Ipc.ReceiveMessage
import AutoTargeting.Library.Machine
import Mathlib.Data.List.Infix

namespace AutoTargeting.Ipc.RunBridge

/-- What `run_bridge` takes a message for, by the first of these fields in it. -/
inductive Kind
  | init
  | infer
  | health
  | shutdown
  | unknown
  deriving DecidableEq, Repr

def kind (msg : List UInt8) : Kind :=
  if ascii "\"type\":\"init\"" <:+: msg then .init
  else if ascii "\"type\":\"infer\"" <:+: msg then .infer
  else if ascii "\"type\":\"health\"" <:+: msg then .health
  else if ascii "\"type\":\"shutdown\"" <:+: msg then .shutdown
  else .unknown

def shutdownAck : List UInt8 := ascii "\x7b\"type\":\"shutdown_ack\"\x7d"

/-- What `parse_init_request` finds of the segment for the frames. -/
structure FrameShmRequest where
  path : List UInt8
  buffers : UInt32
  size : UInt64
  deriving DecidableEq, Repr

/-- What `run_bridge` meets while it handles a message: what the parsers make of the text (`infer`
is `frame_shm_buf`), what the backend does and what the system does. `loaded` is the result of
`load_model`, and none where it does not return (a model file as large as `ftell` says of a
directory); `infers` is whether `infer` returns. `file` is the size of the file at the path, where
it can be opened and mapped; `present` is how many bytes of the mapping are still in the file, and
`memory` how many can be allocated. -/
structure Outside where
  init : Option FrameShmRequest := none
  infer : Option UInt32 := none
  loaded : Option Bool := some true
  infers : Bool := true
  file : Option ℕ := none
  present : ℕ := 0
  memory : ℕ := 0
  response : List UInt8 := []
  deriving DecidableEq, Repr

/-- `ShmFrameSource` while it has a mapping. -/
structure ShmFrameSource where
  bufferCount : UInt32
  frameSize : UInt64
  deriving DecidableEq, Repr

/-- `ShmFrameSource::open`: its first check comes before the old mapping is closed. The product is
one of 64 bits. -/
def ShmFrameSource.open (old : Option ShmFrameSource) (req : FrameShmRequest) (file : Option ℕ) :
    Option ShmFrameSource :=
  if req.buffers = 0 ∨ req.size = 0 then old
  else
    match file with
    | none => none
    | some size =>
      if size = 0 ∨ size < (req.buffers.toUInt64 * req.size).toNat then none
      else some ⟨req.buffers, req.size⟩

inductive Reading
  | error
  | copied
  | crashed
  deriving DecidableEq, Repr

namespace ShmFrameSource

def offset (src : ShmFrameSource) (index : UInt32) : ℕ := (index.toUInt64 * src.frameSize).toNat

/-- `read_frame`. Nothing catches what the copy throws where it gets no memory, and reading what
is not in the file any more is answered by SIGBUS. -/
def readFrame (src : ShmFrameSource) (index : UInt32) (expected : UInt64) (o : Outside) : Reading :=
  if src.bufferCount ≤ index then .error
  else if src.frameSize < expected then .error
  else if expected = 0 then .copied
  else if o.memory < expected.toNat ∨ o.present < src.offset index + expected.toNat then .crashed
  else .copied

end ShmFrameSource

/-- A connection, from the server's side: what the client sent and the server has not read, and
whether the client closed its end or was killed. -/
structure Client where
  id : ℕ
  sent : List UInt8
  closed : Bool
  deriving DecidableEq, Repr

/-- What the server does for its client: it is in `receive_message` before a `read`, has a
message, or is in `send_response` with these bytes left. After the last response it ends. -/
inductive Serving
  | receiving (r : Receiving)
  | handling (msg : List UInt8)
  | sending (rest : List UInt8) (last : Bool)
  deriving DecidableEq, Repr

/-- Where `run_bridge` is: in `accept`, with a client, back from its loop, or killed. -/
inductive Phase
  | accepting
  | serving (client : Client) (p : Serving)
  | returned
  | killed
  deriving DecidableEq, Repr

/-- The server with the connections that wait for it. `signalled` is `g_should_stop`, `source` and
`initSize` are the frame source and the frame size of the last init. The rest is what an onlooker
sees: the messages that it received, and the client of each response. -/
structure State where
  phase : Phase
  waiting : List Client
  nextId : ℕ
  signalled : Bool
  source : Option ShmFrameSource
  initSize : UInt64
  received : List (List UInt8)
  answered : List ℕ
  deriving DecidableEq, Repr

/-- The steps of the clients (the first three), of the system, and of the server. -/
inductive Event
  | connect
  | send (id : ℕ) (data : List UInt8)
  | disconnect (id : ℕ)
  | signal
  | accept
  | acceptFails
  | read (n : ℕ)
  | readEnd
  | readFails
  | handle (outside : Outside)
  | write (n : ℕ)
  | writeFails
  deriving DecidableEq, Repr

namespace Client

def on (id : ℕ) (f : Client → Client) (c : Client) : Client := if c.id = id then f c else c

def send (data : List UInt8) (c : Client) : Client :=
  if c.closed then c else { c with sent := c.sent ++ data }

def disconnect (c : Client) : Client := { c with closed := true }

end Client

def Phase.onClient (f : Client → Client) : Phase → Phase
  | .serving c p => .serving (f c) p
  | .accepting => .accepting
  | .returned => .returned
  | .killed => .killed

namespace State

def start : State := ⟨.accepting, [], 0, false, none, 0, [], []⟩

def onClient (s : State) (f : Client → Client) : State :=
  { s with phase := s.phase.onClient f, waiting := s.waiting.map f }

/-- `receive_message` returned nothing, and there is no client any more. -/
def hangUp (s : State) : State :=
  { s with phase := if s.signalled then .returned else .accepting }

/-- The loop starts over with the same client. -/
def again (s : State) (c : Client) : State :=
  { s with phase := if s.signalled then .returned else .serving c (.receiving .header) }

/-- A `read` of `receive_message` returned `chunk`. -/
def take (s : State) (c : Client) (r : Receiving) (chunk : List UInt8) : State :=
  match r.read chunk with
  | .more r' => { s with phase := .serving c (.receiving r') }
  | .closed => s.hangUp
  | .message msg =>
    { s with phase := .serving c (.handling msg), received := s.received ++ [msg] }

def respond (s : State) (c : Client) (text : List UInt8) (last : Bool) : State :=
  { s with phase := .serving c (.sending (message text) last) }

/-- The process ends where it is. -/
def crash (s : State) : State := { s with phase := .killed }

def onInit (s : State) (c : Client) (o : Outside) : State :=
  match o.init with
  | none => s.respond c o.response false
  | some req =>
    match o.loaded with
    | none => s.crash
    | some false => s.respond c o.response false
    | some true =>
      { s with
        source := if req.path = [] then s.source else ShmFrameSource.open s.source req o.file
        initSize := req.size }.respond c o.response false

/-- Where `read_frame` has an error, the frame is the one in the message. -/
def onInfer (s : State) (c : Client) (o : Outside) : State :=
  match o.infer with
  | none => s.respond c o.response false
  | some index =>
    if s.source.map (·.readFrame index s.initSize o) = some .crashed ∨ o.infers = false then s.crash
    else s.respond c o.response false

def handled (s : State) (c : Client) (msg : List UInt8) (o : Outside) : State :=
  match kind msg with
  | .init => s.onInit c o
  | .infer => s.onInfer c o
  | .health => s.respond c o.response false
  | .shutdown => s.respond c shutdownAck true
  | .unknown => s.again c

def sent (s : State) (c : Client) (last : Bool) : State :=
  if last then { s with phase := .returned } else s.again c

def step (s : State) : Event → Option State
  | .connect =>
    some { s with waiting := s.waiting ++ [⟨s.nextId, [], false⟩], nextId := s.nextId + 1 }
  | .send id data => some (s.onClient (.on id (.send data)))
  | .disconnect id => some (s.onClient (.on id .disconnect))
  | .signal => some { s with signalled := true }
  | .accept =>
    match s.phase, s.waiting with
    | .accepting, c :: rest =>
      some { s with phase := .serving c (.receiving .header), waiting := rest }
    | _, _ => none
  | .acceptFails => if s.phase = .accepting then some s.hangUp else none
  | .read n =>
    match s.phase with
    | .serving c (.receiving r) =>
      if n = 0 ∨ r.count < n ∨ c.sent.length < n then none
      else some (s.take { c with sent := c.sent.drop n } r (c.sent.take n))
    | _ => none
  | .readEnd =>
    match s.phase with
    | .serving c (.receiving r) =>
      if c.closed ∧ c.sent = [] then some (s.take c r []) else none
    | _ => none
  | .readFails =>
    match s.phase with
    | .serving _ (.receiving _) => some s.hangUp
    | _ => none
  | .handle o =>
    match s.phase with
    | .serving c (.handling msg) => some (s.handled c msg o)
    | _ => none
  | .write n =>
    match s.phase with
    | .serving c (.sending rest last) =>
      -- no handler for SIGPIPE, and no MSG_NOSIGNAL
      if c.closed then some { s with phase := .killed }
      else if n = 0 ∨ rest.length < n then none
      else if n < rest.length then
        some { s with phase := .serving c (.sending (rest.drop n) last) }
      else some ({ s with answered := s.answered ++ [c.id] }.sent c last)
    | _ => none
  | .writeFails =>
    match s.phase with
    | .serving c (.sending _ last) => if c.closed then none else some (s.sent c last)
    | _ => none

end State

def machine : Runs.Machine State Event where
  Init s := s = .start
  step := State.step

end AutoTargeting.Ipc.RunBridge
