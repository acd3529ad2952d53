import AutoTargeting.Ipc.Framing
import AutoTargeting.Library.Machine

namespace AutoTargeting.Ipc

/-- What the client reads from the text of a response: whether an `init_ack` is ok, and the
detections of an `infer_ack` that is ok. -/
structure Responses (δ : Type*) where
  initOk : List UInt8 → Bool
  detections : List UInt8 → Option (List δ)

/-- A detection with the `frame_seq` that `infer` sets. -/
structure Detection (δ : Type*) where
  json : δ
  frameSeq : ℕ
  deriving DecidableEq, Repr

inductive Purpose
  | init
  | infer (frameSeq : ℕ)
  deriving DecidableEq, Repr

/-- A `send_recv` under way: its text, and how many requests the bridge had served before it. -/
structure Call where
  purpose : Purpose
  text : List UInt8
  since : ℕ
  deriving DecidableEq, Repr

/-- The place of the client in `send_recv`: the bytes still to write, or those already read of
the length and of the response. -/
inductive Phase
  | idle
  | writing (call : Call) (rest : List UInt8)
  | readingLength (call : Call) (got : List UInt8)
  | readingData (call : Call) (len : ℕ) (got : List UInt8)
  deriving DecidableEq, Repr

inductive Receiver
  | header
  | body (len : ℕ) (got : List UInt8)
  | closed
  deriving DecidableEq, Repr

/-- A request that the bridge served, and its response. -/
structure Served where
  request : List UInt8
  response : List UInt8
  deriving DecidableEq, Repr

/-- An `infer` that returned `Ok`. -/
structure Inferred (δ : Type*) where
  frameSeq : ℕ
  request : List UInt8
  since : ℕ
  detections : List (Detection δ)
  deriving DecidableEq, Repr

/-- A client, its current stream in both directions, and the bridge's end of it. `spoiled` is
whether a `send_recv` on this stream ended before its response was read whole; no code reads it. -/
structure Session (δ : Type*) where
  phase : Phase
  initialized : Bool
  spoiled : Bool
  toBridge : List UInt8
  toClient : List UInt8
  receiver : Receiver
  served : List Served
  results : List (Inferred δ)
  deriving DecidableEq, Repr

/-- The steps. `write`, `read`, `receive` and `receiveBody` move this many bytes; `fail` is a
timeout or another error of the call under way, and `close` one of the bridge, or its end. -/
inductive Step
  | init (text : List UInt8)
  | infer (frameSeq : ℕ) (text : List UInt8)
  | write (n : ℕ)
  | read (n : ℕ)
  | fail
  | receive (n : ℕ)
  | receiveBody (n : ℕ)
  | answer (response : List UInt8)
  | ignore
  | close
  deriving DecidableEq, Repr

variable {δ : Type*}

namespace Session

def new : Session δ := ⟨.idle, false, false, [], [], .closed, [], []⟩

def begin (s : Session δ) (purpose : Purpose) (text : List UInt8) : Session δ :=
  { s with phase := .writing ⟨purpose, text, s.served.length⟩ (message text) }

/-- `init` up to its `send_recv`: a new stream takes the place of the old one. -/
def connect (s : Session δ) : Session δ :=
  { s with spoiled := false, toBridge := [], toClient := [], receiver := .header }

/-- An error of `send_recv`; the stream stays as it is. -/
def abandon (s : Session δ) : Session δ := { s with phase := .idle, spoiled := true }

/-- `send_recv` has read the response: the rest of `init` and of `infer`. -/
def finish (R : Responses δ) (s : Session δ) (call : Call) (response : List UInt8) : Session δ :=
  match call.purpose with
  | .init => { s with phase := .idle, initialized := s.initialized || R.initOk response }
  | .infer frameSeq =>
    match R.detections response with
    | none => { s with phase := .idle }
    | some dets =>
      { s with
        phase := .idle
        results := s.results ++
          [⟨frameSeq, call.text, call.since, dets.map fun d => ⟨d, frameSeq⟩⟩] }

/-- `read_exact` of the response, with the limit of 10 MB. -/
def readData (R : Responses δ) (s : Session δ) (call : Call) (len : ℕ) (got : List UInt8) :
    Session δ :=
  if got.length = len then s.finish R call got
  else { s with phase := .readingData call len got }

def readLength (R : Responses δ) (s : Session δ) (call : Call) (got : List UInt8) : Session δ :=
  if got.length = 4 then
    if 10000000 < fromBeBytes got then s.abandon
    else s.readData R call (fromBeBytes got) []
  else { s with phase := .readingLength call got }

/-- How many bytes a `read` can still take. -/
def wanted (s : Session δ) : ℕ :=
  match s.phase with
  | .readingLength _ got => 4 - got.length
  | .readingData _ len got => len - got.length
  | _ => 0

/-- One `read` of the client takes `n` bytes. -/
def read (R : Responses δ) (s : Session δ) (n : ℕ) : Option (Session δ) :=
  if n = 0 ∨ s.wanted < n ∨ s.toClient.length < n then none
  else
    let s' := { s with toClient := s.toClient.drop n }
    match s.phase with
    | .readingLength call got => some (s'.readLength R call (got ++ s.toClient.take n))
    | .readingData call len got => some (s'.readData R call len (got ++ s.toClient.take n))
    | _ => none

/-- One `write` of the client. -/
def write (s : Session δ) (n : ℕ) : Option (Session δ) :=
  match s.phase with
  | .writing call rest =>
    if n = 0 ∨ rest.length < n then none
    else
      let phase := if n = rest.length then .readingLength call [] else .writing call (rest.drop n)
      some { s with toBridge := s.toBridge ++ rest.take n, phase }
  | _ => none

/-- The one `read` of a length in `receive_message`: fewer than four bytes close the connection,
and so does a length of 0 or beyond 64 MiB. -/
def receive (s : Session δ) (n : ℕ) : Option (Session δ) :=
  if n = 0 ∨ 4 < n ∨ s.toBridge.length < n then none
  else
    match s.receiver with
    | .header =>
      let len := fromBeBytes (s.toBridge.take n)
      let receiver := if n ≠ 4 ∨ len = 0 ∨ 64 * 1024 * 1024 < len then .closed else .body len []
      some { s with toBridge := s.toBridge.drop n, receiver }
    | _ => none

def receiveBody (s : Session δ) (n : ℕ) : Option (Session δ) :=
  match s.receiver with
  | .body len got =>
    if n = 0 ∨ len - got.length < n ∨ s.toBridge.length < n then none
    else some { s with
      toBridge := s.toBridge.drop n
      receiver := .body len (got ++ s.toBridge.take n) }
  | _ => none

/-- `run_bridge` handles the text it received and sends the response; `none` is a message that
gets no response. -/
def handled (s : Session δ) (response : Option (List UInt8)) : Option (Session δ) :=
  match s.receiver with
  | .body len got =>
    if got.length = len then
      match response with
      | none => some { s with receiver := .header }
      | some text =>
        some { s with
          receiver := .header
          served := s.served ++ [⟨got, text⟩]
          toClient := s.toClient ++ message text }
    else none
  | _ => none

def step (R : Responses δ) (s : Session δ) : Step → Option (Session δ)
  | .init text => if s.phase = .idle then some (s.connect.begin .init text) else none
  | .infer frameSeq text =>
    if s.phase = .idle ∧ s.initialized = true then some (s.begin (.infer frameSeq) text) else none
  | .write n => s.write n
  | .read n => s.read R n
  | .fail => if s.phase = .idle then none else some s.abandon
  | .receive n => s.receive n
  | .receiveBody n => s.receiveBody n
  | .answer text => s.handled (some text)
  | .ignore => s.handled none
  | .close => some { s with receiver := .closed }

end Session

def sessionMachine (R : Responses δ) : Runs.Machine (Session δ) Step where
  Init s := s = .new
  step := Session.step R

/-- No `infer` uses a stream on which an earlier call ended before its response was read whole,
and lengths fit their prefix. -/
def Session.Fresh (s : Session δ) : Step → Prop
  | .init text => text.length < 2 ^ 32
  | .infer _ text => s.spoiled = false ∧ text.length < 2 ^ 32
  | .answer text => text.length < 2 ^ 32
  | _ => True

instance (s : Session δ) : (e : Step) → Decidable (s.Fresh e)
  | .init text | .answer text => inferInstanceAs (Decidable (text.length < 2 ^ 32))
  | .infer _ text => inferInstanceAs (Decidable (s.spoiled = false ∧ text.length < 2 ^ 32))
  | .write _ | .read _ | .fail | .receive _ | .receiveBody _ | .ignore | .close =>
    inferInstanceAs (Decidable True)

end AutoTargeting.Ipc
