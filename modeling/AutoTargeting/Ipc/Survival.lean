import AutoTargeting.Ipc.RunBridge

namespace AutoTargeting.Ipc.RunBridge

open Runs

variable {s s' : State} {c : Client} {e : Event}

def Phase.task : Phase → Option Serving
  | .serving _ p => some p
  | .accepting | .returned | .killed => none

def Phase.Ended (p : Phase) : Prop := p = .returned ∨ p = .killed

@[simp] theorem task_serving (c : Client) (p : Serving) : (Phase.serving c p).task = some p := rfl

@[simp] theorem task_accepting : Phase.accepting.task = none := rfl

@[simp] theorem task_returned : Phase.returned.task = none := rfl

@[simp] theorem task_onClient (f : Client → Client) (p : Phase) : (p.onClient f).task = p.task := by
  cases p <;> rfl

@[simp] theorem ended_serving (c : Client) (p : Serving) : ¬ (Phase.serving c p).Ended := by
  simp [Phase.Ended]

@[simp] theorem ended_accepting : ¬ Phase.accepting.Ended := by simp [Phase.Ended]

@[simp] theorem ended_onClient (f : Client → Client) (p : Phase) :
    (p.onClient f).Ended ↔ p.Ended := by
  cases p <;> simp [Phase.Ended, Phase.onClient]

/-- The server is asked to stop: by a signal, or by a message that it received. -/
def State.Asked (s : State) : Prop := s.signalled = true ∨ ∃ msg ∈ s.received, kind msg = .shutdown

/-- A response is written to a client that is still there. -/
def PeerOpen (s : State) : Event → Prop
  | .write _ =>
    match s.phase with
    | .serving c _ => c.closed = false
    | .accepting | .returned | .killed => True
  | _ => True

instance (s : State) (e : Event) : Decidable (PeerOpen s e) := by
  cases e <;> unfold PeerOpen
  case write => cases s.phase <;> infer_instance
  all_goals infer_instance

/-- The buffer that is asked for is still in the file, and there is memory for its copy. -/
def ShmFrameSource.Holds (src : ShmFrameSource) (index : UInt32) (expected : UInt64) (o : Outside) :
    Prop :=
  index < src.bufferCount → expected ≤ src.frameSize → expected ≠ 0 →
    expected.toNat ≤ o.memory ∧ src.offset index + expected.toNat ≤ o.present

instance (src : ShmFrameSource) (index : UInt32) (expected : UInt64) (o : Outside) :
    Decidable (src.Holds index expected o) := inferInstanceAs (Decidable (_ → _ → _ → _ ∧ _))

/-- The frame of an infer request can be read, if it is to come from the segment. -/
def FrameThere (s : State) : Event → Prop
  | .handle o => ∀ index ∈ o.infer, ∀ src ∈ s.source, src.Holds index s.initSize o
  | _ => True

instance (s : State) (e : Event) : Decidable (FrameThere s e) := by
  cases e <;> unfold FrameThere
  -- not by going through all indices of 32 bits
  case handle o =>
    exact Option.decidableForallMem (p := fun index => ∀ src ∈ s.source, src.Holds index s.initSize o)
      o.infer
  all_goals infer_instance

/-- `load_model` and `infer` of the backend return. -/
def BackendReturns : Event → Prop
  | .handle o => o.loaded ≠ none ∧ o.infers = true
  | _ => True

instance (e : Event) : Decidable (BackendReturns e) := by
  cases e <;> unfold BackendReturns <;> infer_instance

/-- What a message asks for does not end the process. -/
def Returns (s : State) (e : Event) : Prop := FrameThere s e ∧ BackendReturns e

instance (s : State) (e : Event) : Decidable (Returns s e) := inferInstanceAs (Decidable (_ ∧ _))

/-- Neither a write nor a message ends the process. -/
def Unharmed (s : State) (e : Event) : Prop := PeerOpen s e ∧ Returns s e

instance (s : State) (e : Event) : Decidable (Unharmed s e) := inferInstanceAs (Decidable (_ ∧ _))

/-- The messages behind what the server does are among those that it received. -/
structure Sound (s : State) : Prop where
  ended : s.phase.Ended → s.Asked
  handling : ∀ msg, s.phase.task = some (.handling msg) → msg ∈ s.received
  last : ∀ rest, s.phase.task = some (.sending rest true) → ∃ msg ∈ s.received, kind msg = .shutdown

theorem sound_hangUp (s : State) : Sound s.hangUp := by
  unfold State.hangUp
  split
  case isTrue h => exact ⟨fun _ => .inl h, by simp, by simp⟩
  case isFalse => exact ⟨by simp, by simp, by simp⟩

theorem sound_again (s : State) (c : Client) : Sound (s.again c) := by
  unfold State.again
  split
  case isTrue h => exact ⟨fun _ => .inl h, by simp, by simp⟩
  case isFalse => exact ⟨by simp, by simp, by simp⟩

theorem sound_take (s : State) (c : Client) (r : Receiving) (chunk : List UInt8) :
    Sound (s.take c r chunk) := by
  unfold State.take
  split
  · exact ⟨by simp, by simp, by simp⟩
  · exact sound_hangUp s
  · exact ⟨by simp, by simp, by simp⟩

theorem readFrame_ne_crashed {src : ShmFrameSource} {index : UInt32} {expected : UInt64}
    {o : Outside} (h : src.Holds index expected o) : src.readFrame index expected o ≠ .crashed := by
  unfold ShmFrameSource.readFrame
  split_ifs with hindex hsize hzero hcrash
  · exact Reading.noConfusion
  · exact Reading.noConfusion
  · exact Reading.noConfusion
  · have hholds := h (UInt32.not_le.mp hindex) (UInt64.not_lt.mp hsize) hzero
    omega
  · exact Reading.noConfusion

/-- What a message asks for, where it does not end the process: a response, and perhaps another
frame source. -/
theorem handled_returns (c : Client) (msg : List UInt8) {o : Outside}
    (h : Returns s (.handle o)) : ∃ source initSize,
      s.handled c msg o = { s with source, initSize }.again c ∧ kind msg = .unknown ∨
      ∃ text last, s.handled c msg o = { s with source, initSize }.respond c text last ∧
        (last = true → kind msg = .shutdown) := by
  obtain ⟨hframe, hloaded, hinfers⟩ := h
  unfold State.handled
  cases hk : kind msg with
  | init =>
    simp only [State.onInit]
    split
    · exact ⟨s.source, s.initSize, .inr ⟨_, false, rfl, by simp⟩⟩
    · split
      · exact absurd ‹_› hloaded
      · exact ⟨s.source, s.initSize, .inr ⟨_, false, rfl, by simp⟩⟩
      · exact ⟨_, _, .inr ⟨_, false, rfl, by simp⟩⟩
  | infer =>
    simp only [State.onInfer]
    split
    · exact ⟨s.source, s.initSize, .inr ⟨_, false, rfl, by simp⟩⟩
    · rename_i index hindex
      rw [if_neg]
      · exact ⟨s.source, s.initSize, .inr ⟨_, false, rfl, by simp⟩⟩
      · rintro (hcrash | hfails)
        · obtain ⟨src, hsrc, hread⟩ := Option.map_eq_some_iff.mp hcrash
          exact readFrame_ne_crashed (hframe index hindex src hsrc) hread
        · simp [hinfers] at hfails
  | health => exact ⟨s.source, s.initSize, .inr ⟨_, false, rfl, by simp⟩⟩
  | shutdown => exact ⟨s.source, s.initSize, .inr ⟨_, true, rfl, fun _ => rfl⟩⟩
  | unknown => exact ⟨s.source, s.initSize, .inl ⟨rfl, rfl⟩⟩

theorem sound_handled (c : Client) {msg : List UInt8} (hmsg : msg ∈ s.received) {o : Outside}
    (h : Returns s (.handle o)) : Sound (s.handled c msg o) := by
  obtain ⟨source, initSize, ⟨heq, -⟩ | ⟨text, last, heq, hlast⟩⟩ := handled_returns c msg h
  · rw [heq]
    exact sound_again _ c
  · rw [heq]
    refine ⟨by simp [State.respond], by simp [State.respond], fun rest hrest => ⟨msg, hmsg, hlast ?_⟩⟩
    simp only [State.respond, task_serving, Option.some.injEq, Serving.sending.injEq] at hrest
    exact hrest.2

theorem sound_sent (s : State) (c : Client) {last : Bool}
    (hlast : last = true → ∃ msg ∈ s.received, kind msg = .shutdown) : Sound (s.sent c last) := by
  unfold State.sent
  split
  case isTrue h => exact ⟨fun _ => .inr (hlast h), by simp, by simp⟩
  case isFalse => exact sound_again s c

/-- What a client does to its own end changes nothing of this. -/
theorem sound_onClient (h : Sound s) (f : Client → Client) : Sound (s.onClient f) := by
  refine ⟨fun hend => h.ended ?_, fun msg hmsg => h.handling msg ?_, fun rest hrest =>
    h.last rest ?_⟩
  · simpa [State.onClient] using hend
  · simpa [State.onClient] using hmsg
  · simpa [State.onClient] using hrest

inductive Stepped (s : State) : Event → State → Prop
  | connect :
    Stepped s .connect
      { s with waiting := s.waiting ++ [⟨s.nextId, [], false⟩], nextId := s.nextId + 1 }
  | send {id : ℕ} {data : List UInt8} : Stepped s (.send id data) (s.onClient (.on id (.send data)))
  | disconnect {id : ℕ} : Stepped s (.disconnect id) (s.onClient (.on id .disconnect))
  | signal : Stepped s .signal { s with signalled := true }
  | accept {c : Client} {rest : List Client} (hp : s.phase = .accepting)
    (hwaiting : s.waiting = c :: rest) :
    Stepped s .accept { s with phase := .serving c (.receiving .header), waiting := rest }
  | acceptFails (hp : s.phase = .accepting) : Stepped s .acceptFails s.hangUp
  | read {n : ℕ} {c : Client} {r : Receiving} (hp : s.phase = .serving c (.receiving r))
    (hpos : 0 < n) (hcount : n ≤ r.count) (hsent : n ≤ c.sent.length) :
    Stepped s (.read n) (s.take { c with sent := c.sent.drop n } r (c.sent.take n))
  | readEnd {c : Client} {r : Receiving} (hp : s.phase = .serving c (.receiving r))
    (hclosed : c.closed = true) (hsent : c.sent = []) : Stepped s .readEnd (s.take c r [])
  | readFails {c : Client} {r : Receiving} (hp : s.phase = .serving c (.receiving r)) :
    Stepped s .readFails s.hangUp
  | handle {o : Outside} {msg : List UInt8} {c : Client} (hp : s.phase = .serving c (.handling msg)) :
    Stepped s (.handle o) (s.handled c msg o)
  | killed {n : ℕ} {c : Client} {rest : List UInt8} {last : Bool}
    (hp : s.phase = .serving c (.sending rest last)) (hclosed : c.closed = true) :
    Stepped s (.write n) { s with phase := .killed }
  | writePart {n : ℕ} {c : Client} {rest : List UInt8} {last : Bool}
    (hp : s.phase = .serving c (.sending rest last)) (hopen : c.closed = false) (hpos : 0 < n)
    (hmore : n < rest.length) :
    Stepped s (.write n) { s with phase := .serving c (.sending (rest.drop n) last) }
  | writeAll {c : Client} {rest : List UInt8} {last : Bool}
    (hp : s.phase = .serving c (.sending rest last)) (hopen : c.closed = false)
    (hrest : rest ≠ []) :
    Stepped s (.write rest.length) ({ s with answered := s.answered ++ [c.id] }.sent c last)
  | writeFails {c : Client} {rest : List UInt8} {last : Bool}
    (hp : s.phase = .serving c (.sending rest last)) (hopen : c.closed = false) :
    Stepped s .writeFails (s.sent c last)

theorem step_stepped (hs : s.step e = some s') : Stepped s e s' := by
  cases e with
  | connect => cases hs; exact .connect
  | send => cases hs; exact .send
  | disconnect => cases hs; exact .disconnect
  | signal => cases hs; exact .signal
  | accept =>
    simp only [State.step] at hs
    split at hs <;> cases hs
    exact .accept ‹_› ‹_›
  | acceptFails =>
    simp only [State.step] at hs
    split at hs <;> cases hs
    exact .acceptFails ‹_›
  | read n =>
    simp only [State.step] at hs
    split at hs
    case h_1 c r hp =>
      split_ifs at hs with hn
      cases hs
      exact .read hp (by omega) (by omega) (by omega)
    case h_2 => cases hs
  | readEnd =>
    simp only [State.step] at hs
    split at hs
    case h_1 c r hp =>
      split_ifs at hs with hend
      cases hs
      exact .readEnd hp hend.1 hend.2
    case h_2 => cases hs
  | readFails =>
    simp only [State.step] at hs
    split at hs <;> cases hs
    exact .readFails ‹_›
  | handle =>
    simp only [State.step] at hs
    split at hs <;> cases hs
    exact .handle ‹_›
  | write n =>
    simp only [State.step] at hs
    split at hs
    case h_1 c rest last hp =>
      split_ifs at hs with hclosed hn hmore <;> cases hs
      · exact .killed hp hclosed
      · exact .writePart hp (by simpa using hclosed) (by omega) hmore
      · obtain rfl : n = rest.length := by omega
        refine .writeAll hp (by simpa using hclosed) ?_
        rintro rfl
        exact hn (.inl rfl)
    case h_2 => cases hs
  | writeFails =>
    simp only [State.step] at hs
    split at hs
    case h_1 c rest last hp =>
      split_ifs at hs with hclosed
      cases hs
      exact .writeFails hp (by simpa using hclosed)
    case h_2 => cases hs

theorem sound_step (h : Sound s) (hsafe : Unharmed s e) (hs : s.step e = some s') : Sound s' := by
  obtain ⟨hopen, hreturns⟩ := hsafe
  cases step_stepped hs with
  | connect => exact ⟨h.ended, h.handling, h.last⟩
  | send | disconnect => exact sound_onClient h _
  | signal => exact ⟨fun _ => .inl rfl, h.handling, h.last⟩
  | accept => exact ⟨by simp, by simp, by simp⟩
  | acceptFails | readFails => exact sound_hangUp s
  | read | readEnd => exact sound_take ..
  | handle hp => exact sound_handled _ (h.handling _ (by simp [hp])) hreturns
  | killed hp hclosed => simp [PeerOpen, hp, hclosed] at hopen
  | @writePart n c rest last hp =>
    refine ⟨by simp, by simp, fun rest' hrest => ?_⟩
    simp only [task_serving, Option.some.injEq, Serving.sending.injEq] at hrest
    exact h.last rest (by simp [hp, hrest.2])
  | writeAll hp | writeFails hp =>
    apply sound_sent
    rintro rfl
    exact h.last _ (by rw [hp]; rfl)

theorem sound_reachable (h : machine.ReachableBy Unharmed s) : Sound s := by
  refine h.invariant ?_ fun s e s' _ hs hsafe hstep => sound_step hs hsafe hstep
  rintro _ rfl
  exact ⟨by simp [State.start], by simp [State.start], by simp [State.start]⟩

def Event.OfServer : Event → Prop
  | .connect | .send _ _ | .disconnect _ | .signal => False
  | .accept | .acceptFails | .read _ | .readEnd | .readFails | .handle _ | .write _
  | .writeFails => True

def healthText : List UInt8 := ascii "\x7b\"type\":\"health\"\x7d"

/-- An init request with four buffers of this size. -/
def initText (size : String) : List UInt8 :=
  ascii "\x7b\"type\":\"init\",\"model_path\":\"yolo.rknn\",\"input_width\":2,\"input_height\":2," ++
    ascii "\"input_format\":\"rgb24\",\"confidence_threshold\":0.5,\"nms_threshold\":0.5," ++
    ascii "\"frame_shm\":\"/dev/shm/frames\",\"frame_shm_buffers\":4,\"frame_shm_size\":" ++
    ascii size ++ ascii "\x7d"

def inferText : List UInt8 :=
  ascii "\x7b\"type\":\"infer\",\"frame_seq\":1,\"captured_at_ms\":0,\"frame_shm_buf\":1\x7d"

/-- A message of a connection is sent, received and handled, and the response is made. -/
def exchange (id : ℕ) (text : List UInt8) (o : Outside) : List Event :=
  [.send id (message text), .read 4, .read text.length, .handle o]

/-- The client is gone before its response is written. -/
def gone : List Event :=
  [.connect, .accept] ++ exchange 0 healthText { response := [111, 107] } ++
    [.disconnect 0, .write 6]

end AutoTargeting.Ipc.RunBridge
