import AutoTargeting.Ipc.Survival

namespace AutoTargeting.Ipc.RunBridge

/-- The connection that the server has for its client. -/
def Phase.client : Phase → Option ℕ
  | .serving c _ => some c.id
  | .accepting | .returned | .killed => none

/-- The server has not closed this connection. -/
def State.Open (s : State) (id : ℕ) : Prop :=
  s.phase.client = some id ∨ ¬ s.phase.Ended ∧ id ∈ s.waiting.map Client.id

instance (p : Phase) : Decidable p.Ended := inferInstanceAs (Decidable (_ ∨ _))

instance (s : State) (id : ℕ) : Decidable (s.Open id) := inferInstanceAs (Decidable (_ ∨ _))

instance (e : Event) : Decidable e.OfServer :=
  match e with
  | .connect | .send _ _ | .disconnect _ | .signal => inferInstanceAs (Decidable False)
  | .accept | .acceptFails | .read _ | .readEnd | .readFails | .handle _ | .write _
  | .writeFails => inferInstanceAs (Decidable True)

variable {s s' : State} {c : Client} {e : Event} {id : ℕ}

/-- What the server did for connection `id` alone. -/
structure Keeps (s s' : State) (id : ℕ) : Prop where
  waiting : s'.waiting = s.waiting
  nextId : s'.nextId = s.nextId
  answered : s'.answered = s.answered
  client : s'.phase.client = none ∨ s'.phase.client = some id

theorem keeps_hangUp (s : State) (id : ℕ) : Keeps s s.hangUp id := by
  refine ⟨rfl, rfl, rfl, .inl ?_⟩
  unfold State.hangUp
  split <;> rfl

theorem keeps_again (s : State) (c : Client) : Keeps s (s.again c) c.id := by
  refine ⟨rfl, rfl, rfl, ?_⟩
  unfold State.again
  split
  · exact .inl rfl
  · exact .inr rfl

theorem keeps_take (s : State) (c : Client) (r : Receiving) (chunk : List UInt8) :
    Keeps s (s.take c r chunk) c.id := by
  unfold State.take
  split
  · exact ⟨rfl, rfl, rfl, .inr rfl⟩
  · exact keeps_hangUp s c.id
  · exact ⟨rfl, rfl, rfl, .inr rfl⟩

theorem keeps_respond (s : State) (c : Client) (text : List UInt8) (last : Bool) :
    Keeps s (s.respond c text last) c.id := ⟨rfl, rfl, rfl, .inr rfl⟩

theorem keeps_crash (s : State) (id : ℕ) : Keeps s s.crash id := ⟨rfl, rfl, rfl, .inl rfl⟩

theorem keeps_handled (s : State) (c : Client) (msg : List UInt8) (o : Outside) :
    Keeps s (s.handled c msg o) c.id := by
  unfold State.handled
  cases kind msg with
  | init =>
    simp only [State.onInit]
    split
    · exact keeps_respond ..
    · split
      · exact keeps_crash ..
      · exact keeps_respond ..
      · exact ⟨rfl, rfl, rfl, .inr rfl⟩
  | infer =>
    simp only [State.onInfer]
    split
    · exact keeps_respond ..
    · split
      · exact keeps_crash ..
      · exact keeps_respond ..
  | health | shutdown => exact keeps_respond ..
  | unknown => exact keeps_again s c

theorem keeps_sent (s : State) (c : Client) (last : Bool) : Keeps s (s.sent c last) c.id := by
  unfold State.sent
  split
  · exact ⟨rfl, rfl, rfl, .inl rfl⟩
  · exact keeps_again s c

/-- The server accepts where it has no client. Else it lets the waiting connections wait, goes
on with its client or has none, and answers nobody else. -/
inductive Moves (s s' : State) : Prop
  | accepts (c : Client) : s.waiting = c :: s'.waiting → s'.phase.client = some c.id →
      s'.nextId = s.nextId → s'.answered = s.answered → Moves s s'
  | goesOn : s'.waiting = s.waiting → s'.nextId = s.nextId →
      (s'.phase.client = none ∨ s'.phase.client = s.phase.client) →
      (∀ id ∈ s'.answered, id ∈ s.answered ∨ s.phase.client = some id) → Moves s s'

theorem moves_of_keeps (h : Keeps s s' id) (hid : s.phase.client = some id) : Moves s s' :=
  .goesOn h.waiting h.nextId (hid ▸ h.client) (fun _ hm => .inl (h.answered ▸ hm))

theorem step_moves (he : e.OfServer) (hs : s.step e = some s') : Moves s s' := by
  cases step_stepped hs with
  | connect | send | disconnect | signal => cases he
  | accept hp hwaiting => exact .accepts _ hwaiting rfl rfl rfl
  | acceptFails =>
    refine .goesOn rfl rfl (.inl ?_) fun _ hm => .inl hm
    unfold State.hangUp
    split <;> rfl
  | read hp => exact moves_of_keeps (keeps_take ..) (by rw [hp]; rfl)
  | readEnd hp => exact moves_of_keeps (keeps_take ..) (by rw [hp]; rfl)
  | @readFails c r hp => exact moves_of_keeps (keeps_hangUp s c.id) (by rw [hp]; rfl)
  | handle hp => exact moves_of_keeps (keeps_handled ..) (by rw [hp]; rfl)
  | killed => exact .goesOn rfl rfl (.inl rfl) fun _ hm => .inl hm
  | writePart hp => exact .goesOn rfl rfl (.inr (by rw [hp]; rfl)) fun _ hm => .inl hm
  | @writeAll c rest last hp =>
    obtain ⟨hw, hn, ha, hc⟩ := keeps_sent { s with answered := s.answered ++ [c.id] } c last
    refine .goesOn hw hn (hc.imp id fun hc => hc.trans (by rw [hp]; rfl)) fun i hi => ?_
    rw [ha] at hi
    rcases List.mem_append.mp hi with hi | hi
    · exact .inl hi
    · rw [List.mem_singleton.mp hi]
      exact .inr (by rw [hp]; rfl)
  | writeFails hp => exact moves_of_keeps (keeps_sent ..) (by rw [hp]; rfl)

/-- What a client does to its own end moves no connection. -/
@[simp] theorem client_onClient {f : Client → Client} (hf : ∀ c, (f c).id = c.id) (p : Phase) :
    (p.onClient f).client = p.client := by
  cases p <;> simp [Phase.onClient, Phase.client, hf]

theorem id_on (id : ℕ) {f : Client → Client} (hf : ∀ c, (f c).id = c.id) (c : Client) :
    (Client.on id f c).id = c.id := by
  unfold Client.on
  split
  · exact hf c
  · rfl

theorem id_send (data : List UInt8) (c : Client) : (c.send data).id = c.id := by
  unfold Client.send
  split <;> rfl

theorem ids_onClient {f : Client → Client} (hf : ∀ c, (f c).id = c.id) (s : State) :
    (s.onClient f).waiting.map Client.id = s.waiting.map Client.id := by
  simp [State.onClient, Function.comp_def, hf]

end AutoTargeting.Ipc.RunBridge

namespace AutoTargeting.Ipc.HealthCheck

open Runs RunBridge

/-- A call that returned: whether with `Ok`, and for `health_check` whether its request was sent
and whether the client's own session was open when it returned. -/
inductive Return
  | infer (ok : Bool)
  | health (sent ok sessionOpen : Bool)
  deriving DecidableEq, Repr

def Return.IsHealth : Return → Prop
  | .health _ _ _ => True
  | .infer _ => False

/-- A `health_check` that got past its `connect` and its writes. -/
def Return.Sent : Return → Prop
  | .health sent _ _ => sent = true
  | .infer _ => False

instance (r : Return) : Decidable r.IsHealth :=
  match r with
  | .health _ _ _ => inferInstanceAs (Decidable True)
  | .infer _ => inferInstanceAs (Decidable False)

instance (r : Return) : Decidable r.Sent :=
  match r with
  | .health sent _ _ => inferInstanceAs (Decidable (sent = true))
  | .infer _ => inferInstanceAs (Decidable False)

/-- An initialised client and its bridge. The session is connection 0; `taken` counts the
responses that the client has read there, and `checks` has the connections of the calls of
`health_check` that wait for their response. -/
structure State where
  bridge : RunBridge.State
  taken : ℕ
  inferring : Bool
  checks : List ℕ
  log : List Return
  deriving DecidableEq, Repr

/-- The steps of the bridge, and of the calls. A call that is unsent has failed before its request
was written: `written` bytes of it were, and none where `connect` failed. -/
inductive Event
  | bridge (e : RunBridge.Event)
  | infer (text : List UInt8)
  | inferUnsent (text : List UInt8) (written : ℕ)
  | inferReturns (ok : Bool)
  | health
  | healthUnsent (written : Option ℕ)
  | healthReturns (id : ℕ) (ok : Bool)
  deriving DecidableEq, Repr

namespace State

/-- After `init`: the bridge waits for the next message of the session. -/
def start (source : Option ShmFrameSource) (initSize : UInt64) (received : List (List UInt8)) :
    State where
  bridge :=
    { phase := .serving ⟨0, [], false⟩ (.receiving .header)
      waiting := []
      nextId := 1
      signalled := false
      source := source
      initSize := initSize
      received := received
      answered := [0] }
  taken := 1
  inferring := false
  checks := []
  log := []

def SessionOpen (s : State) : Prop := s.bridge.phase.client = some 0

instance (s : State) : Decidable s.SessionOpen := inferInstanceAs (Decidable (_ = _))

/-- Bytes that the client writes on its session. -/
def write (s : State) (data : List UInt8) : RunBridge.State :=
  s.bridge.onClient (.on 0 (.send data))

/-- `infer` sends its request on the session; where the bridge has closed it, `write` fails. -/
def infer (s : State) (text : List UInt8) : State :=
  if s.SessionOpen then { s with bridge := s.write (message text), inferring := true }
  else { s with log := s.log ++ [.infer false] }

/-- A `write` of `infer` fails, for whatever reason. -/
def inferUnsent (s : State) (text : List UInt8) (written : ℕ) : State :=
  { s with bridge := s.write ((message text).take written), log := s.log ++ [.infer false] }

/-- A connection of its own for a `health_check`, with what it wrote there. -/
def connect (s : State) (data : List UInt8) (closed : Bool) : RunBridge.State :=
  { s.bridge with
    waiting := s.bridge.waiting ++ [⟨s.bridge.nextId, data, closed⟩]
    nextId := s.bridge.nextId + 1 }

/-- `health_check` connects anew and sends its request there. -/
def health (s : State) : State :=
  { s with
    bridge := s.connect (message healthText) false
    checks := s.checks ++ [s.bridge.nextId] }

/-- `health_check` returns the error of its `connect`, or of a `write`, which closes the
connection. -/
def healthUnsent (s : State) (written : Option ℕ) : State :=
  { s with
    bridge :=
      match written with
      | none => s.bridge
      | some n => s.connect ((message healthText).take n) true
    log := s.log ++ [.health false false (decide s.SessionOpen)] }

/-- `health_check` has its response, or the end of its connection. -/
def healthReturns (s : State) (id : ℕ) (ok : Bool) : State :=
  { s with
    bridge := s.bridge.onClient (.on id .disconnect)
    checks := s.checks.erase id
    log := s.log ++ [.health true ok (decide s.SessionOpen)] }

/-- `infer` needs the client for itself; calls of `health_check` can overlap. -/
def step (s : State) : Event → Option State
  | .bridge e =>
    if e.OfServer then (s.bridge.step e).map fun bridge => { s with bridge } else none
  | .infer text => if s.inferring = false ∧ s.checks = [] then some (s.infer text) else none
  | .inferUnsent text written =>
    if s.inferring = false ∧ s.checks = [] ∧ written < (message text).length then
      some (s.inferUnsent text written)
    else none
  | .inferReturns ok =>
    if s.inferring = true ∧ (ok = true → s.taken < s.bridge.answered.count 0) then
      some { s with
        inferring := false
        taken := if ok then s.taken + 1 else s.taken
        log := s.log ++ [.infer ok] }
    else none
  | .health => if s.inferring = false then some s.health else none
  | .healthUnsent written =>
    if s.inferring = false ∧ ∀ n ∈ written, n < (message healthText).length then
      some (s.healthUnsent written)
    else none
  | .healthReturns id ok =>
    if id ∈ s.checks ∧ (id ∈ s.bridge.answered ∨ ok = false ∧ ¬ s.bridge.Open id) then
      some (s.healthReturns id ok)
    else none

end State

def machine : Machine State Event where
  Init s := ∃ source initSize received, s = .start source initSize received
  step := State.step

variable {s s' : State} {e : Event} {id : ℕ} {ok : Bool}

structure Inv (s : State) : Prop where
  ids : ∀ id ∈ s.bridge.waiting.map RunBridge.Client.id, 0 < id ∧ id < s.bridge.nextId
  nextId : 0 < s.bridge.nextId
  answered : ∀ id ∈ s.bridge.answered, id < s.bridge.nextId
  client : ∀ id, s.bridge.phase.client = some id → id < s.bridge.nextId
  checks : ∀ id ∈ s.checks, 0 < id
  alone : s.inferring = true → s.checks = []
  blocked : s.SessionOpen → ∀ id ∈ s.checks,
    id ∈ s.bridge.waiting.map RunBridge.Client.id ∧ id ∉ s.bridge.answered
  settled : ∀ r ∈ s.log, r.Sent →
    ¬ s.SessionOpen ∧ s.inferring = false ∧ ∀ ok, r ≠ .health true ok true
  after : s.log.Pairwise fun r r' => r.Sent → r' ≠ .infer true

theorem not_ended_of_client {p : RunBridge.Phase} (h : p.client = some id) : ¬ p.Ended := by
  cases p with
  | serving c q => simp
  | accepting | returned | killed => cases h

/-- While the session is open, no `health_check` whose request was sent can return. -/
theorem stuck (h : Inv s) (hopen : s.SessionOpen) (id : ℕ) (ok : Bool) :
    s.step (.healthReturns id ok) = none := by
  simp only [State.step]
  split
  case isTrue hret =>
    obtain ⟨hid, hans | ⟨-, hclosed⟩⟩ := hret
    · exact absurd hans (h.blocked hopen id hid).2
    · exact absurd (.inr ⟨not_ended_of_client hopen, (h.blocked hopen id hid).1⟩) hclosed
  case isFalse => rfl

theorem inv_bridge (h : Inv s) {b : RunBridge.State} (hm : Moves s.bridge b) :
    Inv { s with bridge := b } := by
  obtain ⟨c, hw, hc, hn, ha⟩ | ⟨hw, hn, hc, ha⟩ := hm
  · -- the session does not wait, so it is not what the server accepts
    have hid := h.ids c.id (by simp [hw])
    have hshut : ¬ State.SessionOpen { s with bridge := b } := by
      intro hopen
      have : c.id = 0 := Option.some.inj (hc.symm.trans hopen)
      omega
    refine ⟨fun id hi => ?_, hn ▸ h.nextId, ?_, fun id hi => ?_, h.checks, h.alone,
      fun hopen => absurd hopen hshut, fun r hr hh => ⟨hshut, (h.settled r hr hh).2⟩, h.after⟩
    · rw [hn]
      exact h.ids id (by simp [hw, hi])
    · rw [ha, hn]
      exact h.answered
    · cases hc.symm.trans hi
      exact hn ▸ hid.2
  · have hopen : State.SessionOpen { s with bridge := b } → s.SessionOpen := by
      intro hopen
      rcases hc with hc | hc
      · cases hc.symm.trans hopen
      · exact hc.symm.trans hopen
    refine ⟨by rw [hw, hn]; exact h.ids, hn ▸ h.nextId, fun id hi => ?_, fun id hi => ?_, h.checks,
      h.alone, fun ho id hi => ?_, fun r hr hh => ?_, h.after⟩
    · rw [hn]
      exact (ha id hi).elim (h.answered id) (h.client id)
    · rw [hn]
      rcases hc with hc | hc
      · cases hc.symm.trans hi
      · exact h.client id (hc.symm.trans hi)
    · obtain ⟨hwait, hans⟩ := h.blocked (hopen ho) id hi
      refine ⟨hw ▸ hwait, fun hi' => ?_⟩
      rcases ha id hi' with hi' | hi'
      · exact hans hi'
      · have : id = 0 := Option.some.inj (hi'.symm.trans (hopen ho))
        have := h.checks id hi
        omega
    · exact ⟨fun ho => (h.settled r hr hh).1 (hopen ho), (h.settled r hr hh).2⟩

theorem inv_onClient (h : Inv s) {f : RunBridge.Client → RunBridge.Client}
    (hf : ∀ c, (f c).id = c.id) : Inv { s with bridge := s.bridge.onClient f } := by
  have hopen : State.SessionOpen { s with bridge := s.bridge.onClient f } ↔ s.SessionOpen := by
    simp [State.SessionOpen, RunBridge.State.onClient, hf]
  constructor
  case ids => rw [ids_onClient hf]; exact h.ids
  case nextId => exact h.nextId
  case answered => exact h.answered
  case client =>
    intro id hi
    apply h.client id
    simpa [RunBridge.State.onClient, hf] using hi
  case checks => exact h.checks
  case alone => exact h.alone
  case blocked => rw [hopen, ids_onClient hf]; exact h.blocked
  case settled => rw [hopen]; exact h.settled
  case after => exact h.after

/-- A call that returned, and is not an `infer` served after a `health_check` that was sent, nor
such a check itself. -/
theorem inv_log (h : Inv s) {r : Return} (hunsent : ¬ r.Sent)
    (hserved : r = .infer true → ∀ r' ∈ s.log, ¬ r'.Sent) :
    Inv { s with log := s.log ++ [r] } := by
  refine ⟨h.ids, h.nextId, h.answered, h.client, h.checks, h.alone, h.blocked, fun r' hr hh => ?_,
    ?_⟩
  · rcases List.mem_append.mp hr with hr | hr
    · exact h.settled r' hr hh
    · rw [List.mem_singleton.mp hr] at hh
      exact absurd hh hunsent
  · apply List.pairwise_append.mpr
    refine ⟨h.after, List.pairwise_singleton _ _, fun r' hr r'' hr'' hh => ?_⟩
    rw [List.mem_singleton.mp hr'']
    exact fun heq => hserved heq r' hr hh

theorem inv_write (h : Inv s) (data : List UInt8) : Inv { s with bridge := s.write data } :=
  inv_onClient h (id_on 0 (id_send data))

theorem inv_infer (h : Inv s) (hchecks : s.checks = []) (text : List UInt8) :
    Inv (s.infer text) := by
  unfold State.infer
  split
  case isTrue hopen =>
    have hw := inv_write h (message text)
    refine ⟨hw.ids, hw.nextId, hw.answered, hw.client, hw.checks, fun _ => hchecks, hw.blocked,
      fun r hr hh => ?_, hw.after⟩
    exact absurd hopen (h.settled r hr hh).1
  case isFalse hclosed =>
    exact inv_log h (by simp [Return.Sent]) (by simp)

theorem inv_inferUnsent (h : Inv s) (text : List UInt8) (written : ℕ) :
    Inv (s.inferUnsent text written) :=
  inv_log (inv_write h ((message text).take written)) (by simp [Return.Sent]) (by simp)

theorem inv_connect (h : Inv s) (data : List UInt8) (closed : Bool) :
    Inv { s with bridge := s.connect data closed } := by
  have hnew := h.nextId
  refine ⟨fun id hi => ?_, Nat.succ_pos _, fun id hi => ?_, fun id hi => ?_, h.checks, h.alone,
    fun hopen id hi => ?_, h.settled, h.after⟩
  · simp only [State.connect, List.map_append, List.mem_append, List.map_cons, List.map_nil,
      List.mem_singleton] at hi ⊢
    rcases hi with hi | rfl
    · have := h.ids id hi
      omega
    · omega
  · exact Nat.lt_succ_of_lt (h.answered id hi)
  · exact Nat.lt_succ_of_lt (h.client id hi)
  · obtain ⟨hwait, hans⟩ := h.blocked hopen id hi
    refine ⟨?_, hans⟩
    simp only [State.connect, List.map_append, List.mem_append]
    exact .inl hwait

theorem inv_health (h : Inv s) (hidle : s.inferring = false) : Inv s.health := by
  have hc := inv_connect h (message healthText) false
  refine ⟨hc.ids, hc.nextId, hc.answered, hc.client, fun id hi => ?_, ?_, fun hopen id hi => ?_,
    hc.settled, hc.after⟩
  · rcases List.mem_append.mp hi with hi | hi
    · exact h.checks id hi
    · rw [List.mem_singleton.mp hi]
      exact h.nextId
  · intro hinf
    exact absurd (hidle.symm.trans hinf) (by simp)
  · rcases List.mem_append.mp hi with hi | hi
    · exact hc.blocked hopen id hi
    · rw [List.mem_singleton.mp hi]
      refine ⟨by simp [State.health, State.connect], fun hans => ?_⟩
      exact absurd (h.answered _ hans) (by omega)

theorem inv_healthUnsent (h : Inv s) (written : Option ℕ) : Inv (s.healthUnsent written) := by
  cases written with
  | none => exact inv_log h (by simp [Return.Sent]) (by simp)
  | some n => exact inv_log (inv_connect h _ true) (by simp [Return.Sent]) (by simp)

theorem inv_healthReturns (h : Inv s) (hclosed : ¬ s.SessionOpen) (hid : id ∈ s.checks) :
    Inv (s.healthReturns id ok) := by
  have hc := inv_onClient h (id_on id fun c => (rfl : c.disconnect.id = c.id))
  have hshut : ¬ (s.healthReturns id ok).SessionOpen := by
    simpa [State.healthReturns, State.SessionOpen, RunBridge.State.onClient,
      id_on id fun c => (rfl : c.disconnect.id = c.id)] using hclosed
  have hidle : s.inferring = false := by
    by_contra hinf
    have := h.alone (by simpa using hinf)
    simp [this] at hid
  refine ⟨hc.ids, hc.nextId, hc.answered, hc.client, fun i hi => h.checks i (List.mem_of_mem_erase hi),
    fun hinf => absurd (hidle.symm.trans hinf) (by simp), fun hopen => absurd hopen hshut,
    fun r hr hh => ⟨hshut, hidle, ?_⟩, ?_⟩
  · rcases List.mem_append.mp hr with hr | hr
    · exact (h.settled r hr hh).2.2
    · rw [List.mem_singleton.mp hr]
      simp [hclosed]
  · refine List.pairwise_append.mpr ⟨h.after, List.pairwise_singleton _ _, fun r _ r' hr' _ => ?_⟩
    rw [List.mem_singleton.mp hr']
    simp

theorem inv_inferReturns (h : Inv s) (hinf : s.inferring = true) (taken : ℕ) :
    Inv { s with inferring := false, taken := taken, log := s.log ++ [.infer ok] } := by
  have hnone : ∀ r ∈ s.log, ¬ r.Sent := fun r hr hh =>
    absurd (hinf.symm.trans (h.settled r hr hh).2.1) (by simp)
  have hlog := inv_log (r := .infer ok) h (by simp [Return.Sent]) fun _ => hnone
  refine ⟨h.ids, h.nextId, h.answered, h.client, h.checks, by simp, h.blocked, fun r hr hh => ?_,
    hlog.after⟩
  rcases List.mem_append.mp hr with hr | hr
  · exact absurd hh (hnone r hr)
  · rw [List.mem_singleton.mp hr] at hh
    cases hh

theorem inv_step (h : Inv s) (hs : s.step e = some s') : Inv s' := by
  cases e with
  | bridge e =>
    simp only [State.step] at hs
    split at hs
    case isTrue he =>
      obtain ⟨b, hb, rfl⟩ := Option.map_eq_some_iff.mp hs
      exact inv_bridge h (step_moves he hb)
    case isFalse => cases hs
  | infer text =>
    simp only [State.step] at hs
    split_ifs at hs with hidle
    cases hs
    exact inv_infer h hidle.2 text
  | inferUnsent text written =>
    simp only [State.step] at hs
    split_ifs at hs with hidle
    cases hs
    exact inv_inferUnsent h text written
  | inferReturns ok =>
    simp only [State.step] at hs
    split at hs
    case isTrue hinf =>
      cases hs
      exact inv_inferReturns h hinf.1 _
    case isFalse => cases hs
  | health =>
    simp only [State.step] at hs
    split_ifs at hs with hidle
    cases hs
    exact inv_health h hidle
  | healthUnsent written =>
    simp only [State.step] at hs
    split_ifs at hs with hidle
    cases hs
    exact inv_healthUnsent h written
  | healthReturns id ok =>
    have hclosed : ¬ s.SessionOpen := by
      intro hopen
      simp [stuck h hopen] at hs
    simp only [State.step] at hs
    split_ifs at hs with hret
    cases hs
    exact inv_healthReturns h hclosed hret.1

theorem inv_reachable (h : machine.Reachable s) : Inv s := by
  refine h.invariant ?_ fun s e s' _ hs _ hstep => inv_step hs hstep
  rintro _ ⟨source, initSize, received, rfl⟩
  refine ⟨by simp [State.start], by simp [State.start], by simp [State.start], fun id hi => ?_,
    by simp [State.start], by simp [State.start], by simp [State.start], by simp [State.start], .nil⟩
  cases hi
  exact Nat.one_pos

end AutoTargeting.Ipc.HealthCheck
