import AutoTargeting.Ipc.HealthCheck

namespace AutoTargeting.Ipc.HealthCheck

open Runs RunBridge

variable {s s' : State} {e : Event}

/-- A call that waits for its response may yet return while the session is open. -/
def State.MayReturn (s : State) (id : ℕ) : Prop :=
  ∃ s', machine.RunBy Machine.Anything s s' ∧ s'.SessionOpen ∧
    ∃ ok, s'.step (.healthReturns id ok) ≠ none

/-- What each `health_check` should leave as it is: it returns while the session is open, and the
`infer` that returns next is served. -/
structure Undisturbed (s : State) : Prop where
  returns : ∀ id ∈ s.checks, s.MayReturn id
  kept : ∀ before sent ok sessionOpen after, s.log = before ++ .health sent ok sessionOpen :: after →
    sessionOpen = true ∧ ∀ r, after.find? (¬ ·.IsHealth) = some r → r = .infer true

/-- No `health_check` got past its `connect` and its writes. -/
def Unsent (s : State) : Prop := s.checks = [] ∧ ∀ r ∈ s.log, ¬ r.Sent

/-- The reads and writes of the bridge go through. -/
def GoesThrough (s : RunBridge.State) : RunBridge.Event → Prop
  | .read n => s.phase.task = some (.receiving .header) → n = 4
  | .readFails | .writeFails => False
  | _ => True

instance (s : RunBridge.State) : (e : RunBridge.Event) → Decidable (GoesThrough s e)
  | .read _ => inferInstanceAs (Decidable (_ → _))
  | .readFails | .writeFails => isFalse id
  | .connect | .send .. | .disconnect _ | .signal | .accept | .acceptFails | .readEnd
  | .handle _ | .write _ => isTrue trivial

/-- Nothing but a `health_check` can end the session: the bridge's reads and writes go through, no
message ends it, the requests of `infer` are written whole, and `infer` gives up only on a session
that is closed. -/
def Steady (s : State) : Event → Prop
  | .bridge e => GoesThrough s.bridge e ∧ Returns s.bridge e
  | .infer text => kind text = .infer ∧ text.length ≤ maxMessage
  | .inferUnsent _ _ => False
  | .inferReturns ok => ok = true ∨ ¬ s.SessionOpen
  | .health | .healthUnsent _ | .healthReturns _ _ => True

/-- What the session is at: whether the client waits, what it sent and the bridge has not read,
what the bridge does for it, and how many responses there are, of which it has `taken`. -/
inductive Serves (taken : ℕ) : Bool → List UInt8 → Serving → ℕ → Prop
  | idle : Serves taken false [] (.receiving .header) taken
  | asked {text : List UInt8} (hkind : kind text = .infer) (hlen : text.length ≤ maxMessage) :
    Serves taken true (message text) (.receiving .header) taken
  | reading {got rest : List UInt8} (hkind : kind (got ++ rest) = .infer) (hrest : rest ≠ []) :
    Serves taken true rest (.receiving (.body (got ++ rest).length got)) taken
  | handling {text : List UInt8} (hkind : kind text = .infer) :
    Serves taken true [] (.handling text) taken
  | sending (rest : List UInt8) : Serves taken true [] (.sending rest false) taken
  | answered : Serves taken true [] (.receiving .header) (taken + 1)

/-- The session is open, and is at its calls. -/
def Kept (b : RunBridge.State) (taken : ℕ) (inferring : Bool) : Prop :=
  b.signalled = false ∧ ∃ c p, b.phase = .serving c p ∧ c.id = 0 ∧ c.closed = false ∧
    Serves taken inferring c.sent p (b.answered.count 0)

theorem kind_ne_nil {text : List UInt8} (h : kind text = .infer) : text ≠ [] := by
  rintro rfl
  exact absurd h (by decide)

theorem serves_header {taken : ℕ} {inferring : Bool} {sent : List UInt8} {count : ℕ}
    (h : Serves taken inferring sent (.receiving .header) count) (hsent : sent ≠ []) :
    inferring = true ∧ count = taken ∧
      ∃ text, sent = message text ∧ kind text = .infer ∧ text.length ≤ maxMessage := by
  cases h with
  | idle => exact absurd rfl hsent
  | asked hkind hlen => exact ⟨rfl, rfl, _, rfl, hkind, hlen⟩
  | answered => exact absurd rfl hsent

theorem serves_handling {taken : ℕ} {inferring : Bool} {sent msg : List UInt8} {count : ℕ}
    (h : Serves taken inferring sent (.handling msg) count) :
    inferring = true ∧ sent = [] ∧ count = taken ∧ kind msg = .infer := by
  cases h with
  | handling hkind => exact ⟨rfl, rfl, rfl, hkind⟩

theorem serves_sending {taken : ℕ} {inferring last : Bool} {sent rest : List UInt8} {count : ℕ}
    (h : Serves taken inferring sent (.sending rest last) count) :
    inferring = true ∧ sent = [] ∧ count = taken ∧ last = false := by
  cases h with
  | sending => exact ⟨rfl, rfl, rfl, rfl⟩

/-- There is a response to take only where the bridge waits for the next request. -/
theorem serves_taken {taken : ℕ} {sent : List UInt8} {p : Serving} {count : ℕ}
    (h : Serves taken true sent p count) (htaken : taken < count) :
    Serves (taken + 1) false sent p count := by
  cases h with
  | answered => exact .idle
  | asked | reading | handling | sending => exact absurd htaken (lt_irrefl _)

theorem read_header {text : List UInt8} (hkind : kind text = .infer)
    (hlen : text.length ≤ maxMessage) :
    Receiving.header.read ((message text).take 4) = .more (.body text.length []) ∧
      (message text).drop 4 = text := by
  have hsmall : text.length < 2 ^ 32 := lt_of_le_of_lt hlen (by decide)
  have hpos : text.length ≠ 0 := fun h => kind_ne_nil hkind (List.length_eq_zero_iff.mp h)
  have htake : (message text).take 4 = toBeBytes text.length := by
    rw [message, Nat.mod_eq_of_lt hsmall]
    exact List.take_left' rfl
  have hdrop : (message text).drop 4 = text := List.drop_left' rfl
  refine ⟨?_, hdrop⟩
  have hfour : (toBeBytes text.length).length = 4 := rfl
  simp only [htake, Receiving.read, hfour, fromBeBytes_toBeBytes hsmall, ne_eq, not_true_eq_false,
    if_false]
  rw [if_neg]
  exact not_or.mpr ⟨hpos, not_lt.mpr hlen⟩

variable {b b' : RunBridge.State} {taken : ℕ} {inferring : Bool}

theorem kept_read {c : RunBridge.Client} {r : Receiving} {n : ℕ} (hsig : b.signalled = false)
    (hp : b.phase = .serving c (.receiving r)) (hid : c.id = 0) (hopen : c.closed = false)
    (hserves : Serves taken inferring c.sent (.receiving r) (b.answered.count 0))
    (hpos : 0 < n) (hcount : n ≤ r.count) (hlen : n ≤ c.sent.length)
    (hio : GoesThrough b (.read n)) :
    Kept (b.take { c with sent := c.sent.drop n } r (c.sent.take n)) taken inferring := by
  have hsent : c.sent ≠ [] := by
    rintro h
    rw [h, List.length_nil] at hlen
    omega
  generalize hcnt : b.answered.count 0 = count at hserves
  cases r with
  | header =>
    obtain ⟨rfl, rfl, text, htext, hkind, hmax⟩ := serves_header hserves hsent
    obtain rfl : n = 4 := hio (by rw [hp]; rfl)
    obtain ⟨hread, hdrop⟩ := read_header hkind hmax
    rw [htext]
    simp only [RunBridge.State.take, hread, hdrop]
    refine ⟨hsig, _, _, rfl, hid, hopen, ?_⟩
    rw [hcnt]
    rw [← List.nil_append text] at hkind
    exact .reading hkind (kind_ne_nil hkind)
  | body length got =>
    generalize hs : c.sent = sent at hserves hlen hsent
    cases hserves with
    | reading hkind hrest =>
      have hchunk : sent.take n ≠ [] := by
        rw [ne_eq, List.take_eq_nil_iff]
        exact not_or.mpr ⟨by omega, hrest⟩
      have hlength : (got ++ sent.take n).length = got.length + n := by
        rw [List.length_append, List.length_take, min_eq_left hlen]
      simp only [RunBridge.State.take, Receiving.read, if_neg hchunk]
      by_cases hmore : (got ++ sent.take n).length < (got ++ sent).length
      · have hsplit : got ++ sent = (got ++ sent.take n) ++ sent.drop n := by
          rw [List.append_assoc, List.take_append_drop]
        rw [if_pos hmore]
        refine ⟨hsig, _, _, rfl, hid, hopen, ?_⟩
        rw [hcnt, hsplit]
        rw [hsplit] at hkind
        apply Serves.reading hkind
        rw [ne_eq, List.drop_eq_nil_iff]
        rw [hlength, List.length_append] at hmore
        omega
      · have hall : n = sent.length := by
          rw [hlength, List.length_append] at hmore
          omega
        rw [if_neg hmore, hall, List.take_length, List.drop_length]
        refine ⟨hsig, _, _, rfl, hid, hopen, ?_⟩
        rw [hcnt]
        exact .handling hkind

/-- A message that is an `infer` gets a response that is not the last. -/
theorem kept_handled {c : RunBridge.Client} {msg : List UInt8} {o : Outside}
    (hsig : b.signalled = false) (hid : c.id = 0) (hopen : c.closed = false)
    (hserves : Serves taken inferring c.sent (.handling msg) (b.answered.count 0))
    (hreturns : Returns b (.handle o)) : Kept (b.handled c msg o) taken inferring := by
  obtain ⟨rfl, hsent, hcnt, hkind⟩ := serves_handling hserves
  obtain ⟨source, initSize, ⟨-, hunknown⟩ | ⟨text, last, heq, hlast⟩⟩ :=
    handled_returns c msg hreturns
  · rw [hkind] at hunknown
    cases hunknown
  · have hfalse : last = false := by
      by_contra htrue
      have hshutdown := hlast (by simpa using htrue)
      rw [hkind] at hshutdown
      cases hshutdown
    subst hfalse
    rw [heq]
    refine ⟨hsig, c, _, rfl, hid, hopen, ?_⟩
    rw [hsent]
    change Serves taken true [] _ (b.answered.count 0)
    rw [hcnt]
    exact .sending _

/-- The steps of the bridge leave the session at its calls. -/
theorem kept_bridge (h : Kept b taken inferring) {e : RunBridge.Event} (he : e.OfServer)
    (hio : GoesThrough b e) (hreturns : Returns b e) (hs : b.step e = some b') :
    Kept b' taken inferring := by
  obtain ⟨hsig, c, p, hphase, hid, hopen, hserves⟩ := h
  cases step_stepped hs with
  | connect | send | disconnect | signal => cases he
  | accept hp | acceptFails hp =>
    rw [hphase] at hp
    cases hp
  | @read n c' r hp hpos hcount hlen =>
    obtain ⟨rfl, rfl⟩ : c = c' ∧ p = .receiving r := by simpa [hphase] using hp
    exact kept_read hsig hphase hid hopen hserves hpos hcount hlen hio
  | readEnd hp hclosed =>
    obtain ⟨rfl, rfl⟩ := Phase.serving.inj (hphase.symm.trans hp)
    simp [hopen] at hclosed
  | readFails | writeFails => cases hio
  | @handle o msg c' hp =>
    obtain ⟨rfl, rfl⟩ := Phase.serving.inj (hphase.symm.trans hp)
    exact kept_handled hsig hid hopen hserves hreturns
  | killed hp hclosed =>
    obtain ⟨rfl, rfl⟩ := Phase.serving.inj (hphase.symm.trans hp)
    simp [hopen] at hclosed
  | writePart hp =>
    obtain ⟨rfl, rfl⟩ := Phase.serving.inj (hphase.symm.trans hp)
    obtain ⟨rfl, hsent, hcnt, rfl⟩ := serves_sending hserves
    refine ⟨hsig, c, _, rfl, hid, hopen, ?_⟩
    rw [hsent, hcnt]
    exact .sending _
  | @writeAll c' rest last hp =>
    obtain ⟨rfl, rfl⟩ := Phase.serving.inj (hphase.symm.trans hp)
    obtain ⟨rfl, hsent, hcnt, rfl⟩ := serves_sending hserves
    have hcount : (b.answered ++ [c.id]).count 0 = taken + 1 := by
      rw [List.count_append, hid, hcnt, List.count_singleton_self]
    refine ⟨hsig, c, .receiving .header, ?_, hid, hopen, ?_⟩
    · simp [RunBridge.State.sent, RunBridge.State.again, hsig]
    · rw [hsent]
      simp only [RunBridge.State.sent, RunBridge.State.again, Bool.false_eq_true, if_false, hcount]
      exact .answered

/-- What a steady run has kept: the session, and a log of calls that left it as it is. -/
structure Healthy (s : State) : Prop where
  session : Kept s.bridge s.taken s.inferring
  log : ∀ r ∈ s.log, r = .infer true ∨ r = .health false false true

theorem sessionOpen_of_kept (h : Kept s.bridge taken inferring) : s.SessionOpen := by
  obtain ⟨-, c, p, hphase, hid, -⟩ := h
  rw [State.SessionOpen, hphase]
  exact congrArg some hid

theorem log_append {l : List Return} {r : Return}
    (h : ∀ r ∈ l, r = .infer true ∨ r = .health false false true)
    (hr : r = .infer true ∨ r = .health false false true) :
    ∀ r' ∈ l ++ [r], r' = .infer true ∨ r' = .health false false true := by
  intro r' hr'
  rcases List.mem_append.mp hr' with hr' | hr'
  · exact h r' hr'
  · rw [List.mem_singleton.mp hr']
    exact hr

theorem healthy_infer (h : Healthy s) (hidle : s.inferring = false) {text : List UInt8}
    (hkind : kind text = .infer) (hlen : text.length ≤ maxMessage) : Healthy (s.infer text) := by
  have hopen := sessionOpen_of_kept h.session
  obtain ⟨hsig, c, p, hphase, hid, hclosed, hserves⟩ := h.session
  rw [State.infer, if_pos hopen]
  refine ⟨⟨hsig, (RunBridge.Client.on 0 (.send (message text))) c, p, ?_, ?_, ?_, ?_⟩, h.log⟩
  · simp only [State.write, RunBridge.State.onClient, hphase, Phase.onClient]
  · rw [id_on 0 (id_send _), hid]
  · simp [RunBridge.Client.on, hid, RunBridge.Client.send, hclosed]
  · rw [hidle] at hserves
    generalize hs : c.sent = sent at hserves
    generalize hcnt : s.bridge.answered.count 0 = count at hserves
    cases hserves
    simp only [State.write, RunBridge.State.onClient, hcnt, RunBridge.Client.on, hid,
      RunBridge.Client.send, hclosed, Bool.false_eq_true, if_false, if_true, hs, List.nil_append]
    exact .asked hkind hlen

theorem healthy_step (hinv : Inv s) (h : Healthy s) (hsteady : Steady s e)
    (hs : s.step e = some s') : Healthy s' := by
  have hopen := sessionOpen_of_kept h.session
  cases e with
  | bridge e =>
    simp only [State.step] at hs
    split at hs
    case isTrue he =>
      obtain ⟨b, hb, rfl⟩ := Option.map_eq_some_iff.mp hs
      exact ⟨kept_bridge h.session he hsteady.1 hsteady.2 hb, h.log⟩
    case isFalse => cases hs
  | infer text =>
    simp only [State.step] at hs
    split_ifs at hs with hidle
    cases hs
    exact healthy_infer h hidle.1 hsteady.1 hsteady.2
  | inferUnsent => cases hsteady
  | inferReturns ok =>
    simp only [State.step] at hs
    split at hs
    case isTrue hinf =>
      cases hs
      obtain rfl : ok = true := hsteady.resolve_right (not_not.mpr hopen)
      obtain ⟨hsig, c, p, hphase, hid, hclosed, hserves⟩ := h.session
      rw [hinf.1] at hserves
      exact ⟨⟨hsig, c, p, hphase, hid, hclosed, serves_taken hserves (hinf.2 rfl)⟩,
        log_append h.log (.inl rfl)⟩
    case isFalse => cases hs
  | health =>
    simp only [State.step] at hs
    split_ifs at hs with hidle
    cases hs
    exact ⟨h.session, h.log⟩
  | healthUnsent written =>
    simp only [State.step] at hs
    split_ifs at hs with hidle
    cases hs
    constructor
    · cases written with
      | none => exact h.session
      | some n => exact h.session
    · unfold State.healthUnsent
      rw [decide_eq_true hopen]
      exact log_append h.log (.inr rfl)
  | healthReturns id ok =>
    rw [stuck hinv hopen] at hs
    cases hs

theorem healthy_reachable (h : machine.ReachableBy Steady s) : Healthy s := by
  refine h.invariant ?_ fun s e s' hr hs hsteady hstep =>
    healthy_step (inv_reachable (hr.mono fun _ _ _ => trivial)) hs hsteady hstep
  rintro _ ⟨source, initSize, received, rfl⟩
  refine ⟨⟨rfl, _, _, rfl, rfl, rfl, ?_⟩, by simp [State.start]⟩
  exact .idle

theorem undisturbed_of_healthy (h : Healthy s) (hunsent : Unsent s) : Undisturbed s := by
  constructor
  · rw [hunsent.1]
    simp
  · intro before sent ok sessionOpen after hlog
    have hmem : ∀ r ∈ after, r ∈ s.log := fun r hr => by simp [hlog, hr]
    constructor
    · rcases h.log (.health sent ok sessionOpen) (by simp [hlog]) with heq | heq
      · cases heq
      · cases heq
        rfl
    · intro r hr
      have hinfer := List.find?_some hr
      rcases h.log r (hmem r (List.mem_of_find?_eq_some hr)) with rfl | rfl
      · rfl
      · simp [Return.IsHealth] at hinfer

theorem unsent_of_undisturbed (hr : machine.Reachable s) (h : Undisturbed s) : Unsent s := by
  constructor
  · apply List.eq_nil_iff_forall_not_mem.mpr
    intro id hid
    obtain ⟨s', hrun, hopen, ok, hreturn⟩ := h.returns id hid
    exact hreturn (stuck (inv_reachable (hr.run hrun)) hopen id ok)
  · intro r hmem hsent
    obtain ⟨before, after, hlog⟩ := List.append_of_mem hmem
    cases r with
    | infer ok => cases hsent
    | health sent ok sessionOpen =>
      have hopen := (h.kept before sent ok sessionOpen after hlog).1
      apply ((inv_reachable hr).settled _ hmem hsent).2.2 ok
      rw [hopen, show sent = true from hsent]

/-- No `health_check` whose request was sent leaves the session as it is: while the session is
open it cannot return, and no `infer` after it is served. Those that fail before leave it as it is,
unless something else ends it. -/
theorem health_check_disturbs (h : machine.Reachable s) :
    (Undisturbed s → Unsent s) ∧
    (machine.ReachableBy Steady s → Unsent s → Undisturbed s) ∧
    (s.log.Pairwise fun r r' => r.Sent → r' ≠ .infer true) ∧
    (s.SessionOpen → ∀ id ok, s.step (.healthReturns id ok) = none) := by
  have hinv := inv_reachable h
  refine ⟨unsent_of_undisturbed h, fun hsteady => undisturbed_of_healthy (healthy_reachable hsteady),
    hinv.after, fun hopen id ok => stuck hinv hopen id ok⟩

/-- The bridge waits its 30 seconds for the next message of the session, and then it serves the
health check. -/
def checkEvents : List Event :=
  [.health, .bridge .readFails, .bridge .accept, .bridge (.read 4), .bridge (.read 17),
    .bridge (.handle { response := [111, 107] }), .bridge (.write 6), .healthReturns 1 true,
    .infer RunBridge.inferText]

/-- One `health_check` cannot connect, and another cannot write its request; then the `infer` that
comes next is served. -/
def unsentEvents : List Event :=
  [.healthUnsent none, .healthUnsent (some 2), .infer RunBridge.inferText, .bridge (.read 4),
    .bridge (.read RunBridge.inferText.length),
    .bridge (.handle { infer := some 1, present := 4096, memory := 12, response := [111, 107] }),
    .bridge (.write 6), .inferReturns true]

instance (s : State) (e : Event) : Decidable (Steady s e) := by
  cases e <;> unfold Steady <;> infer_instance

/-- In the run of the failed checks the session is kept, and in the other one it is lost. -/
theorem health_check_disturbs_session :
    (∃ s : State, s.log = [.health false false true, .health false false true, .infer true] ∧
      Undisturbed s) ∧
    ∃ s : State, s.log = [.health true true false, .infer false] ∧ ¬ Undisturbed s := by
  constructor
  · have hrun : (machine.exec Steady (.start (some ⟨4, 12⟩) 12 []) unsentEvents).map
        (fun s => (s.log, s.checks)) =
          some ([.health false false true, .health false false true, .infer true], []) := by
      decide +kernel
    obtain ⟨s, hs, hobs⟩ := Option.map_eq_some_iff.mp hrun
    obtain ⟨hlog, hchecks⟩ := Prod.mk.inj hobs
    have hreach : machine.ReachableBy Steady s := .of_exec (.init ⟨_, _, _, rfl⟩) hs
    have hall := health_check_disturbs (hreach.mono fun _ _ _ => trivial)
    refine ⟨s, hlog, hall.2.1 hreach ⟨hchecks, ?_⟩⟩
    rw [hlog]
    decide
  · have hrun : (machine.exec Machine.Anything (.start none 0 []) checkEvents).map State.log =
        some [.health true true false, .infer false] := by decide +kernel
    obtain ⟨s, hs, hlog⟩ := Option.map_eq_some_iff.mp hrun
    refine ⟨s, hlog, fun hun => ?_⟩
    have hunsent := (health_check_disturbs (.of_exec (.init ⟨_, _, _, rfl⟩) hs)).1 hun
    exact hunsent.2 (.health true true false) (by simp [hlog]) rfl

theorem session_lost : ¬ ∀ s, machine.Reachable s → Undisturbed s := by
  intro hall
  have hrun : (machine.exec Machine.Anything (.start none 0 []) checkEvents).map State.log =
      some [.health true true false, .infer false] := by decide +kernel
  obtain ⟨s, hs, hlog⟩ := Option.map_eq_some_iff.mp hrun
  have hopen := ((hall s (.of_exec (.init ⟨_, _, _, rfl⟩) hs)).kept [] true true false
    [.infer false] hlog).1
  cases hopen

end AutoTargeting.Ipc.HealthCheck
