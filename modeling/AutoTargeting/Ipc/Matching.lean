import AutoTargeting.Ipc.Session

namespace AutoTargeting.Ipc

variable {δ : Type*} {R : Responses δ} {s s' : Session δ}

/-- The bridge is not in the middle of a request. -/
def Receiver.Quiet (r : Receiver) : Prop := r = .header ∨ r = .closed

namespace Session

/-- Where the bytes of a request are that the bridge has yet to handle: `rest` is not written,
what is before it lies in the stream or with the bridge. A bridge that closed, or that ignored the
request, handles no more. -/
def Carries (s : Session δ) (text rest : List UInt8) : Prop :=
  match s.receiver with
  | .header => s.toBridge ++ rest = message text ∨ s.toBridge ++ rest = []
  | .body len got => len = text.length ∧ got ++ (s.toBridge ++ rest) = text
  | .closed => True

/-- The request of the call is not yet handled. -/
structure Pending (s : Session δ) (call : Call) (rest : List UInt8) : Prop where
  silent : s.toClient = []
  since : call.since ≤ s.served.length
  length : call.text.length < 2 ^ 32
  carries : s.Carries call.text rest

/-- The bridge served the request of the call after the call began. -/
structure Answers (s : Session δ) (call : Call) (response : List UInt8) : Prop where
  length : response.length < 2 ^ 32
  drained : s.toBridge = []
  quiet : s.receiver.Quiet
  served : ∃ i, call.since ≤ i ∧ s.served[i]? = some ⟨call.text, response⟩

/-- No bytes are in flight. -/
structure Ready (s : Session δ) : Prop where
  drained : s.toBridge = []
  silent : s.toClient = []
  quiet : s.receiver.Quiet

/-- The bytes in flight belong to the call under way. -/
def InSync (s : Session δ) : Prop :=
  match s.phase with
  | .idle => s.spoiled = false → s.Ready
  | .writing call rest => rest ≠ [] ∧ s.Pending call rest
  | .readingLength call got => (got = [] ∧ s.Pending call []) ∨
      ∃ response, s.Answers call response ∧ got ++ s.toClient = message response
  | .readingData call len got =>
    ∃ response, s.Answers call response ∧ len = response.length ∧ got ++ s.toClient = response

/-- Every `Ok` has the detections of a response to its own request. -/
def Matched (R : Responses δ) (s : Session δ) : Prop :=
  ∀ r ∈ s.results, ∃ i response dets, r.since ≤ i ∧ s.served[i]? = some ⟨r.request, response⟩ ∧
    R.detections response = some dets ∧ r.detections = dets.map fun d => ⟨d, r.frameSeq⟩

structure Inv (R : Responses δ) (s : Session δ) : Prop where
  inSync : s.InSync
  matched : s.Matched R

end Session

open Session

theorem message_ne_nil (text : List UInt8) : message text ≠ [] := List.cons_ne_nil _ _

theorem Session.InSync.of_idle (hphase : s.phase = .idle) (hspoiled : s.spoiled = false)
    (h : s.InSync) : s.Ready := by
  unfold InSync at h
  rw [hphase] at h
  exact h hspoiled

theorem Session.Answers.congr {call : Call} {response : List UInt8} (h : s.Answers call response)
    (hbridge : s'.toBridge = s.toBridge) (hreceiver : s'.receiver = s.receiver)
    (hserved : s'.served = s.served) : s'.Answers call response where
  length := h.length
  drained := hbridge.trans h.drained
  quiet := by
    rw [hreceiver]
    exact h.quiet
  served := by
    rw [hserved]
    exact h.served

theorem inSync_abandon (s : Session δ) : s.abandon.InSync := fun h => nomatch h

/-- A call begins on a stream with no bytes in flight. -/
theorem inSync_begin (purpose : Purpose) {text : List UInt8} (h : s.Ready)
    (htext : text.length < 2 ^ 32) : (s.begin purpose text).InSync := by
  refine ⟨message_ne_nil text, h.silent, Nat.le_refl _, htext, ?_⟩
  show s.Carries text (message text)
  unfold Carries
  rcases h.quiet with hheader | hclosed
  · rw [hheader, h.drained]
    exact .inl rfl
  · rw [hclosed]
    trivial

theorem inv_finish {call : Call} {response : List UInt8} (h : s.Matched R)
    (ha : s.Answers call response) (hclient : s.toClient = []) :
    (s.finish R call response).Inv R := by
  have hidle : ∀ t : Session δ, t.phase = .idle → t.toBridge = s.toBridge →
      t.toClient = s.toClient → t.receiver = s.receiver → t.InSync := by
    intro t hphase hbridge hclient' hreceiver
    unfold InSync
    rw [hphase]
    intro _
    refine ⟨hbridge.trans ha.drained, hclient'.trans hclient, ?_⟩
    rw [hreceiver]
    exact ha.quiet
  unfold Session.finish
  split
  case h_1 => exact ⟨hidle _ rfl rfl rfl rfl, h⟩
  case h_2 frameSeq _ =>
    split
    case h_1 => exact ⟨hidle _ rfl rfl rfl rfl, h⟩
    case h_2 dets hdets =>
      refine ⟨hidle _ rfl rfl rfl rfl, ?_⟩
      intro r hr
      rcases List.mem_append.mp hr with hold | hnew
      · exact h r hold
      · obtain ⟨i, hi, hserved⟩ := ha.served
        rw [List.mem_singleton.mp hnew]
        exact ⟨i, response, dets, hi, hserved, hdets, rfl⟩

theorem inv_readData {call : Call} {got response : List UInt8} (h : s.Matched R)
    (ha : s.Answers call response) (hgot : got ++ s.toClient = response) :
    (s.readData R call response.length got).Inv R := by
  unfold Session.readData
  by_cases hlen : got.length = response.length
  · rw [if_pos hlen]
    have hclient : s.toClient = [] := by
      apply List.eq_nil_of_length_eq_zero
      have htotal := congrArg List.length hgot
      rw [List.length_append] at htotal
      omega
    rw [hclient, List.append_nil] at hgot
    rw [hgot]
    exact inv_finish h ha hclient
  · rw [if_neg hlen]
    exact ⟨⟨response, ha.congr rfl rfl rfl, rfl, hgot⟩, h⟩

theorem inv_readLength {call : Call} {got response : List UInt8} (h : s.Matched R)
    (ha : s.Answers call response) (hgot : got ++ s.toClient = message response) :
    (s.readLength R call got).Inv R := by
  unfold Session.readLength
  by_cases hfour : got.length = 4
  · rw [if_pos hfour]
    obtain ⟨hlen, hrest⟩ := message_head hgot.symm hfour ha.length
    split
    · exact ⟨inSync_abandon s, h⟩
    · rw [hlen]
      exact inv_readData h ha hrest
  · rw [if_neg hfour]
    exact ⟨.inr ⟨response, ha.congr rfl rfl rfl, hgot⟩, h⟩

theorem inv_read {n : ℕ} (h : s.Inv R) (hs : s.read R n = some s') : s'.Inv R := by
  have hsync := h.inSync
  unfold InSync at hsync
  unfold Session.read at hs
  split at hs
  case isTrue => cases hs
  case isFalse hn =>
    have htake : ∀ got, got ++ s.toClient.take n ++ s.toClient.drop n = got ++ s.toClient := by
      intro got
      rw [List.append_assoc, List.take_append_drop]
    have hmatched : ({ s with toClient := s.toClient.drop n } : Session δ).Matched R := h.matched
    dsimp only at hs
    split at hs
    case h_1 call got hphase =>
      rw [hphase] at hsync
      rcases hsync with ⟨_, hpending⟩ | ⟨response, ha, hgot⟩
      · -- nothing to read before the bridge has answered
        rw [hpending.silent, List.length_nil] at hn
        omega
      · rw [← Option.some.inj hs]
        exact inv_readLength hmatched (ha.congr rfl rfl rfl) ((htake got).trans hgot)
    case h_2 call len got hphase =>
      rw [hphase] at hsync
      obtain ⟨response, ha, hlen, hgot⟩ := hsync
      rw [← Option.some.inj hs, hlen]
      exact inv_readData hmatched (ha.congr rfl rfl rfl) ((htake got).trans hgot)
    case h_3 => cases hs

/-- Writing moves bytes of the request into the stream. -/
theorem Session.Pending.write {call : Call} {rest : List UInt8} {n : ℕ} (h : s.Pending call rest)
    (phase : Phase) :
    ({ s with toBridge := s.toBridge ++ rest.take n, phase } : Session δ).Pending call
      (rest.drop n) := by
  have hmove : s.toBridge ++ rest.take n ++ rest.drop n = s.toBridge ++ rest := by
    rw [List.append_assoc, List.take_append_drop]
  refine ⟨h.silent, h.since, h.length, ?_⟩
  have hcarries := h.carries
  unfold Carries at hcarries ⊢
  dsimp only
  rw [hmove]
  exact hcarries

theorem inv_write {n : ℕ} (h : s.Inv R) (hs : s.write n = some s') : s'.Inv R := by
  have hsync := h.inSync
  unfold InSync at hsync
  unfold Session.write at hs
  split at hs
  case h_1 call rest hphase =>
    rw [hphase] at hsync
    obtain ⟨_, hpending⟩ := hsync
    split at hs
    case isTrue => cases hs
    case isFalse hn =>
      rw [← Option.some.inj hs]
      refine ⟨?_, h.matched⟩
      have hwritten := hpending.write (n := n)
        (if n = rest.length then .readingLength call [] else .writing call (rest.drop n))
      unfold InSync
      by_cases hall : n = rest.length
      · rw [if_pos hall] at hwritten ⊢
        rw [hall, List.drop_length] at hwritten
        rw [hall]
        exact .inl ⟨rfl, hwritten⟩
      · rw [if_neg hall] at hwritten ⊢
        refine ⟨?_, hwritten⟩
        intro hnil
        have hlength := congrArg List.length hnil
        rw [List.length_drop, List.length_nil] at hlength
        omega
  case h_2 => cases hs

/-- What a step of the bridge may do to the bytes in flight. -/
structure Session.Serves (s s' : Session δ) : Prop where
  phase : s'.phase = s.phase
  spoiled : s'.spoiled = s.spoiled
  results : s'.results = s.results
  served : s.served <+: s'.served
  ready : s.Ready → s'.Ready
  pending : ∀ call rest, s.Pending call rest → s'.Pending call rest ∨
    (rest = [] ∧ ∃ response, s'.Answers call response ∧ s'.toClient = message response)
  answers : ∀ call response, s.Answers call response →
    s'.Answers call response ∧ s'.toClient = s.toClient

theorem served_stays {xs ys : List Served} {i : ℕ} {x : Served} (h : xs <+: ys)
    (hx : xs[i]? = some x) : ys[i]? = some x := by
  obtain ⟨more, heq⟩ := h
  have hlt : i < xs.length := (List.getElem?_eq_some_iff.mp hx).1
  rw [← heq, List.getElem?_append_left hlt]
  exact hx

theorem inv_serves (h : s.Inv R) (hs : s.Serves s') : s'.Inv R where
  inSync := by
    have hsync := h.inSync
    unfold InSync at hsync ⊢
    rw [hs.phase]
    cases hphase : s.phase with
    | idle =>
      rw [hphase] at hsync
      rw [hs.spoiled]
      exact fun hspoiled => hs.ready (hsync hspoiled)
    | writing call rest =>
      rw [hphase] at hsync
      obtain ⟨hrest, hpending⟩ := hsync
      -- the server cannot have read a request that is not all written
      rcases hs.pending call rest hpending with hstill | ⟨hnil, _⟩
      · exact ⟨hrest, hstill⟩
      · exact absurd hnil hrest
    | readingLength call got =>
      rw [hphase] at hsync
      rcases hsync with ⟨hgot, hpending⟩ | ⟨response, ha, hgot⟩
      · rcases hs.pending call [] hpending with hstill | ⟨_, response, ha, hclient⟩
        · exact .inl ⟨hgot, hstill⟩
        · refine .inr ⟨response, ha, ?_⟩
          rw [hgot, hclient]
          rfl
      · obtain ⟨ha', hclient⟩ := hs.answers call response ha
        refine .inr ⟨response, ha', ?_⟩
        rw [hclient]
        exact hgot
    | readingData call len got =>
      rw [hphase] at hsync
      obtain ⟨response, ha, hlen, hgot⟩ := hsync
      obtain ⟨ha', hclient⟩ := hs.answers call response ha
      refine ⟨response, ha', hlen, ?_⟩
      rw [hclient]
      exact hgot
  matched := by
    unfold Matched
    rw [hs.results]
    intro r hr
    obtain ⟨i, response, dets, hi, hserved, hdets, heq⟩ := h.matched r hr
    exact ⟨i, response, dets, hi, served_stays hs.served hserved, hdets, heq⟩

theorem serves_receive {n : ℕ} (hs : s.receive n = some s') : s.Serves s' := by
  unfold Session.receive at hs
  split at hs
  case isTrue => cases hs
  case isFalse hn =>
    have hbusy : s.toBridge ≠ [] := by
      intro hnil
      rw [hnil, List.length_nil] at hn
      omega
    split at hs
    case h_1 hheader =>
      rw [← Option.some.inj hs]
      refine ⟨rfl, rfl, rfl, List.prefix_rfl, fun h => absurd h.drained hbusy, ?_,
        fun _ _ h => absurd h.drained hbusy⟩
      intro call rest h
      refine .inl ⟨h.silent, h.since, h.length, ?_⟩
      have hcarries := h.carries
      unfold Carries at hcarries ⊢
      rw [hheader] at hcarries
      dsimp only
      split
      case h_1 hreceiver =>
        -- neither branch of `receive` goes back to the header
        split at hreceiver <;> cases hreceiver
      case h_2 len got hreceiver =>
        split at hreceiver
        case isTrue => cases hreceiver
        case isFalse hok =>
          obtain ⟨hlen, hgot⟩ := Receiver.body.inj hreceiver
          have hfour : n = 4 := by omega
          rcases hcarries with hmessage | hnil
          · have hlength : (s.toBridge.take n).length = 4 := by
              rw [List.length_take]
              omega
            have hsplit : message call.text = s.toBridge.take n ++ (s.toBridge.drop n ++ rest) := by
              rw [← List.append_assoc, List.take_append_drop]
              exact hmessage.symm
            obtain ⟨hhead, hrest⟩ := message_head hsplit hlength h.length
            rw [← hlen, ← hgot]
            exact ⟨hhead, hrest⟩
          · exact absurd (List.append_eq_nil_iff.mp hnil).1 hbusy
      case h_3 => trivial
    case h_2 => cases hs

theorem not_quiet {len : ℕ} {got : List UInt8} (h : s.receiver = .body len got) :
    ¬ s.receiver.Quiet := by
  rw [h]
  rintro (hheader | hclosed)
  · cases hheader
  · cases hclosed

theorem serves_receiveBody {n : ℕ} (hs : s.receiveBody n = some s') : s.Serves s' := by
  unfold Session.receiveBody at hs
  split at hs
  case h_1 len got hbody =>
    split at hs
    case isTrue => cases hs
    case isFalse hn =>
      rw [← Option.some.inj hs]
      refine ⟨rfl, rfl, rfl, List.prefix_rfl, fun h => absurd h.quiet (not_quiet hbody), ?_,
        fun _ _ h => absurd h.quiet (not_quiet hbody)⟩
      intro call rest h
      refine .inl ⟨h.silent, h.since, h.length, ?_⟩
      have hcarries := h.carries
      unfold Carries at hcarries ⊢
      rw [hbody] at hcarries
      obtain ⟨hlen, hgot⟩ := hcarries
      refine ⟨hlen, ?_⟩
      rw [List.append_assoc, ← List.append_assoc (s.toBridge.take n), List.take_append_drop]
      exact hgot
  case h_2 => cases hs

/-- A handled request was the one of the call, whole. -/
theorem Session.Pending.handled {call : Call} {rest got : List UInt8} (h : s.Pending call rest)
    (hbody : s.receiver = .body got.length got) :
    s.toBridge = [] ∧ rest = [] ∧ got = call.text := by
  have hcarries := h.carries
  unfold Carries at hcarries
  rw [hbody] at hcarries
  obtain ⟨hlen, hgot⟩ := hcarries
  have htotal := congrArg List.length hgot
  rw [List.length_append] at htotal
  have hnil : s.toBridge ++ rest = [] := List.eq_nil_of_length_eq_zero (by omega)
  rw [hnil, List.append_nil] at hgot
  exact ⟨(List.append_eq_nil_iff.mp hnil).1, (List.append_eq_nil_iff.mp hnil).2, hgot⟩

theorem serves_handled {response : Option (List UInt8)}
    (hresponse : ∀ text ∈ response, text.length < 2 ^ 32) (hs : s.handled response = some s') :
    s.Serves s' := by
  unfold Session.handled at hs
  split at hs
  case h_1 len got hbody =>
    split at hs
    case isTrue hlen =>
      rw [← hlen] at hbody
      split at hs
      case h_1 =>
        rw [← Option.some.inj hs]
        refine ⟨rfl, rfl, rfl, List.prefix_rfl, fun h => absurd h.quiet (not_quiet hbody), ?_,
          fun _ _ h => absurd h.quiet (not_quiet hbody)⟩
        intro call rest h
        obtain ⟨hdrained, hrest, _⟩ := h.handled hbody
        refine .inl ⟨h.silent, h.since, h.length, .inr ?_⟩
        rw [hrest]
        exact List.append_eq_nil_iff.mpr ⟨hdrained, rfl⟩
      case h_2 text =>
        rw [← Option.some.inj hs]
        refine ⟨rfl, rfl, rfl, List.prefix_append _ _, fun h => absurd h.quiet (not_quiet hbody),
          ?_, fun _ _ h => absurd h.quiet (not_quiet hbody)⟩
        intro call rest h
        obtain ⟨hdrained, hrest, hgot⟩ := h.handled hbody
        refine .inr ⟨hrest, text, ⟨hresponse text rfl, hdrained, .inl rfl, ?_⟩, ?_⟩
        · refine ⟨s.served.length, h.since, ?_⟩
          rw [hgot]
          exact List.getElem?_concat_length
        · show s.toClient ++ message text = message text
          rw [h.silent, List.nil_append]
    case isFalse => cases hs
  case h_2 => cases hs

theorem serves_close (s : Session δ) : s.Serves { s with receiver := .closed } :=
  ⟨rfl, rfl, rfl, List.prefix_rfl, fun h => ⟨h.drained, h.silent, .inr rfl⟩,
    fun _ _ h => .inl ⟨h.silent, h.since, h.length, trivial⟩,
    fun _ _ h => ⟨⟨h.length, h.drained, .inr rfl, h.served⟩, rfl⟩⟩

theorem inv_step {e : Step} (h : s.Inv R) (hfresh : s.Fresh e) (hs : s.step R e = some s') :
    s'.Inv R := by
  cases e with
  | init text =>
    unfold Session.step at hs
    dsimp only at hs
    split at hs
    case isTrue =>
      rw [← Option.some.inj hs]
      exact ⟨inSync_begin .init ⟨rfl, rfl, .inl rfl⟩ hfresh, h.matched⟩
    case isFalse => cases hs
  | infer frameSeq text =>
    unfold Session.step at hs
    dsimp only at hs
    split at hs
    case isTrue hidle =>
      obtain ⟨hspoiled, htext⟩ := hfresh
      rw [← Option.some.inj hs]
      exact ⟨inSync_begin _ (h.inSync.of_idle hidle.1 hspoiled) htext, h.matched⟩
    case isFalse => cases hs
  | write n => exact inv_write h hs
  | read n => exact inv_read h hs
  | fail =>
    unfold Session.step at hs
    dsimp only at hs
    split at hs
    case isTrue => cases hs
    case isFalse =>
      -- the stream is spoiled: nothing is claimed of it until the next `init`
      rw [← Option.some.inj hs]
      exact ⟨inSync_abandon s, h.matched⟩
  | receive n => exact inv_serves h (serves_receive hs)
  | receiveBody n => exact inv_serves h (serves_receiveBody hs)
  | answer text =>
    have hlength : ∀ text' ∈ some text, text'.length < 2 ^ 32 := by
      intro text' htext'
      rw [← Option.some.inj htext']
      exact hfresh
    exact inv_serves h (serves_handled hlength hs)
  | ignore =>
    have hlength : ∀ text' ∈ (none : Option (List UInt8)), text'.length < 2 ^ 32 :=
      fun _ hnone => nomatch hnone
    exact inv_serves h (serves_handled hlength hs)
  | close =>
    rw [← Option.some.inj hs]
    exact inv_serves h (serves_close s)

end AutoTargeting.Ipc
