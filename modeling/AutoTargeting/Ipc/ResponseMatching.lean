import AutoTargeting.Ipc.Matching

namespace AutoTargeting.Ipc

section
variable {δ : Type*} {R : Responses δ} {s : Session δ}

/-- In every run with `infer` on fresh streams only, an `infer` that returns `Ok` returns what the
bridge answered to its own request, after the call began. -/
theorem responses_match (h : (sessionMachine R).ReachableBy Session.Fresh s) :
    ∀ r ∈ s.results, ∃ i response dets, r.since ≤ i ∧
      s.served[i]? = some ⟨r.request, response⟩ ∧ R.detections response = some dets ∧
      r.detections = dets.map fun d => ⟨d, r.frameSeq⟩ := by
  have hinv : s.Inv R := by
    refine h.invariant ?_ ?_
    · intro s hs
      rw [show s = .new from hs]
      refine ⟨fun _ => ⟨rfl, rfl, .inr rfl⟩, ?_⟩
      intro r hr
      cases hr
    · intro s e s' _ hs hfresh hstep
      exact inv_step hs hfresh hstep
  exact hinv.matched

end

def initText : List UInt8 :=
  ascii "\x7b\"type\":\"init\",\"model_path\":\"m\",\"input_width\":1,\"input_height\":1\x7d"

def initAck : List UInt8 := ascii "\x7b\"type\":\"init_ack\",\"ok\":true\x7d"

def inferText (frameSeq : Char) : List UInt8 :=
  ascii "\x7b\"type\":\"infer\",\"frame_seq\":" ++ ascii (String.singleton frameSeq) ++
    ascii ",\"frame_data_b64\":\"\",\"captured_at_ms\":0\x7d"

def inferAck (frameSeq : Char) (detections : String) : List UInt8 :=
  ascii "\x7b\"type\":\"infer_ack\",\"ok\":true,\"frame_seq\":" ++
    ascii (String.singleton frameSeq) ++ ascii ",\"latency_ms\":0,\"detections\":[" ++
    ascii detections ++ ascii "]\x7d"

def person : String :=
  "\x7b\"bbox\":\x7b\"x\":1,\"y\":2,\"width\":3,\"height\":4\x7d,\"class\":\"person\",\"class_id\":0,\"confidence\":0.5\x7d"

/-- The responses of the runs below, as the client reads them. -/
def ackResponses : Responses String where
  initOk text := text = initAck
  detections text :=
    if text = inferAck '1' person then some [person]
    else if text = inferAck '2' "" then some []
    else none

/-- The whole request, and the bridge's answer to it. -/
def served (text response : List UInt8) : List Step :=
  [.write (message text).length, .receive 4, .receiveBody text.length, .answer response]

def readBack (response : List UInt8) : List Step := [.read 4, .read response.length]

/-- An `infer` times out before its response comes, and the client connects again. -/
theorem responses_match_after_reconnect : ∃ s : Session String,
    s.results = [⟨2, inferText '2', 3, []⟩] ∧ ∀ r ∈ s.results, ∃ i response dets, r.since ≤ i ∧
      s.served[i]? = some ⟨r.request, response⟩ ∧ ackResponses.detections response = some dets ∧
      r.detections = dets.map fun d => ⟨d, r.frameSeq⟩ := by
  have hrun : ((sessionMachine ackResponses).exec Session.Fresh .new
      ([.init initText] ++ served initText initAck ++ readBack initAck ++
        [.infer 1 (inferText '1')] ++ served (inferText '1') (inferAck '1' person) ++ [.fail] ++
        [.init initText] ++ served initText initAck ++ readBack initAck ++
        [.infer 2 (inferText '2')] ++ served (inferText '2') (inferAck '2' "") ++
        readBack (inferAck '2' ""))).map Session.results =
      some [⟨2, inferText '2', 3, []⟩] := by decide +kernel
  obtain ⟨s, hs, hresults⟩ := Option.map_eq_some_iff.mp hrun
  have hreach : (sessionMachine ackResponses).ReachableBy Session.Fresh s :=
    .of_exec (.init rfl) hs
  exact ⟨s, hresults, responses_match hreach⟩

/-- The response to frame 1 comes after its `infer` has timed out, and the `infer` of frame 2
reads it from the same stream. -/
theorem response_of_earlier_request : ¬ ∀ s, (sessionMachine ackResponses).Reachable s →
    ∀ r ∈ s.results, ∃ i response dets, r.since ≤ i ∧
      s.served[i]? = some ⟨r.request, response⟩ ∧ ackResponses.detections response = some dets ∧
      r.detections = dets.map fun d => ⟨d, r.frameSeq⟩ := by
  have hrun : ((sessionMachine ackResponses).exec (fun _ _ => True) .new
      ([.init initText] ++ served initText initAck ++ readBack initAck ++
        [.infer 1 (inferText '1')] ++ [.write (message (inferText '1')).length] ++ [.fail] ++
        [.receive 4, .receiveBody (inferText '1').length, .answer (inferAck '1' person)] ++
        [.infer 2 (inferText '2')] ++ [.write (message (inferText '2')).length] ++
        readBack (inferAck '1' person))).map (fun s => (s.results, s.served.length)) =
      some ([⟨2, inferText '2', 2, [⟨person, 2⟩]⟩], 2) := by decide +kernel
  obtain ⟨s, hs, hobs⟩ := Option.map_eq_some_iff.mp hrun
  obtain ⟨hresults, hlength⟩ := Prod.mk.inj hobs
  intro hall
  have hreach : (sessionMachine ackResponses).Reachable s := .of_exec (.init rfl) hs
  obtain ⟨i, response, _, hi, hserved, _⟩ :=
    hall s hreach ⟨2, inferText '2', 2, [⟨person, 2⟩]⟩ (by rw [hresults]; exact List.mem_cons_self)
  have hlt : i < s.served.length := (List.getElem?_eq_some_iff.mp hserved).1
  have hge : 2 ≤ i := hi
  omega

end AutoTargeting.Ipc
