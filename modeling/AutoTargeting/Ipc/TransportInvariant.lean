import AutoTargeting.Ipc.Registry

namespace AutoTargeting.Ipc

/-- Every queued request stands. -/
def System.Requests (s : System) : Prop :=
  ∀ conn ∈ s.connections, ∀ r ∈ conn.queue, RequestOk conn.transport s.memory r

/-- The bridge agrees with the connection that it serves, once its init left both in step. -/
structure Service (s : System) : Prop where
  served : ∀ conn ∈ s.connections.head?, conn.inStep = true → s.bridge.Agrees conn.transport
  waiting : ∀ conn ∈ s.connections.tail, conn.inStep = false

structure TransportInv (s : System) : Prop where
  registry : Registry s
  requests : s.Requests
  service : Service s
  answered : ∀ a ∈ s.answers, a.frame <+: a.bytes

namespace TransportInv

variable {s s' : System} {k : ℕ} {c : Client}

/-- Clients may change as long as no connection and no segment gets a new owner. -/
theorem congr (h : TransportInv s) (hs : Inherits s s')
    (hconnections : s'.connections = s.connections) (hmemory : s'.memory = s.memory)
    (hbridge : s'.bridge = s.bridge) (hanswers : s'.answers = s.answers) : TransportInv s' where
  registry := h.registry.inherit hs
  requests := by
    unfold System.Requests
    rw [hconnections, hmemory]
    exact h.requests
  service := by
    constructor
    · rw [hconnections, hbridge]
      exact h.service.served
    · rw [hconnections]
      exact h.service.waiting
  answered := by
    rw [hanswers]
    exact h.answered

theorem setClient (h : TransportInv s) {c' : Option Client}
    (hc : ∀ c1 ∈ c', (c1.stream = none ∧ c1.frameShm = none) ∨
      ∃ c0 ∈ s.clients k, c1.stream = c0.stream ∧ c1.frameShm = c0.frameShm) :
    TransportInv (s.setClient k c') :=
  h.congr (setClient_inherits hc) rfl rfl rfl rfl

theorem send (h : TransportInv s) {r : Request} {sent : Bool}
    (hr : ∀ conn ∈ s.connections, c.stream = some conn.id → RequestOk conn.transport s.memory r) :
    TransportInv (s.send c r sent) := by
  have hinherits := send_inherits s c r sent
  rcases send_eq s c r sent with heq | ⟨id, hstream, heq⟩
  · rw [heq]
    exact h
  rw [heq] at hinherits ⊢
  refine ⟨h.registry.inherit hinherits, ?_, ⟨?_, ?_⟩, h.answered⟩
  · intro conn' hconn' q hq
    obtain ⟨conn, hconn, hpush⟩ := List.mem_map.mp hconn'
    rw [← hpush] at hq ⊢
    rw [pushTo_transport]
    rcases mem_pushTo hq with hold | ⟨hid, hnew⟩
    · exact h.requests conn hconn q hold
    · rw [hnew]
      exact hr conn hconn (by rw [hstream, hid])
  · intro conn' hconn' hin
    rw [List.head?_map] at hconn'
    obtain ⟨conn, hconn, hpush⟩ := Option.map_eq_some_iff.mp hconn'
    rw [← hpush] at hin ⊢
    rw [pushTo_inStep] at hin
    rw [pushTo_transport]
    exact h.service.served conn hconn hin
  · intro conn' hconn'
    rw [← List.map_tail] at hconn'
    obtain ⟨conn, hconn, hpush⟩ := List.mem_map.mp hconn'
    rw [← hpush, pushTo_inStep]
    exact h.service.waiting conn hconn

theorem write (h : TransportInv s) {shm : FrameShm} {index : ℕ} {data : List UInt8}
    (hshm : s.Uses shm) (hfit : data.length ≤ shm.frameSize)
    (hfree : ¬ s.Overwrites shm.segment index data) :
    TransportInv { s with memory := shm.write s.memory index data } where
  registry := h.registry.inherit
    (.same_clients rfl (fun conn hconn => ⟨conn, hconn, rfl, rfl⟩) rfl rfl)
  requests := by
    intro conn hconn r hr
    apply (h.requests conn hconn r hr).congr
    intro shm' hshm' i frame hframe hlength hholds
    by_cases hsegment : shm'.segment = shm.segment
    · have heq : shm' = shm := h.registry.segments _ _ (.inr ⟨conn, hconn, hshm'⟩) hshm hsegment
      rw [heq] at hshm' hlength hholds ⊢
      by_cases hi : i = index
      · rw [hi] at hframe hholds ⊢
        apply holds_write_compatible hholds
        by_contra hclash
        apply hfree ⟨conn, hconn, ⟨shm, hshm', rfl⟩, r, hr, ?_⟩
        rw [hframe]
        exact ⟨rfl, hclash⟩
      · exact holds_write_ne hholds hi hlength hfit
    · exact hholds.congr (write_other hsegment)
  service := ⟨h.service.served, h.service.waiting⟩
  answered := h.answered

/-- The new connection waits, and its request stands. -/
theorem connect {c' : Client} {ann : Option Announcement} {sent : Bool} (h : TransportInv s)
    (hp : Prepared s c s' c' ann) (hc : c ∈ s.clients k) :
    TransportInv (s'.connect k c' ann sent) := by
  have hconns : (s'.connect k c' ann sent).connections = s.connections ++
      [⟨s.nextConnection, if sent then [.init ann] else [], c'.frameShm, false⟩] := by
    rw [← hp.connections, ← hp.nextConnection]
    rfl
  refine ⟨connect_registry h.registry hp hc, ?_, ⟨?_, ?_⟩, ?_⟩
  · intro conn hconn r hr
    rcases mem_connect hp hconn with hold | hnew
    · -- what the client writes into its new segment is in no older one
      apply (h.requests conn hold r hr).congr
      intro shm hshm i frame _ _ hholds
      have hlt := (h.registry.geometry shm (.inr ⟨conn, hold, hshm⟩)).1
      exact hholds.congr (hp.memory shm.segment hlt)
    · rw [hnew] at hr ⊢
      cases sent with
      | false => cases hr
      | true =>
        rw [List.mem_singleton.mp hr]
        exact hp.announced
  · intro conn hconn hin
    have hbridge : (s'.connect k c' ann sent).bridge = s.bridge := hp.bridge
    rw [hbridge]
    rw [hconns] at hconn
    cases hold : s.connections with
    | nil =>
      rw [hold] at hconn
      rw [← Option.some.inj hconn] at hin
      cases hin
    | cons first rest =>
      rw [hold] at hconn
      apply h.service.served conn ?_ hin
      rw [hold]
      exact hconn
  · intro conn hconn
    rw [hconns] at hconn
    cases hold : s.connections with
    | nil =>
      rw [hold] at hconn
      cases hconn
    | cons first rest =>
      rw [hold] at hconn
      rcases List.mem_append.mp hconn with hrest | hlast
      · apply h.service.waiting conn
        rw [hold]
        exact hrest
      · rw [List.mem_singleton.mp hlast]
  · have hanswers : (s'.connect k c' ann sent).answers = s.answers := hp.answers
    rw [hanswers]
    exact h.answered

/-- The frame of an `infer` is in its request, or in a buffer that no earlier request names. -/
theorem infer (h : TransportInv s) (hc : c ∈ s.clients k) {data : List UInt8} {sent : Bool}
    (hkeeps : s.KeepsStep (.infer k data sent)) : TransportInv (s.infer k c data sent) := by
  unfold System.infer
  split
  case isTrue => exact h
  case isFalse hinit =>
    have hinit : c.initialized = true := by
      cases hc : c.initialized with
      | true => rfl
      | false => exact absurd (by rw [hc]; rfl) hinit
    have hset : TransportInv
        (s.setClient k (some { c with shmBufCursor := (c.shmBufCursor + 1) % 2 ^ 32 })) := by
      apply h.setClient
      intro c1 hc1
      rw [← Option.some.inj hc1]
      exact .inr ⟨c, hc, rfl, rfl⟩
    split
    case h_1 shm hshm =>
      dsimp only
      split
      case h_1 => exact hset
      case h_2 memory hwrite =>
        obtain ⟨hindex, hfit, hmemory⟩ := writeFrame_eq hwrite
        have huses : (s.setClient k (some
            { c with shmBufCursor := (c.shmBufCursor + 1) % 2 ^ 32 })).Uses shm :=
          .inl ⟨k, _, Function.update_self k _ _, hshm⟩
        rw [hmemory]
        apply (hset.write huses hfit (hkeeps c hc hinit shm hshm hfit)).send
        intro conn hconn hstream
        have htransport := h.registry.transports k c hc conn hconn hstream
        exact ⟨shm, htransport.trans hshm, hindex, hfit, write_holds shm _ _ data⟩
    case h_2 hnone =>
      apply h.send
      intro conn hconn hstream
      exact ⟨(h.registry.transports k c hc conn hconn hstream).trans hnone, rfl⟩

/-- Requests leave the queues, and connections close. -/
theorem shorten (h : TransportInv s)
    (hsub : ∀ conn' ∈ s'.connections, ∃ conn ∈ s.connections,
      conn'.id = conn.id ∧ conn'.transport = conn.transport ∧ conn'.queue ⊆ conn.queue)
    (hclients : s'.clients = s.clients) (hmemory : s'.memory = s.memory)
    (hnc : s'.nextConnection = s.nextConnection) (hns : s'.nextSegment = s.nextSegment)
    (hservice : Service s') (hanswered : ∀ a ∈ s'.answers, a.frame <+: a.bytes) :
    TransportInv s' where
  registry := by
    apply h.registry.inherit
    refine .same_clients hclients ?_ hnc hns
    intro conn' hconn'
    obtain ⟨conn, hconn, hid, htransport, _⟩ := hsub conn' hconn'
    exact ⟨conn, hconn, hid, htransport⟩
  requests := by
    intro conn' hconn' r hr
    obtain ⟨conn, hconn, _, htransport, hqueue⟩ := hsub conn' hconn'
    rw [htransport, hmemory]
    exact h.requests conn hconn r (hqueue hr)
  service := hservice
  answered := hanswered

theorem restart (h : TransportInv s) :
    TransportInv { s with bridge := .start, connections := [] } :=
  h.shorten (fun _ hconn => nomatch hconn) rfl rfl rfl rfl
    ⟨fun _ hconn => (nomatch hconn), fun _ hconn => (nomatch hconn)⟩ h.answered

section
variable {conn : Connection} {rest : List Connection}

theorem waiting_rest (h : TransportInv s) (hconns : s.connections = conn :: rest) :
    ∀ other ∈ rest, other ∈ s.connections ∧ other.inStep = false := by
  intro other hother
  constructor
  · rw [hconns]
    exact List.mem_cons_of_mem conn hother
  · apply h.service.waiting
    rw [hconns]
    exact hother

theorem hangUp (h : TransportInv s) (hconns : s.connections = conn :: rest) :
    TransportInv { s with connections := rest } := by
  have hrest := h.waiting_rest hconns
  refine h.shorten ?_ rfl rfl rfl rfl ⟨?_, ?_⟩ h.answered
  · intro other hother
    exact ⟨other, (hrest other hother).1, rfl, rfl, fun _ hr => hr⟩
  · intro other hother hin
    rw [(hrest other (List.mem_of_mem_head? hother)).2] at hin
    cases hin
  · intro other hother
    exact (hrest other (List.mem_of_mem_tail hother)).2

/-- The first request of the connection that is served leaves its queue. -/
theorem take (h : TransportInv s) (hconns : s.connections = conn :: rest) {r : Request}
    {queue : List Request} {inStep : Bool} (hqueue : conn.queue = r :: queue)
    (htaken : s'.connections = { conn with queue, inStep } :: rest)
    (hclients : s'.clients = s.clients) (hmemory : s'.memory = s.memory)
    (hnc : s'.nextConnection = s.nextConnection) (hns : s'.nextSegment = s.nextSegment)
    (hserved : inStep = true → s'.bridge.Agrees conn.transport)
    (hanswered : ∀ a ∈ s'.answers, a.frame <+: a.bytes) : TransportInv s' := by
  have hrest := h.waiting_rest hconns
  refine h.shorten ?_ hclients hmemory hnc hns ⟨?_, ?_⟩ hanswered
  · intro other hother
    rw [htaken] at hother
    rcases List.mem_cons.mp hother with heq | hmem
    · rw [heq]
      refine ⟨conn, ?_, rfl, rfl, ?_⟩
      · rw [hconns]
        exact List.mem_cons_self
      · rw [hqueue]
        exact List.subset_cons_self r queue
    · exact ⟨other, (hrest other hmem).1, rfl, rfl, fun _ hr => hr⟩
  · intro first hfirst hin
    rw [htaken] at hfirst
    rw [← Option.some.inj hfirst] at hin ⊢
    exact hserved hin
  · intro other hother
    rw [htaken] at hother
    exact (hrest other hother).2

end

theorem handle (h : TransportInv s) {loaded opened : Bool}
    (hkeeps : s.KeepsStep (.handle loaded opened)) (hs : s.handle loaded opened = some s') :
    TransportInv s' := by
  unfold System.handle at hs
  split at hs
  case h_1 => cases hs
  case h_2 conn rest hconns =>
    have hconn : conn ∈ s.connections := by
      rw [hconns]
      exact List.mem_cons_self
    have hhead : conn ∈ s.connections.head? := by
      rw [hconns]
      rfl
    have hok : ∀ r queue, conn.queue = r :: queue → RequestOk conn.transport s.memory r := by
      intro r queue hqueue
      apply h.requests conn hconn
      rw [hqueue]
      exact List.mem_cons_self
    split at hs
    case h_1 => cases hs
    case h_2 ann queue hqueue =>
      -- an `init`: from here on both sides use the announced segment
      rw [← Option.some.inj hs]
      refine h.take hconns hqueue rfl rfl rfl rfl rfl (fun hin => ?_) h.answered
      apply onInit_agrees (hok _ _ hqueue) ?_ (of_decide_eq_true hin)
      intro shm hshm
      exact (h.registry.geometry shm (.inr ⟨conn, hconn, hshm⟩)).2
    case h_3 ref frame queue hqueue =>
      rw [← Option.some.inj hs]
      refine h.take hconns hqueue rfl rfl rfl rfl rfl (h.service.served conn hhead) ?_
      intro a ha
      rcases List.mem_append.mp ha with hold | hnew
      · exact h.answered a hold
      rw [List.mem_singleton.mp hnew]
      by_cases hempty : frame = []
      · -- an empty frame is the prefix of whatever the bridge decodes
        rw [hempty]
        exact List.nil_prefix
      · have hin : conn.inStep = true := by
          apply hkeeps conn hhead (.infer ref frame) ?_ hempty
          rw [hqueue]
          rfl
        exact (hok _ _ hqueue).frameData (h.service.served conn hhead hin)
    case h_4 =>
      rw [← Option.some.inj hs]
      exact h.restart

theorem drop (h : TransportInv s) (c : Client) (sent : Bool) : TransportInv (s.drop k c sent) := by
  unfold System.drop
  have hsent : TransportInv (if c.initialized then s.send c .shutdown sent else s) := by
    split
    · exact h.send fun _ _ _ => trivial
    · exact h
  apply TransportInv.setClient
  · -- the file of the frame buffer is removed
    split
    · exact hsent.congr (.same_clients rfl (fun conn hconn => ⟨conn, hconn, rfl, rfl⟩) rfl rfl)
        rfl rfl rfl rfl
    · exact hsent
  · intro _ hnone
    cases hnone

end TransportInv

end AutoTargeting.Ipc
