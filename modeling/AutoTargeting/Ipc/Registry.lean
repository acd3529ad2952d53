import AutoTargeting.Ipc.SharedFrames

namespace AutoTargeting.Ipc

/-- Some client or connection has this segment. -/
def System.Uses (s : System) (shm : FrameShm) : Prop :=
  (∃ k, ∃ c ∈ s.clients k, c.frameShm = some shm) ∨
    ∃ conn ∈ s.connections, conn.transport = some shm

structure Registry (s : System) : Prop where
  ids : ∀ conn ∈ s.connections, conn.id < s.nextConnection
  streams : ∀ k, ∀ c ∈ s.clients k, ∀ id ∈ c.stream, id < s.nextConnection
  transports : ∀ k, ∀ c ∈ s.clients k, ∀ conn ∈ s.connections,
    c.stream = some conn.id → conn.transport = c.frameShm
  geometry : ∀ shm, s.Uses shm →
    shm.segment < s.nextSegment ∧ 0 < shm.buffers ∧ 0 < shm.frameSize
  segments : ∀ a b, s.Uses a → s.Uses b → a.segment = b.segment → a = b

/-- No client of `s'` has a connection or a segment that it did not have in `s`. -/
structure Inherits (s s' : System) : Prop where
  clients : ∀ k, ∀ c' ∈ s'.clients k, (c'.stream = none ∧ c'.frameShm = none) ∨
    ∃ c ∈ s.clients k, c'.stream = c.stream ∧ c'.frameShm = c.frameShm
  connections : ∀ conn' ∈ s'.connections,
    ∃ conn ∈ s.connections, conn'.id = conn.id ∧ conn'.transport = conn.transport
  nextConnection : s'.nextConnection = s.nextConnection
  nextSegment : s'.nextSegment = s.nextSegment

variable {s s' t : System}

namespace Inherits

theorem same_clients (hclients : s'.clients = s.clients)
    (hconnections : ∀ conn' ∈ s'.connections,
      ∃ conn ∈ s.connections, conn'.id = conn.id ∧ conn'.transport = conn.transport)
    (hnc : s'.nextConnection = s.nextConnection) (hns : s'.nextSegment = s.nextSegment) :
    Inherits s s' := by
  refine ⟨?_, hconnections, hnc, hns⟩
  intro k c hc
  rw [hclients] at hc
  exact .inr ⟨c, hc, rfl, rfl⟩

theorem refl : Inherits s s :=
  same_clients rfl (fun conn hconn => ⟨conn, hconn, rfl, rfl⟩) rfl rfl

theorem trans (h : Inherits s s') (h' : Inherits s' t) : Inherits s t := by
  refine ⟨?_, ?_, h'.nextConnection.trans h.nextConnection, h'.nextSegment.trans h.nextSegment⟩
  · intro k c2 hc2
    rcases h'.clients k c2 hc2 with hnew | ⟨c1, hc1, hstream, hshm⟩
    · exact .inl hnew
    rw [hstream, hshm]
    exact h.clients k c1 hc1
  · intro conn2 hconn2
    obtain ⟨conn1, hconn1, hid, htransport⟩ := h'.connections conn2 hconn2
    rw [hid, htransport]
    exact h.connections conn1 hconn1

theorem uses (h : Inherits s s') {shm : FrameShm} (hshm : s'.Uses shm) : s.Uses shm := by
  rcases hshm with ⟨k, c', hc', hshm⟩ | ⟨conn', hconn', hshm⟩
  · rcases h.clients k c' hc' with ⟨_, hnone⟩ | ⟨c, hc, _, heq⟩
    · rw [hnone] at hshm
      cases hshm
    · exact .inl ⟨k, c, hc, heq.symm.trans hshm⟩
  · obtain ⟨conn, hconn, _, heq⟩ := h.connections conn' hconn'
    exact .inr ⟨conn, hconn, heq.symm.trans hshm⟩

end Inherits

theorem Registry.inherit (h : Registry s) (hs : Inherits s s') : Registry s' where
  ids conn' hconn' := by
    obtain ⟨conn, hconn, hid, _⟩ := hs.connections conn' hconn'
    rw [hid, hs.nextConnection]
    exact h.ids conn hconn
  streams k c' hc' id hid := by
    rcases hs.clients k c' hc' with ⟨hnone, _⟩ | ⟨c, hc, hstream, _⟩
    · rw [hnone] at hid
      cases hid
    rw [hs.nextConnection]
    rw [hstream] at hid
    exact h.streams k c hc id hid
  transports k c' hc' conn' hconn' hid := by
    rcases hs.clients k c' hc' with ⟨hnone, _⟩ | ⟨c, hc, hstream, hshm⟩
    · rw [hnone] at hid
      cases hid
    obtain ⟨conn, hconn, hsame, htransport⟩ := hs.connections conn' hconn'
    rw [htransport, hshm]
    rw [hstream, hsame] at hid
    exact h.transports k c hc conn hconn hid
  geometry shm hshm := by
    rw [hs.nextSegment]
    exact h.geometry shm (hs.uses hshm)
  segments a b ha hb := h.segments a b (hs.uses ha) (hs.uses hb)

theorem mem_setClient {k k' : ℕ} {c : Option Client} {c' : Client}
    (h : c' ∈ (s.setClient k c).clients k') :
    (k' = k ∧ c = some c') ∨ (k' ≠ k ∧ c' ∈ s.clients k') := by
  unfold System.setClient at h
  by_cases hk : k' = k
  · rw [hk, Option.mem_def] at h
    exact .inl ⟨hk, (Function.update_self k c s.clients).symm.trans h⟩
  · rw [Option.mem_def] at h
    exact .inr ⟨hk, (Function.update_of_ne hk c s.clients).symm.trans h⟩

theorem setClient_inherits {k : ℕ} {c : Option Client}
    (h : ∀ c' ∈ c, (c'.stream = none ∧ c'.frameShm = none) ∨
      ∃ c0 ∈ s.clients k, c'.stream = c0.stream ∧ c'.frameShm = c0.frameShm) :
    Inherits s (s.setClient k c) := by
  refine ⟨?_, fun conn hconn => ⟨conn, hconn, rfl, rfl⟩, rfl, rfl⟩
  intro k' c' hc'
  rcases mem_setClient hc' with ⟨hk, hc⟩ | ⟨_, hold⟩
  · rw [hk]
    exact h c' hc
  · exact .inr ⟨c', hold, rfl, rfl⟩

theorem pushTo_id (id : ℕ) (r : Request) (conn : Connection) : (pushTo id r conn).id = conn.id := by
  unfold pushTo
  split <;> rfl

theorem pushTo_transport (id : ℕ) (r : Request) (conn : Connection) :
    (pushTo id r conn).transport = conn.transport := by
  unfold pushTo
  split <;> rfl

theorem pushTo_inStep (id : ℕ) (r : Request) (conn : Connection) :
    (pushTo id r conn).inStep = conn.inStep := by
  unfold pushTo
  split <;> rfl

theorem mem_pushTo {id : ℕ} {r q : Request} {conn : Connection} (h : q ∈ (pushTo id r conn).queue) :
    q ∈ conn.queue ∨ (conn.id = id ∧ q = r) := by
  unfold pushTo at h
  split at h
  case isTrue hid =>
    rcases List.mem_append.mp h with hold | hnew
    · exact .inl hold
    · exact .inr ⟨hid, List.mem_singleton.mp hnew⟩
  case isFalse => exact .inl h

/-- What a client sends changes nothing but the connections. -/
theorem send_eq (s : System) (c : Client) (r : Request) (sent : Bool) :
    s.send c r sent = s ∨ ∃ id, c.stream = some id ∧
      s.send c r sent = { s with connections := s.connections.map (pushTo id r) } := by
  unfold System.send
  cases hstream : c.stream with
  | none => exact .inl rfl
  | some id =>
    cases sent with
    | false => exact .inl rfl
    | true => exact .inr ⟨id, rfl, rfl⟩

theorem send_inherits (s : System) (c : Client) (r : Request) (sent : Bool) :
    Inherits s (s.send c r sent) := by
  rcases send_eq s c r sent with h | ⟨id, _, h⟩
  · rw [h]
    exact .refl
  rw [h]
  refine Inherits.same_clients rfl ?_ rfl rfl
  intro conn' hconn'
  obtain ⟨conn, hconn, heq⟩ := List.mem_map.mp hconn'
  rw [← heq]
  exact ⟨conn, hconn, pushTo_id id r conn, pushTo_transport id r conn⟩

/-- What `prepareShm` leaves as it was, and the segment it may create. -/
structure Prepared (s : System) (c : Client) (s' : System) (c' : Client)
    (ann : Option Announcement) : Prop where
  clients : s'.clients = s.clients
  connections : s'.connections = s.connections
  nextConnection : s'.nextConnection = s.nextConnection
  bridge : s'.bridge = s.bridge
  answers : s'.answers = s.answers
  memory : ∀ segment < s.nextSegment, s'.memory segment = s.memory segment
  announced : ∀ a ∈ ann, ∃ shm ∈ c'.frameShm, a = shm.announcement
  segment : (c'.frameShm = c.frameShm ∧ s'.nextSegment = s.nextSegment) ∨
    ∃ shm, c'.frameShm = some shm ∧ shm.segment = s.nextSegment ∧ 0 < shm.buffers ∧
      0 < shm.frameSize ∧ s'.nextSegment = s.nextSegment + 1

section
variable {k : ℕ} {c c' : Client} {ann : Option Announcement} {sent : Bool}

theorem mem_connect {conn : Connection} (hp : Prepared s c s' c' ann)
    (h : conn ∈ (s'.connect k c' ann sent).connections) :
    conn ∈ s.connections ∨
      conn = ⟨s.nextConnection, if sent then [.init ann] else [], c'.frameShm, false⟩ := by
  rw [← hp.connections, ← hp.nextConnection]
  rcases List.mem_append.mp h with hold | hnew
  · exact .inl hold
  · exact .inr (List.mem_singleton.mp hnew)

theorem mem_clients_connect {k' : ℕ} {c1 : Client} (hp : Prepared s c s' c' ann)
    (h : c1 ∈ (s'.connect k c' ann sent).clients k') :
    (k' = k ∧ c1 = { c' with stream := some s.nextConnection }) ∨ c1 ∈ s.clients k' := by
  rw [← hp.clients, ← hp.nextConnection]
  rcases mem_setClient h with ⟨hk, hc⟩ | ⟨_, hold⟩
  · exact .inl ⟨hk, (Option.some.inj hc).symm⟩
  · exact .inr hold

/-- A segment in use after `init` was in use before, or is the new one. -/
theorem uses_connect {shm : FrameShm} (hp : Prepared s c s' c' ann) (hc : c ∈ s.clients k)
    (h : (s'.connect k c' ann sent).Uses shm) :
    s.Uses shm ∨ (c'.frameShm = some shm ∧ shm.segment = s.nextSegment ∧ 0 < shm.buffers ∧
      0 < shm.frameSize ∧ s'.nextSegment = s.nextSegment + 1) := by
  have hown : c'.frameShm = some shm → s.Uses shm ∨ (c'.frameShm = some shm ∧
      shm.segment = s.nextSegment ∧ 0 < shm.buffers ∧ 0 < shm.frameSize ∧
      s'.nextSegment = s.nextSegment + 1) := by
    intro hshm
    rcases hp.segment with ⟨hold, _⟩ | ⟨shm', hnew, hrest⟩
    · exact .inl (.inl ⟨k, c, hc, hold.symm.trans hshm⟩)
    · have heq : shm' = shm := Option.some.inj (hnew.symm.trans hshm)
      rw [heq] at hrest
      exact .inr ⟨hshm, hrest⟩
  rcases h with ⟨k', c1, hc1, hshm⟩ | ⟨conn, hconn, hshm⟩
  · rcases mem_clients_connect hp hc1 with ⟨_, heq⟩ | hold
    · rw [heq] at hshm
      exact hown hshm
    · exact .inl (.inl ⟨k', c1, hold, hshm⟩)
  · rcases mem_connect hp hconn with hold | heq
    · exact .inl (.inr ⟨conn, hold, hshm⟩)
    · rw [heq] at hshm
      exact hown hshm

theorem Prepared.nextSegment_le (hp : Prepared s c s' c' ann) :
    s.nextSegment ≤ s'.nextSegment := by
  rcases hp.segment with ⟨_, hsame⟩ | ⟨_, _, _, _, _, hnext⟩ <;> omega

theorem connect_registry (h : Registry s) (hp : Prepared s c s' c' ann) (hc : c ∈ s.clients k) :
    Registry (s'.connect k c' ann sent) where
  ids conn hconn := by
    show conn.id < s'.nextConnection + 1
    rw [hp.nextConnection]
    rcases mem_connect hp hconn with hold | heq
    · exact Nat.lt_succ_of_lt (h.ids conn hold)
    · rw [heq]
      exact Nat.lt_succ_self _
  streams k' c1 hc1 id hid := by
    show id < s'.nextConnection + 1
    rw [hp.nextConnection]
    rcases mem_clients_connect hp hc1 with ⟨_, heq⟩ | hold
    · rw [heq] at hid
      -- the stream of the client is the new connection
      have hnew : s.nextConnection = id := Option.some.inj hid
      omega
    · exact Nat.lt_succ_of_lt (h.streams k' c1 hold id hid)
  transports k' c1 hc1 conn hconn hstream := by
    rcases mem_clients_connect hp hc1 with ⟨_, heq⟩ | hc1
    · rw [heq] at hstream ⊢
      have hid : s.nextConnection = conn.id := Option.some.inj hstream
      rcases mem_connect hp hconn with hold | hnew
      · have hlt := h.ids conn hold
        omega
      · rw [hnew]
    · rcases mem_connect hp hconn with hold | hnew
      · exact h.transports k' c1 hc1 conn hold hstream
      · rw [hnew] at hstream
        exact absurd (h.streams k' c1 hc1 _ hstream) (Nat.lt_irrefl _)
  geometry shm hshm := by
    show shm.segment < s'.nextSegment ∧ _
    have hle := hp.nextSegment_le
    rcases uses_connect hp hc hshm with hold | ⟨_, hsegment, hbuffers, hsize, hnext⟩
    · obtain ⟨hlt, hrest⟩ := h.geometry shm hold
      exact ⟨by omega, hrest⟩
    · exact ⟨by omega, hbuffers, hsize⟩
  segments a b ha hb hab := by
    rcases uses_connect hp hc ha with ha | ⟨hashm, hasegment, _⟩ <;>
      rcases uses_connect hp hc hb with hb | ⟨hbshm, hbsegment, _⟩
    · exact h.segments a b ha hb hab
    · have hlt := (h.geometry a ha).1
      omega
    · have hlt := (h.geometry b hb).1
      omega
    · exact Option.some.inj (hashm.symm.trans hbshm)

end

end AutoTargeting.Ipc
