import AutoTargeting.Ring.Invariant

namespace AutoTargeting.Ring

open Runs

variable {c : CheckedConfig} {producerPid i w : ℕ} {r : Region} {pc : ProducerPc} {s s' : State}

/-- What `publish` returns at this event. -/
def State.answered (c : CheckedConfig) (s : State) :
    Event → List (Except RingError PublishResult)
  | .publish data tsNs =>
    match ProducerPc.enter c data tsNs with
    | .ok _ => []
    | .error e => [.error e]
  | .producerStep => (s.producer.step c s.region).result.toList
  | .call _ _ | .consumerStep _ | .dropGuard _ | .reap _ _ _ | .reaperStep _ | .spawn _
  | .die _ => []

def publishing (c : CheckedConfig) (producerPid : ℕ) :
    Machine (Logged State (Except RingError PublishResult)) Event :=
  (ring c producerPid).logged (State.answered c)

/-- Nobody calls `recover_stale_slots`, and no process dies but consumers. -/
def Unreaped (producerPid : ℕ) (_ : State) : Event → Prop
  | .publish _ _ | .producerStep | .call _ _ | .consumerStep _ | .dropGuard _ | .spawn _ => True
  | .die pid => pid ≠ producerPid
  | .reap _ _ _ | .reaperStep _ => False

/-- Slot `i` is held, by a guard or by a dead process, and no other slot is. -/
def OnlyHeld (c : CheckedConfig) (i : ℕ) (s : State) : Prop :=
  s.holds i ≠ 0 ∧ ∀ j < c.capacity, j ≠ i → s.holds j = 0

/-- Every call of `publish` passes a frame of the right length. -/
def RightLength (c : CheckedConfig) : Event → Prop
  | .publish data _ => data.length = c.frameSize
  | .producerStep | .call _ _ | .consumerStep _ | .dropGuard _ | .reap _ _ _ | .reaperStep _
  | .spawn _ | .die _ => True

/-- Nothing but slot `i` is held, whatever else goes on. -/
def WhileStuck (c : CheckedConfig) (producerPid i : ℕ)
    (t : Logged State (Except RingError PublishResult)) (e : Event) : Prop :=
  Unreaped producerPid t.state e ∧ OnlyHeld c i t.state ∧ RightLength c e

instance (producerPid : ℕ) (s : State) (e : Event) : Decidable (Unreaped producerPid s e) :=
  match e with
  | .publish _ _ | .producerStep | .call _ _ | .consumerStep _ | .dropGuard _ | .spawn _ =>
    inferInstanceAs (Decidable True)
  | .die pid => inferInstanceAs (Decidable (pid ≠ producerPid))
  | .reap _ _ _ | .reaperStep _ => inferInstanceAs (Decidable False)

instance (c : CheckedConfig) (i : ℕ) (s : State) : Decidable (OnlyHeld c i s) :=
  inferInstanceAs (Decidable (_ ∧ _))

instance (c : CheckedConfig) (e : Event) : Decidable (RightLength c e) :=
  match e with
  | .publish data _ => inferInstanceAs (Decidable (data.length = c.frameSize))
  | .producerStep | .call _ _ | .consumerStep _ | .dropGuard _ | .reap _ _ _ | .reaperStep _
  | .spawn _ | .die _ => inferInstanceAs (Decidable True)

instance (c : CheckedConfig) (producerPid i : ℕ)
    (t : Logged State (Except RingError PublishResult)) (e : Event) :
    Decidable (WhileStuck c producerPid i t e) :=
  inferInstanceAs (Decidable (_ ∧ _ ∧ _))

theorem unreaped_careful (s : State) (e : Event) (h : Unreaped producerPid s e) :
    Careful producerPid s e := by
  cases e with
  | publish | producerStep | call | consumerStep | dropGuard | spawn => exact ⟨nofun, trivial⟩
  | die pid => exact ⟨fun hd => h (Event.die.inj hd), trivial⟩
  | reap | reaperStep => cases h

/-- How many frames after `w` go to other slots before it is the turn of slot `i`. -/
def framesBefore (c : CheckedConfig) (i w : ℕ) : ℕ :=
  (i + c.capacity - (w + 1) % c.capacity) % c.capacity

theorem framesBefore_lt (c : CheckedConfig) (i w : ℕ) : framesBefore c i w < c.capacity :=
  Nat.mod_lt _ c.capacity_pos

/-- The frame after them goes to slot `i`. -/
theorem slot_after_frames (hi : i < c.capacity) : (w + framesBefore c i w + 1) % c.capacity = i := by
  have hlt := Nat.mod_lt (w + 1) c.capacity_pos
  have hdiv := Nat.div_add_mod (w + 1) c.capacity
  have hsum : w + 1 + (i + c.capacity - (w + 1) % c.capacity) =
      i + c.capacity * ((w + 1) / c.capacity + 1) := by
    rw [Nat.mul_add]
    omega
  calc (w + framesBefore c i w + 1) % c.capacity
      = (w + 1 + framesBefore c i w) % c.capacity := by rw [Nat.add_right_comm]
    _ = (w + 1 + (i + c.capacity - (w + 1) % c.capacity)) % c.capacity := Nat.add_mod_mod ..
    _ = i := by rw [hsum, Nat.add_mul_mod_self_left, Nat.mod_eq_of_lt hi]

theorem slot_before {k : ℕ} (hi : i < c.capacity) (hk : k < framesBefore c i w) :
    (w + k + 1) % c.capacity ≠ i := by
  intro hslot
  have hmod : (w + framesBefore c i w + 1) % c.capacity = (w + k + 1) % c.capacity :=
    (slot_after_frames hi).trans hslot.symm
  have hdvd := Nat.dvd_of_mod_eq_zero (Nat.sub_mod_eq_zero_of_mod_eq hmod)
  have hle := Nat.le_of_dvd (by omega) hdvd
  have hlt := framesBefore_lt c i w
  omega

theorem framesBefore_eq_zero (hi : i < c.capacity) :
    framesBefore c i w = 0 ↔ (w + 1) % c.capacity = i := by
  constructor
  · intro h0
    have := slot_after_frames (w := w) hi
    rwa [h0] at this
  · intro hslot
    by_contra h0
    exact slot_before (k := 0) hi (Nat.pos_of_ne_zero h0) hslot

/-- What the call number `k` returns that comes after frame `w`, with slot `i` stuck: the
calls before its turn publish, the others drop, up to the end of the frame ids. -/
def StuckResult (c : CheckedConfig) (i w k : ℕ) (x : Except RingError PublishResult) : Prop :=
  if 2 ^ 64 ≤ w + min k (framesBefore c i w) + 1 then x = .error (.corrupted "frame id overflow")
  else if k < framesBefore c i w then x = .ok (.published (w + k + 1))
  else ∃ reason, x = .ok (.dropped reason)

theorem StuckResult.of_published {k id : ℕ} (h : StuckResult c i w k (.ok (.published id))) :
    framesBefore c i w ≠ 0 ∧ w + 1 < 2 ^ 64 := by
  unfold StuckResult at h
  split at h
  case isTrue => cases h
  case isFalse hlt =>
    split at h
    case isTrue hk => exact ⟨by omega, by omega⟩
    case isFalse => obtain ⟨reason, h⟩ := h; cases h

theorem StuckResult.first {x : Except RingError PublishResult} (h : StuckResult c i w 0 x)
    (h0 : framesBefore c i w ≠ 0) (hlt : w + 1 < 2 ^ 64) : x = .ok (.published (w + 1)) := by
  unfold StuckResult at h
  rwa [if_neg (by omega), if_pos (Nat.pos_of_ne_zero h0)] at h

/-- With slot `i` stuck, the call under way writes another slot or is about to drop the frame
that would go there. -/
def ProducerPc.AroundSlot (c : CheckedConfig) (i : ℕ) : ProducerPc → Prop
  | idle | loadSeq _ _ | takeSlot _ => True
  | loadReaders p | countDrop p _ => p.idx c = i
  | copy p _ | writeWidth p | writeHeight p | writeFormat p | storeId p | releaseSlot p
  | storeSeq p => p.idx c ≠ i

theorem around_step
    (hfree : ∀ p, pc = .takeSlot p → ((r.slot (p.idx c)).refCount = 0 ↔ p.idx c ≠ i))
    (h : pc.AroundSlot c i) : (pc.step c r).pc.AroundSlot c i := by
  cases pc with
  | idle | countDrop | storeSeq => trivial
  | loadSeq data tsNs => simp only [ProducerPc.step]; split <;> trivial
  | takeSlot p =>
    simp only [ProducerPc.step]
    split
    case isTrue h0 => exact (hfree p rfl).mp h0
    case isFalse h0 =>
      by_contra hne
      exact h0 ((hfree p rfl).mpr hne)
  | copy p k => simp only [ProducerPc.step]; split <;> exact h
  | loadReaders | writeWidth | writeHeight | writeFormat | storeId | releaseSlot => exact h

/-- A call returns from three places: no id was left, its slot was held, or it published. -/
theorem producer_result (c : CheckedConfig) (r : Region) (pc : ProducerPc) :
    ((pc.step c r).result = none ∧ (pc.step c r).region.writeSeq = r.writeSeq) ∨
    (2 ^ 64 ≤ r.writeSeq + 1 ∧ (pc.step c r).region.writeSeq = r.writeSeq ∧
      (pc.step c r).result = some (.error (.corrupted "frame id overflow"))) ∨
    (∃ p cur, pc = .countDrop p cur ∧ (pc.step c r).region.writeSeq = r.writeSeq ∧
      (pc.step c r).result = some (.ok (.dropped (ProducerPc.dropReason c p cur)))) ∨
    ∃ p, pc = .storeSeq p ∧ (pc.step c r).region.writeSeq = p.frameId ∧
      (pc.step c r).result = some (.ok (.published p.frameId)) := by
  cases pc with
  | loadSeq data tsNs =>
    simp only [ProducerPc.step]
    split
    case isTrue => exact .inl ⟨rfl, rfl⟩
    case isFalse hlt => exact .inr (.inl ⟨by omega, rfl, rfl⟩)
  | takeSlot p => simp only [ProducerPc.step]; split <;> exact .inl ⟨rfl, rfl⟩
  | copy p k => simp only [ProducerPc.step]; split <;> exact .inl ⟨rfl, rfl⟩
  | countDrop p cur => exact .inr (.inr (.inl ⟨p, cur, rfl, rfl, rfl⟩))
  | storeSeq p => exact .inr (.inr (.inr ⟨p, rfl, rfl, rfl⟩))
  | idle | loadReaders | writeWidth | writeHeight | writeFormat | storeId | releaseSlot =>
    exact .inl ⟨rfl, rfl⟩

/-- After frame `w` slot `i` got stuck: `write_seq` moved with each call that published. -/
structure Stuck (c : CheckedConfig) (producerPid i w : ℕ)
    (t : Logged State (Except RingError PublishResult)) : Prop where
  inv : Inv c producerPid t.state
  around : t.state.producer.AroundSlot c i
  seq : t.state.region.writeSeq =
    w + min (min t.log.length (framesBefore c i w)) (2 ^ 64 - 1 - w)
  results : ∀ k x, t.log[k]? = some x → StuckResult c i w k x

variable {t t' : Logged State (Except RingError PublishResult)}

theorem Stuck.silent (h : Stuck c producerPid i w t) (hinv : Inv c producerPid s')
    (haround : s'.producer.AroundSlot c i) (hseq : s'.region.writeSeq = t.state.region.writeSeq) :
    Stuck c producerPid i w ⟨s', t.log⟩ :=
  ⟨hinv, haround, hseq.trans h.seq, h.results⟩

theorem Stuck.answer (h : Stuck c producerPid i w t) (hinv : Inv c producerPid s')
    (haround : s'.producer.AroundSlot c i) {x : Except RingError PublishResult}
    (hseq : s'.region.writeSeq =
      w + min (min (t.log.length + 1) (framesBefore c i w)) (2 ^ 64 - 1 - w))
    (hx : StuckResult c i w t.log.length x) : Stuck c producerPid i w ⟨s', t.log ++ [x]⟩ := by
  refine ⟨hinv, haround, ?_, fun k y hy => ?_⟩
  · rw [List.length_append]
    exact hseq
  · rcases Nat.lt_trichotomy k t.log.length with hk | rfl | hk
    · rw [List.getElem?_append_left hk] at hy
      exact h.results k y hy
    · rw [List.getElem?_concat_length] at hy
      cases hy
      exact hx
    · have hnone : (t.log ++ [x])[k]? = none := by
        rw [List.getElem?_eq_none_iff, List.length_append]
        exact hk
      rw [hnone] at hy
      cases hy

/-- A call that has its id is the first one after the frames published so far. -/
theorem Stuck.nextId (h : Stuck c producerPid i w t) {p : Publication}
    (hp : t.state.producer.publication = some p) :
    p.frameId = w + min t.log.length (framesBefore c i w) + 1 ∧ p.frameId < 2 ^ 64 := by
  obtain ⟨hid, hlt, -⟩ := h.inv.frames.next p hp
  have hseq := h.seq
  omega

theorem Stuck.dropped (h : Stuck c producerPid i w t) (hi : i < c.capacity) {p : Publication}
    (hp : t.state.producer.publication = some p) (hslot : p.idx c = i) :
    framesBefore c i w ≤ t.log.length := by
  obtain ⟨hid, -⟩ := h.nextId hp
  by_contra hlt
  rw [Publication.idx, hid, Nat.min_eq_left (by omega)] at hslot
  exact slot_before hi (by omega) hslot

theorem Stuck.published (h : Stuck c producerPid i w t) (hi : i < c.capacity) {p : Publication}
    (hp : t.state.producer.publication = some p) (hslot : p.idx c ≠ i) :
    t.log.length < framesBefore c i w := by
  obtain ⟨hid, -⟩ := h.nextId hp
  by_contra hge
  rw [Publication.idx, hid, Nat.min_eq_right (by omega)] at hslot
  exact hslot (slot_after_frames hi)

theorem stuck_producerStep (h : Stuck c producerPid i w t) (hi : i < c.capacity)
    (hheld : OnlyHeld c i t.state) (hs : t.state.step c producerPid .producerStep = some s')
    (hinv : Inv c producerPid s') :
    Stuck c producerPid i w ⟨s', t.log ++ t.state.answered c .producerStep⟩ := by
  -- the CAS fails on slot `i` and on no other
  have hfree : ∀ p, t.state.producer = .takeSlot p →
      ((t.state.region.slot (p.idx c)).refCount = 0 ↔ p.idx c ≠ i) := by
    intro p hp
    rw [h.inv.counted.free (p.idx c) (by rw [hp]; exact nofun)]
    constructor
    · rintro h0 rfl
      exact hheld.1 h0
    · exact hheld.2 (p.idx c) (Nat.mod_lt _ c.capacity_pos)
  have haround := around_step (c := c) (r := t.state.region) hfree h.around
  have hold := h.around
  have hseq := h.seq
  have hs' : s' = t.state.afterProducer (t.state.producer.step c t.state.region) := by
    cases step_stepped hs
    rfl
  subst hs'
  simp only [State.answered]
  rcases producer_result c t.state.region t.state.producer with
    ⟨hres, hw⟩ | ⟨hover, hw, hres⟩ | ⟨p, cur, hpc, hw, hres⟩ | ⟨p, hpc, hw, hres⟩ <;> rw [hres]
  · rw [Option.toList_none, List.append_nil]
    exact h.silent hinv haround hw
  · -- `checked_add` failed: the ids have run out, and stay so
    refine h.answer hinv haround (hw.trans ?_) ?_
    · omega
    · unfold StuckResult
      rw [if_pos (by omega)]
  · have hp : t.state.producer.publication = some p := by rw [hpc]; rfl
    rw [hpc] at hold
    have hid := h.nextId hp
    -- the call found its slot held, so it is slot `i`, and its turn has come
    have hturn := h.dropped hi hp hold
    have hnext := h.inv.frames.next p hp
    refine h.answer hinv haround (hw.trans ?_) ?_
    · omega
    · unfold StuckResult
      rw [if_neg (by omega), if_neg (by omega)]
      exact ⟨_, rfl⟩
  · have hp : t.state.producer.publication = some p := by rw [hpc]; rfl
    rw [hpc] at hold
    have hid := h.nextId hp
    -- the call wrote another slot, so the turn of slot `i` is still to come
    have hturn := h.published hi hp hold
    refine h.answer hinv haround (hw.trans ?_) ?_
    · omega
    · unfold StuckResult
      rw [if_neg (by omega), if_pos hturn, hid.1, Nat.min_eq_left hturn.le]

theorem stuck_step {e : Event} (h : Stuck c producerPid i w t) (hi : i < c.capacity)
    (he : WhileStuck c producerPid i t e) (hs : (publishing c producerPid).step t e = some t') :
    Stuck c producerPid i w t' := by
  obtain ⟨s', hstep, rfl⟩ := Machine.logged_step hs
  change t.state.step c producerPid e = some s' at hstep
  obtain ⟨hreap, hheld, hlen⟩ := he
  have hinv := inv_step h.inv (unreaped_careful _ _ hreap) hstep
  by_cases hprod : e = .producerStep
  · subst hprod
    exact stuck_producerStep h hi hheld hstep hinv
  · have hw := (step_sameFrames hstep hprod).writeSeq
    cases e with
    | publish data tsNs =>
      have hlen : data.length = c.frameSize := hlen
      have henter : ProducerPc.enter c data tsNs = .ok (.loadSeq data tsNs) := by
        simp [ProducerPc.enter, hlen]
      simp only [State.answered, henter, List.append_nil]
      cases step_stepped hstep with
      | refused _ _ hne => exact absurd hlen hne
      | publish => exact h.silent hinv trivial hw
    | producerStep => exact absurd rfl hprod
    | call | consumerStep | dropGuard | spawn | die =>
      have hproducer := (step_keeps_producer hstep nofun nofun).1
      simp only [State.answered, List.append_nil]
      exact h.silent hinv (hproducer ▸ h.around) hw
    | reap | reaperStep => cases hreap

/-- With slot `i` stuck and no other slot held, the calls of `publish` publish until it is
the turn of that slot. From then on every call drops its frame, as many as there are. -/
theorem stuck_slot_stops_stream (h : (ring c producerPid).ReachableBy (Unreaped producerPid) s)
    (hidle : s.producer = .idle) (hi : i < c.capacity)
    (hrun : (publishing c producerPid).RunBy (WhileStuck c producerPid i) ⟨s, []⟩ t) :
    (∀ k x, t.log[k]? = some x → StuckResult c i s.region.writeSeq k x) ∧
    (t.log ≠ [] → ((∃ id, .ok (.published id) ∈ t.log) ↔
      (s.region.writeSeq + 1) % c.capacity ≠ i ∧ s.region.writeSeq + 1 < 2 ^ 64)) := by
  have hstuck : Stuck c producerPid i s.region.writeSeq t := by
    refine Machine.RunBy.preserves (I := Stuck c producerPid i s.region.writeSeq) ?_ hrun ?_
    · exact fun t e t' ht he hs => stuck_step ht hi he hs
    · refine ⟨inv_reachable (h.mono unreaped_careful), ?_, ?_, fun k x hx => ?_⟩
      · rw [hidle]
        trivial
      · simp
      · cases hx
  refine ⟨hstuck.results, fun hne => ?_⟩
  have hfirst : framesBefore c i s.region.writeSeq ≠ 0 ↔
      (s.region.writeSeq + 1) % c.capacity ≠ i := not_congr (framesBefore_eq_zero hi)
  rw [← hfirst]
  constructor
  · rintro ⟨id, hid⟩
    obtain ⟨k, hk⟩ := List.getElem?_of_mem hid
    exact (hstuck.results k _ hk).of_published
  · rintro ⟨h0, hlt⟩
    obtain ⟨x, l, hlog⟩ := List.exists_cons_of_ne_nil hne
    have hx := (hstuck.results 0 x (by rw [hlog]; rfl)).first h0 hlt
    refine ⟨s.region.writeSeq + 1, ?_⟩
    rw [hlog, hx]
    exact List.mem_cons_self ..

/-- Process 1 holds frame 1 in slot 1 for good. -/
def holdFirst : List Event :=
  publishEvents [1, 2, 3] 9 12 ++ latestEvents 1 1 0 ⟨1, 9, 1, 1, 1⟩

theorem stuck_slot_stops_stream_at_frame_three :
    ∃ t : Logged State (Except RingError PublishResult),
      t.log = [.ok (.published 2), .ok (.dropped (.heldByReaders 1 1))] ∧
      ∀ k x, t.log[k]? = some x → StuckResult tinyConfig 1 1 k x := by
  have hrun : ((ring tinyConfig 100).exec (Unreaped 100) (.start fun _ => true) holdFirst).map
      (fun s => (s.producer, s.region.writeSeq, ((publishing tinyConfig 100).exec
        (WhileStuck tinyConfig 100 1) ⟨s, []⟩ (publishEvents [4, 5, 6] 10 12 ++
          publishEvents [7, 8, 9] 11 4)).map Logged.log)) =
      some (.idle, 1, some [.ok (.published 2), .ok (.dropped (.heldByReaders 1 1))]) := by decide
  obtain ⟨s, hs, hobs⟩ := Option.map_eq_some_iff.mp hrun
  obtain ⟨hidle, hw, hlog⟩ := Prod.mk.inj hobs |>.imp id Prod.mk.inj
  obtain ⟨t, ht, hlog⟩ := Option.map_eq_some_iff.mp hlog
  have hreach : (ring tinyConfig 100).ReachableBy (Unreaped 100) s :=
    .of_exec (.init ⟨_, rfl, rfl⟩) hs
  have hres := (stuck_slot_stops_stream hreach hidle (by decide) (.of_exec ht)).1
  rw [hw] at hres
  exact ⟨t, hlog, hres⟩

/-- When frame 2 is in slot 0, both calls for frame 3 drop, although slot 0 is free. -/
theorem stuck_slot_stays_in_rotation :
    ¬ ∀ (s : State) (i : ℕ) (t : Logged State (Except RingError PublishResult)),
      (ring tinyConfig 100).ReachableBy (Unreaped 100) s → s.producer = .idle →
      i < tinyConfig.capacity → (∃ j < tinyConfig.capacity, (s.region.slot j).refCount = 0) →
      (publishing tinyConfig 100).RunBy (WhileStuck tinyConfig 100 i) ⟨s, []⟩ t →
      tinyConfig.capacity ≤ t.log.length → ∃ id, .ok (.published id) ∈ t.log := by
  intro hall
  have hrun : ((ring tinyConfig 100).exec (Unreaped 100) (.start fun _ => true)
      (holdFirst ++ publishEvents [4, 5, 6] 10 12)).map
      (fun s => (s.producer, (s.region.slot 0).refCount, ((publishing tinyConfig 100).exec
        (WhileStuck tinyConfig 100 1) ⟨s, []⟩ (publishEvents [7, 8, 9] 11 4 ++
          publishEvents [7, 8, 9] 12 4)).map Logged.log)) =
      some (.idle, 0, some [.ok (.dropped (.heldByReaders 1 1)),
        .ok (.dropped (.heldByReaders 1 1))]) := by decide
  obtain ⟨s, hs, hobs⟩ := Option.map_eq_some_iff.mp hrun
  obtain ⟨hidle, hfree, hlog⟩ := Prod.mk.inj hobs |>.imp id Prod.mk.inj
  obtain ⟨t, ht, hlog⟩ := Option.map_eq_some_iff.mp hlog
  have hreach : (ring tinyConfig 100).ReachableBy (Unreaped 100) s :=
    .of_exec (.init ⟨_, rfl, rfl⟩) hs
  obtain ⟨id, hid⟩ := hall s 1 t hreach hidle (by decide) ⟨0, by decide, hfree⟩ (.of_exec ht)
    (by rw [hlog]; decide)
  rw [hlog] at hid
  simp at hid

end AutoTargeting.Ring
