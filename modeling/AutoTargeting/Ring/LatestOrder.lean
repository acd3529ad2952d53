import AutoTargeting.Ring.TornRead

namespace AutoTargeting.Ring

open Runs

variable {c : CheckedConfig} {producerPid pid : ℕ} {r r' : Region} {pc : ProducerPc}
  {done : List Publication} {s s' : State} {ids : List ℕ}

/-- The id of the frame that a call of `latest` returns at this event. -/
def State.handedOut (c : CheckedConfig) (s : State) : Event → List ℕ
  | .consumerStep op =>
    match (op.pc.step c op.pid s.region).next with
    | .inr (.latest (some g)) => [g.view.frameId]
    | .inr (.latest none) | .inr (.next _) | .inl _ => []
  | .publish _ _ | .producerStep | .call _ _ | .dropGuard _ | .reap _ _ _ | .reaperStep _
  | .spawn _ | .die _ => []

/-- The ring with the ids of the frames that `latest` returned so far. -/
def readings (c : CheckedConfig) (producerPid : ℕ) : Machine (Logged State ℕ) Event :=
  (ring c producerPid).logged (State.handedOut c)

/-- Beside the producer there is process `pid` alone. It calls `latest` only, and drops each
guard before it calls again. -/
def OneReader (pid : ℕ) (t : Logged State ℕ) : Event → Prop
  | .publish _ _ | .producerStep | .consumerStep _ | .dropGuard _ => True
  | .call caller k => caller = pid ∧ k = .latest ∧ t.state.ops = 0 ∧ t.state.guards = 0
  | .reap _ _ _ | .reaperStep _ | .spawn _ | .die _ => False

/-- A call of `latest` loads `write_seq` only when that has reached every id it returned,
unless all frames are in one slot. -/
def CaughtUp (c : CheckedConfig) (t : Logged State ℕ) : Event → Prop
  | .consumerStep op =>
    op.pc = .latestSeq → c.capacity = 1 ∨ ∀ id ∈ t.log, id ≤ t.state.region.writeSeq
  | .publish _ _ | .producerStep | .call _ _ | .dropGuard _ | .reap _ _ _ | .reaperStep _
  | .spawn _ | .die _ => True

instance (pid : ℕ) (t : Logged State ℕ) (e : Event) : Decidable (OneReader pid t e) :=
  match e with
  | .publish _ _ | .producerStep | .consumerStep _ | .dropGuard _ =>
    inferInstanceAs (Decidable True)
  | .call caller k =>
    inferInstanceAs (Decidable (caller = pid ∧ k = .latest ∧ t.state.ops = 0 ∧ t.state.guards = 0))
  | .reap _ _ _ | .reaperStep _ | .spawn _ | .die _ => inferInstanceAs (Decidable False)

instance (c : CheckedConfig) (t : Logged State ℕ) (e : Event) : Decidable (CaughtUp c t e) :=
  match e with
  | .consumerStep op =>
    inferInstanceAs (Decidable (op.pc = .latestSeq →
      c.capacity = 1 ∨ ∀ id ∈ t.log, id ≤ t.state.region.writeSeq))
  | .publish _ _ | .producerStep | .call _ _ | .dropGuard _ | .reap _ _ _ | .reaperStep _
  | .spawn _ | .die _ => inferInstanceAs (Decidable True)

theorem oneReader_undisturbed {t : Logged State ℕ} {e : Event} (h : OneReader pid t e) :
    Undisturbed t.state e := by
  cases e with
  | publish | producerStep | call | consumerStep | dropGuard => trivial
  | reap | reaperStep | spawn | die => cases h

theorem Frames.slot_le (h : Frames c r pc done) (i : ℕ) :
    (r.slot i).frameId ≤ r.writeSeq + 1 := by
  have hremains : ∀ {k}, Remains c r done i k → (r.slot i).frameId ≤ r.writeSeq + 1 := by
    rintro k (h0 | ⟨q, hq, -, hid, -⟩)
    · omega
    · have := (h.bounds hq).2
      omega
  by_cases hi : pc.writing c = some i
  · have hp := h.progress
    cases pc with
    | idle | loadSeq | takeSlot | loadReaders | countDrop | storeSeq => cases hi
    | copy p k => cases hi; exact hremains hp.2.2
    | writeWidth p | writeHeight p | writeFormat p | storeId p =>
      cases hi
      exact hremains hp.2.2
    | releaseSlot p =>
      cases hi
      rw [hp.frameId]
      exact (h.next p rfl).1.le
  · rcases h.carried i hi with h0 | ⟨p, hp, hc⟩
    · omega
    · rw [hc.frameId]
      rcases List.mem_append.mp hp with hp | hp
      · have := (h.bounds hp).2
        omega
      · cases pc with
        | storeSeq q =>
          cases List.mem_singleton.mp hp
          exact (h.next p rfl).1.le
        | _ => cases hp

/-- The id in a slot never falls. -/
theorem step_frameId_le (h : Inv c producerPid s) {e : Event}
    (hs : s.step c producerPid e = some s') (i : ℕ) :
    (s.region.slot i).frameId ≤ (s'.region.slot i).frameId := by
  by_cases he : e = .producerStep
  · subst he
    cases step_stepped hs
    rcases producer_frameId c s.region s.producer i with hsame | ⟨p, hp, hnew⟩
    · exact hsame.ge
    · calc (s.region.slot i).frameId ≤ s.region.writeSeq + 1 := h.frames.slot_le i
        _ = p.frameId := (h.frames.next p hp).1.symm
        _ = _ := hnew.symm
  · exact ((step_sameFrames hs he).frameId i).ge

/-- From its load of `write_seq` on, a call of `latest` is at a slot with no frame older than
those in `ids`, and the frame it read is none of the older ones. -/
def ConsumerPc.NotBefore (c : CheckedConfig) (r : Region) (ids : List ℕ) : ConsumerPc → Prop
  | latestSeq => True
  | nextSeq _ _ => False
  | loadRef k a _ | casRef k a _ _ | storePid k a | loadId k a =>
    k = .latest ∧ a.idx < c.capacity ∧ ∀ id ∈ ids, id ≤ (r.slot a.idx).frameId
  | releaseMismatch k _ _ => k = .latest
  | readTs k a actual | readWidth k a actual _ | readHeight k a actual _ _
  | readFormat k a actual _ _ _ =>
    k = .latest ∧ a.idx < c.capacity ∧ actual ≤ (r.slot a.idx).frameId ∧ ∀ id ∈ ids, id ≤ actual

def NotBeforeNext (c : CheckedConfig) (r : Region) (ids : List ℕ) : ConsumerPc ⊕ Answer → Prop
  | .inl pc => pc.NotBefore c r ids
  | .inr (.latest (some g)) => g.slotIdx < c.capacity ∧
    g.view.frameId ≤ (r.slot g.slotIdx).frameId ∧ ∀ id ∈ ids, id ≤ g.view.frameId
  | .inr (.latest none) => True
  | .inr (.next _) => False

theorem notBefore_mono {pc : ConsumerPc} (hle : ∀ i, (r.slot i).frameId ≤ (r'.slot i).frameId)
    (h : pc.NotBefore c r ids) : pc.NotBefore c r' ids := by
  cases pc with
  | latestSeq => trivial
  | nextSeq => cases h
  | loadRef | casRef | storePid | loadId =>
    exact ⟨h.1, h.2.1, fun id hid => (h.2.2 id hid).trans (hle _)⟩
  | releaseMismatch => exact h
  | readTs | readWidth | readHeight | readFormat =>
    exact ⟨h.1, h.2.1, h.2.2.1.trans (hle _), h.2.2.2⟩

theorem notBefore_spin {k : Caller} {a : Attempt} {n : ℕ} (hk : k = .latest)
    (ha : a.idx < c.capacity) (h : ∀ id ∈ ids, id ≤ (r.slot a.idx).frameId) :
    NotBeforeNext c r ids (k.spin a n) := by
  subst hk
  cases n with
  | zero => trivial
  | succ n => exact ⟨rfl, ha, h⟩

/-- The slot of `write_seq` has no frame older than `ids` if `write_seq` reached them, or if
it is the only slot. -/
theorem notBefore_load (hw : Window c r) (hseq : r.writeSeq ≠ 0)
    (hcarried : ∀ id ∈ ids, ∃ i < c.capacity, id ≤ (r.slot i).frameId)
    (hup : c.capacity = 1 ∨ ∀ id ∈ ids, id ≤ r.writeSeq) {id : ℕ} (hid : id ∈ ids) :
    id ≤ (r.slot (r.writeSeq % c.capacity)).frameId := by
  rcases hup with hone | hup
  · -- the one slot carries the id, or a later one by now
    obtain ⟨i, hi, hle⟩ := hcarried id hid
    have h0 : i = r.writeSeq % c.capacity := by rw [hone, Nat.mod_one]; omega
    exact h0 ▸ hle
  · exact (hup id hid).trans (hw r.writeSeq (by omega) le_rfl)

theorem consumer_notBefore (pid : ℕ) {pc : ConsumerPc}
    (hload : pc = .latestSeq → r.writeSeq ≠ 0 →
      ∀ id ∈ ids, id ≤ (r.slot (r.writeSeq % c.capacity)).frameId)
    (h : pc.NotBefore c r ids) : NotBeforeNext c r ids (pc.step c pid r).next := by
  cases pc with
  | latestSeq =>
    simp only [ConsumerPc.step]
    split
    case isTrue => trivial
    case isFalse hseq =>
      refine ⟨rfl, Nat.mod_lt _ c.capacity_pos, fun id hid => ?_⟩
      rw [Nat.mod_mod]
      exact hload rfl hseq id hid
  | nextSeq => cases h
  | loadRef k a n =>
    simp only [ConsumerPc.step]
    split
    · exact notBefore_spin h.1 h.2.1 h.2.2
    · exact h
  | casRef k a n cur =>
    simp only [ConsumerPc.step]
    split
    · exact h
    · exact notBefore_spin h.1 h.2.1 h.2.2
  | storePid => exact h
  | loadId k a =>
    simp only [ConsumerPc.step, NotBeforeNext, Attempt.checkId]
    split
    · split
      · exact h.1
      · exact ⟨h.1, h.2.1, le_rfl, h.2.2⟩
    · -- `latest` takes whatever id the slot has by now
      exact ⟨h.1, h.2.1, le_rfl, h.2.2⟩
  | releaseMismatch k a actual =>
    have hk : k = .latest := h
    subst hk
    trivial
  | readTs | readWidth | readHeight => exact h
  | readFormat k a actual ts w hgt =>
    obtain ⟨hk, hrest⟩ := h
    subst hk
    exact hrest

theorem card_ops_afterConsumer {op : Op} (hop : op ∈ s.ops) (t : ConsumerStep) :
    (s.afterConsumer op t).ops.card ≤ s.ops.card := by
  have herase := Multiset.card_erase_add_one hop
  unfold State.afterConsumer
  split <;> simp only [Multiset.card_cons] <;> omega

theorem ops_afterConsumer_alone {op : Op} (hop : op ∈ s.ops) (halone : s.ops.card ≤ 1)
    {t : ConsumerStep} {answer : Answer} (hnext : t.next = .inr answer) :
    (s.afterConsumer op t).ops = 0 := by
  have herase := Multiset.card_erase_add_one hop
  have hnone : (s.ops.erase op).card = 0 := by omega
  unfold State.afterConsumer
  rw [hnext]
  exact Multiset.card_eq_zero.mp hnone

/-- The ids come in order, each is still in some slot or was overwritten by a later one, and
the one call under way is not before any of them. -/
structure Ordered (c : CheckedConfig) (producerPid : ℕ) (t : Logged State ℕ) : Prop where
  inv : Inv c producerPid t.state
  alone : t.state.ops.card ≤ 1
  notBefore : ∀ op ∈ t.state.ops, op.pc.NotBefore c t.state.region t.log
  carried : ∀ id ∈ t.log, ∃ i < c.capacity, id ≤ (t.state.region.slot i).frameId
  ordered : t.log.Pairwise (· ≤ ·)

variable {t t' : Logged State ℕ}

/-- A step after which `latest` returned no more frames than before. -/
theorem ordered_silent (h : Ordered c producerPid t) (hinv : Inv c producerPid s')
    (hle : ∀ i, (t.state.region.slot i).frameId ≤ (s'.region.slot i).frameId)
    (hcard : s'.ops.card ≤ 1)
    (hops : ∀ op ∈ s'.ops, op ∈ t.state.ops ∨ op.pc.NotBefore c s'.region t.log) :
    Ordered c producerPid ⟨s', t.log⟩ := by
  refine ⟨hinv, hcard, fun op hop => ?_, fun id hid => ?_, h.ordered⟩
  · rcases hops op hop with hop | hop
    · exact notBefore_mono hle (h.notBefore op hop)
    · exact hop
  · obtain ⟨i, hi, hid⟩ := h.carried id hid
    exact ⟨i, hi, hid.trans (hle i)⟩

/-- The call returns the frame `g`: no other call is under way that could be behind it. -/
theorem ordered_returns (h : Ordered c producerPid t) (hinv : Inv c producerPid s')
    (hle : ∀ i, (t.state.region.slot i).frameId ≤ (s'.region.slot i).frameId)
    (hops : s'.ops = 0) {g : FrameGuard}
    (hg : NotBeforeNext c t.state.region t.log (.inr (.latest (some g)))) :
    Ordered c producerPid ⟨s', t.log ++ [g.view.frameId]⟩ := by
  obtain ⟨hidx, hslot, hids⟩ := hg
  refine ⟨hinv, by simp [hops], by simp [hops], fun id hid => ?_, ?_⟩
  · rcases List.mem_append.mp hid with hid | hid
    · obtain ⟨i, hi, hid⟩ := h.carried id hid
      exact ⟨i, hi, hid.trans (hle i)⟩
    · cases List.mem_singleton.mp hid
      exact ⟨g.slotIdx, hidx, hslot.trans (hle _)⟩
  · refine List.pairwise_append.mpr ⟨h.ordered, List.pairwise_singleton _ _, fun id hid x hx => ?_⟩
    cases List.mem_singleton.mp hx
    exact hids id hid

theorem ordered_consumerStep (h : Ordered c producerPid t) {op : Op} (hop : op ∈ t.state.ops)
    (hup : CaughtUp c t (.consumerStep op))
    (hs : t.state.step c producerPid (.consumerStep op) = some s') (hinv : Inv c producerPid s') :
    Ordered c producerPid ⟨s', t.log ++ t.state.handedOut c (.consumerStep op)⟩ := by
  have hle := step_frameId_le h.inv hs
  have hnext := consumer_notBefore (c := c) op.pid
    (fun hpc hseq id hid => notBefore_load h.inv.frames.window hseq h.carried (hup hpc) hid)
    (h.notBefore op hop)
  have hs' : s' = t.state.afterConsumer op (op.pc.step c op.pid t.state.region) := by
    cases step_stepped hs
    rfl
  have hcard : s'.ops.card ≤ 1 := hs' ▸ (card_ops_afterConsumer hop _).trans h.alone
  cases hstep : (op.pc.step c op.pid t.state.region).next with
  | inl pc =>
    rw [hstep] at hnext
    have hnone : t.state.handedOut c (.consumerStep op) = [] := by simp only [State.handedOut, hstep]
    rw [hnone, List.append_nil]
    refine ordered_silent h hinv hle hcard fun o ho => ?_
    rw [hs'] at ho
    rcases mem_ops_afterConsumer ho with ho | ⟨pc', hpc, rfl⟩
    · exact .inl ho
    · cases hstep.symm.trans hpc
      exact .inr (notBefore_mono hle hnext)
  | inr answer =>
    -- it was the only call, so none is left that could be behind what it returns
    rw [hstep] at hnext
    have hops : s'.ops = 0 := hs' ▸ ops_afterConsumer_alone hop h.alone hstep
    rcases answer with (_ | g) | _
    · have hnone : t.state.handedOut c (.consumerStep op) = [] := by
        simp only [State.handedOut, hstep]
      rw [hnone, List.append_nil]
      exact ordered_silent h hinv hle hcard (by simp [hops])
    · have hsome : t.state.handedOut c (.consumerStep op) = [g.view.frameId] := by
        simp only [State.handedOut, hstep]
      rw [hsome]
      exact ordered_returns h hinv hle hops hnext
    · cases hnext

theorem ordered_step {e : Event} (h : Ordered c producerPid t) (he : OneReader pid t e)
    (hup : CaughtUp c t e) (hs : (readings c producerPid).step t e = some t') :
    Ordered c producerPid t' := by
  obtain ⟨s', hstep, rfl⟩ := Machine.logged_step hs
  change t.state.step c producerPid e = some s' at hstep
  have hinv := inv_step h.inv (undisturbed_careful _ _ (oneReader_undisturbed he)) hstep
  have hle := step_frameId_le h.inv hstep
  cases step_stepped hstep with
  | refused | publish | producerStep | dropGuard =>
    simp only [State.handedOut, List.append_nil]
    exact ordered_silent h hinv hle h.alone fun op hop => .inl hop
  | consumerStep hop => exact ordered_consumerStep h hop hup hstep hinv
  | call =>
    obtain ⟨-, rfl, hops, -⟩ := he
    simp only [State.handedOut, List.append_nil]
    refine ordered_silent h hinv hle (by simp [hops]) fun op hop => ?_
    rcases Multiset.mem_cons.mp hop with rfl | hop
    · exact .inr trivial
    · exact .inl hop
  | reap | reaperStep | spawn | die => cases he

/-- With one reader, the frames of `latest` come in order as long as each call finds
`write_seq` caught up with the frame that the call before it returned. -/
theorem latest_never_goes_back
    (h : (readings c producerPid).ReachableBy (fun t e => OneReader pid t e ∧ CaughtUp c t e) t) :
    t.log.Pairwise (· ≤ ·) := by
  have hordered : Ordered c producerPid t := by
    refine h.invariant ?_ fun t e t' _ ht he hs => ordered_step ht he.1 he.2 hs
    rintro ⟨_, _⟩ ⟨⟨alive, hup, rfl⟩, rfl⟩
    refine ⟨inv_start hup, Nat.zero_le _, fun _ hop => ?_, fun _ hid => ?_, .nil⟩
    · cases hop
    · cases hid
  exact hordered.ordered

/-- The rest of a call of `latest` that loaded `write_seq` already. -/
def latestRest (pid idx : ℕ) (v : FrameView) : List Event :=
  (latestEvents pid idx 0 v).drop 2

/-- Frames 1 and 2, each read before the next is published. -/
def readTwo : List Event :=
  publishEvents [1, 2, 3] 9 12 ++ latestEvents 1 1 0 ⟨1, 9, 1, 1, 1⟩ ++
    [.dropGuard ⟨1, ⟨1, ⟨1, 9, 1, 1, 1⟩⟩⟩] ++
    publishEvents [4, 5, 6] 10 12 ++ latestEvents 1 0 0 ⟨2, 10, 1, 1, 1⟩

theorem latest_never_goes_back_over_two :
    ∃ t : Logged State ℕ, t.log = [1, 2] ∧ t.log.Pairwise (· ≤ ·) := by
  have hrun : ((readings tinyConfig 100).exec (fun t e => OneReader 1 t e ∧ CaughtUp tinyConfig t e)
      ⟨.start fun _ => true, []⟩ readTwo).map Logged.log = some [1, 2] := by decide
  obtain ⟨t, ht, hret⟩ := Option.map_eq_some_iff.mp hrun
  exact ⟨t, hret, latest_never_goes_back (.of_exec (.init ⟨⟨_, rfl, rfl⟩, rfl⟩) ht)⟩

/-- The reader loads `write_seq` after frame 1 and takes the slot after frame 3 was released
there. Its next call loads `write_seq` before the producer stores 3. -/
def readAcrossTurn : List Event :=
  publishEvents [1, 2, 3] 9 12 ++ [.call 1 .latest, .consumerStep ⟨1, .latestSeq⟩] ++
    publishEvents [4, 5, 6] 10 12 ++ publishEvents [7, 8, 9] 11 11 ++
    latestRest 1 1 ⟨3, 11, 1, 1, 1⟩ ++ [.dropGuard ⟨1, ⟨1, ⟨3, 11, 1, 1, 1⟩⟩⟩] ++
    latestEvents 1 0 0 ⟨2, 10, 1, 1, 1⟩

theorem latest_goes_back :
    ¬ ∀ t, (readings tinyConfig 100).ReachableBy (OneReader 1) t →
      t.log.Pairwise (· ≤ ·) := by
  intro hall
  have hrun : ((readings tinyConfig 100).exec (OneReader 1) ⟨.start fun _ => true, []⟩
      readAcrossTurn).map Logged.log = some [3, 2] := by decide
  obtain ⟨t, ht, hret⟩ := Option.map_eq_some_iff.mp hrun
  have hordered := hall t (.of_exec (.init ⟨⟨_, rfl, rfl⟩, rfl⟩) ht)
  rw [hret] at hordered
  exact absurd hordered (by decide)

end AutoTargeting.Ring
