import AutoTargeting.Ring.Seen

namespace AutoTargeting.Ring

open Runs

variable {c : CheckedConfig} {producerPid : ℕ} {s s' : State}

/-- What holds while the producer lives and the reaper takes from the dead only. -/
structure Inv (c : CheckedConfig) (producerPid : ℕ) (s : State) : Prop where
  counted : Counted c producerPid s
  frames : Frames c s.region s.producer s.published
  seen : Seen s

/-- Steps of the producer apart, nothing touches a frame. -/
theorem step_sameFrames {e : Event} (hs : s.step c producerPid e = some s')
    (he : e ≠ .producerStep) : s.region.SameFrames s'.region := by
  cases step_stepped hs with
  | refused | publish | call | reap | spawn | die => exact .refl _
  | producerStep => exact absurd rfl he
  | consumerStep =>
    rw [afterConsumer_region]
    exact consumer_sameFrames ..
  | dropGuard => exact s.region.sameFrames_setRef ..
  | reaperStep => exact reaper_sameFrames ..

theorem step_keeps_producer {e : Event} (hs : s.step c producerPid e = some s')
    (hstep : e ≠ .producerStep) (hcall : ∀ data tsNs, e ≠ .publish data tsNs) :
    s'.producer = s.producer ∧ s'.published = s.published := by
  cases step_stepped hs with
  | refused | publish => exact absurd rfl (hcall _ _)
  | producerStep => exact absurd rfl hstep
  | consumerStep => exact ⟨afterConsumer_producer .., afterConsumer_published ..⟩
  | call | dropGuard | reap | reaperStep | spawn | die => exact ⟨rfl, rfl⟩

/-- What a live guard is about does not change in the segment. -/
theorem step_keeps_guard (h : Inv c producerPid s) {e : Event}
    (hs : s.step c producerPid e = some s') {g : Hold} (hg : g ∈ s.guards) :
    (s'.region.slot g.guard.slotIdx).frameId = (s.region.slot g.guard.slotIdx).frameId ∧
      (s'.region.slot g.guard.slotIdx).tsNs = (s.region.slot g.guard.slotIdx).tsNs ∧
      s'.region.data g.guard.slotIdx = s.region.data g.guard.slotIdx := by
  by_cases he : e = .producerStep
  · subst he
    cases step_stepped hs
    exact producer_keeps _ _ _ (h.counted.writing_ne (holds_pos_of_guard hg))
  · have hsame := step_sameFrames hs he
    exact ⟨hsame.frameId _, hsame.tsNs _, congrFun hsame.data _⟩

theorem frames_eventStep (h : Frames c s.region s.producer s.published) {e : Event}
    (hs : s.step c producerPid e = some s') :
    Frames c s'.region s'.producer s'.published := by
  cases step_stepped hs with
  | refused => exact h
  | @publish data tsNs hup hidle hlen =>
    rw [hidle] at h
    have henter : ProducerPc.enter c data tsNs = .ok (.loadSeq data tsNs) :=
      if_neg (not_not.mpr hlen)
    exact frames_enter h henter
  | producerStep => exact frames_step h
  | call | consumerStep | dropGuard | reap | reaperStep | spawn | die =>
    obtain ⟨hproducer, hpublished⟩ := step_keeps_producer hs nofun nofun
    rw [hproducer, hpublished]
    exact h.congr (step_sameFrames hs nofun)

/-- Only a step of the producer needs the counts, to leave the held slots alone. -/
theorem seen_step (hf : Frames c s.region s.producer s.published) (h : Seen s) {e : Event}
    (hc : e = .producerStep → Counted c producerPid s)
    (hs : s.step c producerPid e = some s') : Seen s' := by
  have hkeep : e ≠ .producerStep →
      (∀ op ∈ s.ops, op.pc.Coherent s'.region) ∧ ∀ g ∈ s.guards, g.guard.Coherent s'.region := by
    intro he
    have hsame := step_sameFrames hs he
    exact ⟨fun op hop => coherent_congr op.pc hsame (h.ops op hop),
      fun g hg => (h.guards g hg).congr hsame⟩
  cases step_stepped hs with
  | refused => exact h
  | producerStep => exact seen_producerStep (hc rfl) hf h
  | consumerStep hop => exact seen_consumerStep hf.window h hop
  | publish | reap | reaperStep | spawn =>
    obtain ⟨hops, hguards⟩ := hkeep nofun
    exact ⟨hops, hguards⟩
  | @call pid k =>
    obtain ⟨hops, hguards⟩ := hkeep nofun
    refine ⟨fun op hop => ?_, hguards⟩
    rcases Multiset.mem_cons.mp hop with rfl | hop
    · cases k <;> trivial
    · exact hops op hop
  | dropGuard =>
    obtain ⟨hops, hguards⟩ := hkeep nofun
    exact ⟨hops, fun g hg => hguards g (Multiset.mem_of_mem_erase hg)⟩
  | die =>
    obtain ⟨hops, hguards⟩ := hkeep nofun
    exact ⟨fun op hop => hops op (Multiset.mem_of_mem_filter hop),
      fun g hg => hguards g (Multiset.mem_of_mem_filter hg)⟩

def ProducerLives (producerPid : ℕ) (_ : State) (e : Event) : Prop := e ≠ .die producerPid

def Careful (producerPid : ℕ) (s : State) (e : Event) : Prop :=
  ProducerLives producerPid s e ∧ ReapsOrphans s e

instance (producerPid : ℕ) (s : State) (e : Event) : Decidable (ProducerLives producerPid s e) :=
  inferInstanceAs (Decidable (e ≠ .die producerPid))

instance (s : State) (e : Event) : Decidable (ReapsOrphans s e) :=
  match e with
  | .reaperStep rp => inferInstanceAs (Decidable (∀ i ∈ rp.pc.frees s.region, i ∈ s.orphans))
  | .publish _ _ | .producerStep | .call _ _ | .consumerStep _ | .dropGuard _ | .reap _ _ _
  | .spawn _ | .die _ => isTrue trivial

instance (producerPid : ℕ) (s : State) (e : Event) : Decidable (Careful producerPid s e) :=
  inferInstanceAs (Decidable (_ ∧ _))

theorem inv_start {alive : ℕ → Bool} (h : alive producerPid = true) :
    Inv c producerPid (.start alive) where
  counted := counted_start h
  frames := frames_fresh
  seen := ⟨(fun _ hop => by cases hop), (fun _ hg => by cases hg)⟩

theorem inv_step (h : Inv c producerPid s) {e : Event} (he : Careful producerPid s e)
    (hs : s.step c producerPid e = some s') : Inv c producerPid s' where
  counted := counted_step h.counted he.2 he.1 hs
  frames := frames_eventStep h.frames hs
  seen := seen_step h.frames h.seen (fun _ => h.counted) hs

theorem inv_reachable (h : (ring c producerPid).ReachableBy (Careful producerPid) s) :
    Inv c producerPid s := by
  refine h.invariant ?_ fun s e s' _ hi he hs => inv_step hi he hs
  rintro _ ⟨alive, hup, rfl⟩
  exact inv_start hup

/-- The bytes behind a guard are those of the one call that has the guard's frame id. -/
theorem Inv.guard_call (h : Inv c producerPid s) {g : Hold} (hg : g ∈ s.guards) :
    ∃ p ∈ s.calls, p.frameId = g.guard.view.frameId ∧ p.tsNs = g.guard.view.tsNs ∧
      s.region.deref c g.guard = p.data := by
  have hseen := h.seen.guards g hg
  have hw := h.counted.writing_ne (holds_pos_of_guard hg)
  rcases h.frames.carried _ hw with h0 | ⟨p, hp, hc⟩
  · exact absurd (hseen.frameId.trans h0) hseen.pos
  · refine ⟨p, hp, hc.frameId.symm.trans hseen.frameId.symm, hc.tsNs.symm.trans hseen.tsNs.symm, ?_⟩
    rw [Region.deref_eq_iff (frames_sized h.frames p hp)]
    intro k hk
    rw [← hc.idx]
    exact hc.copied k hk

end AutoTargeting.Ring
