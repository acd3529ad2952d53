import AutoTargeting.Ring.Invariant

namespace AutoTargeting.Ring

open Runs

variable {c : CheckedConfig} {producerPid : ℕ} {s s' : State}

/-- No process dies and nobody calls `recover_stale_slots`. -/
def Undisturbed (_ : State) : Event → Prop
  | .publish _ _ | .producerStep | .call _ _ | .consumerStep _ | .dropGuard _ => True
  | .reap _ _ _ | .reaperStep _ | .spawn _ | .die _ => False

instance (s : State) (e : Event) : Decidable (Undisturbed s e) :=
  match e with
  | .publish _ _ | .producerStep | .call _ _ | .consumerStep _ | .dropGuard _ =>
    inferInstanceAs (Decidable True)
  | .reap _ _ _ | .reaperStep _ | .spawn _ | .die _ => inferInstanceAs (Decidable False)

theorem undisturbed_careful (s : State) (e : Event) (h : Undisturbed s e) :
    Careful producerPid s e := by
  cases e with
  | publish | producerStep | call | consumerStep | dropGuard => exact ⟨nofun, trivial⟩
  | reap | reaperStep | spawn | die => cases h

theorem inv_undisturbed (h : (ring c producerPid).ReachableBy Undisturbed s) :
    Inv c producerPid s :=
  inv_reachable (h.mono undisturbed_careful)

/-- Where no process died, no reference is an orphan. -/
theorem orphans_undisturbed (h : (ring c producerPid).ReachableBy Undisturbed s) :
    s.orphans = 0 ∧ s.reapers = 0 := by
  refine Machine.ReachableBy.invariant (I := fun s => s.orphans = 0 ∧ s.reapers = 0) ?_ ?_ h
  · rintro _ ⟨alive, -, rfl⟩
    exact ⟨rfl, rfl⟩
  · rintro s e s' - ⟨ho, hr⟩ he hs
    change s.step c producerPid e = some s' at hs
    cases step_stepped hs with
    | refused | publish | producerStep | call | dropGuard => exact ⟨ho, hr⟩
    | @consumerStep op hop =>
      obtain ⟨-, -, hreapers, horphans⟩ := afterConsumer_rest (s := s) op
        (op.pc.step c op.pid s.region)
      exact ⟨horphans.trans ho, hreapers.trans hr⟩
    | reap | reaperStep | spawn | die => cases he

theorem Frames.calls_nodup {r : Region} {pc : ProducerPc} {done : List Publication}
    (h : Frames c r pc done) : ((done ++ pc.returning).map Publication.frameId).Nodup := by
  rw [frames_numbered h]
  exact List.nodup_range'

/-- One call alone has the frame id of a live guard, and the guard has its payload. -/
theorem guard_filter (h : Inv c producerPid s) {g : Hold} (hg : g ∈ s.guards) :
    s.calls.filter (·.frameId = g.guard.view.frameId) =
      [⟨g.guard.view.frameId, s.region.deref c g.guard, g.guard.view.tsNs⟩] := by
  obtain ⟨p, hp, hid, hts, hdata⟩ := h.guard_call hg
  rw [hdata, ← hid, ← hts]
  exact filter_key_eq_singleton h.frames.calls_nodup hp

/-- While a guard lives, its bytes stay what they are. -/
theorem deref_stays (h : Inv c producerPid s) {g : Hold}
    (hr : (ring c producerPid).RunBy (fun t e => Undisturbed t e ∧ g ∈ t.guards) s s') :
    s'.region.deref c g.guard = s.region.deref c g.guard := by
  have hboth : Inv c producerPid s' ∧ s'.region.deref c g.guard = s.region.deref c g.guard := by
    refine Machine.RunBy.preserves
      (I := fun t => Inv c producerPid t ∧ t.region.deref c g.guard = s.region.deref c g.guard)
      ?_ hr ⟨h, rfl⟩
    rintro t e t' ⟨ht, hd⟩ ⟨he, hg⟩ hs
    refine ⟨inv_step ht (undisturbed_careful t e he) hs, ?_⟩
    rw [← hd]
    unfold Region.deref
    rw [(step_keeps_guard ht hs hg).2.2]
  exact hboth.2

/-- No torn read: a live guard shows the payload and the time of the one call with its
frame id, for as long as it lives, and every count says who is at the slot. -/
theorem guards_never_torn (h : (ring c producerPid).ReachableBy Undisturbed s) :
    (∀ g ∈ s.guards,
      s.calls.filter (·.frameId = g.guard.view.frameId) =
        [⟨g.guard.view.frameId, s.region.deref c g.guard, g.guard.view.tsNs⟩] ∧
      ∀ s', (ring c producerPid).RunBy (fun t e => Undisturbed t e ∧ g ∈ t.guards) s s' →
        s'.region.deref c g.guard = s.region.deref c g.guard) ∧
    (∀ i, s.guards.countP (·.guard.slotIdx = i) + s.ops.countP (·.pc.holding = some i) <
        writerLock →
      ((s.region.slot i).refCount = writerLock ↔ s.producer.writing c = some i) ∧
      (s.producer.writing c ≠ some i → (s.region.slot i).refCount =
        s.guards.countP (·.guard.slotIdx = i) + s.ops.countP (·.pc.holding = some i))) ∧
    (∀ g ∈ s.guards, 0 < (s.region.slot g.guard.slotIdx).refCount) ∧
    (∀ op ∈ s.ops, ∀ k a actual, op.pc = .releaseMismatch k a actual →
      0 < (s.region.slot a.idx).refCount) := by
  have hi := inv_undisturbed h
  have hholds : ∀ i, s.holds i =
      s.guards.countP (·.guard.slotIdx = i) + s.ops.countP (·.pc.holding = some i) := by
    intro i
    simp only [State.holds, (orphans_undisturbed h).1, Multiset.count_zero]
    omega
  refine ⟨fun g hg => ⟨guard_filter hi hg, fun s' hr => deref_stays hi hr⟩, fun i hlt => ?_,
    fun g hg => ?_, fun op hop k a actual hpc => ?_⟩
  · rw [← hholds] at hlt ⊢
    by_cases hw : s.producer.writing c = some i
    · have hlock := (hi.counted.written i hw).1
      exact ⟨⟨fun _ => hw, fun _ => hlock⟩, fun hne => absurd hw hne⟩
    · have hfree := hi.counted.free i hw
      refine ⟨⟨fun hlock => ?_, fun h => absurd h hw⟩, fun _ => hfree⟩
      omega
  · have hpos := holds_pos_of_guard hg
    rwa [hi.counted.refCount_eq hpos]
  · have hpos : 0 < s.holds a.idx := holds_pos_of_op hop (by rw [hpc]; rfl)
    rwa [hi.counted.refCount_eq hpos]

/-- A reader holds frame 1 in slot 1 while the producer copies frame 2 into slot 0. -/
def readerWhilePublishing : List Event :=
  publishEvents [1, 2, 3] 9 12 ++ latestEvents 1 1 0 ⟨1, 9, 1, 1, 1⟩ ++
    publishEvents [4, 5, 6] 10 4

theorem guards_never_torn_while_publishing :
    ∃ s : State, s.guards = {⟨1, ⟨1, ⟨1, 9, 1, 1, 1⟩⟩⟩} ∧
      s.producer.writing tinyConfig = some 0 ∧
      s.calls.filter (·.frameId = 1) = [⟨1, s.region.deref tinyConfig ⟨1, ⟨1, 9, 1, 1, 1⟩⟩, 9⟩] := by
  have hrun : ((ring tinyConfig 100).exec Undisturbed (.start fun _ => true)
      readerWhilePublishing).map (fun s => (s.guards, s.producer.writing tinyConfig)) =
      some ({⟨1, ⟨1, ⟨1, 9, 1, 1, 1⟩⟩⟩}, some 0) := by decide
  obtain ⟨s, hs, hobs⟩ := Option.map_eq_some_iff.mp hrun
  obtain ⟨hg, hw⟩ := Prod.mk.inj hobs
  have hreach : (ring tinyConfig 100).ReachableBy Undisturbed s :=
    .of_exec (.init ⟨fun _ => true, rfl, rfl⟩) hs
  have hmem : (⟨1, ⟨1, ⟨1, 9, 1, 1, 1⟩⟩⟩ : Hold) ∈ s.guards := by rw [hg]; decide
  exact ⟨s, hg, hw, ((guards_never_torn hreach).1 _ hmem).1⟩

end AutoTargeting.Ring
