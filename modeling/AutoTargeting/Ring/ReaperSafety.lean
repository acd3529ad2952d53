import AutoTargeting.Ring.Invariant

namespace AutoTargeting.Ring

open Runs

variable {c : CheckedConfig} {producerPid : ℕ} {s s' : State}

/-- No step of a reaper that `C` allows sets the count of a slot to zero while a guard of a
live process holds it, and no guard's drop wraps its count. Guards of dead processes are in
no state: a process takes its guards along. -/
def ReaperSafe (c : CheckedConfig) (producerPid : ℕ) (C : State → Event → Prop) (s : State) :
    Prop :=
  (∀ rp s', C s (.reaperStep rp) → s.step c producerPid (.reaperStep rp) = some s' →
    ∀ g ∈ s.guards, (s'.region.slot g.guard.slotIdx).refCount ≠ 0) ∧
  ∀ g ∈ s.guards, fetchSub (s.region.slot g.guard.slotIdx).refCount + 1 =
    (s.region.slot g.guard.slotIdx).refCount

/-- A live reference to a slot: a guard, or an acquisition that counted itself already. -/
def LiveReference (s : State) (i : ℕ) : Prop :=
  (∃ g ∈ s.guards, g.guard.slotIdx = i) ∨ ∃ op ∈ s.ops, op.pc.holding = some i

/-- A slot of count one has one reference: it is an orphan, or a live process has it. -/
theorem Counted.orphan_iff (h : Counted c producerPid s) {i : ℕ}
    (h1 : (s.region.slot i).refCount = 1) : i ∈ s.orphans ↔ ¬ LiveReference s i := by
  have hw : s.producer.writing c ≠ some i := by
    intro hw
    have := (h.written i hw).1
    rw [h1] at this
    cases this
  have hone : s.holds i = 1 := (h.free i hw).symm.trans h1
  have hcount : i ∈ s.orphans ↔ 0 < s.orphans.count i := Multiset.count_pos.symm
  have hguards : (∃ g ∈ s.guards, g.guard.slotIdx = i) ↔
      0 < s.guards.countP (·.guard.slotIdx = i) := Multiset.countP_pos.symm
  have hops : (∃ op ∈ s.ops, op.pc.holding = some i) ↔
      0 < s.ops.countP (·.pc.holding = some i) := Multiset.countP_pos.symm
  unfold LiveReference
  rw [hcount, hguards, hops]
  unfold State.holds at hone
  omega

/-- As long as every count that the reaper clears belongs to a process that died with its
reference, no live guard loses its slot. Where a step breaks this for the first time, it
takes the reference of a live process. -/
theorem reaper_safe_of_orphans
    (h : (ring c producerPid).ReachableBy (Careful producerPid) s) :
    ReaperSafe c producerPid (Careful producerPid) s ∧
      ∀ rp ∈ s.reapers, ∀ i, rp.pc.frees s.region = some i →
        (i ∈ s.orphans ↔ ¬ LiveReference s i) := by
  have hi := inv_reachable h
  refine ⟨⟨fun rp s' he hs g hg => ?_, fun g hg => ?_⟩, fun rp _ i hf => ?_⟩
  · have hc' := counted_step hi.counted he.2 he.1 hs
    have hg' : g ∈ s'.guards := by
      cases step_stepped hs
      exact hg
    have hpos := holds_pos_of_guard hg'
    rw [hc'.refCount_eq hpos]
    omega
  · have hpos := holds_pos_of_guard hg
    have hlt := hi.counted.bound g.guard.slotIdx
    rw [hi.counted.refCount_eq hpos] at hlt ⊢
    rw [fetchSub_of_pos hpos hlt]
    omega
  · exact hi.counted.orphan_iff (ReaperPc.refCount_of_frees hf)

/-- Process 3 reads the slots before `idx`, all of count zero, and then decides to clear
slot `idx`, whose last holder it finds dead. -/
def reapEvents (idx holder : ℕ) : List Event :=
  .reap 3 0 1000 ::
    ((List.range idx).map (ReaperPc.loadRef · 0) ++
      [ReaperPc.loadRef idx 0, .loadPid idx 0, .readTs idx 0 holder,
        .checkAlive idx 0 holder true]).map fun pc => .reaperStep ⟨⟨3, 0, false, 1000⟩, pc⟩

/-- Processes 1 and 2 hold frames of their own when process 2 dies. -/
def holderDies : List Event :=
  publishEvents [1, 2, 3] 9 12 ++ latestEvents 1 1 0 ⟨1, 9, 1, 1, 1⟩ ++
    publishEvents [4, 5, 6] 10 12 ++ latestEvents 2 0 0 ⟨2, 10, 1, 1, 1⟩ ++ [.die 2] ++
    reapEvents 0 2

theorem reaper_safe_when_holder_dies :
    ∃ s : State, s.guards = {⟨1, ⟨1, ⟨1, 9, 1, 1, 1⟩⟩⟩} ∧
      s.reapers = {⟨⟨3, 0, false, 1000⟩, .casOne 0 0⟩} ∧
      ReaperSafe tinyConfig 100 (Careful 100) s := by
  have hrun : ((ring tinyConfig 100).exec (Careful 100) (.start fun _ => true)
      holderDies).map (fun s => (s.guards, s.reapers)) =
      some ({⟨1, ⟨1, ⟨1, 9, 1, 1, 1⟩⟩⟩}, {⟨⟨3, 0, false, 1000⟩, .casOne 0 0⟩}) := by decide
  obtain ⟨s, hs, hobs⟩ := Option.map_eq_some_iff.mp hrun
  obtain ⟨hg, hr⟩ := Prod.mk.inj hobs
  exact ⟨s, hg, hr, (reaper_safe_of_orphans (.of_exec (.init ⟨fun _ => true, rfl, rfl⟩) hs)).1⟩

/-- Processes 1 and 2 take frame 1; process 2, the last to take it, drops it and dies. -/
def lastTakerDropsAndDies : List Event :=
  publishEvents [1, 2, 3] 9 12 ++ latestEvents 1 1 0 ⟨1, 9, 1, 1, 1⟩ ++
    latestEvents 2 1 1 ⟨1, 9, 1, 1, 1⟩ ++ [.dropGuard ⟨2, ⟨1, ⟨1, 9, 1, 1, 1⟩⟩⟩, .die 2] ++
    reapEvents 1 2

/-- The reaper takes the reference of process 1, whose later drop locks the slot. -/
theorem reaper_takes_live_reference :
    ¬ ∀ s, (ring tinyConfig 100).ReachableBy (ProducerLives 100) s →
      ReaperSafe tinyConfig 100 (ProducerLives 100) s := by
  intro hall
  have hrun : ((ring tinyConfig 100).exec (ProducerLives 100) (.start fun _ => true)
      lastTakerDropsAndDies).map (fun s => (s.guards,
        (s.step tinyConfig 100 (.reaperStep ⟨⟨3, 0, false, 1000⟩, .casOne 1 0⟩)).map
          fun s => (s.region.slot 1).refCount)) =
      some ({⟨1, ⟨1, ⟨1, 9, 1, 1, 1⟩⟩⟩}, some 0) := by decide
  obtain ⟨s, hs, hobs⟩ := Option.map_eq_some_iff.mp hrun
  obtain ⟨hg, hstep⟩ := Prod.mk.inj hobs
  obtain ⟨s', hs', hzero⟩ := Option.map_eq_some_iff.mp hstep
  have hreach : (ring tinyConfig 100).ReachableBy (ProducerLives 100) s :=
    .of_exec (.init ⟨fun _ => true, rfl, rfl⟩) hs
  have hmem : (⟨1, ⟨1, ⟨1, 9, 1, 1, 1⟩⟩⟩ : Hold) ∈ s.guards := by rw [hg]; decide
  exact (hall s hreach).1 _ s' nofun hs' _ hmem hzero

end AutoTargeting.Ring
