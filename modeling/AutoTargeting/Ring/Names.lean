import AutoTargeting.Ring.Lifecycle

namespace AutoTargeting.Ring.Shm

open Runs

variable {call : ℕ → CreateCall} {asked : ℕ → String} {s s' : Shm} {e : ShmEvent} {i : ℕ}

/-- `remove_segment` is called for what a dead producer left. -/
def StaleRemoval (call : ℕ → CreateCall) (s : Shm) (e : ShmEvent) : Prop :=
  ∀ name, e = .removeSegment name → ∀ i, (call i).name = name → ¬ (s.creator i).Live

/-- The name of a running producer leads to its segment. -/
def Owned (call : ℕ → CreateCall) (s : Shm) : Prop :=
  ∀ i, (s.creator i).Live → s.dir (call i).name = some i

/-- A step that leaves names alone, and makes no call live. -/
structure Quiet (s s' : Shm) : Prop where
  dir : s'.dir = s.dir
  live : ∀ i, (s'.creator i).Live → (s.creator i).Live

theorem Owned.quiet (h : Owned call s) (hq : Quiet s s') : Owned call s' := by
  intro i hi
  rw [hq.dir]
  exact h i (hq.live i hi)

theorem quiet_setAttacher (s : Shm) (j : ℕ) (pc : AttacherPc) : Quiet s (s.setAttacher j pc) :=
  ⟨rfl, fun _ hi => hi⟩

theorem quiet_setMemory (s : Shm) (i : ℕ) (memory : List UInt8) : Quiet s (s.setMemory i memory) :=
  ⟨rfl, fun _ hi => hi⟩

theorem quiet_setCreator {pc : CreatorPc} (hpc : pc.Live → (s.creator i).Live) :
    Quiet s (s.setCreator i pc) where
  dir := rfl
  live i' hi' := by
    by_cases hi : i' = i
    · subst hi
      exact hpc (by simpa [setCreator] using hi')
    · simpa [setCreator, hi] using hi'

theorem Owned.unlink {pc : CreatorPc} (h : Owned call s) (hi : (s.creator i).Live)
    (hpc : ¬ pc.Live) : Owned call ((s.unlink (call i).name).setCreator i pc) := by
  intro i' hi'
  have hne : i' ≠ i := by
    rintro rfl
    exact hpc (by simpa [setCreator] using hi')
  have hlive : (s.creator i').Live := by simpa [setCreator, Shm.unlink, hne] using hi'
  have hname : (call i').name ≠ (call i).name := by
    intro heq
    have := (h i' hlive).symm.trans (heq ▸ h i hi)
    exact hne (Option.some.inj this)
  simpa [setCreator, Shm.unlink, hname] using h i' hlive

theorem Owned.creatorStep (h : Owned call s) (hs : s.creatorStep call i = some s') :
    Owned call s' := by
  obtain ⟨o, hpc, -, rfl⟩ | ⟨hpc, hdir, rfl⟩ | ⟨hpc, rfl⟩ | ⟨hpc, rfl⟩ | ⟨k, w, hpc, hw, rfl⟩ :=
    creatorStep_cases hs
  · exact h.quiet (quiet_setCreator fun hlive : CreatorPc.Live (.returned _) => hlive.elim)
  · intro i' hi'
    by_cases hi : i' = i
    · subst hi
      simp [setCreator, link]
    · have hlive : (s.creator i').Live := by simpa [setCreator, link, hi] using hi'
      have hname : (call i').name ≠ (call i).name := by
        intro heq
        rw [← heq, h i' hlive] at hdir
        cases hdir
      simpa [setCreator, link, hname] using h i' hlive
  · exact (h.quiet (quiet_setMemory s i _)).quiet
      (quiet_setCreator fun _ => by simp [setMemory, hpc, CreatorPc.Live])
  · exact h.quiet (quiet_setCreator fun _ => by simp [hpc, CreatorPc.Live])
  · exact (h.quiet (quiet_setMemory s i _)).quiet
      (quiet_setCreator fun _ => by simp [setMemory, hpc, CreatorPc.Live])

theorem Owned.creatorFails {error : String} (h : Owned call s)
    (hs : s.creatorFails call i error = some s') : Owned call s' := by
  obtain ⟨r, ⟨-, rfl⟩ | ⟨hpc, rfl⟩ | ⟨-, rfl⟩⟩ := creatorFails_cases hs
  · exact h.quiet (quiet_setCreator fun hlive => hlive.elim)
  · exact h.unlink (by simp [hpc, CreatorPc.Live]) id
  · exact h.quiet (quiet_setCreator fun hlive => hlive.elim)

theorem Owned.step (h : Owned call s) (hstale : StaleRemoval call s e)
    (hs : Shm.step call asked s e = some s') : Owned call s' := by
  cases e with
  | create i =>
    simp only [Shm.step] at hs
    split_ifs at hs
    cases hs
    exact h.quiet (quiet_setCreator fun hlive => hlive.elim)
  | creatorStep i => exact h.creatorStep hs
  | creatorFails i error => exact h.creatorFails hs
  | creatorDies i =>
    obtain ⟨-, rfl⟩ := creatorDies_cases hs
    exact h.quiet (quiet_setCreator fun hlive => hlive.elim)
  | drop i =>
    obtain ⟨hpc, rfl⟩ := drop_cases hs
    exact h.unlink (by simp [hpc, CreatorPc.Live]) id
  | attach j =>
    simp only [Shm.step] at hs
    split_ifs at hs
    cases hs
    exact h.quiet (quiet_setAttacher s j _)
  | attacherStep j =>
    obtain ⟨pc, rfl⟩ := attacherStep_cases hs
    exact h.quiet (quiet_setAttacher s j pc)
  | attacherFails j error =>
    simp only [Shm.step, Shm.attacherFails] at hs
    split at hs <;> cases hs <;> exact h.quiet (quiet_setAttacher s j _)
  | detach j =>
    simp only [Shm.step, Shm.detach] at hs
    split at hs <;> cases hs
    exact h.quiet (quiet_setAttacher s j _)
  | removeSegment name =>
    cases hs
    intro i hi
    have hname : (call i).name ≠ name := fun heq => hstale name rfl i heq hi
    simpa [Shm.unlink, hname] using h i hi
  | use i memory =>
    simp only [Shm.step, Shm.use] at hs
    split_ifs at hs
    cases hs
    exact h.quiet (quiet_setMemory s i memory)

theorem owned (h : (shmMachine call asked).ReachableBy (StaleRemoval call) s) : Owned call s := by
  refine h.invariant ?_ ?_
  · rintro _ rfl i hi
    exact hi.elim
  · intro s e s' _ hs hstale he
    exact hs.step hstale he

/-- The calls of two producers, each with its own name. -/
def cameraCalls (i : ℕ) : CreateCall := ⟨if i = 0 then "left" else "right", tinyConfig, 9, 100⟩

def removes : ShmEvent → Bool
  | .removeSegment _ => true
  | _ => false

theorem staleRemoval_of_not_removes (s : Shm) (e : ShmEvent) (h : removes e = false) :
    StaleRemoval call s e := by
  rintro name rfl
  cases h

def createWhole (i : ℕ) : List ShmEvent := .create i :: List.replicate 14 (.creatorStep i)

/-- As long as only stale names are removed, a producer has its name to itself until it gives it
up, and takes away no name but its own. -/
theorem producers_own_their_names
    (h : (shmMachine call asked).ReachableBy (StaleRemoval call) s) :
    (∀ i, (s.creator i).Live → s.dir (call i).name = some i) ∧
    (∀ i i', (s.creator i).Live → (s.creator i').Live → (call i).name = (call i').name → i = i') ∧
    ∀ i s', (shmMachine call asked).step s (.drop i) = some s' →
      ∀ name o, s.dir name = some o → o ≠ i → s'.dir name = some o := by
  have howned := owned h
  refine ⟨howned, ?_, ?_⟩
  · intro i i' hi hi' heq
    exact Option.some.inj ((howned i hi).symm.trans (heq ▸ howned i' hi'))
  · intro i s' hs name o ho hne
    obtain ⟨hpc, rfl⟩ := drop_cases hs
    have hi := howned i (by simp [hpc, CreatorPc.Live])
    have hname : name ≠ (call i).name := by
      rintro rfl
      exact hne (Option.some.inj (ho.symm.trans hi))
    simpa [setCreator, Shm.unlink, hname] using ho

theorem producers_own_their_names_two : ∃ s s' : Shm, s.creator 1 = .created ∧
    (shmMachine cameraCalls askFrames).step s (.drop 0) = some s' ∧ s'.dir "right" = some 1 := by
  have hrun : (((shmMachine cameraCalls askFrames).exec (fun _ e => removes e = false) empty
      (createWhole 0 ++ createWhole 1)).bind fun s =>
        ((shmMachine cameraCalls askFrames).step s (.drop 0)).map fun _ =>
          (s.creator 1, s.dir "right")) = some (.created, some 1) := by decide +kernel
  obtain ⟨s, hs, hrun⟩ := Option.bind_eq_some_iff.mp hrun
  obtain ⟨s', hs', hrun⟩ := Option.map_eq_some_iff.mp hrun
  obtain ⟨hpc, hdir⟩ := Prod.mk.inj hrun
  have hreach : (shmMachine cameraCalls askFrames).ReachableBy (StaleRemoval cameraCalls) s :=
    (Machine.ReachableBy.of_exec (.init rfl) hs).mono staleRemoval_of_not_removes
  exact ⟨s, s', hpc, hs', (producers_own_their_names hreach).2.2 0 s' hs' _ 1 hdir (by decide)⟩

/-- A producer that is still there when another one takes its name takes the name away from it. -/
example : ((shmMachine frameCalls askFrames).exec (fun _ _ => True) empty
    (createWhole 0 ++ .removeSegment "frames" :: createWhole 1 ++ [.drop 0])).map
      (fun s => (s.creator 1, s.dir "frames")) = some (.created, none) := by decide +kernel

end AutoTargeting.Ring.Shm
