import AutoTargeting.Ring.Memory

namespace AutoTargeting.Ring

/-- `pid_alive`: `kill(pid, 0)`, where `alive` says which processes exist. -/
def pidAlive (alive : ℕ → Bool) (pid : ℕ) : Bool := pid != 0 && alive pid

/-- What one call of `recover_stale_slots` fixed before its loop. -/
structure ReapCall where
  pid : ℕ
  maxAgeNs : ℕ
  producerDead : Bool
  nowNs : ℕ
  deriving DecidableEq, Repr

/-- Where the loop over the slots stands: before which access, at which slot, with how
many slots freed. -/
inductive ReaperPc
  | loadRef (idx freed : ℕ)
  | casLock (idx freed : ℕ)
  | loadPid (idx freed : ℕ)
  | readTs (idx freed pid : ℕ)
  | checkAlive (idx freed pid : ℕ) (stale : Bool)
  | casOne (idx freed : ℕ)
  deriving DecidableEq, Repr

/-- One access of the reaper: the memory and either the next position or the number of
slots freed. -/
structure ReaperStep where
  region : Region
  next : ReaperPc ⊕ ℕ

namespace ReaperPc

def step (c : CheckedConfig) (alive : ℕ → Bool) (call : ReapCall) (r : Region) :
    ReaperPc → ReaperStep
  | loadRef idx freed =>
    if idx < c.capacity then
      let cur := (r.slot idx).refCount
      if cur = writerLock then ⟨r, .inl (casLock idx freed)⟩
      else if cur = 1 then ⟨r, .inl (loadPid idx freed)⟩
      -- a shared slot is logged and left alone
      else ⟨r, .inl (loadRef (idx + 1) freed)⟩
    else ⟨r, .inr freed⟩
  | casLock idx freed =>
    if call.producerDead ∧ (r.slot idx).refCount = writerLock then
      ⟨r.setRef idx 0, .inl (loadRef (idx + 1) (freed + 1))⟩
    else ⟨r, .inl (loadRef (idx + 1) freed)⟩
  | loadPid idx freed => ⟨r, .inl (readTs idx freed (r.slot idx).holderPid)⟩
  | readTs idx freed pid =>
    ⟨r, .inl (checkAlive idx freed pid (call.maxAgeNs < call.nowNs - (r.slot idx).tsNs))⟩
  | checkAlive idx freed pid stale =>
    if (pid ≠ 0 ∧ pid ≠ call.pid ∧ pidAlive alive pid = false) ∧ stale then
      ⟨r, .inl (casOne idx freed)⟩
    else ⟨r, .inl (loadRef (idx + 1) freed)⟩
  | casOne idx freed =>
    if (r.slot idx).refCount = 1 then
      ⟨r.setRef idx 0, .inl (loadRef (idx + 1) (freed + 1))⟩
    else ⟨r, .inl (loadRef (idx + 1) freed)⟩

/-- The slot whose only reference the next access takes away. -/
def frees (r : Region) : ReaperPc → Option ℕ
  | casOne idx _ => if (r.slot idx).refCount = 1 then some idx else none
  | loadRef _ _ | casLock _ _ | loadPid _ _ | readTs _ _ _ | checkAlive _ _ _ _ => none

end ReaperPc

theorem reaper_sameFrames (c : CheckedConfig) (alive : ℕ → Bool) (call : ReapCall) (r : Region)
    (pc : ReaperPc) : r.SameFrames (pc.step c alive call r).region := by
  cases pc with
  | loadRef idx freed => simp only [ReaperPc.step]; split_ifs <;> exact .refl r
  | casLock idx freed =>
    simp only [ReaperPc.step]
    split
    · exact r.sameFrames_setRef idx 0
    · exact .refl r
  | loadPid | readTs => exact .refl r
  | checkAlive idx freed pid stale => simp only [ReaperPc.step]; split <;> exact .refl r
  | casOne idx freed =>
    simp only [ReaperPc.step]
    split
    · exact r.sameFrames_setRef idx 0
    · exact .refl r

/-- While the producer lives, the reaper changes one count at most: the one it frees. -/
theorem reaper_refCount (c : CheckedConfig) (alive : ℕ → Bool) {call : ReapCall} (r : Region)
    (pc : ReaperPc) (hcall : call.producerDead = false) (i : ℕ) :
    ((pc.step c alive call r).region.slot i).refCount =
      if pc.frees r = some i then 0 else (r.slot i).refCount := by
  cases pc with
  | loadRef idx freed =>
    simp only [ReaperPc.step, ReaperPc.frees, reduceCtorEq, if_false]
    split_ifs <;> rfl
  | casLock idx freed => simp [ReaperPc.step, ReaperPc.frees, hcall]
  | loadPid | readTs => rfl
  | checkAlive idx freed pid stale =>
    simp only [ReaperPc.step, ReaperPc.frees, reduceCtorEq, if_false]
    split <;> rfl
  | casOne idx freed =>
    simp only [ReaperPc.step, ReaperPc.frees]
    by_cases h1 : (r.slot idx).refCount = 1
    · simp only [h1, if_true, Region.setRef_refCount, Option.some.injEq]
      by_cases hi : idx = i
      · simp [hi]
      · simp [hi, Ne.symm hi]
    · simp [h1]

theorem ReaperPc.refCount_of_frees {r : Region} {pc : ReaperPc} {i : ℕ}
    (h : pc.frees r = some i) : (r.slot i).refCount = 1 := by
  cases pc with
  | casOne idx freed =>
    simp only [ReaperPc.frees] at h
    split at h
    case isTrue h1 => cases h; exact h1
    case isFalse => cases h
  | loadRef | casLock | loadPid | readTs | checkAlive => cases h

end AutoTargeting.Ring
