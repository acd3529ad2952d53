import AutoTargeting.Ring.Memory

namespace AutoTargeting.Ring

def acquireSpins : ℕ := 64

inductive NextStep
  | frame (g : FrameGuard)
  | upToDate
  | tooFarBehind (lastSeen latest : ℕ)
  deriving DecidableEq, Repr

inductive Acquired
  | got (g : FrameGuard)
  | busy
  | mismatch (actual : ℕ)
  deriving DecidableEq, Repr

/-- What a finished call of a consumer returned. -/
inductive Answer
  | latest (g : Option FrameGuard)
  | next (s : NextStep)
  deriving DecidableEq, Repr

def Answer.guard? : Answer → Option FrameGuard
  | .latest g => g
  | .next (.frame g) => some g
  | .next .upToDate | .next (.tooFarBehind _ _) => none

/-- Which call runs `try_acquire`; `nextAfter last n` has `n` more turns of its loop. -/
inductive Caller
  | latest
  | nextAfter (lastId turns : ℕ)
  deriving DecidableEq, Repr

/-- The arguments of `try_acquire`. -/
structure Attempt where
  idx : ℕ
  expectedId : Option ℕ
  deriving DecidableEq, Repr

/-- Where a consumer's call stands: before which access to the shared memory. A number
after the attempt counts the spins left after this one. -/
inductive ConsumerPc
  | latestSeq
  | nextSeq (lastId turns : ℕ)
  | loadRef (k : Caller) (a : Attempt) (spins : ℕ)
  | casRef (k : Caller) (a : Attempt) (spins cur : ℕ)
  | storePid (k : Caller) (a : Attempt)
  | loadId (k : Caller) (a : Attempt)
  | releaseMismatch (k : Caller) (a : Attempt) (actual : ℕ)
  | readTs (k : Caller) (a : Attempt) (actual : ℕ)
  | readWidth (k : Caller) (a : Attempt) (actual tsNs : ℕ)
  | readHeight (k : Caller) (a : Attempt) (actual tsNs width : ℕ)
  | readFormat (k : Caller) (a : Attempt) (actual tsNs width height : ℕ)
  deriving DecidableEq, Repr

/-- One access of a consumer: the memory and either the next position or the answer. -/
structure ConsumerStep where
  region : Region
  next : ConsumerPc ⊕ Answer

inductive Call
  | latest
  | nextAfter (lastId : ℕ)
  deriving DecidableEq, Repr

def Call.enter : Call → ConsumerPc
  | .latest => .latestSeq
  | .nextAfter lastId => .nextSeq lastId (acquireSpins * 4 - 1)

/-- `last_id.saturating_add(1)`. -/
def wanted (lastId : ℕ) : ℕ := min (lastId + 1) (2 ^ 64 - 1)

def tryAcquire (c : CheckedConfig) (k : Caller) (slotIdx : ℕ) (expectedId : Option ℕ) :
    ConsumerPc := .loadRef k ⟨slotIdx % c.capacity, expectedId⟩ (acquireSpins - 1)

/-- What the caller does with the outcome of `try_acquire`. -/
def Caller.resume : Caller → Acquired → ConsumerPc ⊕ Answer
  | latest, .got g => .inr (.latest (some g))
  | latest, .busy | latest, .mismatch _ => .inr (.latest none)
  | nextAfter _ _, .got g => .inr (.next (.frame g))
  | nextAfter _ 0, .busy | nextAfter _ 0, .mismatch _ => .inr (.next .upToDate)
  | nextAfter lastId (n + 1), .busy | nextAfter lastId (n + 1), .mismatch _ =>
    .inl (.nextSeq lastId n)

def Caller.spin (k : Caller) (a : Attempt) : ℕ → ConsumerPc ⊕ Answer
  | 0 => k.resume .busy
  | n + 1 => .inl (.loadRef k a n)

def Attempt.checkId (k : Caller) (a : Attempt) (actual : ℕ) : ConsumerPc :=
  match a.expectedId with
  | some want => if actual ≠ want then .releaseMismatch k a actual else .readTs k a actual
  | none => .readTs k a actual

def ConsumerPc.step (c : CheckedConfig) (pid : ℕ) (r : Region) : ConsumerPc → ConsumerStep
  | latestSeq =>
    if r.writeSeq = 0 then ⟨r, .inr (.latest none)⟩
    else ⟨r, .inl (tryAcquire c .latest (r.writeSeq % c.capacity) none)⟩
  | nextSeq lastId n =>
    if r.writeSeq = 0 then ⟨r, .inr (.next .upToDate)⟩
    else if r.writeSeq < wanted lastId then ⟨r, .inr (.next .upToDate)⟩
    else if c.capacity ≤ r.writeSeq - wanted lastId then
      ⟨r, .inr (.next (.tooFarBehind lastId r.writeSeq))⟩
    else
      ⟨r, .inl (tryAcquire c (.nextAfter lastId n) (wanted lastId % c.capacity)
        (some (wanted lastId)))⟩
  | loadRef k a n =>
    if (r.slot a.idx).refCount = writerLock then ⟨r, k.spin a n⟩
    else ⟨r, .inl (casRef k a n (r.slot a.idx).refCount)⟩
  | casRef k a n cur =>
    if (r.slot a.idx).refCount = cur then ⟨r.setRef a.idx (cur + 1), .inl (storePid k a)⟩
    else ⟨r, k.spin a n⟩
  | storePid k a => ⟨r.modifySlot a.idx fun m => { m with holderPid := pid }, .inl (loadId k a)⟩
  | loadId k a => ⟨r, .inl (a.checkId k (r.slot a.idx).frameId)⟩
  | releaseMismatch k a actual =>
    ⟨r.setRef a.idx (fetchSub (r.slot a.idx).refCount), k.resume (.mismatch actual)⟩
  | readTs k a actual => ⟨r, .inl (readWidth k a actual (r.slot a.idx).tsNs)⟩
  | readWidth k a actual ts => ⟨r, .inl (readHeight k a actual ts (r.slot a.idx).width)⟩
  | readHeight k a actual ts w => ⟨r, .inl (readFormat k a actual ts w (r.slot a.idx).height)⟩
  | readFormat k a actual ts w h =>
    ⟨r, k.resume (.got ⟨a.idx, ⟨actual, ts, w, h, (r.slot a.idx).format⟩⟩)⟩

namespace ConsumerPc

/-- The slot that a call counted itself on and that no guard accounts for yet. -/
def holding : ConsumerPc → Option ℕ
  | latestSeq | nextSeq _ _ | loadRef _ _ _ | casRef _ _ _ _ => none
  | storePid _ a | loadId _ a | releaseMismatch _ a _ | readTs _ a _ | readWidth _ a _ _
  | readHeight _ a _ _ _ | readFormat _ a _ _ _ _ => some a.idx

def held (pc : ConsumerPc) (i : ℕ) : ℕ := if pc.holding = some i then 1 else 0

end ConsumerPc

@[simp] theorem holding_enter (k : Call) : k.enter.holding = none := by cases k <;> rfl

def FrameGuard.held (g : FrameGuard) (i : ℕ) : ℕ := if g.slotIdx = i then 1 else 0

/-- The references that the outcome of a consumer's step owns. -/
def heldAfter (i : ℕ) : ConsumerPc ⊕ Answer → ℕ
  | .inl pc => pc.held i
  | .inr answer => (answer.guard?.map (·.held i)).getD 0

@[simp] theorem heldAfter_inl (i : ℕ) (pc : ConsumerPc) : heldAfter i (.inl pc) = pc.held i := rfl

@[simp] theorem heldAfter_resume_busy (i : ℕ) (k : Caller) : heldAfter i (k.resume .busy) = 0 := by
  rcases k with _ | ⟨_, _ | n⟩ <;> rfl

@[simp] theorem heldAfter_resume_mismatch (i : ℕ) (k : Caller) (actual : ℕ) :
    heldAfter i (k.resume (.mismatch actual)) = 0 := by
  rcases k with _ | ⟨_, _ | n⟩ <;> rfl

@[simp] theorem heldAfter_resume_got (i : ℕ) (k : Caller) (g : FrameGuard) :
    heldAfter i (k.resume (.got g)) = g.held i := by
  rcases k with _ | ⟨_, n⟩ <;> rfl

@[simp] theorem heldAfter_spin (i : ℕ) (k : Caller) (a : Attempt) (n : ℕ) :
    heldAfter i (k.spin a n) = 0 := by
  cases n with
  | zero => exact heldAfter_resume_busy i k
  | succ n => rfl

@[simp] theorem held_checkId (i : ℕ) (k : Caller) (a : Attempt) (actual : ℕ) :
    (a.checkId k actual).held i = if a.idx = i then 1 else 0 := by
  unfold Attempt.checkId
  split
  · split <;> simp [ConsumerPc.held, ConsumerPc.holding]
  · simp [ConsumerPc.held, ConsumerPc.holding]

theorem consumer_sameFrames (c : CheckedConfig) (pid : ℕ) (r : Region) (pc : ConsumerPc) :
    r.SameFrames (pc.step c pid r).region := by
  cases pc with
  | latestSeq => simp only [ConsumerPc.step]; split <;> exact .refl r
  | nextSeq lastId n => simp only [ConsumerPc.step]; split_ifs <;> exact .refl r
  | loadRef k a n => simp only [ConsumerPc.step]; split <;> exact .refl r
  | casRef k a n cur =>
    simp only [ConsumerPc.step]
    split
    · exact r.sameFrames_setRef a.idx (cur + 1)
    · exact .refl r
  | storePid k a =>
    exact r.sameFrames_modifySlot a.idx (fun m => { m with holderPid := pid }) (fun _ => rfl)
      (fun _ => rfl)
  | releaseMismatch k a actual => exact r.sameFrames_setRef a.idx _
  | loadId | readTs | readWidth | readHeight | readFormat => exact .refl r

theorem consumer_droppedFrames (c : CheckedConfig) (pid : ℕ) (r : Region) (pc : ConsumerPc) :
    (pc.step c pid r).region.droppedFrames = r.droppedFrames := by
  cases pc with
  | nextSeq lastId n => simp only [ConsumerPc.step]; split_ifs <;> rfl
  | latestSeq | loadRef | casRef => simp only [ConsumerPc.step]; split <;> rfl
  | storePid | loadId | releaseMismatch | readTs | readWidth | readHeight | readFormat => rfl

/-- The value a CAS expects is never the writer's lock. -/
def ConsumerPc.Sane : ConsumerPc → Prop
  | casRef _ _ _ cur => cur ≠ writerLock
  | _ => True

theorem resume_sane {k : Caller} {x : Acquired} {pc : ConsumerPc} (h : k.resume x = .inl pc) :
    pc.Sane := by
  rcases k with _ | ⟨_, _ | n⟩ <;> rcases x with _ | _ | _
  all_goals
    cases h
    try trivial

theorem spin_sane {k : Caller} {a : Attempt} {n : ℕ} {pc : ConsumerPc}
    (h : k.spin a n = .inl pc) : pc.Sane := by
  cases n with
  | zero => exact resume_sane h
  | succ n => cases h; trivial

theorem consumer_sane {c : CheckedConfig} {pid : ℕ} {r : Region} {pc pc' : ConsumerPc}
    (h : (pc.step c pid r).next = .inl pc') : pc'.Sane := by
  cases pc with
  | latestSeq =>
    simp only [ConsumerPc.step] at h
    split at h <;> cases h
    trivial
  | nextSeq lastId n =>
    simp only [ConsumerPc.step] at h
    split_ifs at h
    cases h
    trivial
  | loadRef k a n =>
    simp only [ConsumerPc.step] at h
    split at h
    case isTrue => exact spin_sane h
    case isFalse hne => cases h; exact hne
  | casRef k a n cur =>
    simp only [ConsumerPc.step] at h
    split at h
    case isTrue => cases h; trivial
    case isFalse => exact spin_sane h
  | loadId k a =>
    cases h
    unfold Attempt.checkId
    split
    · split <;> trivial
    · trivial
  | releaseMismatch => exact resume_sane h
  | readFormat => exact resume_sane h
  | storePid | readTs | readWidth | readHeight => cases h; trivial

/-- A consumer keeps the count of a slot equal to the references it owns there: what the
step adds to the count, its outcome owns on top of what the position before owned. -/
theorem consumer_counts (c : CheckedConfig) (pid : ℕ) {r : Region} {pc : ConsumerPc} (i : ℕ)
    (hsane : pc.Sane) (hlt : (r.slot i).refCount < 2 ^ 32)
    (hpos : pc.held i ≤ (r.slot i).refCount) :
    ((pc.step c pid r).region.slot i).refCount < 2 ^ 32 ∧
      ((pc.step c pid r).region.slot i).refCount + pc.held i =
        (r.slot i).refCount + heldAfter i (pc.step c pid r).next := by
  cases pc with
  | latestSeq =>
    simp only [ConsumerPc.step]
    split <;> exact ⟨hlt, rfl⟩
  | nextSeq lastId n =>
    simp only [ConsumerPc.step]
    split_ifs <;> exact ⟨hlt, rfl⟩
  | loadRef k a n =>
    simp only [ConsumerPc.step]
    split
    · simpa [ConsumerPc.held, ConsumerPc.holding] using hlt
    · exact ⟨hlt, rfl⟩
  | casRef k a n cur =>
    have hc : cur ≠ writerLock := hsane
    have hfree : (ConsumerPc.casRef k a n cur).held i = 0 := rfl
    simp only [ConsumerPc.step]
    split
    case isTrue hcur =>
      -- a count below the writer's lock has room for one more
      have htaken : (ConsumerPc.storePid k a).held i = if a.idx = i then 1 else 0 := by
        simp [ConsumerPc.held, ConsumerPc.holding]
      simp only [Region.setRef_refCount, heldAfter_inl, hfree, htaken]
      unfold writerLock at hc
      by_cases hi : a.idx = i
      · subst hi
        simp only [if_true]
        omega
      · simpa [hi, Ne.symm hi] using hlt
    case isFalse => simpa [hfree] using hlt
  | storePid k a =>
    simp only [ConsumerPc.step, Region.modifySlot_slot]
    have hsame : (if i = a.idx then { r.slot a.idx with holderPid := pid } else r.slot i).refCount
        = (r.slot i).refCount := by
      split <;> simp_all
    rw [hsame]
    exact ⟨hlt, rfl⟩
  | loadId k a =>
    refine ⟨hlt, ?_⟩
    simp only [ConsumerPc.step, heldAfter_inl, held_checkId]
    simp [ConsumerPc.held, ConsumerPc.holding]
  | releaseMismatch k a actual =>
    have htaken : (ConsumerPc.releaseMismatch k a actual).held i = if a.idx = i then 1 else 0 := by
      simp [ConsumerPc.held, ConsumerPc.holding]
    rw [htaken] at hpos ⊢
    simp only [ConsumerPc.step, Region.setRef_refCount, heldAfter_resume_mismatch]
    by_cases hi : a.idx = i
    · subst hi
      simp only [if_true] at hpos ⊢
      -- its own reference keeps the count from wrapping
      rw [fetchSub_of_pos (by omega) hlt]
      omega
    · simpa [hi, Ne.symm hi] using hlt
  | readTs | readWidth | readHeight => exact ⟨hlt, rfl⟩
  | readFormat k a actual ts w h =>
    refine ⟨hlt, ?_⟩
    simp [ConsumerPc.step, ConsumerPc.held, ConsumerPc.holding, FrameGuard.held]

end AutoTargeting.Ring
