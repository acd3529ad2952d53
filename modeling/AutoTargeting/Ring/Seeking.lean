import AutoTargeting.Ring.Acquire

namespace AutoTargeting.Ring

variable {c : CheckedConfig} {pid last n : ℕ} {r : Region} {P Q : Prop} {pc pc' : ConsumerPc}
  {answer : Answer}

/-- A guard comes from the last of the reads only. -/
theorem guard_of_readFormat {pc : ConsumerPc} {answer : Answer} {g : FrameGuard}
    (h : (pc.step c pid r).next = .inr answer) (hg : answer.guard? = some g) :
    ∃ k a actual ts width height, pc = .readFormat k a actual ts width height ∧
      g = ⟨a.idx, ⟨actual, ts, width, height, (r.slot a.idx).format⟩⟩ := by
  have hheld : heldAfter g.slotIdx (pc.step c pid r).next = 1 := by
    rw [h]
    simp [heldAfter, hg, FrameGuard.held]
  cases pc with
  | latestSeq =>
    simp only [ConsumerPc.step] at h
    split at h <;> cases h
    cases hg
  | nextSeq lastId n =>
    simp only [ConsumerPc.step] at h
    split_ifs at h <;> cases h <;> cases hg
  | loadRef k a n =>
    simp only [ConsumerPc.step] at h
    split at h
    case isTrue hlock => simp [ConsumerPc.step, hlock] at hheld
    case isFalse => cases h
  | casRef k a n cur =>
    simp only [ConsumerPc.step] at h
    split at h
    case isTrue => cases h
    case isFalse hcur => simp [ConsumerPc.step, hcur] at hheld
  | releaseMismatch k a actual => simp [ConsumerPc.step] at hheld
  | readFormat k a actual ts width height =>
    refine ⟨k, a, actual, ts, width, height, rfl, ?_⟩
    cases k <;> cases h <;> exact (Option.some.inj hg).symm
  | storePid | loadId | readTs | readWidth | readHeight => cases h

/-- Where a call of `next_after` with cursor `last` is. `P` is what holds once it found the
frame behind the cursor in the window. -/
def Seeks (last : ℕ) (P : Prop) : ConsumerPc → Prop
  | .latestSeq => False
  | .nextSeq lastId _ => lastId = last ∧ last + 1 < 2 ^ 64
  | .loadRef k a _ | .casRef k a _ _ | .storePid k a | .loadId k a =>
    (∃ n, k = .nextAfter last n) ∧ a.expectedId = some (last + 1) ∧ last + 1 < 2 ^ 64 ∧ P
  | .releaseMismatch k _ _ => (∃ n, k = .nextAfter last n) ∧ last + 1 < 2 ^ 64
  | .readTs k _ actual | .readWidth k _ actual _ | .readHeight k _ actual _ _
  | .readFormat k _ actual _ _ _ => (∃ n, k = .nextAfter last n) ∧ actual = last + 1 ∧ P

/-- What such a call answers. -/
def Sought (c : CheckedConfig) (r : Region) (last : ℕ) (P : Prop) : Answer → Prop
  | .next (.frame g) => g.view.frameId = last + 1 ∧ P
  | .next .upToDate => True
  | .next (.tooFarBehind lastSeen latest) =>
    lastSeen = last ∧ latest = r.writeSeq ∧ last + 1 + c.capacity ≤ r.writeSeq
  | .latest _ => False

theorem seeks_mono (hPQ : P → Q) (h : Seeks last P pc) : Seeks last Q pc := by
  cases pc with
  | latestSeq => exact h
  | nextSeq | releaseMismatch => exact h
  | loadRef | casRef | storePid | loadId => exact ⟨h.1, h.2.1, h.2.2.1, hPQ h.2.2.2⟩
  | readTs | readWidth | readHeight | readFormat => exact ⟨h.1, h.2.1, hPQ h.2.2⟩

theorem wanted_eq (h : last + 1 < 2 ^ 64) : wanted last = last + 1 := by
  unfold wanted
  omega

/-- The slot was not to be had: the call begins its loop again, or it gives up. -/
theorem resume_nextAfter (last n : ℕ) {x : Acquired} (hx : ∀ g, x ≠ .got g) :
    (∃ m, (Caller.nextAfter last n).resume x = .inl (.nextSeq last m)) ∨
      (Caller.nextAfter last n).resume x = .inr (.next .upToDate) := by
  cases x with
  | got g => exact absurd rfl (hx g)
  | busy | mismatch =>
    cases n with
    | zero => exact .inr rfl
    | succ n => exact .inl ⟨n, rfl⟩

/-- After a failed spin the call spins again, or does without the slot. -/
theorem spin_nextAfter (a : Attempt) (spins : ℕ) :
    (∃ m, (Caller.nextAfter last n).spin a spins = .inl (.loadRef (.nextAfter last n) a m)) ∨
    (∃ m, (Caller.nextAfter last n).spin a spins = .inl (.nextSeq last m)) ∨
      (Caller.nextAfter last n).spin a spins = .inr (.next .upToDate) := by
  cases spins with
  | zero => exact .inr (resume_nextAfter last n (by simp))
  | succ m => exact .inl ⟨m, rfl⟩

theorem seeks_spin {a : Attempt} {spins : ℕ}
    (hat : Seeks last P (.loadRef (.nextAfter last n) a spins))
    (h : (Caller.nextAfter last n).spin a spins = .inl pc) : Seeks last P pc := by
  rcases spin_nextAfter a spins with ⟨m, hm⟩ | ⟨m, hm⟩ | hup
  · cases hm.symm.trans h
    exact hat
  · cases hm.symm.trans h
    exact ⟨rfl, hat.2.2.1⟩
  · cases hup.symm.trans h

theorem sought_spin {a : Attempt} {spins : ℕ}
    (h : (Caller.nextAfter last n).spin a spins = .inr answer) : Sought c r last P answer := by
  rcases spin_nextAfter a spins with ⟨m, hm⟩ | ⟨m, hm⟩ | hup
  · cases hm.symm.trans h
  · cases hm.symm.trans h
  · cases hup.symm.trans h
    trivial

theorem seeks_goesOn (pid : ℕ) (hat : Seeks last P pc)
    (hload : ∀ n, pc = .nextSeq last n →
      last + 1 ≤ r.writeSeq → r.writeSeq < last + 1 + c.capacity → P)
    (h : (pc.step c pid r).next = .inl pc') : Seeks last P pc' := by
  cases pc with
  | latestSeq => cases hat
  | nextSeq lastId n =>
    obtain ⟨rfl, hleft⟩ := hat
    simp only [ConsumerPc.step, wanted_eq hleft] at h
    split_ifs at h with hseq hahead hfar
    cases h
    exact ⟨⟨n, rfl⟩, rfl, hleft, hload n rfl (by omega) (by omega)⟩
  | loadRef k a n =>
    simp only [ConsumerPc.step] at h
    split at h
    · obtain ⟨⟨m, rfl⟩, hrest⟩ := hat
      exact seeks_spin ⟨⟨m, rfl⟩, hrest⟩ h
    · cases h
      exact hat
  | casRef k a n cur =>
    simp only [ConsumerPc.step] at h
    split at h
    · cases h
      exact hat
    · obtain ⟨⟨m, rfl⟩, hrest⟩ := hat
      exact seeks_spin ⟨⟨m, rfl⟩, hrest⟩ h
  | storePid => cases h; exact hat
  | loadId k a =>
    obtain ⟨hk, hexp, hleft, hP⟩ := hat
    cases h
    simp only [Attempt.checkId, hexp]
    split
    case isTrue => exact ⟨hk, hleft⟩
    case isFalse hid => exact ⟨hk, not_not.mp hid, hP⟩
  | releaseMismatch k a actual =>
    obtain ⟨⟨m, rfl⟩, hleft⟩ := hat
    have hx : ∀ g, Acquired.mismatch actual ≠ .got g := by simp
    rcases resume_nextAfter last m hx with ⟨m', hm⟩ | hup
    · cases hm.symm.trans h
      exact ⟨rfl, hleft⟩
    · cases hup.symm.trans h
  | readTs | readWidth | readHeight => cases h; exact hat
  | readFormat k a actual ts width height =>
    obtain ⟨⟨m, rfl⟩, -⟩ := hat
    cases h

theorem seeks_answers (pid : ℕ) (hat : Seeks last P pc)
    (h : (pc.step c pid r).next = .inr answer) : Sought c r last P answer := by
  cases pc with
  | latestSeq => cases hat
  | nextSeq lastId n =>
    obtain ⟨rfl, hleft⟩ := hat
    simp only [ConsumerPc.step, wanted_eq hleft] at h
    split_ifs at h with hseq hahead hfar <;> cases h
    · trivial
    · trivial
    · exact ⟨rfl, rfl, by omega⟩
  | loadRef k a n =>
    obtain ⟨⟨m, rfl⟩, -⟩ := hat
    simp only [ConsumerPc.step] at h
    split at h
    · exact sought_spin h
    · cases h
  | casRef k a n cur =>
    obtain ⟨⟨m, rfl⟩, -⟩ := hat
    simp only [ConsumerPc.step] at h
    split at h
    · cases h
    · exact sought_spin h
  | releaseMismatch k a actual =>
    obtain ⟨⟨m, rfl⟩, -⟩ := hat
    have hx : ∀ g, Acquired.mismatch actual ≠ .got g := by simp
    rcases resume_nextAfter last m hx with ⟨m', hm⟩ | hup
    · cases hm.symm.trans h
    · cases hup.symm.trans h
      trivial
  | readFormat k a actual ts width height =>
    obtain ⟨⟨m, rfl⟩, hid, hP⟩ := hat
    cases h
    exact ⟨hid, hP⟩
  | storePid | loadId | readTs | readWidth | readHeight => cases h

end AutoTargeting.Ring
