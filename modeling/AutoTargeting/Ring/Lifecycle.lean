import AutoTargeting.Ring.Prepared

namespace AutoTargeting.Ring

open Bytes Runs

namespace CreatorPc

/-- What the memory of an object is like, by where the call is that creates it. -/
def Describes (c : CreateCall) : CreatorPc → List UInt8 → Prop
  | idle, memory | opening, memory | ftruncate, memory => memory = []
  | mmap, memory => memory = c.prepared 0
  | header k, memory => k < 11 ∧ memory = c.prepared k
  | created, memory | dropped, memory => c.Whole memory
  | returned _, memory => c.Half memory
  | dead, memory => c.Half memory ∨ c.Whole memory

/-- The call has made its object and its process still maps it. -/
def Live : CreatorPc → Prop
  | ftruncate | mmap | header _ | created => True
  | _ => False

instance decidableLive : DecidablePred Live := fun pc =>
  match pc with
  | ftruncate | mmap | header _ | created => inferInstanceAs (Decidable True)
  | idle | opening | dropped | returned _ | dead => inferInstanceAs (Decidable False)

/-- `create_shared` got as far as to a producer. -/
def Finished (pc : CreatorPc) : Prop := pc = created ∨ pc = dropped ∨ pc = dead

variable {c : CreateCall} {pc : CreatorPc} {memory : List UInt8}

theorem Describes.half_or_whole (h : pc.Describes c memory) : c.Half memory ∨ c.Whole memory := by
  cases pc with
  | idle | opening | ftruncate => exact .inl (.inl h)
  | mmap => exact .inl (.inr ⟨0, by omega, h⟩)
  | header k => exact .inl (.inr ⟨k, h⟩)
  | created | dropped => exact .inr h
  | returned e => exact .inl h
  | dead => exact h

theorem Describes.finished (h : pc.Describes c memory) (hwhole : c.Whole memory) :
    pc.Finished := by
  have half : c.Half memory → pc.Finished := fun hhalf => absurd hwhole hhalf.not_whole
  cases pc with
  | idle | opening | ftruncate => exact half (.inl h)
  | mmap => exact half (.inr ⟨0, by omega, h⟩)
  | header k => exact half (.inr ⟨k, h⟩)
  | created => exact .inl rfl
  | dropped => exact .inr (.inl rfl)
  | returned e => exact half h
  | dead => exact .inr (.inr rfl)

theorem Describes.length (h : pc.Describes c memory) :
    memory.length = 0 ∨ memory.length = c.len := by
  rcases h.half_or_whole with (rfl | ⟨k, -, rfl⟩) | hwhole
  · exact .inl rfl
  · exact .inr (c.length_prepared k)
  · exact .inr hwhole.1

end CreatorPc

namespace AttacherPc

def object : AttacherPc → Option ℕ
  | fstat i | mmap i _ | magic i _ | version i _ | capacity i _ | frameSize i _ _
  | attached i _ => some i
  | idle | opening | returned _ | gone => none

/-- What an attacher has made sure of, about an object that got its name from `call`. -/
def Knows (call : ℕ → CreateCall) (name : String) (memory : ℕ → List UInt8) : AttacherPc → Prop
  | fstat i => (call i).name = name
  | mmap i len | magic i len => (call i).name = name ∧ len = (call i).len
  | version i len | capacity i len =>
    (call i).name = name ∧ len = (call i).len ∧ (call i).Whole (memory i)
  | frameSize i len cap =>
    (call i).name = name ∧ len = (call i).len ∧ (call i).Whole (memory i) ∧
      cap = (call i).config.capacity
  | attached i r =>
    (call i).name = name ∧ (call i).Whole (memory i) ∧ r = RegionView.init (call i).config
  | idle | opening | returned _ | gone => True

/-- What was made sure of stays, as whole segments stay whole. -/
theorem Knows.mono {call : ℕ → CreateCall} {name : String} {memory memory' : ℕ → List UInt8}
    {pc : AttacherPc} (h : pc.Knows call name memory)
    (hwhole : ∀ i, (call i).Whole (memory i) → (call i).Whole (memory' i)) :
    pc.Knows call name memory' := by
  cases pc with
  | fstat i => exact h
  | mmap i len | magic i len => exact h
  | version i len | capacity i len => exact ⟨h.1, h.2.1, hwhole i h.2.2⟩
  | frameSize i len cap => exact ⟨h.1, h.2.1, hwhole i h.2.2.1, h.2.2.2⟩
  | attached i r => exact ⟨h.1, hwhole i h.2.1, h.2.2⟩
  | idle | opening | returned _ | gone => trivial

end AttacherPc

namespace Shm

variable {call : ℕ → CreateCall} {asked : ℕ → String} {s s' : Shm} {e : ShmEvent} {i j : ℕ}

/-- Names lead to the objects of calls for these names, the memory of each object is as far as
its call, and attachers know what they have read. -/
structure Kept (call : ℕ → CreateCall) (asked : ℕ → String) (s : Shm) : Prop where
  named : ∀ name i, s.dir name = some i → (call i).name = name
  described : ∀ i, (s.creator i).Describes (call i) (s.memory i)
  known : ∀ j, (s.attacher j).Knows call (asked j) s.memory

theorem creatorStep_cases (h : s.creatorStep call i = some s') :
    (∃ o, s.creator i = .opening ∧ s.dir (call i).name = some o ∧
      s' = s.setCreator i (.returned (.segmentExists (call i).name))) ∨
    (s.creator i = .opening ∧ s.dir (call i).name = none ∧
      s' = (s.link (call i).name i).setCreator i .ftruncate) ∨
    (s.creator i = .ftruncate ∧
      s' = (s.setMemory i (List.replicate (call i).len 0)).setCreator i .mmap) ∨
    (s.creator i = .mmap ∧ s' = s.setCreator i (.header 0)) ∨
    (∃ k w, s.creator i = .header k ∧ (call i).headerWrites[k]? = some w ∧
      s' = (s.setMemory i (store (s.memory i) w.1 w.2.1 w.2.2)).setCreator i
        (if k + 1 = (call i).headerWrites.length then .created else .header (k + 1))) := by
  unfold creatorStep at h
  split at h
  case h_1 hpc =>
    simp only at h
    split at h
    case h_1 o ho => exact .inl ⟨o, hpc, ho, (Option.some.inj h).symm⟩
    case h_2 ho => exact .inr (.inl ⟨hpc, ho, (Option.some.inj h).symm⟩)
  case h_2 hpc => exact .inr (.inr (.inl ⟨hpc, (Option.some.inj h).symm⟩))
  case h_3 hpc => exact .inr (.inr (.inr (.inl ⟨hpc, (Option.some.inj h).symm⟩)))
  case h_4 k hpc =>
    simp only at h
    split at h
    case h_1 => cases h
    case h_2 w hw => exact .inr (.inr (.inr (.inr ⟨k, w, hpc, hw, (Option.some.inj h).symm⟩)))
  case h_5 => cases h

theorem creatorFails_cases {error : String} (h : s.creatorFails call i error = some s') :
    ∃ r, (s.creator i = .opening ∧ s' = s.setCreator i (.returned r)) ∨
    (s.creator i = .ftruncate ∧ s' = (s.unlink (call i).name).setCreator i (.returned r)) ∨
    (s.creator i = .mmap ∧ s' = s.setCreator i (.returned r)) := by
  unfold creatorFails at h
  split at h
  case h_1 hpc => exact ⟨_, .inl ⟨hpc, (Option.some.inj h).symm⟩⟩
  case h_2 hpc => exact ⟨_, .inr (.inl ⟨hpc, (Option.some.inj h).symm⟩)⟩
  case h_3 hpc => exact ⟨_, .inr (.inr ⟨hpc, (Option.some.inj h).symm⟩)⟩
  case h_4 => cases h

theorem creatorDies_cases (h : s.creatorDies i = some s') :
    (s.creator i = .opening ∨ (s.creator i).Live) ∧ s' = s.setCreator i .dead := by
  unfold creatorDies at h
  split at h
  case h_1 hpc => exact ⟨.inl hpc, (Option.some.inj h).symm⟩
  case h_6 => cases h
  all_goals
    rename_i hpc
    exact ⟨.inr (by rw [hpc]; trivial), (Option.some.inj h).symm⟩

theorem drop_cases (h : s.drop call i = some s') :
    s.creator i = .created ∧ s' = (s.unlink (call i).name).setCreator i .dropped := by
  unfold drop at h
  split at h
  case h_1 hpc => exact ⟨hpc, (Option.some.inj h).symm⟩
  case h_2 => cases h

/-- An attacher changes nothing but where it is. -/
theorem attacherStep_cases (h : s.attacherStep asked j = some s') :
    ∃ pc, s' = s.setAttacher j pc := by
  unfold attacherStep at h
  split at h
  case h_1 =>
    obtain ⟨i, -, rfl⟩ := Option.map_eq_some_iff.mp h
    exact ⟨_, rfl⟩
  case h_8 => cases h
  case h_6 => exact ⟨_, (Option.some.inj h).symm⟩
  all_goals
    simp only at h
    split_ifs at h <;> exact ⟨_, (Option.some.inj h).symm⟩

namespace Kept

variable {pc : CreatorPc} {memory : List UInt8}

theorem setCreator (h : Kept call asked s) (hpc : pc.Describes (call i) (s.memory i)) :
    Kept call asked (s.setCreator i pc) where
  named := h.named
  described i' := by
    by_cases hi : i' = i
    · subst hi
      simpa [Shm.setCreator] using hpc
    · simpa [Shm.setCreator, hi] using h.described i'
  known := h.known

theorem setAttacher {pc : AttacherPc} (h : Kept call asked s)
    (hpc : pc.Knows call (asked j) s.memory) : Kept call asked (s.setAttacher j pc) where
  named := h.named
  described := h.described
  known j' := by
    by_cases hj : j' = j
    · subst hj
      simpa [Shm.setAttacher] using hpc
    · simpa [Shm.setAttacher, hj] using h.known j'

/-- Memory that describes where its call is, and that is whole if it was. -/
theorem setMemory (h : Kept call asked s) (hpc : (s.creator i).Describes (call i) memory)
    (hwhole : (call i).Whole (s.memory i) → (call i).Whole memory) :
    Kept call asked (s.setMemory i memory) where
  named := h.named
  described i' := by
    by_cases hi : i' = i
    · subst hi
      simpa [Shm.setMemory] using hpc
    · simpa [Shm.setMemory, hi] using h.described i'
  known j := (h.known j).mono fun i' hi' => by
    by_cases hi : i' = i
    · subst hi
      simpa [Shm.setMemory] using hwhole hi'
    · simpa [Shm.setMemory, hi] using hi'

/-- A store of a call into its own object, after which it is somewhere else. -/
theorem setMemory_setCreator (h : Kept call asked s) (hhalf : (call i).Half (s.memory i))
    (hpc : pc.Describes (call i) memory) :
    Kept call asked ((s.setMemory i memory).setCreator i pc) where
  named := h.named
  described i' := by
    by_cases hi : i' = i
    · subst hi
      simpa [Shm.setCreator, Shm.setMemory] using hpc
    · simpa [Shm.setCreator, Shm.setMemory, hi] using h.described i'
  known j := (h.known j).mono fun i' hi' => by
    by_cases hi : i' = i
    · subst hi
      exact absurd hi' hhalf.not_whole
    · simpa [Shm.setCreator, Shm.setMemory, hi] using hi'

theorem unlink (h : Kept call asked s) (name : String) : Kept call asked (s.unlink name) where
  named name' i hi := by
    by_cases hname : name' = name
    · simp [Shm.unlink, hname] at hi
    · exact h.named name' i (by simpa [Shm.unlink, hname] using hi)
  described := h.described
  known := h.known

theorem link (h : Kept call asked s) (i : ℕ) : Kept call asked (s.link (call i).name i) where
  named name' i' hi' := by
    by_cases hname : name' = (call i).name
    · simp only [Shm.link, hname, Function.update_self, Option.some.injEq] at hi'
      rw [← hi', hname]
    · exact h.named name' i' (by simpa [Shm.link, hname] using hi')
  described := h.described
  known := h.known

/-- A store of the header takes it one step further. -/
theorem prepared_succ (c : CreateCall) {k : ℕ} {w : ℕ × ℕ × ℕ} (hw : c.headerWrites[k]? = some w) :
    store (c.prepared k) w.1 w.2.1 w.2.2 = c.prepared (k + 1) := by
  unfold CreateCall.prepared
  rw [List.take_add_one, hw, Option.toList_some, List.foldl_append, List.foldl_cons, List.foldl_nil]

theorem creatorStep (h : Kept call asked s) (hs : s.creatorStep call i = some s') :
    Kept call asked s' := by
  have hi := h.described i
  obtain ⟨o, hpc, -, rfl⟩ | ⟨hpc, -, rfl⟩ | ⟨hpc, rfl⟩ | ⟨hpc, rfl⟩ | ⟨k, w, hpc, hw, rfl⟩ :=
    creatorStep_cases hs <;> rw [hpc] at hi
  · exact h.setCreator (.inl hi)
  · exact (h.link i).setCreator hi
  · exact h.setMemory_setCreator (.inl hi) rfl
  · exact h.setCreator ⟨by omega, hi⟩
  · have hlen : (call i).headerWrites.length = 11 := rfl
    have hk := (List.getElem?_eq_some_iff.mp hw).1
    refine h.setMemory_setCreator (.inr ⟨k, hi⟩) ?_
    rw [hi.2, prepared_succ _ hw]
    split
    case isTrue hlast =>
      rw [hlast, hlen]
      exact (call i).whole_prepared
    case isFalse hlast => exact ⟨by omega, rfl⟩

theorem creatorFails {error : String} (h : Kept call asked s)
    (hs : s.creatorFails call i error = some s') : Kept call asked s' := by
  have hi := h.described i
  obtain ⟨r, ⟨hpc, rfl⟩ | ⟨hpc, rfl⟩ | ⟨hpc, rfl⟩⟩ := creatorFails_cases hs <;> rw [hpc] at hi
  · exact h.setCreator (.inl hi)
  · exact (h.unlink _).setCreator (.inl hi)
  · exact h.setCreator (.inr ⟨0, by omega, hi⟩)

/-- Where a step takes an attacher: on, with what it now knows, or back with an error, from an
object whose header is not whole. -/
inductive Attaching (call : ℕ → CreateCall) (asked : ℕ → String) (s : Shm) (j : ℕ) :
    AttacherPc → Prop
  | on {pc : AttacherPc} (hknows : pc.Knows call (asked j) s.memory)
    (hon : ∀ r, pc ≠ .returned r) : Attaching call asked s j pc
  | refuses {i : ℕ} {message : String}
    (hmessage : message = "segment has zero length" ∨ message = "bad magic")
    (hopen : (s.attacher j).object = some i) (hname : (call i).name = asked j)
    (hnot : ¬ (call i).Whole (s.memory i)) :
    Attaching call asked s j (.returned (.attachFailed message))

theorem attaching (h : Kept call asked s) (hs : s.attacherStep asked j = some s') :
    ∃ pc, s' = s.setAttacher j pc ∧ Attaching call asked s j pc := by
  have hj := h.known j
  have hsum : headerWidths.sum = 64 := rfl
  unfold Shm.attacherStep at hs
  split at hs
  case h_1 hpc =>
    obtain ⟨i, hdir, rfl⟩ := Option.map_eq_some_iff.mp hs
    exact ⟨_, rfl, .on (h.named _ i hdir) (by simp)⟩
  case h_2 i hpc =>
    rw [hpc] at hj
    simp only at hs
    split_ifs at hs with hlen <;> cases hs
    · refine ⟨_, rfl, .refuses (.inl rfl) (by rw [hpc]; rfl) hj fun hwhole => ?_⟩
      have := hwhole.1.symm.trans hlen
      have := (call i).len_eq
      omega
    · exact ⟨_, rfl, .on ⟨hj, (h.described i).length.resolve_left hlen⟩ (by simp)⟩
  case h_3 i len hpc =>
    rw [hpc] at hj
    simp only at hs
    split_ifs at hs with hlen <;> cases hs
    · have := (call i).len_eq
      rw [hj.2, sizeOfBufferHeader] at hlen
      omega
    · exact ⟨_, rfl, .on hj (by simp)⟩
  case h_4 i len hpc =>
    rw [hpc] at hj
    simp only at hs
    split_ifs at hs with hmagic <;> cases hs
    · exact ⟨_, rfl, .refuses (.inr rfl) (by rw [hpc]; rfl) hj.1 fun hwhole =>
        hmagic hwhole.magic⟩
    · rcases (h.described i).half_or_whole with hhalf | hwhole
      · rw [hhalf.magic] at hmagic
        exact absurd hmagic (by decide)
      · exact ⟨_, rfl, .on ⟨hj.1, hj.2, hwhole⟩ (by simp)⟩
  case h_5 i len hpc =>
    rw [hpc] at hj
    simp only at hs
    split_ifs at hs with hversion <;> cases hs
    · exact absurd hj.2.2.version hversion
    · exact ⟨_, rfl, .on hj (by simp)⟩
  case h_6 i len hpc =>
    rw [hpc] at hj
    cases hs
    exact ⟨_, rfl, .on ⟨hj.1, hj.2.1, hj.2.2, hj.2.2.capacity⟩ (by simp)⟩
  case h_7 i len cap hpc =>
    rw [hpc] at hj
    obtain ⟨hname, hlen, hwhole, rfl⟩ := hj
    have hcap := (call i).config.capacity_bounds
    simp only at hs
    split_ifs at hs with hrange hsize <;> cases hs
    · omega
    · exact absurd (by rw [hlen, hwhole.frameSize]; rfl) hsize
    · refine ⟨_, rfl, .on ⟨hname, hwhole, ?_⟩ (by simp)⟩
      rw [hlen, hwhole.frameSize]
      rfl
  case h_8 => cases hs

theorem attacherStep (h : Kept call asked s) (hs : s.attacherStep asked j = some s') :
    Kept call asked s' := by
  obtain ⟨pc, rfl, hpc⟩ := h.attaching hs
  apply h.setAttacher
  cases hpc with
  | on hknows => exact hknows
  | refuses => trivial

/-- The producer of an object whose header is not whole has never been returned. -/
theorem not_returned (h : Kept call asked s) (hnot : ¬ (call i).Whole (s.memory i)) :
    s.creator i ≠ .created ∧ s.creator i ≠ .dropped := by
  have hi := h.described i
  constructor <;> intro hpc <;> rw [hpc] at hi <;> exact hnot hi

theorem step (h : Kept call asked s) (hs : Shm.step call asked s e = some s') :
    Kept call asked s' := by
  cases e with
  | create i =>
    simp only [Shm.step] at hs
    split_ifs at hs with hpc
    cases hs
    have hi := h.described i
    rw [hpc] at hi
    exact h.setCreator hi
  | creatorStep i => exact h.creatorStep hs
  | creatorFails i error => exact h.creatorFails hs
  | creatorDies i =>
    obtain ⟨-, rfl⟩ := creatorDies_cases hs
    exact h.setCreator (h.described i).half_or_whole
  | drop i =>
    obtain ⟨hpc, rfl⟩ := drop_cases hs
    have hi := h.described i
    rw [hpc] at hi
    exact (h.unlink _).setCreator hi
  | attach j =>
    simp only [Shm.step] at hs
    split_ifs at hs
    cases hs
    exact h.setAttacher trivial
  | attacherStep j => exact h.attacherStep hs
  | attacherFails j error =>
    simp only [Shm.step, Shm.attacherFails] at hs
    split at hs <;> cases hs <;> exact h.setAttacher trivial
  | detach j =>
    simp only [Shm.step, Shm.detach] at hs
    split at hs <;> cases hs
    exact h.setAttacher trivial
  | removeSegment name =>
    cases hs
    exact h.unlink name
  | use i memory =>
    simp only [Shm.step, Shm.use] at hs
    split_ifs at hs with huse
    cases hs
    have hwhole : (call i).Whole (s.memory i) :=
      (h.described i).half_or_whole.resolve_left fun hhalf => by
        rw [hhalf.magic] at huse
        exact absurd huse.1 (by decide)
    have hnew := hwhole.use huse.2.1 huse.2.2
    refine h.setMemory ?_ fun _ => hnew
    rcases (h.described i).finished hwhole with hpc | hpc | hpc <;> rw [hpc]
    · exact hnew
    · exact hnew
    · exact .inr hnew

end Kept

theorem kept_empty : Kept call asked empty where
  named _ _ h := by cases h
  described _ := rfl
  known _ := trivial

theorem kept (h : (shmMachine call asked).Reachable s) : Kept call asked s := by
  refine h.invariant ?_ ?_
  · rintro _ rfl
    exact kept_empty
  · intro s e s' _ hs _ he
    exact hs.step he

/-- Calls for a ring of three-byte frames under one name. -/
def frameCalls (_ : ℕ) : CreateCall := ⟨"frames", tinyConfig, 9, 100⟩

def askFrames (_ : ℕ) : String := "frames"

/-- An attacher that opens the segment when only its file is there. -/
def earlyAttach : List ShmEvent :=
  [.create 0, .creatorStep 0, .creatorStep 0, .attach 7, .attacherStep 7]

/-- The producer then finishes the header, and the attacher reads it. -/
def lateRead : List ShmEvent :=
  List.replicate 12 (.creatorStep 0) ++ List.replicate 6 (.attacherStep 7)

/-- In any order of the steps of producers and consumers: who is attached sees the segment that a
producer of that name made, with its whole header. -/
theorem attached_to_whole {r : RegionView} (h : (shmMachine call asked).Reachable s)
    (hj : s.attacher j = .attached i r) :
    (call i).name = asked j ∧ (s.creator i).Finished ∧ (call i).Whole (s.memory i) ∧
      r = RegionView.init (call i).config ∧ attachRaw (s.memory i) = .ok r ∧ r.LaidOut := by
  have hkept := kept h
  have hknown := hkept.known j
  rw [hj] at hknown
  obtain ⟨hname, hwhole, rfl⟩ := hknown
  exact ⟨hname, (hkept.described i).finished hwhole, hwhole, rfl, hwhole.attachRaw,
    laidOut_init _⟩

theorem attached_to_whole_late : ∃ s : Shm, s.attacher 7 = .attached 0 ⟨198, 2, 3⟩ ∧
    (frameCalls 0).Whole (s.memory 0) ∧ attachRaw (s.memory 0) = .ok ⟨198, 2, 3⟩ := by
  have hrun : ((shmMachine frameCalls askFrames).exec (fun _ _ => True) empty
      (earlyAttach ++ lateRead)).map (·.attacher 7) = some (.attached 0 ⟨198, 2, 3⟩) := by
    decide +kernel
  obtain ⟨s, hs, hj⟩ := Option.map_eq_some_iff.mp hrun
  obtain ⟨-, -, hwhole, -, hread, -⟩ := attached_to_whole (.of_exec (.init rfl) hs) hj
  exact ⟨s, hj, hwhole, hread⟩

/-- What `attach_shared` finds wrong with the segment that it opened: it is not finished. -/
theorem attach_refuses_unfinished {r : ShmError} (h : (shmMachine call asked).Reachable s)
    (hs : (shmMachine call asked).step s (.attacherStep j) = some s')
    (hj : s'.attacher j = .returned r) :
    (r = .attachFailed "segment has zero length" ∨ r = .attachFailed "bad magic") ∧
      ∃ i, (s.attacher j).object = some i ∧ (call i).name = asked j ∧
        ¬ (call i).Whole (s.memory i) ∧ s.creator i ≠ .created ∧ s.creator i ≠ .dropped := by
  obtain ⟨pc, rfl, hpc⟩ := (kept h).attaching hs
  obtain rfl : pc = .returned r := by simpa [setAttacher] using hj
  cases hpc with
  | on _ hon => exact absurd rfl (hon r)
  | @refuses i message hmessage hopen hname hnot =>
    refine ⟨?_, i, hopen, hname, hnot, (kept h).not_returned hnot⟩
    exact hmessage.imp (congrArg _) (congrArg _)

theorem attach_refuses_unfinished_early : ∃ s : Shm, s.attacher 7 = .magic 0 198 ∧
    ¬ (frameCalls 0).Whole (s.memory 0) ∧ s.creator 0 ≠ .created ∧ s.creator 0 ≠ .dropped := by
  have hrun : (((shmMachine frameCalls askFrames).exec (fun _ _ => True) empty
      (earlyAttach ++ List.replicate 2 (.attacherStep 7))).bind fun s =>
        ((shmMachine frameCalls askFrames).step s (.attacherStep 7)).map fun s' =>
          (s.attacher 7, s'.attacher 7)) =
      some (.magic 0 198, .returned (.attachFailed "bad magic")) := by decide +kernel
  obtain ⟨s, hs, hrun⟩ := Option.bind_eq_some_iff.mp hrun
  obtain ⟨s', hs', hrun⟩ := Option.map_eq_some_iff.mp hrun
  obtain ⟨hj, hj'⟩ := Prod.mk.inj hrun
  obtain ⟨i, hopen, -, hi⟩ := (attach_refuses_unfinished (.of_exec (.init rfl) hs) hs' hj').2
  rw [hj] at hopen
  cases hopen
  exact ⟨s, hj, hi⟩

end Shm

end AutoTargeting.Ring
