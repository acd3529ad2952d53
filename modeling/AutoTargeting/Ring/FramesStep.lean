import AutoTargeting.Ring.Frames

namespace AutoTargeting.Ring

variable {c : CheckedConfig} {r : Region} {pc : ProducerPc} {done : List Publication}

/-- `write_seq` moves only when the call returns. -/
theorem producer_writeSeq (hret : pc.returning = []) :
    (pc.step c r).region.writeSeq = r.writeSeq := by
  cases pc with
  | loadSeq data tsNs => simp only [ProducerPc.step]; split <;> rfl
  | takeSlot p => simp only [ProducerPc.step]; split <;> rfl
  | copy p k => simp only [ProducerPc.step]; split <;> rfl
  | storeSeq p => cases hret
  | _ => rfl

/-- A call that goes on keeps its id and its data. -/
theorem producer_publication {p : Publication} (hp : (pc.step c r).pc.publication = some p) :
    pc.publication = some p ∨
      ∃ data tsNs, pc = .loadSeq data tsNs ∧ r.writeSeq + 1 < 2 ^ 64 ∧
        p = ⟨r.writeSeq + 1, data, tsNs⟩ := by
  cases pc with
  | loadSeq data tsNs =>
    simp only [ProducerPc.step] at hp
    split at hp
    case isTrue hlt => cases hp; exact .inr ⟨data, tsNs, rfl, hlt, rfl⟩
    case isFalse => cases hp
  | takeSlot q => simp only [ProducerPc.step] at hp; split at hp <;> exact .inl hp
  | copy q k => simp only [ProducerPc.step] at hp; split at hp <;> exact .inl hp
  | idle | countDrop | storeSeq => cases hp
  | loadReaders | writeWidth | writeHeight | writeFormat | storeId | releaseSlot => exact .inl hp

theorem Carries.keep {i : ℕ} {p : Publication} (hi : pc.writing c ≠ some i)
    (hc : Carries c r i p) : Carries c (pc.step c r).region i p := by
  obtain ⟨hid, hts, hdata⟩ := producer_keeps c r pc hi
  refine ⟨hc.idx, hid.trans hc.frameId, hts.trans hc.tsNs, fun j hj => ?_⟩
  rw [hc.idx, hdata, ← hc.idx]
  exact hc.copied j hj

theorem frames_numbered (h : Frames c r pc done) :
    (done ++ pc.returning).map Publication.frameId =
      List.range' 1 (pc.step c r).region.writeSeq := by
  by_cases hret : pc.returning = []
  · rw [hret, List.append_nil, producer_writeSeq hret]
    exact h.numbered
  · cases pc with
    | storeSeq p =>
      have hid := (h.next p rfl).1
      simp only [ProducerPc.step, ProducerPc.returning, List.map_append, h.numbered, hid,
        List.map_cons, List.map_nil, List.range'_concat]
      simp [Nat.add_comm]
    | _ => exact absurd rfl hret

theorem frames_sized (h : Frames c r pc done) :
    ∀ p ∈ done ++ pc.returning, p.data.length = c.frameSize := by
  intro p hp
  rcases List.mem_append.mp hp with hp | hp
  · exact h.sized p hp
  · cases pc with
    | storeSeq q =>
      cases List.mem_singleton.mp hp
      exact (h.next p rfl).2.2
    | _ => cases hp

theorem frames_next (h : Frames c r pc done) {p : Publication}
    (hp : (pc.step c r).pc.publication = some p) :
    p.frameId = (pc.step c r).region.writeSeq + 1 ∧ p.frameId < 2 ^ 64 ∧
      p.data.length = c.frameSize := by
  have hret : pc.returning = [] := by
    cases pc with
    | storeSeq => cases hp
    | _ => rfl
  rw [producer_writeSeq hret]
  rcases producer_publication hp with hpc | ⟨data, tsNs, rfl, hlt, rfl⟩
  · exact h.next p hpc
  · exact ⟨rfl, hlt, h.progress⟩

theorem frames_carried (h : Frames c r pc done) {i : ℕ}
    (hi : (pc.step c r).pc.writing c ≠ some i) :
    ((pc.step c r).region.slot i).frameId = 0 ∨
      ∃ p ∈ (done ++ pc.returning) ++ (pc.step c r).pc.returning,
        Carries c (pc.step c r).region i p := by
  by_cases hw : pc.writing c = some i
  · -- the slot was released just now
    cases pc with
    | releaseSlot p =>
      cases hw
      refine .inr ⟨p, ?_, h.progress.congr (r.sameFrames_setRef (p.idx c) 0)⟩
      simp [ProducerPc.step, ProducerPc.returning]
    | copy p k =>
      simp only [ProducerPc.step] at hi
      split at hi <;> exact absurd hw hi
    | idle | loadSeq | takeSlot | loadReaders | countDrop | storeSeq => cases hw
    | writeWidth | writeHeight | writeFormat | storeId => exact absurd hw hi
  · rcases h.carried i hw with h0 | ⟨p, hp, hc⟩
    · exact .inl ((producer_keeps c r pc hw).1.trans h0)
    · exact .inr ⟨p, List.mem_append_left _ hp, hc.keep hw⟩

/-- One more byte is copied, and one fewer remains. -/
theorem progress_copyByte {p : Publication} {k : ℕ} (h : Progress c r done (.copy p k))
    (hk : k < c.frameSize) :
    Progress c (r.writeByte (p.idx c) k (p.data.getD k 0)) done (.copy p (k + 1)) := by
  obtain ⟨-, hcopied, hremains⟩ := h
  refine ⟨hk, fun j hj => ?_, ?_⟩
  · rw [Region.writeByte_data]
    split
    case isTrue hjk => rw [hjk.2]
    case isFalse hjk => exact hcopied j (by omega)
  · rcases hremains with h0 | ⟨q, hq, hidx, hid, hrest⟩
    · exact .inl h0
    · refine .inr ⟨q, hq, hidx, hid, fun j hj hlt => ?_⟩
      rw [Region.writeByte_data, if_neg (by omega)]
      exact hrest j (by omega) hlt

theorem progress_copyEnd {p : Publication} {k : ℕ} (h : Progress c r done (.copy p k))
    (hk : ¬ k < c.frameSize) :
    Progress c (r.modifySlot (p.idx c) fun m => { m with tsNs := p.tsNs }) done
      (.writeWidth p) := by
  obtain ⟨hle, hcopied, hremains⟩ := h
  have hk : k = c.frameSize := by omega
  subst hk
  refine ⟨hcopied, by rw [Region.modifySlot_slot, if_pos rfl], ?_⟩
  unfold Remains at *
  rwa [Region.modifySlot_slot, if_pos rfl]

theorem frames_progress (h : Frames c r pc done) :
    Progress c (pc.step c r).region (done ++ pc.returning) (pc.step c r).pc := by
  have hp := h.progress
  cases pc with
  | idle | loadReaders | countDrop | storeSeq => trivial
  | loadSeq data tsNs => simp only [ProducerPc.step]; split <;> trivial
  | takeSlot p =>
    simp only [ProducerPc.step]
    split
    · refine ⟨Nat.zero_le _, fun j hj => absurd hj (Nat.not_lt_zero j), ?_⟩
      apply Remains.congr (r.sameFrames_setRef _ _)
      rcases h.carried (p.idx c) (by simp [ProducerPc.writing]) with h0 | ⟨q, hq, hc⟩
      · exact .inl h0
      · refine .inr ⟨q, hq, hc.idx, hc.frameId, fun j _ hj => ?_⟩
        rw [← hc.idx]
        exact hc.copied j hj
    · trivial
  | copy p k =>
    simp only [ProducerPc.step, ProducerPc.returning, List.append_nil]
    split
    case isTrue hk => exact progress_copyByte hp hk
    case isFalse hk => exact progress_copyEnd hp hk
  | writeWidth p | writeHeight p | writeFormat p =>
    simp only [ProducerPc.step, ProducerPc.returning, List.append_nil]
    apply Progress.congr ?_ hp
    apply r.sameFrames_modifySlot <;> exact fun _ => rfl
  | storeId p =>
    obtain ⟨hcopied, hts, -⟩ := hp
    refine ⟨rfl, ?_, ?_, hcopied⟩
    · simp [ProducerPc.step, Region.modifySlot_slot]
    · simpa [ProducerPc.step, Region.modifySlot_slot] using hts
  | releaseSlot p => exact Carries.congr (r.sameFrames_setRef _ _) hp

/-- An id in a slot changes only into the id of the call under way. -/
theorem producer_frameId (c : CheckedConfig) (r : Region) (pc : ProducerPc) (i : ℕ) :
    ((pc.step c r).region.slot i).frameId = (r.slot i).frameId ∨
      ∃ p, pc.publication = some p ∧ ((pc.step c r).region.slot i).frameId = p.frameId := by
  have hmodify : ∀ (j : ℕ) (f : SlotMeta → SlotMeta), (∀ m, (f m).frameId = m.frameId) →
      ((r.modifySlot j f).slot i).frameId = (r.slot i).frameId := by
    intro j f hf
    rw [Region.modifySlot_slot]
    split
    case isTrue hij => rw [hf, hij]
    case isFalse => rfl
  cases pc with
  | idle | loadReaders | countDrop | storeSeq => exact .inl rfl
  | loadSeq data tsNs => simp only [ProducerPc.step]; split <;> exact .inl rfl
  | takeSlot p =>
    simp only [ProducerPc.step]
    split
    · exact .inl ((r.sameFrames_setRef _ _).frameId i)
    · exact .inl rfl
  | copy p k =>
    simp only [ProducerPc.step]
    split
    · exact .inl rfl
    · exact .inl (hmodify _ (fun m => { m with tsNs := p.tsNs }) fun _ => rfl)
  | writeWidth p => exact .inl (hmodify _ (fun m => { m with width := c.width }) fun _ => rfl)
  | writeHeight p => exact .inl (hmodify _ (fun m => { m with height := c.height }) fun _ => rfl)
  | writeFormat p =>
    exact .inl (hmodify _ (fun m => { m with format := c.format.code }) fun _ => rfl)
  | storeId p =>
    by_cases hi : i = p.idx c
    · exact .inr ⟨p, rfl, by simp [ProducerPc.step, Region.modifySlot_slot, hi]⟩
    · exact .inl (by simp [ProducerPc.step, Region.modifySlot_slot, hi])
  | releaseSlot p => exact .inl ((r.sameFrames_setRef _ _).frameId i)

theorem frames_window (h : Frames c r pc done) {id : ℕ} (h1 : 1 ≤ id)
    (hid : id ≤ (pc.step c r).region.writeSeq) :
    id ≤ ((pc.step c r).region.slot (id % c.capacity)).frameId := by
  by_cases hold : id ≤ r.writeSeq
  · have hw := h.window id h1 hold
    rcases producer_frameId c r pc (id % c.capacity) with hsame | ⟨p, hp, hnew⟩
    · omega
    · have := (h.next p hp).1
      omega
  · cases hpc : pc.returning with
    | nil => rw [producer_writeSeq hpc] at hid; exact absurd hid hold
    | cons p l =>
      cases pc with
      | storeSeq q =>
        have hq := (h.next q rfl).1
        have hidq : id = q.frameId := by
          have : id ≤ q.frameId := hid
          omega
        have hc : Carries c r (q.idx c) q := h.progress
        rw [hidq]
        exact hc.frameId.ge
      | _ => cases hpc

/-- A step of the producer keeps the frames in order. -/
theorem frames_step (h : Frames c r pc done) :
    Frames c (pc.step c r).region (pc.step c r).pc (done ++ pc.returning) where
  numbered := frames_numbered h
  sized := frames_sized h
  next _ hp := frames_next h hp
  carried _ hi := frames_carried h hi
  progress := frames_progress h
  window _ h1 hid := frames_window h h1 hid

end AutoTargeting.Ring
