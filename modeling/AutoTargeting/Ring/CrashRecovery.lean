import AutoTargeting.Ring.Invariant

namespace AutoTargeting.Ring

open Runs

variable {c : CheckedConfig} {producerPid : ℕ} {s s' : State}

/-- The call whose bytes lie in a slot that still has the id of an older frame, and how
many bytes those are. -/
def ProducerPc.underOldId (c : CheckedConfig) : ProducerPc → Option (Publication × ℕ)
  | copy p k => some (p, k)
  | writeWidth p | writeHeight p | writeFormat p | storeId p => some (p, c.frameSize)
  | idle | loadSeq _ _ | takeSlot _ | loadReaders _ | countDrop _ _ | releaseSlot _
  | storeSeq _ => none

/-- A crash here leaves no slot half written under the id of an older frame: the producer
copied no byte yet, or the slot never had an id, or the bytes copied are those that the
older frame has there too. -/
def LeavesWhole (c : CheckedConfig) (s : State) : Prop :=
  match s.producer.underOldId c with
  | none => True
  | some (p, k) => (s.region.slot (p.idx c)).frameId = 0 ∨
      ∀ q ∈ s.published, q.frameId = (s.region.slot (p.idx c)).frameId →
        ∀ j < k, p.data.getD j 0 = q.data.getD j 0

instance (c : CheckedConfig) (s : State) : Decidable (LeavesWhole c s) :=
  match h : s.producer.underOldId c with
  | none => isTrue (by unfold LeavesWhole; rw [h]; trivial)
  | some (p, k) => decidable_of_iff ((s.region.slot (p.idx c)).frameId = 0 ∨
      ∀ q ∈ s.published, q.frameId = (s.region.slot (p.idx c)).frameId →
        ∀ j < k, p.data.getD j 0 = q.data.getD j 0) (by unfold LeavesWhole; rw [h])

/-- Until the producer dies the reaper takes from the dead only, and when it dies it leaves
no slot half written. -/
def Recoverable (c : CheckedConfig) (producerPid : ℕ) (s : State) (e : Event) : Prop :=
  s.producerUp = true → ReapsOrphans s e ∧ (e = .die producerPid → LeavesWhole c s)

instance (c : CheckedConfig) (producerPid : ℕ) (s : State) (e : Event) :
    Decidable (Recoverable c producerPid s e) :=
  inferInstanceAs (Decidable (_ → _ ∧ _))

/-- Every guard shows the whole payload of one call of `publish`, under that call's id. -/
def HandsOutWhole (c : CheckedConfig) (s : State) : Prop :=
  ∀ g ∈ s.guards, ∃ p ∈ s.published ++ s.producer.publication.toList,
    p.frameId = g.guard.view.frameId ∧ s.region.deref c g.guard = p.data

/-- A dead producer stays where it died, and so does what it left. -/
theorem step_crashed (hup : s.producerUp = false) {e : Event}
    (hs : s.step c producerPid e = some s') :
    s'.producerUp = false ∧ s'.producer = s.producer ∧ s'.published = s.published ∧
      s.region.SameFrames s'.region := by
  have hkeep : e ≠ .producerStep → (∀ data tsNs, e ≠ .publish data tsNs) →
      s'.producer = s.producer ∧ s'.published = s.published ∧ s.region.SameFrames s'.region := by
    intro he hcall
    obtain ⟨hproducer, hpublished⟩ := step_keeps_producer hs he hcall
    exact ⟨hproducer, hpublished, step_sameFrames hs he⟩
  cases step_stepped hs with
  | refused hlive | publish hlive | producerStep hlive =>
    rw [hup] at hlive
    cases hlive
  | consumerStep => exact ⟨(afterConsumer_rest _ _).1.trans hup, hkeep (by simp) (by simp)⟩
  | die => exact ⟨by simp [State.afterDeath, hup], hkeep (by simp) (by simp)⟩
  | call | dropGuard | reap | reaperStep | spawn => exact ⟨hup, hkeep (by simp) (by simp)⟩

theorem LeavesWhole.congr (h : LeavesWhole c s) (hp : s'.producer = s.producer)
    (hd : s'.published = s.published) (hr : s.region.SameFrames s'.region) :
    LeavesWhole c s' := by
  unfold LeavesWhole at *
  rw [hp, hd]
  split at h
  case h_1 => trivial
  case h_2 => simpa only [hr.frameId] using h

/-- What holds in a run with a crash that the ring recovers from. -/
structure CrashInv (c : CheckedConfig) (producerPid : ℕ) (s : State) : Prop where
  frames : Frames c s.region s.producer s.published
  seen : Seen s
  counted : s.producerUp = true → Counted c producerPid s
  whole : s.producerUp = false → LeavesWhole c s

theorem crashInv_step (h : CrashInv c producerPid s) {e : Event}
    (he : Recoverable c producerPid s e) (hs : s.step c producerPid e = some s') :
    CrashInv c producerPid s' := by
  have hframes := frames_eventStep h.frames hs
  have hup : e = .producerStep → s.producerUp = true := by
    rintro rfl
    cases step_stepped hs
    assumption
  have hseen := seen_step h.frames h.seen (fun hp => h.counted (hup hp)) hs
  cases hsup : s.producerUp with
  | false =>
    obtain ⟨hdown, hp, hd, hr⟩ := step_crashed hsup hs
    refine ⟨hframes, hseen, fun hup' => ?_, fun _ => (h.whole hsup).congr hp hd hr⟩
    rw [hdown] at hup'
    cases hup'
  | true =>
    obtain ⟨hreap, hcrash⟩ := he hsup
    by_cases hdie : e = .die producerPid
    · have hwhole := hcrash hdie
      subst hdie
      have hr := step_sameFrames hs nofun
      cases step_stepped hs
      refine ⟨hframes, hseen, fun hup' => ?_, fun _ => hwhole.congr rfl rfl hr⟩
      simp [State.afterDeath] at hup'
    · have hcounted := counted_step (h.counted hsup) hreap hdie hs
      refine ⟨hframes, hseen, fun _ => hcounted, fun hdown => ?_⟩
      rw [hcounted.producerUp] at hdown
      cases hdown

theorem crashInv_reachable
    (h : (ring c producerPid).ReachableBy (Recoverable c producerPid) s) :
    CrashInv c producerPid s := by
  refine h.invariant ?_ fun s e s' _ hi he hs => crashInv_step hi he hs
  rintro _ ⟨alive, hup, rfl⟩
  have hi : Inv c producerPid (.start alive) := inv_start hup
  exact ⟨hi.frames, hi.seen, fun _ => hi.counted, nofun⟩

/-- A slot that a crash left whole has the bytes of the call whose id it carries: an older
call, whose remaining bytes follow equal new ones, or the call under way. -/
theorem slot_whole (h : Frames c s.region s.producer s.published) (hw : LeavesWhole c s) {i : ℕ}
    (hi : (s.region.slot i).frameId ≠ 0) :
    ∃ p ∈ s.published ++ s.producer.publication.toList, p.frameId = (s.region.slot i).frameId ∧
      p.data.length = c.frameSize ∧ ∀ j < c.frameSize, s.region.data i j = p.data.getD j 0 := by
  -- a call that has not stored its id leaves the slot under the id of an older call `q`
  have hold : ∀ p k, s.producer.underOldId c = some (p, k) → p.idx c = i →
      Copied c s.region p k → Remains c s.region s.published (p.idx c) k →
      ∃ q ∈ s.published ++ s.producer.publication.toList,
        q.frameId = (s.region.slot i).frameId ∧ q.data.length = c.frameSize ∧
        ∀ j < c.frameSize, s.region.data i j = q.data.getD j 0 := by
    intro p k hp hidx hcopied hremains
    unfold LeavesWhole at hw
    rw [hp] at hw
    simp only [hidx, hi, false_or] at hw
    rw [hidx] at hremains
    rcases hremains with h0 | ⟨q, hq, -, hid, hrest⟩
    · exact absurd h0 hi
    · refine ⟨q, List.mem_append_left _ hq, hid.symm, h.sized q hq, fun j hj => ?_⟩
      by_cases hjk : j < k
      · -- new bytes, equal to those of `q` because the slot was left whole
        rw [← hw q hq hid.symm j hjk, ← hidx]
        exact hcopied j hjk
      · exact hrest j (by omega) hj
  by_cases hwriting : s.producer.writing c = some i
  · have hp := h.progress
    cases hpc : s.producer with
    | copy p k =>
      rw [hpc] at hp hwriting hold
      exact hold p k rfl (Option.some.inj hwriting) hp.2.1 hp.2.2
    | writeWidth p | writeHeight p | writeFormat p | storeId p =>
      rw [hpc] at hp hwriting hold
      exact hold p _ rfl (Option.some.inj hwriting) hp.1 hp.2.2
    | releaseSlot p =>
      rw [hpc] at hp hwriting
      cases hwriting
      have hc : Carries c s.region (p.idx c) p := hp
      refine ⟨p, by simp [ProducerPc.publication], hc.frameId.symm, ?_, hc.copied⟩
      exact (h.next p (by rw [hpc]; rfl)).2.2
    | idle | loadSeq | takeSlot | loadReaders | countDrop | storeSeq =>
      rw [hpc] at hwriting
      cases hwriting
  · rcases h.carried i hwriting with h0 | ⟨p, hp, hc⟩
    · exact absurd h0 hi
    · refine ⟨p, ?_, hc.frameId.symm, frames_sized h p hp, fun j hj => ?_⟩
      · rcases List.mem_append.mp hp with hp | hp
        · exact List.mem_append_left _ hp
        · refine List.mem_append_right _ ?_
          cases hpc : s.producer with
          | storeSeq q =>
            rw [hpc] at hp
            simpa [ProducerPc.publication, ProducerPc.returning, eq_comm] using hp
          | _ => rw [hpc] at hp; cases hp
      · rw [← hc.idx]
        exact hc.copied j hj

/-- After the producer died where it leaves no slot half written, whatever the reaper does,
every frame handed out is a whole payload under its own id. -/
theorem recovered_frames_whole
    (h : (ring c producerPid).ReachableBy (Recoverable c producerPid) s)
    (hcrash : s.producerUp = false) : HandsOutWhole c s := by
  have hi := crashInv_reachable h
  intro g hg
  have hseen := hi.seen.guards g hg
  obtain ⟨p, hp, hid, hlen, hdata⟩ := slot_whole hi.frames (hi.whole hcrash)
    (hseen.frameId ▸ hseen.pos)
  exact ⟨p, hp, hid.trans hseen.frameId.symm, (Region.deref_eq_iff hlen).mpr hdata⟩

/-- After the crash process 3 clears the lock of slot 0 and ends its loop. -/
def reapLockEvents : List Event :=
  .reap 3 0 1000 ::
    [ReaperPc.loadRef 0 0, .casLock 0 0, .loadRef 1 1, .loadRef 2 1].map
      fun pc => .reaperStep ⟨⟨3, 0, true, 1000⟩, pc⟩

/-- The producer dies after two bytes of its second frame; slot 0 never had a frame. -/
def crashInFirstTurn : List Event :=
  publishEvents [1, 2, 3] 9 12 ++ publishEvents [4, 5, 6] 10 4 ++ [.die 100] ++
    reapLockEvents ++ latestEvents 1 1 0 ⟨1, 9, 1, 1, 1⟩

theorem recovered_frames_whole_in_first_turn :
    ∃ s : State, s.guards = {⟨1, ⟨1, ⟨1, 9, 1, 1, 1⟩⟩⟩} ∧ s.producerUp = false ∧
      (s.region.slot 0).refCount = 0 ∧ HandsOutWhole tinyConfig s := by
  have hrun : ((ring tinyConfig 100).exec (Recoverable tinyConfig 100) (.start fun _ => true)
      crashInFirstTurn).map (fun s => (s.guards, s.producerUp, (s.region.slot 0).refCount)) =
      some ({⟨1, ⟨1, ⟨1, 9, 1, 1, 1⟩⟩⟩}, false, 0) := by decide
  obtain ⟨s, hs, hobs⟩ := Option.map_eq_some_iff.mp hrun
  simp only [Prod.mk.injEq] at hobs
  obtain ⟨hg, hup, href⟩ := hobs
  exact ⟨s, hg, hup, href,
    recovered_frames_whole (.of_exec (.init ⟨fun _ => true, rfl, rfl⟩) hs) hup⟩

/-- Nobody calls `recover_stale_slots` before the producer died. -/
def ReapedAfterCrash (s : State) : Event → Prop
  | .reap _ _ _ => s.producerUp = false
  | _ => True

instance (s : State) (e : Event) : Decidable (ReapedAfterCrash s e) :=
  match e with
  | .reap _ _ _ => inferInstanceAs (Decidable (s.producerUp = false))
  | .publish _ _ | .producerStep | .call _ _ | .consumerStep _ | .dropGuard _ | .reaperStep _
  | .spawn _ | .die _ => isTrue trivial

/-- A call of `next_after` that nothing delays: with `seq` published it finds slot `idx`
with count `cur` and the frame `v`. -/
def nextAfterEvents (pid lastId idx cur : ℕ) (v : FrameView) : List Event :=
  let k := Caller.nextAfter lastId 255
  let a : Attempt := ⟨idx, some (wanted lastId)⟩
  .call pid (.nextAfter lastId) ::
    [.nextSeq lastId 255, .loadRef k a 63, .casRef k a 63 cur, .storePid k a, .loadId k a,
      .readTs k a v.frameId, .readWidth k a v.frameId v.tsNs,
      .readHeight k a v.frameId v.tsNs v.width,
      ConsumerPc.readFormat k a v.frameId v.tsNs v.width v.height].map
        fun pc => .consumerStep ⟨pid, pc⟩

/-- The producer dies after two bytes of frame 4, in the slot of frame 2. -/
def crashInLaterTurn : List Event :=
  publishEvents [1, 2, 3] 9 12 ++ publishEvents [4, 5, 6] 10 12 ++ publishEvents [7, 8, 9] 11 12 ++
    publishEvents [10, 11, 12] 12 4 ++ [.die 100] ++ reapLockEvents ++
    nextAfterEvents 1 1 0 0 ⟨2, 10, 1, 1, 1⟩

/-- `next_after(1)` then hands out `[10, 11, 6]` as frame 2. -/
theorem recovered_frame_torn :
    ¬ ∀ s, (ring tinyConfig 100).ReachableBy ReapedAfterCrash s → s.producerUp = false →
      HandsOutWhole tinyConfig s := by
  intro hall
  have hrun : ((ring tinyConfig 100).exec ReapedAfterCrash (.start fun _ => true)
      crashInLaterTurn).map (fun s => (s.guards, s.producerUp,
        s.region.deref tinyConfig ⟨0, ⟨2, 10, 1, 1, 1⟩⟩,
        s.published ++ s.producer.publication.toList)) =
      some ({⟨1, ⟨0, ⟨2, 10, 1, 1, 1⟩⟩⟩}, false, [10, 11, 6],
        [⟨1, [1, 2, 3], 9⟩, ⟨2, [4, 5, 6], 10⟩, ⟨3, [7, 8, 9], 11⟩, ⟨4, [10, 11, 12], 12⟩]) := by
    decide
  obtain ⟨s, hs, hobs⟩ := Option.map_eq_some_iff.mp hrun
  simp only [Prod.mk.injEq] at hobs
  obtain ⟨hg, hup, hdata, hcalls⟩ := hobs
  have hmem : (⟨1, ⟨0, ⟨2, 10, 1, 1, 1⟩⟩⟩ : Hold) ∈ s.guards := by rw [hg]; decide
  obtain ⟨p, hp, -, hpdata⟩ := hall s (.of_exec (.init ⟨fun _ => true, rfl, rfl⟩) hs) hup _ hmem
  rw [hcalls] at hp
  rw [hdata] at hpdata
  simp only [List.mem_cons, List.not_mem_nil, or_false] at hp
  rcases hp with rfl | rfl | rfl | rfl <;> cases hpdata

end AutoTargeting.Ring
