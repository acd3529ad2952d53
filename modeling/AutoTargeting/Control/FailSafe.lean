import AutoTargeting.Control.BusRunner

namespace AutoTargeting.Control

open Runs

/-- The states that the loop moves its commander to; only `connect` and `start_scanning`,
before the loop, lead elsewhere. -/
def LoopTargets (s : SystemState) : Prop := s ≠ .armed ∧ s ≠ .scanning ∧ s ≠ .lost ∧ s ≠ .rth

instance : DecidablePred LoopTargets := fun _ => inferInstanceAs (Decidable (_ ∧ _))

def SystemState.Safe (s : SystemState) : Prop := s = .abort ∨ s = .idle

instance : DecidablePred SystemState.Safe := fun _ => inferInstanceAs (Decidable (_ ∨ _))

def Entry.EntersAbort {F : Type} : Entry F → Prop
  | transition _ next => next = .abort
  | fc _ _ _ => False

/-- No correction, and no state but ABORT and IDLE. -/
def Entry.Harmless {F : Type} : Entry F → Prop
  | transition _ next => next.Safe
  | fc call _ _ => call.isCorrection = false

/-- Has this history been in ABORT? -/
def Aborted {F : Type} (log : List (Entry F)) : Prop := ∃ x ∈ log, x.EntersAbort

/-- After the first entry to ABORT the history is harmless, and the state is safe. -/
structure Latched {F : Type} (s : Standing F) : Prop where
  history : s.log.Pairwise fun x y => x.EntersAbort → y.Harmless
  state : Aborted s.log → s.state.Safe
  recorded : s.state = .abort → Aborted s.log

section
variable {F : Type} {P : SystemState → Prop} {may : Prop} {s s' : Standing F}

/-- From a safe state the table leads to safe states only, ARMED apart. -/
theorem safe_step {s next : SystemState} (hs : s.Safe) (h : isTransitionAllowed s next = true)
    (hnext : LoopTargets next) : next.Safe := by
  revert h hnext
  rcases hs with rfl | rfl <;> cases next <;> decide

theorem safe_not_corrects {s : SystemState} (hs : s.Safe) : ¬ s.Corrects := by
  rcases hs with rfl | rfl <;> decide

/-- An entry that is no transition enters no state. -/
theorem aborted_concat_fc {log : List (Entry F)} {call : FcCall F} {error : Option FcError}
    {sentAt : Instant} : Aborted (log ++ [.fc call error sentAt]) ↔ Aborted log := by
  constructor
  · rintro ⟨y, hy, henters⟩
    rcases List.mem_append.mp hy with hy | hy
    · exact ⟨y, hy, henters⟩
    · rw [List.mem_singleton.mp hy] at henters
      exact henters.elim
  · rintro ⟨y, hy, henters⟩
    exact ⟨y, List.mem_append_left _ hy, henters⟩

/-- One more entry, which is harmless once ABORT has been entered. -/
theorem pairwise_concat {log : List (Entry F)} {x : Entry F}
    (h : log.Pairwise fun x y => x.EntersAbort → y.Harmless) (hx : Aborted log → x.Harmless) :
    (log ++ [x]).Pairwise fun x y => x.EntersAbort → y.Harmless := by
  rw [List.pairwise_append]
  refine ⟨h, List.pairwise_singleton _ _, fun y hy z hz henters => ?_⟩
  rw [List.mem_singleton.mp hz]
  exact hx ⟨y, hy, henters⟩

/-- A call that is harmless once ABORT has been entered keeps the latch. -/
theorem Latched.call (h : Latched s) {call : FcCall F} {error : Option FcError} {sentAt : Instant}
    (hx : Aborted s.log → call.isCorrection = false) :
    Latched ⟨s.state, s.target, s.log ++ [.fc call error sentAt]⟩ :=
  ⟨pairwise_concat h.history hx, fun haborted => h.state (aborted_concat_fc.mp haborted),
    fun habort => aborted_concat_fc.mpr (h.recorded habort)⟩

theorem Latched.move (h : Latched s) (hmove : Move LoopTargets may s s') : Latched s' := by
  cases hmove with
  | @transition next hallowed hnext =>
    have hsafe : Aborted s.log → next.Safe := fun haborted =>
      safe_step (h.state haborted) hallowed hnext
    refine ⟨pairwise_concat h.history hsafe, ?_, fun habort => ?_⟩
    · rintro ⟨y, hy, henters⟩
      rcases List.mem_append.mp hy with hy | hy
      · exact hsafe ⟨y, hy, henters⟩
      · rw [List.mem_singleton.mp hy] at henters
        exact .inl henters
    · exact ⟨_, List.mem_append_right _ List.mem_cons_self, habort⟩
  | aim target => exact ⟨h.history, h.state, h.recorded⟩
  | correct call error sentAt _ hcorrects _ =>
    exact h.call fun haborted => absurd hcorrects (safe_not_corrects (h.state haborted))
  | request error sentAt hcall => exact h.call fun _ => hcall

theorem Latched.moves (h : Latched s) (hmoves : Moves LoopTargets may s s') : Latched s' := by
  induction hmoves with
  | refl => exact h
  | tail _ hmove ih => exact ih.move hmove

theorem Moves.not_aborted (h : Moves P may s s') (hP : ¬ P .abort) (h0 : ¬ Aborted s.log) :
    ¬ Aborted s'.log := by
  induction h with
  | refl => exact h0
  | tail _ hmove ih =>
    cases hmove with
    | transition _ hnext =>
      rintro ⟨x, hx, henters⟩
      rcases List.mem_append.mp hx with hx | hx
      · exact ih ⟨x, hx, henters⟩
      · rw [List.mem_singleton.mp hx] at henters
        exact hP ((show _ = SystemState.abort from henters) ▸ hnext)
    | aim => exact ih
    | correct | request => exact fun haborted => ih (aborted_concat_fc.mp haborted)

end

section
variable {F : Type} {may : Prop} {cfg : CommanderBusConfig} {s : BusState F}

theorem acquireTarget_moves (c : Commander F) (r : ReceivedTrack F) :
    Moves LoopTargets may c.standing (BusState.acquireTarget c r).standing := by
  unfold BusState.acquireTarget
  dsimp only
  split
  · exact Commander.selectTarget_moves
      ((c.feed .commandLoop (r.utc 0)).feedVideoWatchdog (r.utc 1)) _ (by decide) (by decide)
  · exact .refl

theorem checkWatchdogs_moves (t : Tick F) (c : Commander F) {P : SystemState → Prop}
    (hdegraded : P .trackingDegraded) (habort : P .abort) (hidle : P .idle) :
    Moves P may c.standing (BusState.checkWatchdogs t c).standing := by
  have hexpiries : Moves P may c.standing
      (((c.feed .commandLoop t.commandFed).feedVideoWatchdog t.videoFed).processWatchdogExpiries
        t.order t.checked).2.standing :=
    Commander.processWatchdogExpiries_moves
      ((c.feed .commandLoop t.commandFed).feedVideoWatchdog t.videoFed) _ _ hdegraded
  unfold BusState.checkWatchdogs
  dsimp only
  split
  · exact (hexpiries.trans (Commander.abort_moves _ t.abortEnv habort)).trans
      (Commander.reset_moves _ hidle)
  · exact hexpiries

theorem publishStatus_commander (s : BusState F) (t : Tick F) :
    (s.publishStatus cfg t).commander = s.commander := by
  unfold BusState.publishStatus
  split <;> rfl

theorem onTelemetry_standing (s : BusState F) (telemetry : Option ℤ) :
    (s.onTelemetry telemetry).commander.standing = s.commander.standing := by
  cases telemetry <;> rfl

/-- A `connect` that succeeds leaves ARMED. -/
theorem connect_state (c : Commander F) (env : Env F) (h : (c.connect env).1 = .ok ()) :
    (c.connect env).2.state = .armed := by
  unfold Commander.connect at h ⊢
  split at h
  case h_1 => cases h
  case h_2 c' hc =>
    exact Commander.tryTransition_ok { c' with
      connected := true
      watchdogs := c'.watchdogs.register .fcHeartbeat
        ⟨max c'.config.fcHeartbeatWdtMs 1000, .abort⟩ (env.utc 0) } h

/-- Before the loop, nothing enters ABORT. -/
theorem begin_not_aborted {c : Commander F} {env : Env F} {started lastStatus : Instant}
    (hlog : c.log = []) (h : begin c env started lastStatus = .ok s) :
    ¬ Aborted s.commander.log ∧ s.commander.state ≠ .abort := by
  have hconnect : Moves (· ≠ .abort) False c.standing (c.connect env).2.standing :=
    c.connect_moves env nofun
  have harmed := connect_state c env
  unfold begin at h
  split at h
  case h_1 => cases h
  case h_2 c' hc =>
    cases h
    rw [hc] at hconnect harmed
    have hscan : Moves (· ≠ .abort) False c'.standing c'.startScanning.2.standing :=
      c'.startScanning_moves nofun
    have hempty : ¬ Aborted c.standing.log := by
      rw [show c.standing.log = [] from hlog]
      nofun
    refine ⟨Moves.not_aborted (hconnect.trans hscan) (fun hne => hne rfl) hempty, ?_⟩
    rcases hscan.state_or with hsame | hne
    · rw [show c'.startScanning.2.state = c'.state from hsame, harmed rfl]
      nofun
    · exact hne

theorem begin_latched {c : Commander F} {env : Env F} {started lastStatus : Instant}
    (hlog : c.log = []) (h : begin c env started lastStatus = .ok s) :
    Latched s.commander.standing := by
  obtain ⟨hnot, hstate⟩ := begin_not_aborted hlog h
  exact ⟨List.pairwise_of_forall_mem_list fun x hx y _ henters => absurd ⟨x, hx, henters⟩ hnot,
    fun haborted => absurd haborted hnot, fun habort => absurd habort hstate⟩

end

section
variable {F : Type} [F32 F] {cfg : CommanderBusConfig} {s s' : BusState F}

theorem onTrack_moves (s : BusState F) (r : ReceivedTrack F) :
    Moves LoopTargets True s.commander.standing (s.onTrack cfg r).commander.standing := by
  have hacquire : Moves LoopTargets True s.commander.standing
      (BusState.acquireTarget s.commander r).standing := acquireTarget_moves s.commander r
  unfold BusState.onTrack
  dsimp only
  split
  · exact hacquire.trans (Commander.update_moves _ _ r.env (by decide) (by decide))
  · exact hacquire

theorem drain_moves (s : BusState F) (tracks : List (ReceivedTrack F)) :
    Moves LoopTargets True s.commander.standing (s.drain cfg tracks).commander.standing := by
  unfold BusState.drain
  generalize tracks.take trackBudget = taken
  induction taken generalizing s with
  | nil => exact .refl
  | cons r rest ih => exact (onTrack_moves s r).trans (ih (s.onTrack cfg r))

theorem step_commander {t : Tick F} (h : s.step cfg t = some s') :
    s'.commander = BusState.checkWatchdogs t
      ((s.onTelemetry t.telemetry).drain cfg t.tracks).commander := by
  unfold BusState.step at h
  split at h
  case isTrue => cases h
  case isFalse =>
    cases h
    exact publishStatus_commander _ t

/-- One turn of the loop is a number of moves, none of them to ARMED or SCANNING. -/
theorem step_moves {t : Tick F} (h : s.step cfg t = some s') :
    Moves LoopTargets True s.commander.standing s'.commander.standing := by
  rw [step_commander h, ← onTelemetry_standing s t.telemetry]
  exact (drain_moves _ _).trans (checkWatchdogs_moves t _ (by decide) (by decide) (by decide))

/-- Once the commander of a bus run has entered ABORT, it never corrects again, and from then
on its state is ABORT or IDLE. -/
theorem abort_latches {C : BusState F → Tick F → Prop} (h : (busRun F cfg).ReachableBy C s)
    {before after : List (Entry F)} {x : Entry F}
    (hlog : s.commander.log = before ++ x :: after) (henters : x.EntersAbort) :
    (∀ y ∈ after, y.Harmless) ∧ s.commander.state.Safe := by
  have hlatched : Latched s.commander.standing := by
    refine h.invariant (I := fun s => Latched s.commander.standing) ?_ ?_
    · rintro s ⟨c, env, started, lastStatus, hlog, hbegin⟩
      exact begin_latched hlog hbegin
    · intro s t s' _ hs _ hstep
      exact hs.moves (step_moves hstep)
  have heq : s.commander.standing.log = before ++ x :: after := hlog
  have hhistory := hlatched.history
  rw [heq, List.pairwise_append, List.pairwise_cons] at hhistory
  refine ⟨fun y hy => hhistory.2.1.1 y hy henters, hlatched.state ⟨x, ?_, henters⟩⟩
  rw [heq]
  exact List.mem_append_right _ List.mem_cons_self

end

/-- One turn of the loop at `now` nanoseconds with these track messages and no telemetry. -/
def tickAt (now : ℕ) (telemetry : Option ℤ) (tracks : List TrackMsg) : Tick ℚ :=
  ⟨now, telemetry, tracks.map fun track => ⟨track, fun _ => now, envAt now⟩, now, now, now,
    .declared, envAt now, now, now⟩

/-- A track of target 7 at the right edge of the frame. -/
def edgeTrack : TrackMsg := ⟨7, ⟨600, 200, 40, 80⟩, 0⟩

def busStart : BusState ℚ :=
  ⟨((Commander.new .default (envAt 0)).connect (envAt 0)).2.startScanning.2, ⟨0, 0, 0, 0⟩, 0, 0, []⟩

theorem busStart_init : (busRun ℚ .default).Init busStart :=
  ⟨Commander.new .default (envAt 0), envAt 0, 0, 0, rfl, rfl⟩

/-- A track, two seconds without telemetry, and the same track again. -/
theorem abort_latches_after_silence : ∃ (s : BusState ℚ) (before after : List (Entry ℚ)),
    s.commander.log = before ++ .transition .trackingDegraded .abort :: after ∧
    s.stats.tracksReceived = 2 ∧ corrections before = 1 ∧
    (∀ y ∈ after, y.Harmless) ∧ s.commander.state.Safe := by
  have hrun : ((busRun ℚ .default).exec (fun _ _ => True) busStart
      [tickAt 0 none [edgeTrack], tickAt (secs 2) none [], tickAt (secs 2) none [edgeTrack]]).map
      (fun s => (s.commander.log, s.stats.tracksReceived)) = some
      ([.fc .connect none 0, .transition .idle .armed, .transition .armed .scanning,
        .transition .scanning .targetSelected, .transition .targetSelected .tracking,
        .fc (.setPositionTargetLocalNed ⟨0, 0, 0, 71 / 452⟩) none 0,
        .transition .tracking .trackingDegraded] ++ .transition .trackingDegraded .abort ::
        [.fc (.setMode .rtl) none (secs 2), .transition .abort .idle,
          .transition .idle .abort, .fc (.setMode .rtl) none (secs 2),
          .transition .abort .idle], 2) := by decide +kernel
  obtain ⟨s, hs, hobs⟩ := Option.map_eq_some_iff.mp hrun
  obtain ⟨hlog, htracks⟩ := Prod.mk.inj hobs
  have hreach : (busRun ℚ .default).Reachable s := .of_exec (.init busStart_init) hs
  exact ⟨s, _, _, hlog, htracks, rfl, abort_latches hreach hlog rfl⟩

end AutoTargeting.Control
