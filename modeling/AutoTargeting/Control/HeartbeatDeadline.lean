import AutoTargeting.Control.HeartbeatLoss

namespace AutoTargeting.Control

open Runs

/-- The timeout that `connect` gives the heartbeat watchdog. -/
def LinkConfig.watchdogMs {F : Type} (cfg : LinkConfig F) : ℕ := max cfg.commander.fcHeartbeatWdtMs 1000

/-- A correction is late by so many whole milliseconds at most. -/
def OnTime {F : Type} (cfg : LinkConfig F) (tickMs : ℕ) (x : Instant × Option ℤ) : Prop :=
  ∃ heard, x.2 = some heard ∧
    elapsedMs x.1 heard ≤ cfg.watchdogMs + cfg.bridge.periodMs + tickMs

/-- While ABORT has not been entered, the watchdog is armed, it was fed for a heartbeat of the
last period, and it had not expired at the last check. -/
structure Watched {F : Type} (cfg : LinkConfig F) (s : Link F) (b : BusState F) : Prop where
  latched : Latched b.commander.standing
  fed : ¬ Aborted b.commander.log → ∃ fedAt heard, s.heard = some heard ∧
    heartbeatWatch b.commander = some (fedAt, ⟨cfg.watchdogMs, .abort⟩) ∧
    fedAt ≤ heard + millis cfg.bridge.periodMs ∧ elapsedMs s.checkedAt fedAt ≤ cfg.watchdogMs

structure LinkInv {F : Type} (cfg : LinkConfig F) (tickMs : ℕ) (s : Link F) : Prop where
  ledger : ∀ x ∈ s.ledger, OnTime cfg tickMs x
  watched : ∀ b, s.bus = some b → Watched cfg s b

/-- Whole milliseconds add up, and the part of a millisecond that each check drops is lost
only once. -/
theorem elapsedMs_le {sent checked fed heard : ℤ} {timeoutMs periodMs tickMs : ℕ}
    (hchecked : elapsedMs checked fed ≤ timeoutMs) (hfed : fed ≤ heard + millis periodMs)
    (hsent : sent ≤ checked + millis tickMs) :
    elapsedMs sent heard ≤ timeoutMs + periodMs + tickMs := by
  rw [elapsedMs_le_iff] at hchecked ⊢
  unfold millis at hfed hsent
  omega

section
variable {F : Type} {cfg : LinkConfig F} {s s' : Link F} {b b' : BusState F}

/-- Another heartbeat makes the last feed no older. -/
theorem Watched.hear (h : Watched cfg s b) {at_ : ℤ} (hlater : ∀ t, s.heard = some t → t ≤ at_)
    (hchecked : s'.checkedAt = s.checkedAt) (hheard : s'.heard = some at_) : Watched cfg s' b := by
  refine ⟨h.latched, fun hnot => ?_⟩
  obtain ⟨fedAt, heard, hsome, hwatch, hperiod, hexpiry⟩ := h.fed hnot
  have hle := hlater heard hsome
  refine ⟨fedAt, at_, hheard, hwatch, by omega, ?_⟩
  rw [hchecked]
  exact hexpiry

theorem Watched.congr (h : Watched cfg s b) (hchecked : s'.checkedAt = s.checkedAt)
    (hheard : s'.heard = s.heard) : Watched cfg s' b := by
  refine ⟨h.latched, ?_⟩
  rw [hchecked, hheard]
  exact h.fed

/-- After ABORT the loop sends no correction. -/
theorem newCorrections_of_aborted (hb : Latched b'.commander.standing)
    (hinit : b.commander.log <+: b'.commander.log) (h : Aborted b.commander.log) :
    newCorrections b b' = [] := by
  obtain ⟨new, hnew⟩ := hinit
  unfold newCorrections
  rw [← hnew, List.drop_left, List.filterMap_eq_nil_iff]
  intro y hy
  obtain ⟨x, hx, henters⟩ := h
  have hpairwise := hb.history
  rw [show b'.commander.standing.log = b.commander.log ++ new from hnew.symm,
    List.pairwise_append] at hpairwise
  have hharmless := hpairwise.2.2 x hx y hy henters
  cases y with
  | transition => rfl
  | fc => exact correctedAt?_of_not_correction hharmless

theorem mem_newCorrections {deadline : ℤ} {sentAt : Instant}
    (h : CorrectsBy deadline b.commander.log b'.commander.log)
    (hmem : sentAt ∈ newCorrections b b') : (sentAt : ℤ) ≤ deadline := by
  obtain ⟨new, hnew, hby⟩ := h
  unfold newCorrections at hmem
  rw [hnew, List.drop_left] at hmem
  obtain ⟨x, hx, hat⟩ := List.mem_filterMap.mp hmem
  exact hby x hx sentAt hat

end

section
variable {F : Type} [F32 F] {cfg : LinkConfig F} {tickMs : ℕ} {s s' : Link F} {b b' : BusState F}

theorem Watched.turn (h : Watched cfg s b) {t : Tick F} (hstep : b.step cfg.bus t = some b')
    (hfresh : ∀ fedAt, t.telemetry = some fedAt →
      ∃ heard, s.heard = some heard ∧ fedAt ≤ heard + millis cfg.bridge.periodMs)
    (hchecked : s'.checkedAt = t.checked) (hheard : s'.heard = s.heard) : Watched cfg s' b' := by
  have hmoves := step_moves hstep
  refine ⟨h.latched.moves hmoves, fun hnot => ?_⟩
  have hbefore : ¬ Aborted b.commander.log := fun ⟨x, hx, henters⟩ =>
    hnot ⟨x, (Moves.log_grows hmoves).subset hx, henters⟩
  obtain ⟨fedAt, heard, hsome, hwatch, hperiod, -⟩ := h.fed hbefore
  -- the last feed, after the telemetry branch
  obtain ⟨fedAt', hwatch', hperiod'⟩ : ∃ fedAt',
      heartbeatWatch (b.onTelemetry t.telemetry).commander =
        some (fedAt', ⟨cfg.watchdogMs, .abort⟩) ∧
      fedAt' ≤ heard + millis cfg.bridge.periodMs := by
    cases htelemetry : t.telemetry with
    | none => exact ⟨fedAt, hwatch, hperiod⟩
    | some f =>
      obtain ⟨heard', hsome', hf⟩ := hfresh f htelemetry
      rw [hsome] at hsome'
      cases hsome'
      refine ⟨f, ?_, hf⟩
      show heartbeatWatch (b.commander.feed .fcHeartbeat f) = _
      rw [heartbeatWatch_fed, hwatch]
      rfl
  have hdrained := (drain_heartbeatWatch cfg.bus (b.onTelemetry t.telemetry) t.tracks).trans hwatch'
  have htelemetry : (b.onTelemetry t.telemetry).commander.standing = b.commander.standing := by
    cases t.telemetry <;> rfl
  have hlatched : Latched ((b.onTelemetry t.telemetry).drain cfg.bus t.tracks).commander.standing :=
    Latched.moves (htelemetry ▸ h.latched) (drain_moves _ t.tracks)
  rw [step_commander hstep] at hnot ⊢
  have hexpiry := checkWatchdogs_aborts hlatched hdrained hnot
  refine ⟨fedAt', heard, hheard.trans hsome, ?_, hperiod', hchecked ▸ hexpiry⟩
  exact (heartbeatWatch_checkWatchdogs t _).trans hdrained

theorem Watched.begin {newEnv env : Env F} {camera : CameraParams F}
    {started lastStatus loopStart : Instant}
    (hbegin : Control.begin ((Commander.new cfg.commander newEnv).withCameraParams camera) env
      started lastStatus = .ok b)
    (hstart : elapsedMs loopStart (env.utc 0) ≤ 1000)
    (hfresh : ∃ heard, s.heard = some heard ∧
      env.utc 0 ≤ heard + millis cfg.bridge.periodMs)
    (hchecked : s'.checkedAt = loopStart) (hheard : s'.heard = s.heard) : Watched cfg s' b := by
  obtain ⟨heard, hsome, hperiod⟩ := hfresh
  refine ⟨begin_latched rfl hbegin, fun _ => ?_⟩
  refine ⟨env.utc 0, heard, hheard.trans hsome, begin_heartbeatWatch hbegin, hperiod, ?_⟩
  rw [hchecked]
  exact hstart.trans (Nat.le_max_right _ _)

theorem linkInv_step (h : LinkInv cfg tickMs s) {e : LinkEvent F} (hregular : Regular tickMs s e)
    (hfresh : Fresh cfg.bridge s e) (hstep : s.step cfg e = some s') : LinkInv cfg tickMs s' := by
  cases e with
  | heartbeat at_ armed mode =>
    cases hstep
    exact ⟨h.ledger, fun b hb => (h.watched b hb).hear hregular rfl rfl⟩
  | bridgeTurn now delivered =>
    cases hstep
    exact ⟨h.ledger, fun b hb => (h.watched b hb).congr rfl rfl⟩
  | lose =>
    cases hstep
    exact ⟨h.ledger, fun b hb => (h.watched b hb).congr rfl rfl⟩
  | begin newEnv camera env started lastStatus loopStart =>
    simp only [Link.step] at hstep
    split at hstep
    case h_1 b _ hbegin =>
      cases hstep
      refine ⟨h.ledger, fun b' hb' => ?_⟩
      cases hb'
      exact Watched.begin hbegin hregular hfresh rfl rfl
    case h_2 => cases hstep
  | turn t =>
    simp only [Link.step] at hstep
    split at hstep
    case h_1 => cases hstep
    case h_2 b hb =>
      split at hstep
      case isTrue => cases hstep
      case isFalse =>
        obtain ⟨b', hb', rfl⟩ := Option.map_eq_some_iff.mp hstep
        have hwatched := h.watched b hb
        refine ⟨fun x hx => ?_, fun b'' hb'' => ?_⟩
        · rcases List.mem_append.mp hx with hx | hx
          · exact h.ledger x hx
          · obtain ⟨sentAt, hsent, rfl⟩ := List.mem_map.mp hx
            have hmoves := step_moves hb'
            by_cases haborted : Aborted b.commander.log
            · -- after an abort the turn sends no corrections
              rw [newCorrections_of_aborted (hwatched.latched.moves hmoves)
                (Moves.log_grows hmoves) haborted] at hsent
              cases hsent
            · obtain ⟨fedAt, heard, hsome, -, hperiod, hexpiry⟩ := hwatched.fed haborted
              have hsentBy := mem_newCorrections (step_correctsBy hb' hregular.2) hsent
              exact ⟨heard, hsome, elapsedMs_le hexpiry hperiod (Int.le_trans hsentBy hregular.1)⟩
        · cases hb''
          exact hwatched.turn hb' hfresh rfl rfl

/-- Where each feed of the heartbeat watchdog is at most a telemetry period younger than the
last heartbeat, no correction goes out later after it than the timeout, a period and a tick. -/
theorem corrections_on_time
    (h : (fcLink cfg).ReachableBy (fun s e => Regular tickMs s e ∧ Fresh cfg.bridge s e) s) :
    ∀ x ∈ s.ledger, OnTime cfg tickMs x := by
  refine (h.invariant (I := LinkInv cfg tickMs) ?_ ?_).ledger
  · rintro s ⟨now, rfl⟩
    exact ⟨fun _ hx => absurd hx List.not_mem_nil, fun b hb => absurd hb.symm (Option.some_ne_none b)⟩
  · intro s e s' _ hs he hstep
    exact linkInv_step hs he.1 he.2 hstep

end

def linkConfig : LinkConfig ℚ := ⟨.default, .default, .default⟩

/-- The chain after ten seconds, with one heartbeat and the loop ready. -/
def linkStart : Link ℚ := ⟨.fresh (secs 10), ⟨secs 10 - millis linkConfig.bridge.periodMs, none, none,
  none, 0, []⟩, [], none, none, secs 10, []⟩

theorem linkStart_init : (fcLink linkConfig).Init linkStart := ⟨secs 10, rfl⟩

/-- A heartbeat, and the start of the commander at the same time. -/
def connected : List (LinkEvent ℚ) :=
  [.heartbeat (secs 10) true .guided,
    .begin (envAt (secs 10)) .default (envAt (secs 10)) (secs 10) (secs 10) (secs 10)]

/-- A sample of telemetry at `now`, and a turn of the loop that receives it. -/
def sampledTurn (now : ℕ) (tracks : List TrackMsg) : List (LinkEvent ℚ) :=
  [.bridgeTurn now true, .turn (tickAt now (some now) tracks)]

/-- After the last heartbeat nothing comes from the flight controller: a track within the timeout is
followed, and one after it is not. -/
def unheardTurns : List (LinkEvent ℚ) :=
  (List.range 12).map fun k =>
    .turn (tickAt (secs 10 + millis (100 * (k + 2))) none (if k = 4 ∨ k = 11 then [edgeTrack] else []))

theorem corrections_on_time_while_heard : ∃ s : Link ℚ,
    s.ledger.map Prod.fst = [secs 10 + millis 100, secs 10 + millis 600] ∧
      ∀ x ∈ s.ledger, OnTime linkConfig 100 x := by
  have hrun : ((fcLink linkConfig).exec
      (fun s e => Regular 100 s e ∧ Fresh linkConfig.bridge s e) linkStart
      (connected ++ .heartbeat (secs 10 + millis 90) true .guided ::
        sampledTurn (secs 10 + millis 100) [edgeTrack] ++ unheardTurns)).map
          (·.ledger.map Prod.fst) =
      some [secs 10 + millis 100, secs 10 + millis 600] := by decide +kernel
  obtain ⟨s, hs, hledger⟩ := Option.map_eq_some_iff.mp hrun
  exact ⟨s, hledger, corrections_on_time (.of_exec (.init linkStart_init) hs)⟩

/-- Thirteen periods of telemetry after the last heartbeat, and then a track. -/
def silentRun : List (LinkEvent ℚ) :=
  connected ++ (List.range 12).flatMap (fun k => sampledTurn (secs 10 + millis (100 * (k + 1))) []) ++
    sampledTurn (secs 10 + millis 1300) [edgeTrack]

/-- Telemetry alone keeps the heartbeat watchdog fed, and the corrections flowing. -/
theorem correction_after_heartbeat_loss :
    ¬ ∀ s, (fcLink linkConfig).ReachableBy (Regular 100) s →
      ∀ x ∈ s.ledger, OnTime linkConfig 100 x := by
  intro hall
  have hrun : ((fcLink linkConfig).exec (Regular 100) linkStart silentRun).map (·.ledger) =
      some [(secs 10 + millis 1300, some ((secs 10 : ℕ) : ℤ))] := by decide +kernel
  obtain ⟨s, hs, hledger⟩ := Option.map_eq_some_iff.mp hrun
  have hreach : (fcLink linkConfig).ReachableBy (Regular 100) s :=
    .of_exec (.init linkStart_init) hs
  obtain ⟨heard, hsome, hlate⟩ := hall s hreach _ (by rw [hledger]; exact List.mem_cons_self)
  cases hsome
  revert hlate
  decide

end AutoTargeting.Control
