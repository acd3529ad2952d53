import AutoTargeting.Control.FailSafe

namespace AutoTargeting.Control

open Runs Machine

def Entry.isAccepted {F : Type} : Entry F → Bool
  | fc call none _ => call.isCorrection
  | fc _ (some _) _ => false
  | transition _ _ => false

/-- How many corrections of a history the flight controller accepted. -/
def accepted {F : Type} (log : List (Entry F)) : ℕ := log.countP (·.isAccepted)

/-- A call that the limiter counts: a correction, whatever came of it, or the RTL of an abort. -/
def Entry.isLimited {F : Type} : Entry F → Bool
  | fc (.setMode .rtl) _ _ => true
  | fc call _ _ => call.isCorrection
  | transition _ _ => false

def limited {F : Type} (log : List (Entry F)) : ℕ := log.countP (·.isLimited)

section
variable {F : Type} {P : SystemState → Prop} {s s' : Standing F}

theorem accepted_concat (log : List (Entry F)) (x : Entry F) :
    accepted (log ++ [x]) = accepted log + if x.isAccepted = true then 1 else 0 := by
  unfold accepted
  rw [List.countP_append, List.countP_singleton]

theorem limited_concat (log : List (Entry F)) (x : Entry F) :
    limited (log ++ [x]) = limited log + if x.isLimited = true then 1 else 0 := by
  unfold limited
  rw [List.countP_append, List.countP_singleton]

theorem isLimited_of_isAccepted {x : Entry F} (h : x.isAccepted = true) : x.isLimited = true := by
  cases x with
  | transition => cases h
  | fc call error sentAt =>
    cases error with
    | some e => cases h
    | none =>
      cases call with
      | setPositionTargetLocalNed target => rfl
      | connect | disconnect | arm | disarm | setMode | setRoi => cases h

theorem accepted_le_limited (log : List (Entry F)) : accepted log ≤ limited log :=
  List.countP_mono_left fun _ _ => isLimited_of_isAccepted

/-- A history in which each counted call is an accepted correction: none failed, and there was no
abort. -/
theorem limited_eq_accepted_iff (log : List (Entry F)) :
    limited log = accepted log ↔ ∀ x ∈ log, x.isLimited = true → x.isAccepted = true := by
  induction log with
  | nil => simp [limited, accepted]
  | cons x log ih =>
    have hle := accepted_le_limited log
    have hlimited : limited (x :: log) = limited log + if x.isLimited = true then 1 else 0 :=
      List.countP_cons
    have haccepted : accepted (x :: log) = accepted log + if x.isAccepted = true then 1 else 0 :=
      List.countP_cons
    rw [List.forall_mem_cons, ← ih, hlimited, haccepted]
    by_cases hgood : x.isAccepted = true
    · simp [hgood, isLimited_of_isAccepted hgood]
    · rw [if_neg hgood]
      by_cases hcounted : x.isLimited = true
      · rw [if_pos hcounted]
        exact iff_of_false (by omega) fun h => hgood (h.1 hcounted)
      · rw [if_neg hcounted]
        exact (and_iff_right fun h => absurd h hcounted).symm

/-- Where no correction may go out, none is accepted. -/
theorem Moves.accepted_eq (h : Moves P False s s') : accepted s'.log = accepted s.log := by
  induction h with
  | refl => rfl
  | tail _ hmove ih =>
    rw [← ih]
    cases hmove with
    | transition => exact accepted_concat _ _
    | aim => rfl
    | correct _ _ _ hmay => exact hmay.elim
    | @request call error sentAt hcall =>
      rw [accepted_concat, if_neg]
      · rfl
      · cases error with
        | none => exact fun haccepted => absurd (hcall.symm.trans haccepted) nofun
        | some e => exact nofun

end

section
variable {F : Type} {c c' c'' : Commander F}

/-- The limiter and the calls that it counts are as they were. -/
structure Unlimited (c c' : Commander F) : Prop where
  limiter : c'.rateLimiter = c.rateLimiter
  limited_eq : limited c'.log = limited c.log

theorem Unlimited.refl (c : Commander F) : Unlimited c c := ⟨rfl, rfl⟩

theorem Unlimited.trans (h : Unlimited c c') (h' : Unlimited c' c'') : Unlimited c c'' :=
  ⟨h'.limiter.trans h.limiter, h'.limited_eq.trans h.limited_eq⟩

theorem withMachine_unlimited (c : Commander F) (m : StateMachine) :
    Unlimited c (c.withMachine m) := by
  refine ⟨rfl, ?_⟩
  unfold Commander.withMachine
  dsimp only
  split
  · rfl
  · exact limited_concat _ _

theorem tryTransition_unlimited (c : Commander F) (next : SystemState) :
    Unlimited c (c.tryTransition next).2 := withMachine_unlimited c _

theorem callFc_unlimited (c : Commander F) (call : FcCall F) (env : Env F) (sentAt : Instant)
    (h : (Entry.fc call env.fcError sentAt).isLimited = false) :
    Unlimited c (c.callFc call env sentAt).2 := by
  refine ⟨rfl, (limited_concat _ _).trans ?_⟩
  rw [h]
  rfl

theorem connect_unlimited (c : Commander F) (env : Env F) : Unlimited c (c.connect env).2 := by
  have hcall := callFc_unlimited c .connect env (env.mono 0) rfl
  unfold Commander.connect
  split
  case h_1 h => rwa [h] at hcall
  case h_2 called h =>
    rw [h] at hcall
    exact ⟨hcall.limiter, (tryTransition_unlimited _ _).limited_eq.trans hcall.limited_eq⟩

theorem startScanning_unlimited (c : Commander F) : Unlimited c c.startScanning.2 := by
  have htry := tryTransition_unlimited c .scanning
  unfold Commander.startScanning
  split
  case h_1 h => rwa [h] at htry
  case h_2 h => exact ⟨(h ▸ htry).limiter, (h ▸ htry).limited_eq⟩

theorem selectTarget_unlimited (c : Commander F) (targetId : TargetId) :
    Unlimited c (c.selectTarget targetId).2 := by
  unfold Commander.selectTarget
  split
  case h_5 => exact .refl c
  all_goals
    have hselected := tryTransition_unlimited c .targetSelected
    split
    case h_1 h => rwa [h] at hselected
    case h_2 selected h =>
      rw [h] at hselected
      have htracking := tryTransition_unlimited selected .tracking
      split
      case h_1 h' =>
        rw [h'] at htracking
        exact hselected.trans htracking
      case h_2 h' =>
        rw [h'] at htracking
        exact ⟨htracking.limiter.trans hselected.limiter,
          htracking.limited_eq.trans hselected.limited_eq⟩

theorem reset_unlimited (c : Commander F) : Unlimited c c.reset.2 := by
  have htry := tryTransition_unlimited c .idle
  unfold Commander.reset
  split
  · exact .refl c
  · split
    case h_1 h => rwa [h] at htry
    case h_2 h => exact ⟨(h ▸ htry).limiter, (h ▸ htry).limited_eq⟩

theorem processWatchdogExpiries_unlimited (c : Commander F) (order : HashOrder) (now : ℤ) :
    Unlimited c (c.processWatchdogExpiries order now).2 := by
  have hone : ∀ (c : Commander F) e, Unlimited c (c.processExpiry e) := by
    intro c e
    unfold Commander.processExpiry
    dsimp only
    split
    · split
      · have htry := tryTransition_unlimited
          { c with watchdogs := c.watchdogs.noteExpiryProcessed e.1 } .trackingDegraded
        exact ⟨htry.limiter, htry.limited_eq⟩
      · exact ⟨rfl, rfl⟩
    · exact ⟨rfl, rfl⟩
  unfold Commander.processWatchdogExpiries
  generalize c.watchdogs.checkExpired order now = expired
  induction expired generalizing c with
  | nil => exact .refl c
  | cons e rest ih => exact (hone c e).trans (ih (c.processExpiry e))

theorem abort_limiter (c : Commander F) (env : Env F) :
    (c.abort env).2.rateLimiter = c.rateLimiter.forceSend (env.mono 3) := by
  unfold Commander.abort Commander.callFc
  cases env.fcError <;> rfl

/-- The RTL of an abort is counted whether it is accepted or not. -/
theorem abort_limited (c : Commander F) (env : Env F) :
    limited (c.abort env).2.log = limited c.log + 1 := by
  have hforced := (withMachine_unlimited c (c.machine.forceTransition .abort)).limited_eq
  unfold Commander.abort Commander.callFc
  cases env.fcError <;> exact (limited_concat _ _).trans (congrArg (· + 1) hforced)

theorem abort_result (c : Commander F) (env : Env F) :
    (c.abort env).1 = .ok () ↔ env.fcError = none := by
  unfold Commander.abort Commander.callFc
  cases env.fcError with
  | none => exact iff_of_true rfl rfl
  | some e => exact iff_of_false nofun nofun

theorem trySend_sentCount (l : CommandRateLimiter) (now : Instant) :
    (l.trySend now).2.sentCount = l.sentCount + if (l.trySend now).1 = true then 1 else 0 := by
  unfold CommandRateLimiter.trySend
  split
  · rfl
  · split <;> rfl

theorem acquireTarget_unlimited (c : Commander F) (r : ReceivedTrack F) :
    Unlimited c (BusState.acquireTarget c r) := by
  unfold BusState.acquireTarget
  dsimp only
  split
  · have hselect := selectTarget_unlimited
      ((c.feed .commandLoop (r.utc 0)).feedVideoWatchdog (r.utc 1)) r.track.trackId
    exact ⟨hselect.limiter, hselect.limited_eq⟩
  · exact ⟨rfl, rfl⟩

/-- The limiter has counted as many calls as went into the history in the meantime. -/
def InStep (c c' : Commander F) : Prop :=
  ∃ n, c'.rateLimiter.sentCount = c.rateLimiter.sentCount + n ∧
    limited c'.log = limited c.log + n

theorem Unlimited.inStep (h : Unlimited c c') : InStep c c' :=
  ⟨0, congrArg CommandRateLimiter.sentCount h.limiter, h.limited_eq⟩

theorem checkWatchdogs_inStep (t : Tick F) (c : Commander F) :
    InStep c (BusState.checkWatchdogs t c) := by
  have hexpiries := processWatchdogExpiries_unlimited
    ((c.feed .commandLoop t.commandFed).feedVideoWatchdog t.videoFed) t.order t.checked
  unfold BusState.checkWatchdogs
  dsimp only
  split
  · have hreset := reset_unlimited ((((c.feed .commandLoop t.commandFed).feedVideoWatchdog
      t.videoFed).processWatchdogExpiries t.order t.checked).2.abort t.abortEnv).2
    refine ⟨1, ?_, ?_⟩
    · rw [hreset.limiter, abort_limiter, hexpiries.limiter]
      rfl
    · rw [hreset.limited_eq, abort_limited, hexpiries.limited_eq]
      rfl
  · exact hexpiries.inStep

end

namespace Commander
variable {F : Type} [F32 F]

/-- An update whose command makes the guard abort. -/
def AbortsByGuard (c : Commander F) (offset : F × F) (env : Env F) : Prop :=
  c.activeTargetId.isSome = true ∧ c.state.Corrects ∧ (c.guarded offset env).1 = .abort

/-- What an update did: its result, by how much the limiter's count and its calls in the history
went up, and how many corrections were accepted. -/
structure Effect (c : Commander F) (u : CommanderResult × Commander F) (ok : Prop)
    (counted delivered : ℕ) : Prop where
  result : u.1 = .ok () ↔ ok
  sentCount : u.2.rateLimiter.sentCount = c.rateLimiter.sentCount + counted
  limited_eq : limited u.2.log = limited c.log + counted
  accepted_eq : accepted u.2.log = accepted c.log + delivered

theorem sendAndComplete_effect (c : Commander F) (cmd : CorrectionCommand F) (env : Env F)
    (h : (c.rateLimiter.trySend (env.mono 3)).1 = true) :
    Effect c (c.sendAndComplete cmd env) (env.fcError = none) 1
      (if env.fcError = none then 1 else 0) := by
  have hcount := trySend_sentCount c.rateLimiter (env.mono 3)
  rw [if_pos h] at hcount
  unfold sendAndComplete sendCorrectionToFc
  generalize c.rateLimiter.trySend (env.mono 3) = t at h hcount
  obtain ⟨admitted, rateLimiter⟩ := t
  obtain rfl : admitted = true := h
  unfold callFc
  cases herror : env.fcError with
  | none => exact ⟨iff_of_true rfl rfl, hcount, limited_concat _ _, accepted_concat _ _⟩
  | some e => exact ⟨iff_of_false nofun nofun, hcount, limited_concat _ _, accepted_concat _ _⟩

theorem sendAndComplete_refused (c : Commander F) (cmd : CorrectionCommand F) (env : Env F)
    (h : (c.rateLimiter.trySend (env.mono 3)).1 = false) :
    Effect c (c.sendAndComplete cmd env) True 0 0 := by
  have hcount := trySend_sentCount c.rateLimiter (env.mono 3)
  rw [if_neg (by rw [h]; exact nofun)] at hcount
  unfold sendAndComplete sendCorrectionToFc
  generalize c.rateLimiter.trySend (env.mono 3) = t at h hcount
  obtain ⟨admitted, rateLimiter⟩ := t
  obtain rfl : admitted = false := h
  exact ⟨iff_of_true rfl trivial, hcount, rfl, rfl⟩

omit [F32 F] in
/-- What the update did where it did nothing before it corrected. -/
theorem Effect.of_same {c c' : Commander F} {u : CommanderResult × Commander F} {ok : Prop}
    {counted delivered : ℕ} (h : Effect c' u ok counted delivered)
    (hlimiter : c'.rateLimiter = c.rateLimiter) (hlog : c'.log = c.log) :
    Effect c u ok counted delivered :=
  ⟨h.result, by rw [h.sentCount, hlimiter], by rw [h.limited_eq, hlog],
    by rw [h.accepted_eq, hlog]⟩

omit [F32 F] in
theorem abort_effect (c : Commander F) (env : Env F) :
    Effect c (c.abort env) (env.fcError = none) 1 0 := by
  refine ⟨abort_result c env, by rw [abort_limiter]; rfl, abort_limited c env, ?_⟩
  exact Moves.accepted_eq (P := (· = .abort)) (c.abort_moves env rfl)

theorem not_sends {c : Commander F} {offset : F × F} {env : Env F}
    (h : ∀ cmd, (c.guarded offset env).1 ≠ .allow cmd) : ¬ c.SendsCorrection (some offset) env := by
  rintro ⟨offset', cmd, heq, -, -, hallow, -⟩
  cases heq
  exact h cmd hallow

theorem update_decided {c : Commander F} (offset : F × F) (env : Env F) {target : TargetId}
    (htarget : c.activeTargetId = some target) (hcorrects : c.state.Corrects) :
    ∃ guarded : Commander F, guarded.rateLimiter = c.rateLimiter ∧ guarded.log = c.log ∧
      c.update (some offset) env =
        match (c.guarded offset env).1 with
        | .allow clipped => guarded.sendAndComplete clipped env
        | .suppress => (.ok (), guarded.completeCycle env)
        | .degrade => (.ok (), (guarded.tryTransition .trackingDegraded).2.completeCycle env)
        | .abort => guarded.abort env := by
  let fed := (c.feed .inferenceLoop (env.utc 0)).feed .trackingLoop (env.utc 1)
  refine ⟨{ fed with antiLoop := (c.guarded offset env).2 }, rfl, rfl, ?_⟩
  have hupdate : c.update (some offset) env = fed.correct offset env := by
    unfold update
    dsimp only
    rw [show ((c.feed .inferenceLoop (env.utc 0)).feed .trackingLoop (env.utc 1)).activeTargetId =
      some target from htarget]
    exact if_pos hcorrects
  rw [hupdate]
  rfl

theorem update_idle_effect {c : Commander F} (offset : F × F) (env : Env F)
    (h : ¬ (c.activeTargetId.isSome = true ∧ c.state.Corrects)) :
    Effect c (c.update (some offset) env) True 0 0 := by
  unfold update
  dsimp only
  split
  case h_1 target _ hsome _ =>
    have hidle : ¬ c.state.Corrects := fun hcorrects =>
      h ⟨Option.isSome_iff_exists.mpr ⟨target, hsome⟩, hcorrects⟩
    split
    case isTrue hcorrects => exact absurd hcorrects hidle
    case isFalse => exact ⟨iff_of_true rfl trivial, rfl, rfl, rfl⟩
  case h_2 => exact ⟨iff_of_true rfl trivial, rfl, rfl, rfl⟩

/-- Either a correction goes out, or the guard aborts, or nothing is counted. -/
theorem update_effect (c : Commander F) (offset : F × F) (env : Env F) :
    (c.SendsCorrection (some offset) env ∧ ¬ c.AbortsByGuard offset env ∧
      Effect c (c.update (some offset) env) (env.fcError = none) 1
        (if env.fcError = none then 1 else 0)) ∨
    (¬ c.SendsCorrection (some offset) env ∧ c.AbortsByGuard offset env ∧
      Effect c (c.update (some offset) env) (env.fcError = none) 1 0) ∨
    (¬ c.SendsCorrection (some offset) env ∧ ¬ c.AbortsByGuard offset env ∧
      Effect c (c.update (some offset) env) True 0 0) := by
  by_cases hready : c.activeTargetId.isSome = true ∧ c.state.Corrects
  · obtain ⟨htarget, hcorrects⟩ := hready
    obtain ⟨target, hsome⟩ := Option.isSome_iff_exists.mp htarget
    obtain ⟨guarded, hlimiter, hlog, hupdate⟩ := update_decided offset env hsome hcorrects
    cases hdecision : (c.guarded offset env).1 with
    | allow cmd =>
      rw [hdecision] at hupdate
      rw [hupdate]
      have hnot : ¬ c.AbortsByGuard offset env := fun h => by cases hdecision.symm.trans h.2.2
      by_cases hadmit : (c.rateLimiter.trySend (env.mono 3)).1 = true
      · left
        refine ⟨⟨offset, cmd, rfl, htarget, hcorrects, hdecision, hadmit⟩, hnot, ?_⟩
        rw [← hlimiter] at hadmit
        exact (sendAndComplete_effect guarded cmd env hadmit).of_same hlimiter hlog
      · right; right
        have hkept : ¬ c.SendsCorrection (some offset) env := by
          rintro ⟨_, _, -, -, -, -, h⟩
          exact hadmit h
        refine ⟨hkept, hnot, ?_⟩
        rw [← hlimiter] at hadmit
        have hrefused := Bool.eq_false_of_not_eq_true hadmit
        exact (sendAndComplete_refused guarded cmd env hrefused).of_same hlimiter hlog
    | suppress =>
      rw [hdecision] at hupdate
      rw [hupdate]
      right; right
      refine ⟨not_sends (by rw [hdecision]; exact nofun), fun h => ?_, ?_⟩
      · cases hdecision.symm.trans h.2.2
      · have heffect : Effect guarded (.ok (), guarded.completeCycle env) True 0 0 :=
          ⟨iff_of_true rfl trivial, rfl, rfl, rfl⟩
        exact heffect.of_same hlimiter hlog
    | degrade =>
      rw [hdecision] at hupdate
      rw [hupdate]
      right; right
      refine ⟨not_sends (by rw [hdecision]; exact nofun), fun h => ?_, ?_⟩
      · cases hdecision.symm.trans h.2.2
      · have haccepted :=
          Moves.accepted_eq (P := (· = .trackingDegraded)) (guarded.tryTransition_moves rfl)
        have heffect : Effect guarded (.ok (),
            (guarded.tryTransition .trackingDegraded).2.completeCycle env) True 0 0 :=
          ⟨iff_of_true rfl trivial, rfl, (tryTransition_unlimited guarded _).limited_eq, haccepted⟩
        exact heffect.of_same hlimiter hlog
    | abort =>
      rw [hdecision] at hupdate
      rw [hupdate]
      right; left
      refine ⟨not_sends (by rw [hdecision]; exact nofun), ⟨htarget, hcorrects, hdecision⟩, ?_⟩
      exact (abort_effect guarded env).of_same hlimiter hlog
  · right; right
    refine ⟨?_, fun h => hready ⟨h.1, h.2.1⟩, update_idle_effect offset env hready⟩
    rintro ⟨_, _, -, htarget, hcorrects, -⟩
    exact hready ⟨htarget, hcorrects⟩

/-- The limiter has counted accepted corrections only: it was not used before the history began, no
correction of it failed, and nothing was aborted. -/
structure Unspoiled (c : Commander F) : Prop where
  unused : c.rateLimiter.sentCount = limited c.log
  unfailed : ∀ x ∈ c.log, x.isLimited = true → x.isAccepted = true

omit [F32 F] in
/-- The limiter's count is then the number of accepted corrections. -/
theorem unspoiled_iff {c : Commander F} (h : limited c.log ≤ c.rateLimiter.sentCount) :
    c.Unspoiled ↔ c.rateLimiter.sentCount = accepted c.log := by
  have hle := accepted_le_limited c.log
  have hall := limited_eq_accepted_iff c.log
  constructor
  · intro hunspoiled
    have hsame := hall.mpr hunspoiled.unfailed
    exact hunspoiled.unused.trans hsame
  · intro hcount
    exact ⟨by omega, hall.mp (by omega)⟩

/-- An update that the flight controller answers well is counted right: if it sends a correction,
the limiter is unspoiled, and it does not end in an abort. -/
def Counts (c : Commander F) (offset : F × F) (env : Env F) : Prop :=
  env.fcError = none →
    (c.SendsCorrection (some offset) env → c.Unspoiled) ∧ ¬ c.AbortsByGuard offset env

end Commander

namespace BusState
variable {F : Type} [F32 F] {cfg : CommanderBusConfig} {s : BusState F}

/-- The statistics have what was accepted, and the limiter has counted all of it. -/
structure Faithful (s : BusState F) : Prop where
  reported : s.stats.correctionsSent = accepted s.commander.log
  counted : limited s.commander.log ≤ s.commander.rateLimiter.sentCount

/-- The statistics have too much. -/
structure Inflated (s : BusState F) : Prop where
  exceeds : accepted s.commander.log < s.stats.correctionsSent
  counted : s.stats.correctionsSent ≤ s.commander.rateLimiter.sentCount

theorem control_effect {ok : Prop} {counted delivered : ℕ} {r : ReceivedTrack F}
    (h : Commander.Effect s.commander
      (s.commander.update (some (trackOffset cfg r.track)) r.env) ok counted delivered) :
    accepted (s.control cfg r).commander.log = accepted s.commander.log + delivered ∧
      ((s.control cfg r).commander.rateLimiter.sentCount =
          s.commander.rateLimiter.sentCount + counted ∧
        limited (s.control cfg r).commander.log = limited s.commander.log + counted) ∧
      (ok → 0 < counted → (s.control cfg r).stats.correctionsSent =
        s.commander.rateLimiter.sentCount + counted) ∧
      (¬ ok ∨ counted = 0 → (s.control cfg r).stats.correctionsSent = s.stats.correctionsSent) := by
  refine ⟨h.accepted_eq, ⟨h.sentCount, h.limited_eq⟩, ?_, ?_⟩
  · intro hok hcounted
    unfold control
    dsimp only
    rw [h.result.mpr hok]
    dsimp only
    rw [h.sentCount, if_pos (by omega)]
  · intro hnot
    unfold control
    dsimp only
    split
    case h_1 => rfl
    case h_2 hresult =>
      rcases hnot with hfailed | hnone
      · exact absurd (h.result.mp hresult) hfailed
      · rw [h.sentCount, if_neg (by omega)]

theorem Faithful.control {r : ReceivedTrack F} (h : s.Faithful)
    (hcounts : s.commander.Counts (trackOffset cfg r.track) r.env) : (s.control cfg r).Faithful := by
  have hreported := h.reported
  have hcounted := h.counted
  have hle := accepted_le_limited s.commander.log
  rcases s.commander.update_effect (trackOffset cfg r.track) r.env with
    ⟨hsends, -, heffect⟩ | ⟨-, haborts, heffect⟩ | ⟨-, -, heffect⟩
  · obtain ⟨haccepted, ⟨hsent, hlimited⟩, hcopied, hkept⟩ := control_effect heffect
    by_cases herror : r.env.fcError = none
    · rw [if_pos herror] at haccepted
      have hexact := (Commander.unspoiled_iff hcounted).mp ((hcounts herror).1 hsends)
      have hcopied := hcopied herror Nat.one_pos
      constructor <;> omega
    · rw [if_neg herror] at haccepted
      have hkept := hkept (.inl herror)
      constructor <;> omega
  · obtain ⟨haccepted, ⟨hsent, hlimited⟩, -, hkept⟩ := control_effect heffect
    by_cases herror : r.env.fcError = none
    · exact absurd haborts (hcounts herror).2
    · have hkept := hkept (.inl herror)
      constructor <;> omega
  · obtain ⟨haccepted, ⟨hsent, hlimited⟩, -, hkept⟩ := control_effect heffect
    have hkept := hkept (.inr rfl)
    constructor <;> omega

theorem Faithful.control_not {r : ReceivedTrack F} (h : s.Faithful)
    (hcounts : ¬ s.commander.Counts (trackOffset cfg r.track) r.env) :
    (s.control cfg r).Inflated := by
  have hcounted := h.counted
  have hle := accepted_le_limited s.commander.log
  have herror : r.env.fcError = none := by
    by_contra hne
    exact hcounts fun herror => absurd herror hne
  rcases s.commander.update_effect (trackOffset cfg r.track) r.env with
    ⟨hsends, hguard, heffect⟩ | ⟨-, -, heffect⟩ | ⟨hsends, hguard, -⟩
  · obtain ⟨haccepted, ⟨hsent, hlimited⟩, hcopied, -⟩ := control_effect heffect
    rw [if_pos herror] at haccepted
    have hcopied := hcopied herror Nat.one_pos
    have hmore : s.commander.rateLimiter.sentCount ≠ accepted s.commander.log := fun heq =>
      hcounts fun _ => ⟨fun _ => (Commander.unspoiled_iff hcounted).mpr heq, hguard⟩
    constructor <;> omega
  · obtain ⟨haccepted, ⟨hsent, hlimited⟩, hcopied, -⟩ := control_effect heffect
    have hcopied := hcopied herror Nat.one_pos
    constructor <;> omega
  · exact absurd (fun _ => ⟨fun h => absurd h hsends, hguard⟩) hcounts

/-- What is too much stays so. -/
theorem Inflated.control (h : s.Inflated) (cfg : CommanderBusConfig) (r : ReceivedTrack F) :
    (s.control cfg r).Inflated := by
  have hexceeds := h.exceeds
  have hcounted := h.counted
  rcases s.commander.update_effect (trackOffset cfg r.track) r.env with
    ⟨-, -, heffect⟩ | ⟨-, -, heffect⟩ | ⟨-, -, heffect⟩
  · obtain ⟨haccepted, ⟨hsent, -⟩, hcopied, hkept⟩ := control_effect heffect
    by_cases herror : r.env.fcError = none
    · rw [if_pos herror] at haccepted
      have hcopied := hcopied herror Nat.one_pos
      constructor <;> omega
    · rw [if_neg herror] at haccepted
      have hkept := hkept (.inl herror)
      constructor <;> omega
  · obtain ⟨haccepted, ⟨hsent, -⟩, hcopied, hkept⟩ := control_effect heffect
    by_cases herror : r.env.fcError = none
    · have hcopied := hcopied herror Nat.one_pos
      constructor <;> omega
    · have hkept := hkept (.inl herror)
      constructor <;> omega
  · obtain ⟨haccepted, ⟨hsent, -⟩, -, hkept⟩ := control_effect heffect
    have hkept := hkept (.inr rfl)
    constructor <;> omega

/-- Does the loop update for this track message? -/
def Controls (cfg : CommanderBusConfig) (s : BusState F) (r : ReceivedTrack F) : Prop :=
  r.track.misses ≤ cfg.maxTrackMisses ∧
    (acquireTarget s.commander r).activeTargetId = some r.track.trackId

/-- A track message whose update, if there is one, is counted right. -/
def CountsTrack (cfg : CommanderBusConfig) (s : BusState F) (r : ReceivedTrack F) : Prop :=
  Controls cfg s r → (acquireTarget s.commander r).Counts (trackOffset cfg r.track) r.env

/-- Track messages that are counted right one after the other. -/
def CountsTracks (cfg : CommanderBusConfig) : BusState F → List (ReceivedTrack F) → Prop
  | _, [] => True
  | s, r :: rest => CountsTrack cfg s r ∧ CountsTracks cfg (s.onTrack cfg r) rest

/-- A turn of the loop in which every correction that the flight controller accepts finds the
limiter unspoiled, and in which no update ends in an RTL that it accepts. -/
def CountsTurn (cfg : CommanderBusConfig) (s : BusState F) (t : Tick F) : Prop :=
  CountsTracks cfg (s.onTelemetry t.telemetry) (t.tracks.take trackBudget)

omit [F32 F] in
theorem Faithful.of_inStep {s' : BusState F} (h : s.Faithful)
    (haccepted : accepted s'.commander.log = accepted s.commander.log)
    (hsent : InStep s.commander s'.commander)
    (hstats : s'.stats.correctionsSent = s.stats.correctionsSent) : s'.Faithful := by
  have hreported := h.reported
  have hcounted := h.counted
  obtain ⟨n, hcount, hlimited⟩ := hsent
  constructor <;> omega

omit [F32 F] in
theorem Inflated.of_inStep {s' : BusState F} (h : s.Inflated)
    (haccepted : accepted s'.commander.log = accepted s.commander.log)
    (hsent : InStep s.commander s'.commander)
    (hstats : s'.stats.correctionsSent = s.stats.correctionsSent) : s'.Inflated := by
  have hexceeds := h.exceeds
  have hcounted := h.counted
  obtain ⟨n, hcount, -⟩ := hsent
  constructor <;> omega

omit [F32 F] in
theorem acquireTarget_accepted (c : Commander F) (r : ReceivedTrack F) :
    accepted (acquireTarget c r).log = accepted c.log :=
  Moves.accepted_eq (acquireTarget_moves c r)

/-- The state in which a track message is handled. -/
def acquired (s : BusState F) (r : ReceivedTrack F) : BusState F :=
  { s with
    stats := { s.stats with tracksReceived := s.stats.tracksReceived + 1 }
    commander := acquireTarget s.commander r }

theorem onTrack_of_controls {r : ReceivedTrack F} (h : Controls cfg s r) : s.onTrack cfg r =
    { (s.acquired r).control cfg r with
      commander := feedLoops ((s.acquired r).control cfg r).commander r } :=
  congrArg (fun x : BusState F => { x with commander := feedLoops x.commander r }) (if_pos h)

theorem onTrack_of_not {r : ReceivedTrack F} (h : ¬ Controls cfg s r) : s.onTrack cfg r =
    { s.acquired r with commander := feedLoops (s.acquired r).commander r } :=
  congrArg (fun x : BusState F => { x with commander := feedLoops x.commander r }) (if_neg h)

omit [F32 F] in
theorem Faithful.acquired (h : s.Faithful) (r : ReceivedTrack F) : (s.acquired r).Faithful :=
  h.of_inStep (acquireTarget_accepted s.commander r) (acquireTarget_unlimited _ r).inStep rfl

omit [F32 F] in
theorem Inflated.acquired (h : s.Inflated) (r : ReceivedTrack F) : (s.acquired r).Inflated :=
  h.of_inStep (acquireTarget_accepted s.commander r) (acquireTarget_unlimited _ r).inStep rfl

theorem Faithful.onTrack {r : ReceivedTrack F} (h : s.Faithful) (hcounts : CountsTrack cfg s r) :
    (s.onTrack cfg r).Faithful := by
  by_cases hcontrols : Controls cfg s r
  · rw [onTrack_of_controls hcontrols]
    exact ((h.acquired r).control (hcounts hcontrols)).of_inStep rfl (Unlimited.inStep ⟨rfl, rfl⟩) rfl
  · rw [onTrack_of_not hcontrols]
    exact (h.acquired r).of_inStep rfl (Unlimited.inStep ⟨rfl, rfl⟩) rfl

theorem Faithful.onTrack_not {r : ReceivedTrack F} (h : s.Faithful)
    (hcounts : ¬ CountsTrack cfg s r) : (s.onTrack cfg r).Inflated := by
  unfold CountsTrack at hcounts
  rw [Classical.not_imp] at hcounts
  rw [onTrack_of_controls hcounts.1]
  exact ((h.acquired r).control_not hcounts.2).of_inStep rfl (Unlimited.inStep ⟨rfl, rfl⟩) rfl

theorem Inflated.onTrack {r : ReceivedTrack F} (h : s.Inflated) : (s.onTrack cfg r).Inflated := by
  by_cases hcontrols : Controls cfg s r
  · rw [onTrack_of_controls hcontrols]
    exact ((h.acquired r).control cfg r).of_inStep rfl (Unlimited.inStep ⟨rfl, rfl⟩) rfl
  · rw [onTrack_of_not hcontrols]
    exact (h.acquired r).of_inStep rfl (Unlimited.inStep ⟨rfl, rfl⟩) rfl

variable {taken : List (ReceivedTrack F)}

theorem Faithful.tracks (h : s.Faithful) (hcounts : CountsTracks cfg s taken) :
    (taken.foldl (BusState.onTrack cfg) s).Faithful := by
  induction taken generalizing s with
  | nil => exact h
  | cons r rest ih => exact ih (h.onTrack hcounts.1) hcounts.2

theorem Inflated.tracks (h : s.Inflated) : (taken.foldl (BusState.onTrack cfg) s).Inflated := by
  induction taken generalizing s with
  | nil => exact h
  | cons r rest ih => exact ih h.onTrack

theorem Faithful.tracks_not (h : s.Faithful) (hcounts : ¬ CountsTracks cfg s taken) :
    (taken.foldl (BusState.onTrack cfg) s).Inflated := by
  induction taken generalizing s with
  | nil => exact absurd trivial hcounts
  | cons r rest ih =>
    by_cases hfirst : CountsTrack cfg s r
    · exact ih (h.onTrack hfirst) fun hrest => hcounts ⟨hfirst, hrest⟩
    · exact (h.onTrack_not hfirst).tracks

omit [F32 F] in
theorem checkWatchdogs_accepted (t : Tick F) (c : Commander F) :
    accepted (checkWatchdogs t c).log = accepted c.log :=
  Moves.accepted_eq (checkWatchdogs_moves (P := fun _ => True) t c trivial trivial trivial)

theorem drain_published (s : BusState F) (tracks : List (ReceivedTrack F)) :
    (s.drain cfg tracks).published = s.published := by
  unfold drain
  generalize tracks.take trackBudget = taken
  induction taken generalizing s with
  | nil => rfl
  | cons r rest ih =>
    have hone : (s.onTrack cfg r).published = s.published := by
      by_cases hcontrols : Controls cfg s r
      · rw [onTrack_of_controls hcontrols]
        rfl
      · rw [onTrack_of_not hcontrols]
        rfl
    exact (ih (s.onTrack cfg r)).trans hone

variable {s' : BusState F} {t : Tick F}

def drained (cfg : CommanderBusConfig) (s : BusState F) (t : Tick F) : BusState F :=
  (s.onTelemetry t.telemetry).drain cfg t.tracks

omit [F32 F] in
theorem publishStatus_published (cfg : CommanderBusConfig) (s : BusState F) (t : Tick F) :
    (s.publishStatus cfg t).stats = s.stats ∧
      ((s.publishStatus cfg t).published = s.published ∨
        ∃ status, (s.publishStatus cfg t).published = s.published ++ [status] ∧
          status.stats = s.stats) := by
  unfold publishStatus
  split
  · exact ⟨rfl, .inr ⟨⟨contractVersion, s.commander.state.debugName, s.commander.activeTargetId,
      s.stats⟩, rfl, rfl⟩⟩
  · exact ⟨rfl, .inl rfl⟩

/-- What a turn does after its tracks: it publishes the statistics as they are, or nothing. -/
theorem step_parts (h : s.step cfg t = some s') :
    s'.commander = checkWatchdogs t (drained cfg s t).commander ∧
      s'.stats = (drained cfg s t).stats ∧
      (s'.published = s.published ∨
        ∃ status, s'.published = s.published ++ [status] ∧ status.stats = s'.stats) := by
  have hpublished : (drained cfg s t).published = s.published := by
    have htelemetry : (s.onTelemetry t.telemetry).published = s.published := by
      cases t.telemetry <;> rfl
    exact (drain_published _ t.tracks).trans htelemetry
  have hcommander := step_commander h
  unfold step at h
  split at h
  case isTrue => cases h
  case isFalse =>
    obtain rfl := Option.some.inj h
    obtain ⟨hstats, hpublish⟩ := publishStatus_published cfg { drained cfg s t with
      commander := checkWatchdogs t (drained cfg s t).commander } t
    refine ⟨hcommander, hstats, ?_⟩
    rcases hpublish with hsame | ⟨status, hmore, hstatus⟩
    · exact .inl (hsame.trans hpublished)
    · refine .inr ⟨status, hmore.trans ?_, hstatus.trans hstats.symm⟩
      exact congrArg (· ++ [status]) hpublished

theorem step_counts (h : s.step cfg t = some s') :
    accepted s'.commander.log = accepted (drained cfg s t).commander.log ∧
      InStep (drained cfg s t).commander s'.commander ∧
      s'.stats.correctionsSent = (drained cfg s t).stats.correctionsSent := by
  obtain ⟨hcommander, hstats, -⟩ := step_parts h
  rw [hcommander, hstats]
  exact ⟨checkWatchdogs_accepted t _, checkWatchdogs_inStep t _, rfl⟩

omit [F32 F] in
theorem Faithful.telemetry (h : s.Faithful) (telemetry : Option ℤ) :
    (s.onTelemetry telemetry).Faithful := by
  cases telemetry <;> exact h.of_inStep rfl (Unlimited.inStep ⟨rfl, rfl⟩) rfl

theorem Faithful.step (h : s.Faithful) (hstep : s.step cfg t = some s')
    (hcounts : CountsTurn cfg s t) : s'.Faithful := by
  obtain ⟨haccepted, hsent, hstats⟩ := step_counts hstep
  have hdrained : (drained cfg s t).Faithful := (h.telemetry t.telemetry).tracks hcounts
  exact hdrained.of_inStep haccepted hsent hstats

theorem Faithful.step_not (h : s.Faithful) (hstep : s.step cfg t = some s')
    (hcounts : ¬ CountsTurn cfg s t) : s'.Inflated := by
  obtain ⟨haccepted, hsent, hstats⟩ := step_counts hstep
  have hdrained : (drained cfg s t).Inflated := (h.telemetry t.telemetry).tracks_not hcounts
  exact hdrained.of_inStep haccepted hsent hstats

end BusState

theorem begin_faithful {F : Type} [F32 F] {c : Commander F} {s : BusState F} {env : Env F}
    {started lastStatus : Instant} (hlog : c.log = [])
    (h : begin c env started lastStatus = .ok s) : s.Faithful ∧ s.published = [] := by
  have hconnect : Moves (· = .armed) False c.standing (c.connect env).2.standing :=
    c.connect_moves env rfl
  unfold begin at h
  split at h
  case h_1 => cases h
  case h_2 c' hc =>
    cases h
    rw [hc] at hconnect
    have hscan : Moves (· = .scanning) False c'.standing c'.startScanning.2.standing :=
      c'.startScanning_moves rfl
    have hnone : accepted c'.startScanning.2.log = 0 := by
      have haccepted := hscan.accepted_eq.trans hconnect.accepted_eq
      rw [show c.standing.log = [] from hlog] at haccepted
      exact haccepted
    have hquiet : limited c'.startScanning.2.log = 0 := by
      have hconnected := connect_unlimited c env
      rw [hc] at hconnected
      rw [(startScanning_unlimited c').limited_eq, hconnected.limited_eq, hlog]
      rfl
    refine ⟨⟨hnone.symm, ?_⟩, rfl⟩
    rw [hquiet]
    exact Nat.zero_le _

section
variable {F : Type} [F32 F] {cfg : CommanderBusConfig}

/-- What an onlooker counts: at each status, the corrections accepted so far. -/
def seeAccepted (cfg : CommanderBusConfig) (s : BusState F) (t : Tick F) (counts : List ℕ) :
    List ℕ :=
  match s.step cfg t with
  | none => counts
  | some s' =>
    if s'.published.length = s.published.length then counts
    else counts ++ [accepted s'.commander.log]

/-- The runs of the loop with that onlooker. -/
def countedRun (F : Type) [F32 F] (cfg : CommanderBusConfig) :
    Machine (Runs.Observed (BusState F) (List ℕ)) (Tick F) :=
  (busRun F cfg).observed [] (seeAccepted cfg)

/-- Each status said, and the statistics say, how many corrections were accepted. -/
structure Reported (o : Runs.Observed (BusState F) (List ℕ)) : Prop where
  published : o.state.published.map (·.stats.correctionsSent) = o.view
  final : o.state.stats.correctionsSent = accepted o.state.commander.log

theorem counted_invariant {o : Runs.Observed (BusState F) (List ℕ)}
    (h : (countedRun F cfg).ReachableBy (fun o t => o.state.CountsTurn cfg t) o) :
    o.state.Faithful ∧ o.state.published.map (·.stats.correctionsSent) = o.view := by
  apply h.invariant
  · rintro ⟨s, counts⟩ ⟨⟨c, env, started, lastStatus, hlog, hbegin⟩, hcounts⟩
    dsimp only at hbegin hcounts
    obtain ⟨hfaithful, hpublished⟩ := begin_faithful hlog hbegin
    rw [hcounts, hpublished]
    exact ⟨hfaithful, rfl⟩
  · intro o t o' _ ho hcounts hstep
    obtain ⟨s', hs, rfl⟩ := observed_step hstep
    have hs : o.state.step cfg t = some s' := hs
    have hfaithful := ho.1.step hs hcounts
    obtain ⟨-, hstats, hpublish⟩ := BusState.step_parts hs
    refine ⟨hfaithful, ?_⟩
    dsimp only
    unfold seeAccepted
    rw [hs]
    dsimp only
    rcases hpublish with hsame | ⟨status, hmore, hstatus⟩
    · rw [hsame, if_pos rfl]
      exact ho.2
    · have hlength : ¬ s'.published.length = o.state.published.length := by
        rw [hmore, List.length_append, List.length_singleton]
        omega
      rw [if_neg hlength, hmore, List.map_append, List.map_singleton, ho.2, hstatus,
        hfaithful.reported]

/-- In a run all of whose turns count right, every status and the statistics say how many
corrections the flight controller accepted. The first turn that does not count right leaves
statistics that say more. -/
theorem corrections_reported {o : Runs.Observed (BusState F) (List ℕ)}
    (h : (countedRun F cfg).ReachableBy (fun o t => o.state.CountsTurn cfg t) o) :
    Reported o ∧ ∀ (t : Tick F) (o' : Runs.Observed (BusState F) (List ℕ)),
      (countedRun F cfg).step o t = some o' → (Reported o' ↔ o.state.CountsTurn cfg t) := by
  obtain ⟨hfaithful, hpublished⟩ := counted_invariant h
  refine ⟨⟨hpublished, hfaithful.reported⟩, ?_⟩
  intro t o' hstep
  constructor
  · intro hreported
    by_contra hcounts
    obtain ⟨s', hs, rfl⟩ := observed_step hstep
    have hinflated := hfaithful.step_not hs hcounts
    exact absurd hreported.final hinflated.exceeds.ne'
  · intro hcounts
    obtain ⟨hfaithful', hpublished'⟩ := counted_invariant (h.step hcounts hstep)
    exact ⟨hpublished', hfaithful'.reported⟩

end

/-- A turn with one track, whose correction is accepted, and a status. -/
def reportingTurn : Tick ℚ := { tickAt 0 none [edgeTrack] with statusAt := secs 1 }

theorem corrections_reported_once : ∃ o, o.view = [1] ∧ Reported o ∧
    ∀ (t : Tick ℚ) (o' : Runs.Observed (BusState ℚ) (List ℕ)),
      (countedRun ℚ .default).step o t = some o' →
        (Reported o' ↔ o.state.CountsTurn .default t) := by
  have hrun : ((countedRun ℚ .default).step ⟨busStart, []⟩ reportingTurn).map (·.view) =
      some [1] := by decide +kernel
  obtain ⟨o, hstep, hview⟩ := Option.map_eq_some_iff.mp hrun
  have hcounts : busStart.CountsTurn .default reportingTurn := by
    refine ⟨?_, trivial⟩
    intro _ _
    refine ⟨fun _ => ⟨by decide +kernel, by decide +kernel⟩, ?_⟩
    rintro ⟨-, -, habort⟩
    revert habort
    decide +kernel
  exact ⟨o, hview, corrections_reported (.step (.init ⟨busStart_init, rfl⟩) hcounts hstep)⟩

/-- The flight controller does not answer the first correction, and accepts the second. -/
def timeoutTurn : Tick ℚ :=
  { tickAt 150000000 none [] with
    tracks := [⟨edgeTrack, fun _ => 0, { envAt 0 with fcError := some .timeout }⟩,
      ⟨edgeTrack, fun _ => 150000000, envAt 150000000⟩] }

/-- Two corrections are reported, one of which failed. -/
theorem failed_correction_reported : ¬ ∀ o : Runs.Observed (BusState ℚ) (List ℕ),
    (countedRun ℚ .default).Reachable o → Reported o := by
  intro h
  have hrun : ((countedRun ℚ .default).exec (fun _ _ => True) ⟨busStart, []⟩ [timeoutTurn]).map
      (fun o => (o.state.stats.correctionsSent, accepted o.state.commander.log)) =
      some (2, 1) := by decide +kernel
  obtain ⟨o, ho, hcounts⟩ := Option.map_eq_some_iff.mp hrun
  have hreported := (h o (.of_exec (.init ⟨busStart_init, rfl⟩) ho)).final
  obtain ⟨hstats, haccepted⟩ := Prod.mk.inj hcounts
  rw [hstats, haccepted] at hreported
  exact absurd hreported (by decide)

end AutoTargeting.Control
