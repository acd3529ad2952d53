import AutoTargeting.Control.Commands
import AutoTargeting.Control.GuardLaw

namespace AutoTargeting.Control

open Runs

/-- A position target with what `update` made it from, and when the limiter admitted it. -/
structure Issued (F : Type) where
  target : PositionTargetNED F
  offset : F × F
  attitude : Attitude F
  admittedAt : Instant
  deriving DecidableEq, Repr

/-- The position targets issued so far, and when the clock was read last. -/
structure Issues (F : Type) where
  issued : List (Issued F)
  clock : Instant
  deriving DecidableEq, Repr

def Entry.positionTarget? {F : Type} : Entry F → Option (PositionTargetNED F × Instant)
  | fc (.setPositionTargetLocalNed target) _ sentAt => some (target, sentAt)
  | _ => none

/-- What an operation finds outside, where it looks. -/
def Operation.env? {F : Type} : Operation F → Option (Env F)
  | connect env | disconnect env | arm env | disarm env | update _ env | abort env
  | setFlightMode _ env | setRoi _ env => some env
  | startScanning | selectTarget _ | processWatchdogExpiries _ _ | reset | feed _ _ => none

section
variable {F : Type} [F32 F]

/-- The position targets that an `update` for this offset adds to the history. -/
def issuedBy (c : Commander F) : Operation F → List (Issued F)
  | .update (some offset) env =>
    (((c.update (some offset) env).2.log.drop c.log.length).filterMap Entry.positionTarget?).map
      fun p => ⟨p.1, offset, env.attitude, p.2⟩
  | _ => []

/-- Commanders under any sequence of operations, with the position targets they issue. -/
def issuing (F : Type) [F32 F] :
    Machine (Runs.Observed (Commander F) (Issues F)) (Operation F) :=
  (Operation.machine F).observed ⟨[], 0⟩ fun c op seen =>
    ⟨seen.issued ++ issuedBy c op, (op.env?.map (·.mono 4)).getD seen.clock⟩

/-- The monotonic clock does not go back, within an operation and from one to the next. -/
def Forward (t : Runs.Observed (Commander F) (Issues F)) (op : Operation F) : Prop :=
  ∀ env ∈ op.env?, t.view.clock ≤ env.mono 0 ∧ ∀ n < 4, env.mono n ≤ env.mono (n + 1)

instance (t : Runs.Observed (Commander F) (Issues F)) (op : Operation F) :
    Decidable (Forward t op) :=
  inferInstanceAs (Decidable (∀ env ∈ op.env?, _ ∧ _))

end

/-- The limiter after an operation: it kept its last time, or it took one that it read. -/
structure LimiterAfter (l : CommandRateLimiter) (readAt : Option Instant)
    (l' : CommandRateLimiter) : Prop where
  minInterval : l'.minInterval = l.minInterval
  lastSent : l'.lastSent = l.lastSent ∨ ∃ t ∈ readAt, l'.lastSent = some t

/-- What an operation leaves of the configuration, the camera and the limiter. -/
structure GearAfter (c : Commander F) (readAt : Option Instant) (c' : Commander F) : Prop where
  config : c'.config = c.config
  camera : c'.camera = c.camera
  limiter : LimiterAfter c.rateLimiter readAt c'.rateLimiter

section
variable {F : Type} {c c' c'' : Commander F} {readAt : Option Instant}

theorem GearAfter.of_same (hconfig : c'.config = c.config) (hcamera : c'.camera = c.camera)
    (hlimiter : c'.rateLimiter = c.rateLimiter) : GearAfter c readAt c' :=
  ⟨hconfig, hcamera, by rw [hlimiter]; exact ⟨rfl, .inl rfl⟩⟩

theorem GearAfter.refl : GearAfter c readAt c := .of_same rfl rfl rfl

theorem GearAfter.trans (h : GearAfter c readAt c') (h' : GearAfter c' readAt c'') :
    GearAfter c readAt c'' := by
  refine ⟨h'.config.trans h.config, h'.camera.trans h.camera,
    h'.limiter.minInterval.trans h.limiter.minInterval, ?_⟩
  rcases h'.limiter.lastSent with hkept | htook
  · rcases h.limiter.lastSent with hkept' | ⟨t, ht, htook⟩
    · exact .inl (hkept.trans hkept')
    · exact .inr ⟨t, ht, hkept.trans htook⟩
  · exact .inr htook

theorem disconnect_gear (c : Commander F) (env : Env F) :
    GearAfter c readAt (c.disconnect env).2 := by
  unfold Commander.disconnect Commander.callFc
  cases env.fcError <;> exact .of_same rfl rfl rfl

theorem connect_gear (c : Commander F) (env : Env F) : GearAfter c readAt (c.connect env).2 := by
  unfold Commander.connect Commander.callFc
  cases env.fcError <;> exact .of_same rfl rfl rfl

theorem requestFc_gear (c : Commander F) (call : FcCall F) (env : Env F) :
    GearAfter c readAt (c.requestFc call env).2 := by
  unfold Commander.requestFc
  split <;> exact .of_same rfl rfl rfl

theorem disarm_gear (c : Commander F) (env : Env F) : GearAfter c readAt (c.disarm env).2 := by
  unfold Commander.disarm
  split
  · exact .refl
  · unfold Commander.callFc
    cases env.fcError <;> exact .of_same rfl rfl rfl

theorem startScanning_gear (c : Commander F) : GearAfter c readAt c.startScanning.2 := by
  have htry : GearAfter c readAt (c.tryTransition .scanning).2 := .of_same rfl rfl rfl
  unfold Commander.startScanning
  split
  case h_1 h => rwa [h] at htry
  case h_2 h =>
    rw [h] at htry
    exact htry.trans (.of_same rfl rfl rfl)

theorem selectTarget_gear (c : Commander F) (targetId : TargetId) :
    GearAfter c readAt (c.selectTarget targetId).2 := by
  have htry : GearAfter c readAt (c.tryTransition .targetSelected).2 := .of_same rfl rfl rfl
  unfold Commander.selectTarget
  split
  case h_5 => exact .refl
  all_goals
    split
    case h_1 h => rwa [h] at htry
    case h_2 selected h =>
      rw [h] at htry
      have hlock : GearAfter c readAt (selected.tryTransition .tracking).2 :=
        htry.trans (.of_same rfl rfl rfl)
      split
      case h_1 h' => rwa [h'] at hlock
      case h_2 h' =>
        rw [h'] at hlock
        exact hlock.trans (.of_same rfl rfl rfl)

theorem reset_gear (c : Commander F) : GearAfter c readAt c.reset.2 := by
  have htry : GearAfter c readAt (c.tryTransition .idle).2 := .of_same rfl rfl rfl
  unfold Commander.reset
  split
  · exact .refl
  · split
    case h_1 h => rwa [h] at htry
    case h_2 h =>
      rw [h] at htry
      exact htry.trans (.of_same rfl rfl rfl)

theorem processExpiry_gear (c : Commander F) (expired : WatchdogId × WatchdogAction) :
    GearAfter c readAt (c.processExpiry expired) := by
  unfold Commander.processExpiry
  dsimp only
  split
  · split <;> exact .of_same rfl rfl rfl
  · exact .of_same rfl rfl rfl

theorem processWatchdogExpiries_gear (c : Commander F) (order : HashOrder) (now : ℤ) :
    GearAfter c readAt (c.processWatchdogExpiries order now).2 := by
  unfold Commander.processWatchdogExpiries
  generalize c.watchdogs.checkExpired order now = expired
  induction expired generalizing c with
  | nil => exact .refl
  | cons e rest ih => exact (processExpiry_gear c e).trans (ih (c.processExpiry e))

/-- An abort takes the limiter's time, and issues no position target. -/
theorem abort_gear (c : Commander F) (env : Env F) :
    GearAfter c (some (env.mono 3)) (c.abort env).2 := by
  have hforce : GearAfter c (some (env.mono 3)) { c.forceTransition .abort with
      rateLimiter := (c.forceTransition .abort).rateLimiter.forceSend (env.mono 3) } :=
    ⟨rfl, rfl, rfl, .inr ⟨_, rfl, rfl⟩⟩
  unfold Commander.abort Commander.callFc
  cases env.fcError <;> exact hforce.trans (.of_same rfl rfl rfl)

theorem trySend_after (l : CommandRateLimiter) (now : Instant) :
    LimiterAfter l (some now) (l.trySend now).2 := by
  unfold CommandRateLimiter.trySend
  split
  · exact ⟨rfl, .inr ⟨_, rfl, rfl⟩⟩
  · split
    · exact ⟨rfl, .inr ⟨_, rfl, rfl⟩⟩
    · exact ⟨rfl, .inl rfl⟩

theorem trySend_admitted {l : CommandRateLimiter} {now : Instant} (h : (l.trySend now).1 = true) :
    (l.trySend now).2.lastSent = some now ∧ ∀ last ∈ l.lastSent, l.minInterval ≤ now - last := by
  unfold CommandRateLimiter.trySend at h ⊢
  cases hlast : l.lastSent with
  | none => simp [CommandRateLimiter.forceSend]
  | some last =>
    rw [hlast] at h
    dsimp only at h ⊢
    split at h
    case isTrue hle => simp [hle, CommandRateLimiter.forceSend]
    case isFalse => cases h

/-- Where no correction may go out, the history has no other position target. -/
theorem Moves.targets_eq {P : SystemState → Prop} {t t' : Standing F} (h : Moves P False t t') :
    t'.log.filterMap Entry.positionTarget? = t.log.filterMap Entry.positionTarget? := by
  induction h with
  | refl => rfl
  | tail _ hmove ih =>
    rw [← ih]
    cases hmove with
    | transition => simp [Entry.positionTarget?]
    | aim => rfl
    | correct _ _ _ hmay => exact hmay.elim
    | @request call error sentAt hcall =>
      rw [List.filterMap_append]
      cases call with
      | setPositionTargetLocalNed => cases hcall
      | _ => simp [Entry.positionTarget?]

end

section
variable {F : Type} [F32 F]

theorem sendAndComplete_gear (c : Commander F) (cmd : CorrectionCommand F) (env : Env F) :
    GearAfter c (some (env.mono 3)) (c.sendAndComplete cmd env).2 := by
  have hsend : GearAfter c (some (env.mono 3)) (c.sendCorrectionToFc cmd env).2 := by
    have htry := trySend_after c.rateLimiter (env.mono 3)
    unfold Commander.sendCorrectionToFc
    generalize c.rateLimiter.trySend (env.mono 3) = t at htry ⊢
    obtain ⟨admitted, rateLimiter⟩ := t
    cases admitted <;> exact ⟨rfl, rfl, htry⟩
  unfold Commander.sendAndComplete
  split
  case h_1 h => rwa [h] at hsend
  case h_2 h =>
    rw [h] at hsend
    exact hsend.trans (.of_same rfl rfl rfl)

theorem update_gear (c : Commander F) (targetOffset : Option (F × F)) (env : Env F) :
    GearAfter c (some (env.mono 3)) (c.update targetOffset env).2 := by
  have hfed : GearAfter c (some (env.mono 3))
      ((c.feed .inferenceLoop (env.utc 0)).feed .trackingLoop (env.utc 1)) := .of_same rfl rfl rfl
  unfold Commander.update
  dsimp only
  split
  · split
    · apply hfed.trans
      generalize (c.feed .inferenceLoop (env.utc 0)).feed .trackingLoop (env.utc 1) = fed
      have hguarded : ∀ antiLoop,
          GearAfter fed (some (env.mono 3)) { fed with antiLoop := antiLoop } :=
        fun _ => .of_same rfl rfl rfl
      unfold Commander.correct
      dsimp only
      split
      · exact (hguarded _).trans (sendAndComplete_gear _ _ env)
      · exact .of_same rfl rfl rfl
      · exact .of_same rfl rfl rfl
      · exact (hguarded _).trans (abort_gear _ env)
    · exact .of_same rfl rfl rfl
  · exact .of_same rfl rfl rfl

theorem run_gear (c : Commander F) (op : Operation F) :
    GearAfter c (op.env?.map (·.mono 3)) (op.run c).2 := by
  cases op with
  | connect env => exact connect_gear c env
  | disconnect env => exact disconnect_gear c env
  | arm env => exact requestFc_gear c _ env
  | disarm env => exact disarm_gear c env
  | startScanning => exact startScanning_gear c
  | selectTarget targetId => exact selectTarget_gear c targetId
  | update targetOffset env => exact update_gear c targetOffset env
  | processWatchdogExpiries order now => exact processWatchdogExpiries_gear c order now
  | abort env => exact abort_gear c env
  | reset => exact reset_gear c
  | setFlightMode mode env => exact requestFc_gear c _ env
  | setRoi roi env => exact requestFc_gear c _ env
  | feed id now => exact .of_same rfl rfl rfl

/-- The history has the position targets that the operations issue, and no others. -/
theorem run_targets (c : Commander F) (op : Operation F) :
    (op.run c).2.log.filterMap Entry.positionTarget? =
      c.log.filterMap Entry.positionTarget? ++
        (issuedBy c op).map fun i => (i.target, i.admittedAt) := by
  by_cases hupdate : ∃ offset env, op = .update (some offset) env
  · obtain ⟨offset, env, rfl⟩ := hupdate
    obtain ⟨added, hadded⟩ := (Operation.run_moves c (.update (some offset) env)).log_grows
    change c.log ++ added = (c.update (some offset) env).2.log at hadded
    change (c.update (some offset) env).2.log.filterMap _ = _
    simp [issuedBy, ← hadded, Function.comp_def]
  · have hno : ¬ op.Sends c := by
      cases op with
      | update targetOffset env =>
        rintro ⟨offset, _, rfl, -⟩
        exact hupdate ⟨offset, env, rfl⟩
      | _ => exact id
    have hnone : issuedBy c op = [] := by
      cases op with
      | update targetOffset env =>
        cases targetOffset with
        | none => rfl
        | some offset => exact absurd ⟨offset, env, rfl⟩ hupdate
      | _ => rfl
    rw [hnone, List.map_nil, List.append_nil]
    exact Moves.targets_eq ((Operation.run_moves c op).mono (fun _ h => h) hno)

theorem sendAndComplete_limiter (c : Commander F) (cmd : CorrectionCommand F) (env : Env F) :
    (c.sendAndComplete cmd env).2.rateLimiter = (c.rateLimiter.trySend (env.mono 3)).2 := by
  have hsend : (c.sendCorrectionToFc cmd env).2.rateLimiter =
      (c.rateLimiter.trySend (env.mono 3)).2 := by
    unfold Commander.sendCorrectionToFc
    generalize c.rateLimiter.trySend (env.mono 3) = t
    obtain ⟨admitted, rateLimiter⟩ := t
    cases admitted <;> rfl
  unfold Commander.sendAndComplete
  split
  case h_1 h => rwa [h] at hsend
  case h_2 h => rwa [h] at hsend

/-- An `update` that sends is the sending of the command that the guard allows. -/
theorem update_sends {c : Commander F} {offset : F × F} {env : Env F}
    (h : c.SendsCorrection (some offset) env) :
    ∃ cmd, (c.guarded offset env).1 = .allow cmd ∧
      (c.rateLimiter.trySend (env.mono 3)).1 = true ∧
      (c.update (some offset) env).2.rateLimiter = (c.rateLimiter.trySend (env.mono 3)).2 ∧
      (c.update (some offset) env).2.log = c.log ++ [.fc (.setPositionTargetLocalNed
        (c.positionTarget cmd env.attitude)) env.fcError (env.mono 3)] := by
  obtain ⟨_, cmd, heq, htarget, hcorrects, hallow, hadmit⟩ := h
  cases heq
  obtain ⟨target, htarget⟩ := Option.isSome_iff_exists.mp htarget
  let fed := (c.feed .inferenceLoop (env.utc 0)).feed .trackingLoop (env.utc 1)
  let guarded : Commander F := { fed with antiLoop := (c.guarded offset env).2 }
  have hupdate : c.update (some offset) env = guarded.sendAndComplete cmd env := by
    unfold Commander.update
    dsimp only
    have hfed : fed.activeTargetId = some target := htarget
    rw [show ((c.feed .inferenceLoop (env.utc 0)).feed .trackingLoop (env.utc 1)).activeTargetId =
      some target from hfed]
    dsimp only
    rw [if_pos (show fed.state.Corrects from hcorrects)]
    unfold Commander.correct
    rw [show ((c.feed .inferenceLoop (env.utc 0)).feed .trackingLoop (env.utc 1)).guarded offset env =
      (.allow cmd, (c.guarded offset env).2) from Prod.ext hallow rfl]
  have hstanding := Commander.sendAndComplete_standing guarded cmd env
  rw [if_pos (show (guarded.rateLimiter.trySend (env.mono 3)).1 = true from hadmit)] at hstanding
  refine ⟨cmd, hallow, hadmit, ?_, ?_⟩
  · rw [hupdate]
    exact sendAndComplete_limiter guarded cmd env
  · rw [hupdate]
    exact congrArg Standing.log hstanding

/-- What an operation issues: nothing, or one target for a command that the guard allows and the
limiter admits. -/
theorem issuedBy_cases (c : Commander F) (op : Operation F) :
    issuedBy c op = [] ∨ ∃ offset env cmd, op = .update (some offset) env ∧
      (c.guarded offset env).1 = .allow cmd ∧ (c.rateLimiter.trySend (env.mono 3)).1 = true ∧
      (op.run c).2.rateLimiter = (c.rateLimiter.trySend (env.mono 3)).2 ∧
      issuedBy c op = [⟨c.positionTarget cmd env.attitude, offset, env.attitude, env.mono 3⟩] := by
  by_cases hsends : op.Sends c
  · right
    cases op with
    | update targetOffset env =>
      obtain ⟨offset, cmd, rfl, hrest⟩ := hsends
      obtain ⟨cmd, hallow, hadmit, hlimiter, hlog⟩ := update_sends ⟨offset, cmd, rfl, hrest⟩
      refine ⟨offset, env, cmd, rfl, hallow, hadmit, hlimiter, ?_⟩
      simp [issuedBy, hlog, Entry.positionTarget?]
    | _ => exact hsends.elim
  · left
    have htargets := run_targets c op
    have hsame : (op.run c).2.log.filterMap Entry.positionTarget? =
        c.log.filterMap Entry.positionTarget? :=
      Moves.targets_eq ((Operation.run_moves c op).mono (fun _ h => h) hsends)
    rw [hsame] at htargets
    have hnone := List.append_right_eq_self.mp htargets.symm
    exact List.map_eq_nil_iff.mp hnone

end

theorem clamp_one_cases (x : ℚ) :
    (x < -1 ∧ F32.clamp x (F32.ofRat (-1)) (F32.ofRat 1) = -1) ∨
    (1 < x ∧ F32.clamp x (F32.ofRat (-1)) (F32.ofRat 1) = 1) ∨
    (|x| ≤ 1 ∧ F32.clamp x (F32.ofRat (-1)) (F32.ofRat 1) = x) := by
  change _ ∧ (if (1 : ℚ) < (if x < -1 then -1 else x) then 1 else if x < -1 then -1 else x) = _ ∨
    _ ∧ (if (1 : ℚ) < (if x < -1 then -1 else x) then 1 else if x < -1 then -1 else x) = _ ∨
    _ ∧ (if (1 : ℚ) < (if x < -1 then -1 else x) then 1 else if x < -1 then -1 else x) = _
  by_cases hlow : x < -1
  · left
    rw [if_pos hlow, if_neg (by norm_num)]
    exact ⟨hlow, rfl⟩
  · right
    rw [if_neg hlow]
    by_cases hhigh : 1 < x
    · left
      rw [if_pos hhigh]
      exact ⟨hhigh, rfl⟩
    · right
      rw [if_neg hhigh]
      exact ⟨abs_le.mpr ⟨not_lt.mp hlow, not_lt.mp hhigh⟩, rfl⟩

/-- The part of half the field of view that a command asks for. -/
def yawFraction (maxOffset offset : ℚ) : ℚ :=
  F32.clamp (clip offset maxOffset) (F32.ofRat (-1)) (F32.ofRat 1)

theorem abs_yawFraction_le (offset : ℚ) {maxOffset : ℚ} (h : 0 ≤ maxOffset) :
    |yawFraction maxOffset offset| ≤ min 1 maxOffset := by
  have hclip := abs_clip_le offset h
  unfold yawFraction
  rcases clamp_one_cases (clip offset maxOffset) with ⟨hlt, heq⟩ | ⟨hlt, heq⟩ | ⟨hle, heq⟩
  · rw [heq, abs_neg, abs_one]
    refine le_min le_rfl (le_trans ?_ hclip)
    have := neg_le_abs (clip offset maxOffset)
    linarith
  · rw [heq, abs_one]
    exact le_min le_rfl ((hlt.le.trans (le_abs_self _)).trans hclip)
  · rw [heq]
    exact le_min hle hclip

theorem yawFraction_side (offset : ℚ) {maxOffset : ℚ} (h : 0 ≤ maxOffset) :
    0 ≤ offset * yawFraction maxOffset offset := by
  have hclip := mul_clip_nonneg offset h
  unfold yawFraction
  rcases clamp_one_cases (clip offset maxOffset) with ⟨hlt, heq⟩ | ⟨hlt, heq⟩ | ⟨-, heq⟩
  · rw [heq]
    nlinarith
  · rw [heq]
    nlinarith
  · rw [heq]
    exact hclip

/-- What an allowed command makes of the attitude. -/
theorem positionTarget_eq {c : Commander ℚ} {offset : ℚ × ℚ} {env : Env ℚ}
    {cmd : CorrectionCommand ℚ} (h : (c.guarded offset env).1 = .allow cmd)
    (attitude : Attitude ℚ) : c.positionTarget cmd attitude = ⟨0, 0, 0,
      attitude.yaw + yawFraction c.config.maxOffsetFraction offset.1 * (c.camera.hfovRad / 2)⟩ := by
  have hexit := process_exit c.config c.antiLoop
    ⟨c.commandFor offset (env.mono 0), env.mono 1, env.mono 2⟩
  obtain ⟨-, rfl⟩ := hexit.allowed h
  rfl

/-- What holds of the position targets of a run. -/
structure CorrectionBound (t : Runs.Observed (Commander ℚ) (Issues ℚ)) : Prop where
  accounted : t.state.log.filterMap Entry.positionTarget? =
    t.view.issued.map fun i => (i.target, i.admittedAt)
  still : ∀ i ∈ t.view.issued, i.target.north = 0 ∧ i.target.east = 0 ∧ i.target.down = 0
  yaw_le : ∀ i ∈ t.view.issued, |i.target.yaw - i.attitude.yaw| ≤
    min 1 t.state.config.maxOffsetFraction * t.state.camera.hfovRad / 2
  yaw_side : ∀ i ∈ t.view.issued, 0 ≤ i.offset.1 * (i.target.yaw - i.attitude.yaw)
  minInterval : t.state.rateLimiter.minInterval = 100000000
  spaced : Spaced t.state.rateLimiter.minInterval (t.view.issued.map (·.admittedAt))

/-- The limiter's last time is behind each admission, and not ahead of the clock. -/
structure Admissions (t : Runs.Observed (Commander ℚ) (Issues ℚ)) : Prop where
  accounted : t.state.log.filterMap Entry.positionTarget? =
    t.view.issued.map fun i => (i.target, i.admittedAt)
  made : ∀ i ∈ t.view.issued, i.target = ⟨0, 0, 0, i.attitude.yaw +
    yawFraction t.state.config.maxOffsetFraction i.offset.1 * (t.state.camera.hfovRad / 2)⟩
  minInterval : t.state.rateLimiter.minInterval = 100000000
  past : ∀ last ∈ t.state.rateLimiter.lastSent, last ≤ t.view.clock
  behind : ∀ i ∈ t.view.issued, ∃ last ∈ t.state.rateLimiter.lastSent, i.admittedAt ≤ last
  spaced : Spaced 100000000 (t.view.issued.map (·.admittedAt))

/-- The reads of an operation lie between the clock before it and the clock after it. -/
theorem Forward.read {t : Runs.Observed (Commander ℚ) (Issues ℚ)} {op : Operation ℚ}
    (h : Forward t op) {env : Env ℚ} (henv : op.env? = some env) :
    t.view.clock ≤ env.mono 3 ∧ env.mono 3 ≤ env.mono 4 := by
  obtain ⟨hclock, hreads⟩ := h env henv
  refine ⟨?_, hreads 3 (by decide)⟩
  exact hclock.trans ((hreads 0 (by decide)).trans ((hreads 1 (by decide)).trans
    (hreads 2 (by decide))))

/-- The limiter only moves to a time that the operation read. -/
theorem run_lastSent (c : Commander ℚ) (op : Operation ℚ) :
    (op.run c).2.rateLimiter.lastSent = c.rateLimiter.lastSent ∨
      ∃ env, op.env? = some env ∧ (op.run c).2.rateLimiter.lastSent = some (env.mono 3) := by
  rcases (run_gear c op).limiter.lastSent with hkept | ⟨_, hread, htook⟩
  · exact .inl hkept
  · obtain ⟨env, henv, rfl⟩ := Option.map_eq_some_iff.mp hread
    exact .inr ⟨env, henv, htook⟩

section
variable {t : Runs.Observed (Commander ℚ) (Issues ℚ)} {op : Operation ℚ}

theorem Admissions.past_run (h : Admissions t) (hforward : Forward t op) :
    ∀ last ∈ (op.run t.state).2.rateLimiter.lastSent,
      last ≤ (op.env?.map (·.mono 4)).getD t.view.clock := by
  intro last hmem
  rcases run_lastSent t.state op with hkept | ⟨env, henv, htook⟩
  · rw [hkept] at hmem
    refine (h.past last hmem).trans ?_
    cases henv : op.env? with
    | none => exact le_rfl
    | some env => exact (hforward.read henv).1.trans (hforward.read henv).2
  · rw [htook] at hmem
    cases hmem
    rw [henv]
    exact (hforward.read henv).2

theorem Admissions.behind_run (h : Admissions t) (hforward : Forward t op) :
    ∀ i ∈ t.view.issued, ∃ last ∈ (op.run t.state).2.rateLimiter.lastSent, i.admittedAt ≤ last := by
  intro i hi
  obtain ⟨last, hmem, hle⟩ := h.behind i hi
  rcases run_lastSent t.state op with hkept | ⟨env, henv, htook⟩
  · exact ⟨last, hkept ▸ hmem, hle⟩
  · exact ⟨env.mono 3, by rw [htook]; rfl,
      hle.trans ((h.past last hmem).trans (hforward.read henv).1)⟩

/-- What is admitted now has its distance to all that was admitted before. -/
theorem Admissions.spaced_now (h : Admissions t) {now : ℕ} (hclock : t.view.clock ≤ now)
    (hfar : ∀ last ∈ t.state.rateLimiter.lastSent,
      t.state.rateLimiter.minInterval ≤ now - last) :
    Spaced 100000000 (t.view.issued.map (·.admittedAt) ++ [now]) := by
  rw [spaced_concat]
  refine ⟨h.spaced, fun a ha => ?_⟩
  obtain ⟨i, hi, rfl⟩ := List.mem_map.mp ha
  obtain ⟨last, hmem, hle⟩ := h.behind i hi
  have hgap := hfar last hmem
  rw [h.minInterval] at hgap
  have hnow : last ≤ now := (h.past last hmem).trans hclock
  exact (Nat.add_le_add_right hle _).trans ((Nat.le_sub_iff_add_le' hnow).mp hgap)

end

theorem Admissions.step {t t' : Runs.Observed (Commander ℚ) (Issues ℚ)} {op : Operation ℚ}
    (h : Admissions t) (hforward : Forward t op) (hstep : (issuing ℚ).step t op = some t') :
    Admissions t' := by
  obtain ⟨c, hc, rfl⟩ := Machine.observed_step hstep
  cases hc
  have hgear := run_gear t.state op
  have hpast := h.past_run hforward
  have hbehind := h.behind_run hforward
  have haccounted : (op.run t.state).2.log.filterMap Entry.positionTarget? =
      (t.view.issued ++ issuedBy t.state op).map fun i => (i.target, i.admittedAt) := by
    rw [run_targets, h.accounted, List.map_append]
  rcases issuedBy_cases t.state op with hnone | ⟨offset, env, cmd, rfl, hallow, hadmit, hlimiter, hone⟩
  · rw [hnone, List.append_nil] at haccounted
    refine ⟨?_, ?_, hgear.limiter.minInterval.trans h.minInterval, hpast, ?_, ?_⟩
    · simpa [hnone] using haccounted
    · dsimp only
      rw [hgear.config, hgear.camera, hnone, List.append_nil]
      exact h.made
    · simpa [hnone] using hbehind
    · simpa [hnone] using h.spaced
  · -- one correction goes out, at the time that the limiter took
    obtain ⟨htook, hfar⟩ := trySend_admitted hadmit
    rw [← hlimiter] at htook
    refine ⟨haccounted, ?_, hgear.limiter.minInterval.trans h.minInterval, hpast, ?_, ?_⟩
    · dsimp only
      rw [hgear.config, hgear.camera, hone]
      intro i hi
      rcases List.mem_append.mp hi with hold | hnew
      · exact h.made i hold
      · rw [List.mem_singleton.mp hnew]
        exact positionTarget_eq hallow env.attitude
    · dsimp only
      rw [hone]
      intro i hi
      rcases List.mem_append.mp hi with hold | hnew
      · exact hbehind i hold
      · rw [List.mem_singleton.mp hnew]
        exact ⟨env.mono 3, by rw [htook]; rfl, le_rfl⟩
    · dsimp only
      rw [hone, List.map_append, List.map_singleton]
      exact h.spaced_now (hforward.read rfl).1 hfar

theorem tenHertz_minInterval : (CommandRateLimiter.new 10).minInterval = 100000000 := by
  decide +kernel

theorem issuing_admissions {t : Runs.Observed (Commander ℚ) (Issues ℚ)}
    (h : (issuing ℚ).ReachableBy Forward t) : Admissions t := by
  apply h.invariant
  · rintro ⟨c, seen⟩ ⟨⟨config, env, camera, hc⟩, hseen⟩
    dsimp only at hc hseen
    rw [hc, hseen]
    exact ⟨rfl, nofun, tenHertz_minInterval, nofun, nofun, spaced_nil⟩
  · intro t op t' _ ht hforward hstep
    exact ht.step hforward hstep

/-- Every run of operations keeps the bound, for a camera and a configuration that are not
negative. -/
theorem correction_bound {t : Runs.Observed (Commander ℚ) (Issues ℚ)}
    (h : (issuing ℚ).ReachableBy Forward t) (hoffset : 0 ≤ t.state.config.maxOffsetFraction)
    (hhfov : 0 ≤ t.state.camera.hfovRad) : CorrectionBound t := by
  have hadmissions := issuing_admissions h
  have hhalf : 0 ≤ t.state.camera.hfovRad / 2 := by linarith
  refine ⟨hadmissions.accounted, fun i hi => ?_, fun i hi => ?_, fun i hi => ?_,
    hadmissions.minInterval, ?_⟩
  · rw [hadmissions.made i hi]
    exact ⟨rfl, rfl, rfl⟩
  · rw [hadmissions.made i hi]
    dsimp only
    rw [add_sub_cancel_left, abs_mul, abs_of_nonneg hhalf, mul_div_assoc]
    exact mul_le_mul_of_nonneg_right (abs_yawFraction_le i.offset.1 hoffset) hhalf
  · rw [hadmissions.made i hi]
    dsimp only
    rw [add_sub_cancel_left, ← mul_assoc]
    exact mul_nonneg (yawFraction_side i.offset.1 hoffset) hhalf
  · rw [hadmissions.minInterval]
    exact hadmissions.spaced

/-- A target on the right edge, seen every 60 milliseconds: the limiter drops the second
correction. -/
def rightEdgeRun : List (Operation ℚ) :=
  [.connect (envAt 0), .startScanning, .selectTarget 7,
    .update (some (1, 0)) (envAt (secs 1)), .update (some (1, 0)) (envAt (secs 1 + 60000000)),
    .update (some (1, 0)) { envAt (secs 1 + 120000000) with attitude := ⟨0, 1⟩ }]

theorem correction_bound_right_edge : ∃ t, CorrectionBound t ∧ t.view.issued.map (·.admittedAt) =
    [secs 1, secs 1 + 120000000] := by
  have hrun : ((issuing ℚ).exec Forward ⟨Commander.new .default (envAt 0), ⟨[], 0⟩⟩
      rightEdgeRun).map (fun t => (t.view.issued.map (·.admittedAt),
        t.state.config.maxOffsetFraction, t.state.camera.hfovRad)) =
      some ([secs 1, secs 1 + 120000000], 3 / 10, 355 / 339) := by decide +kernel
  obtain ⟨t, ht, hobs⟩ := Option.map_eq_some_iff.mp hrun
  obtain ⟨hissued, hobs⟩ := Prod.mk.inj hobs
  obtain ⟨hoffset, hhfov⟩ := Prod.mk.inj hobs
  refine ⟨t, ?_, hissued⟩
  exact correction_bound (.of_exec (.init ⟨⟨.default, envAt 0, .default, rfl⟩, rfl⟩) ht)
    (by rw [hoffset]; norm_num) (by rw [hhfov]; norm_num)

end AutoTargeting.Control
