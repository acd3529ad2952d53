import AutoTargeting.Control.Commander

namespace AutoTargeting.Control

def SystemState.Corrects (s : SystemState) : Prop := s = .tracking ∨ s = .trackingDegraded

instance : DecidablePred SystemState.Corrects := fun _ => inferInstanceAs (Decidable (_ ∨ _))

namespace Commander
variable {F : Type} [F32 F]

/-- The position target for a command: a yaw only, from the offset and the attitude. -/
def positionTarget (c : Commander F) (cmd : CorrectionCommand F) (attitude : Attitude F) :
    PositionTargetNED F :=
  let norm : FrameOffset F :=
    ⟨F32.clamp cmd.offsetX (F32.ofRat (-1)) (F32.ofRat 1),
      F32.clamp cmd.offsetY (F32.ofRat (-1)) (F32.ofRat 1)⟩
  let ned := c.camera.offsetToNedTargetWithAttitude norm attitude.pitch attitude.yaw
  ⟨F32.ofRat 0, F32.ofRat 0, F32.ofRat 0, ned.yaw⟩

/-- `send_correction_to_fc`; the call goes out when the limiter has read the clock. -/
def sendCorrectionToFc (c : Commander F) (cmd : CorrectionCommand F) (env : Env F) :
    CommanderResult × Commander F :=
  let (admitted, rateLimiter) := c.rateLimiter.trySend (env.mono 3)
  let c := { c with rateLimiter := rateLimiter }
  if !admitted then (.ok (), c)
  else c.callFc (.setPositionTargetLocalNed (c.positionTarget cmd env.attitude)) env (env.mono 3)

/-- `abort_internal`: where the RTL fails, the active target stays. -/
def abort (c : Commander F) (env : Env F) : CommanderResult × Commander F :=
  let c := c.forceTransition .abort
  let c := { c with rateLimiter := c.rateLimiter.forceSend (env.mono 3) }
  match c.callFc (.setMode .rtl) env (env.mono 3) with
  | (.error e, c) => (.error e, c)
  | (.ok (), c) => (.ok (), { c with activeTargetId := none })

/-- The end of `update`, which the early returns leave out. -/
def completeCycle (c : Commander F) (env : Env F) : Commander F :=
  { c.feed .commandLoop (env.utc 2) with lastCommandAt := some (env.mono 4) }

/-- The proportional command for an offset. -/
def commandFor (c : Commander F) (offset : F × F) (generatedAt : Instant) : CorrectionCommand F :=
  ⟨offset.1 * c.config.maxYawRateDps, offset.2 * c.config.maxPitchRateDps, offset.1, offset.2,
    generatedAt⟩

/-- What the anti-loop guard makes of the command for this offset. -/
def guarded (c : Commander F) (offset : F × F) (env : Env F) : GuardDecision F × AntiLoopState :=
  process c.config c.antiLoop (c.commandFor offset (env.mono 0)) (env.mono 1) (env.mono 2)

/-- The end of an `update` whose command the guard allows. -/
def sendAndComplete (c : Commander F) (cmd : CorrectionCommand F) (env : Env F) :
    CommanderResult × Commander F :=
  match c.sendCorrectionToFc cmd env with
  | (.error e, c) => (.error e, c)
  | (.ok (), c) => (.ok (), c.completeCycle env)

/-- The part of `update` for an active target and its offset. -/
def correct (c : Commander F) (offset : F × F) (env : Env F) : CommanderResult × Commander F :=
  let (decision, antiLoop) := c.guarded offset env
  let c := { c with antiLoop := antiLoop }
  match decision with
  | .allow clipped => c.sendAndComplete clipped env
  | .suppress => (.ok (), c.completeCycle env)
  | .degrade => (.ok (), (c.tryTransition .trackingDegraded).2.completeCycle env)
  | .abort => c.abort env

/-- `update`; the detections themselves are only logged. -/
def update (c : Commander F) (targetOffset : Option (F × F)) (env : Env F) :
    CommanderResult × Commander F :=
  let c := (c.feed .inferenceLoop (env.utc 0)).feed .trackingLoop (env.utc 1)
  match c.activeTargetId, targetOffset with
  | some _, some offset =>
    if c.state.Corrects then c.correct offset env else (.ok (), c.completeCycle env)
  | _, _ => (.ok (), c.completeCycle env)

/-- What the loop in `process_watchdog_expiries` does about one watchdog. -/
def processExpiry (c : Commander F) (expired : WatchdogId × WatchdogAction) : Commander F :=
  let c := { c with watchdogs := c.watchdogs.noteExpiryProcessed expired.1 }
  match expired.2 with
  | .degrade => if c.state = .tracking then (c.tryTransition .trackingDegraded).2 else c
  | .abort => c

def processWatchdogExpiries (c : Commander F) (order : HashOrder) (now : ℤ) :
    List (WatchdogId × WatchdogAction) × Commander F :=
  let expired := c.watchdogs.checkExpired order now
  (expired, expired.foldl processExpiry c)

def reset (c : Commander F) : CommanderResult × Commander F :=
  if c.state ≠ .abort then (.error (.invalidState c.state .abort), c)
  else
    match c.tryTransition .idle with
    | (.error e, c) => (.error e, c)
    | (.ok (), c) => (.ok (), { c with activeTargetId := none })

end Commander

end AutoTargeting.Control
