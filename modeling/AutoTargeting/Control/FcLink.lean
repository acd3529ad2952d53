import AutoTargeting.Control.FailSafe

namespace AutoTargeting.Control

open Runs

def modeToU8 : FlightMode → ℕ
  | .unknown => 255
  | .manual => 0
  | .stabilize => 2
  | .auto => 10
  | .rtl => 11
  | .loiter => 12
  | .guided => 15
  | .altHold => 17

/-- What the adapter keeps of the last HEARTBEAT. -/
structure TelemetryCache where
  lastHeartbeat : ℤ
  armed : Bool
  mode : FlightMode
  deriving DecidableEq, Repr

/-- Before the first heartbeat the cache claims one of a minute ago. -/
def TelemetryCache.fresh (now : ℤ) : TelemetryCache := ⟨now - secs 60, false, .unknown⟩

def TelemetryCache.isStale (c : TelemetryCache) (timeoutMs : ℕ) (now : ℤ) : Bool :=
  timeoutMs < elapsedMs now c.lastHeartbeat

/-- The fields of a sample that the heartbeat reaches. -/
structure TelemetrySample where
  tMs : ℤ
  mode : ℕ
  deriving DecidableEq, Repr

inductive FcEvent
  | link (alive : Bool)
  | armed (armed : Bool)
  | modeChange (mode : FlightMode)
  deriving DecidableEq, Repr

def FcEvent.kind : FcEvent → String
  | link true => "link_up"
  | link false => "link_down"
  | armed _ => "armed"
  | modeChange _ => "mode_change"

structure BridgeConfig where
  telemetryHz : ℕ
  heartbeatTimeoutMs : ℕ
  deriving DecidableEq, Repr

def BridgeConfig.default : BridgeConfig := ⟨10, 2000⟩

def BridgeConfig.periodMs (cfg : BridgeConfig) : ℕ := 1000 / max cfg.telemetryHz 1

def millis (n : ℕ) : ℕ := n * 1000000

/-- The variables of the loop of `FcBridge::run`, and the events it published. -/
structure FcBridge where
  lastTele : Instant
  prevAlive : Option Bool
  prevArmed : Option Bool
  prevMode : Option FlightMode
  telemetryPublished : ℕ
  events : List FcEvent
  deriving DecidableEq, Repr

/-- The event of an edge, if the value is another one than last time. -/
def edge {α : Type} [DecidableEq α] (prev : Option α) (now : α) (event : FcEvent) : List FcEvent :=
  if prev = some now then [] else [event]

/-- One turn of the loop of `FcBridge::run`: a sample goes out whether or not the heartbeat is
stale, which only the edge event tells. -/
def FcBridge.turn (cfg : BridgeConfig) (cache : TelemetryCache) (b : FcBridge) (now : Instant)
    (delivered : Bool) : FcBridge × List TelemetrySample :=
  if millis cfg.periodMs ≤ now - b.lastTele then
    let alive := !cache.isStale cfg.heartbeatTimeoutMs now
    ({ lastTele := now
       prevAlive := some alive
       prevArmed := some cache.armed
       prevMode := some cache.mode
       telemetryPublished := if delivered then b.telemetryPublished + 1 else b.telemetryPublished
       events := b.events ++ edge b.prevAlive alive (.link alive) ++
         edge b.prevArmed cache.armed (.armed cache.armed) ++
         edge b.prevMode cache.mode (.modeChange cache.mode) },
      if delivered then [⟨(now : ℤ) / 1000000, modeToU8 cache.mode⟩] else [])
  else (b, [])

def Entry.correctedAt? {F : Type} : Entry F → Option Instant
  | fc call _ sentAt => if call.isCorrection then some sentAt else none
  | transition _ _ => none

/-- The adapter, the bridge, the bus between them and the commander, and the commander's loop.
`heard` is the last heartbeat received, `checkedAt` the last check of the watchdogs, and
`ledger` has each correction's time with what was heard by then; none of them is read. -/
structure Link (F : Type) where
  cache : TelemetryCache
  bridge : FcBridge
  queue : List TelemetrySample
  bus : Option (BusState F)
  heard : Option ℤ
  checkedAt : ℤ
  ledger : List (Instant × Option ℤ)

/-- The events of the whole chain. The bus keeps the order of the samples and may lose some. -/
inductive LinkEvent (F : Type)
  | heartbeat (at_ : ℤ) (armed : Bool) (mode : FlightMode)
  | bridgeTurn (now : Instant) (delivered : Bool)
  | lose
  | begin (newEnv : Env F) (camera : CameraParams F) (env : Env F)
      (started lastStatus loopStart : Instant)
  | turn (t : Tick F)

structure LinkConfig (F : Type) where
  commander : CommanderConfig F
  bus : CommanderBusConfig
  bridge : BridgeConfig

section
variable {F : Type}

def newCorrections (b b' : BusState F) : List Instant :=
  (b'.commander.log.drop b.commander.log.length).filterMap Entry.correctedAt?

variable [F32 F]

def Link.step (cfg : LinkConfig F) (s : Link F) : LinkEvent F → Option (Link F)
  | .heartbeat at_ armed mode =>
    some { s with cache := ⟨at_, armed, mode⟩, heard := some at_ }
  | .bridgeTurn now delivered =>
    let t := s.bridge.turn cfg.bridge s.cache now delivered
    some { s with bridge := t.1, queue := s.queue ++ t.2 }
  | .lose => some { s with queue := s.queue.tail }
  | .begin newEnv camera env started lastStatus loopStart =>
    match s.bus, Control.begin ((Commander.new cfg.commander newEnv).withCameraParams camera) env
      started lastStatus with
    | none, .ok b => some { s with bus := some b, checkedAt := loopStart }
    | _, _ => none
  | .turn t =>
    match s.bus with
    | none => none
    | some b =>
      if t.telemetry.isSome ∧ s.queue = [] then none
      else
        (b.step cfg.bus t).map fun b' => { s with
          queue := if t.telemetry.isSome then s.queue.tail else s.queue
          bus := some b'
          checkedAt := t.checked
          ledger := s.ledger ++ (newCorrections b b').map (·, s.heard) }

/-- The chain from the adapter to the commander, before the first heartbeat. -/
def fcLink (cfg : LinkConfig F) : Machine (Link F) (LinkEvent F) where
  Init s := ∃ now : Instant, s = ⟨.fresh now, ⟨now - millis cfg.bridge.periodMs, none, none, none, 0, []⟩,
    [], none, none, now, []⟩
  step := Link.step cfg

end

section
variable {F : Type}

/-- One clock for all, on which heartbeats come in order, the loop starts within the shortest
timeout after `connect`, and no two checks of the watchdogs are further apart than a tick. -/
def Regular (tickMs : ℕ) (s : Link F) : LinkEvent F → Prop
  | .heartbeat at_ _ _ => ∀ heard ∈ s.heard, heard ≤ at_
  | .begin _ _ env _ _ loopStart => elapsedMs loopStart (env.utc 0) ≤ 1000
  | .turn t => t.checked ≤ s.checkedAt + millis tickMs ∧
      ∀ r ∈ t.tracks, (r.env.mono 3 : ℤ) ≤ t.checked
  | .bridgeTurn _ _ | .lose => True

/-- The heartbeat watchdog is fed at most a telemetry period after the last heartbeat. -/
def Fresh (cfg : BridgeConfig) (s : Link F) : LinkEvent F → Prop
  | .begin _ _ env _ _ _ => ∃ heard ∈ s.heard, env.utc 0 ≤ heard + millis cfg.periodMs
  | .turn t => ∀ fedAt ∈ t.telemetry, ∃ heard ∈ s.heard, fedAt ≤ heard + millis cfg.periodMs
  | .heartbeat _ _ _ | .bridgeTurn _ _ | .lose => True

instance (tickMs : ℕ) (s : Link F) : DecidablePred (Regular tickMs s)
  | .heartbeat at_ _ _ => inferInstanceAs (Decidable (∀ heard ∈ s.heard, heard ≤ at_))
  | .begin _ _ _ _ _ _ => inferInstanceAs (Decidable (_ ≤ 1000))
  | .turn _ => inferInstanceAs (Decidable (_ ∧ _))
  | .bridgeTurn _ _ | .lose => inferInstanceAs (Decidable True)

instance (cfg : BridgeConfig) (s : Link F) : DecidablePred (Fresh cfg s)
  | .begin _ _ env _ _ _ => inferInstanceAs
      (Decidable (∃ heard ∈ s.heard, env.utc 0 ≤ heard + millis cfg.periodMs))
  | .turn t => inferInstanceAs (Decidable
      (∀ fedAt ∈ t.telemetry, ∃ heard ∈ s.heard, fedAt ≤ heard + millis cfg.periodMs))
  | .heartbeat _ _ _ | .bridgeTurn _ _ | .lose => inferInstanceAs (Decidable True)

end

end AutoTargeting.Control
