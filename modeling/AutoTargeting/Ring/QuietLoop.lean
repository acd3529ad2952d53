import AutoTargeting.Ring.Recorder
import Mathlib.Data.Rat.Defs

namespace AutoTargeting.Ring

open Runs

/-- Times are nanoseconds of the monotonic clock. -/
def seconds (n : ℕ) : ℕ := n * 1000000000

/-- The component, with what its loop reads of the configuration. -/
inductive Component
  | detector (throttleTempC : ℚ) (throttleEveryN : ℕ)
  | recorder (mode : ReadMode)
  deriving DecidableEq

structure QuietConfig where
  component : Component
  quietTimeout : ℕ
  maxDuration : Option ℕ
  deriving DecidableEq

namespace Component

def mode : Component → ReadMode
  | detector _ _ => .sequential
  | recorder mode => mode

end Component

/-- What `acquire` keeps, and whether the first frame was taken. -/
structure Poll where
  looping : Bool
  cursor : Cursor
  deriving DecidableEq, Repr

namespace Component

def call (k : Component) (p : Poll) : Call :=
  match k.mode with
  | .sequential => .nextAfter p.cursor.last
  | .latest => .latest

/-- With the first frame the loop begins: the detector's behind that frame, the recorder's with a
cursor of its own. -/
def answered (k : Component) (_ : Region) (a : Answer) (p : Poll) : Poll :=
  match p.cursor.acquire a with
  | (cursor, some g) =>
    if p.looping then ⟨true, cursor⟩
    else
      match k with
      | detector _ _ => ⟨true, ⟨g.view.frameId, 0, false⟩⟩
      | recorder _ => ⟨true, .start⟩
  | (cursor, none) => { p with cursor }

def loop (k : Component) : Loop Poll where
  first := ⟨false, .start⟩
  call := k.call
  answered := k.answered

end Component

/-- The detector's cache of the NPU temperature, and its count of frames at high temperature. -/
structure Thermal where
  cache : Option ℚ
  lastPoll : ℤ
  skip : ℕ
  deriving DecidableEq, Repr

namespace Thermal

/-- `thermal_poll`; `reading` is what `npu_temp_c` returns. -/
def poll (now : ℕ) (reading : Option ℚ) (t : Thermal) : Thermal :=
  if (seconds 5 : ℤ) ≤ now - t.lastPoll then { t with cache := reading, lastPoll := now } else t

/-- The throttle, and whether it skips the frame. -/
def throttle (throttleTempC : ℚ) (throttleEveryN now : ℕ) (reading : Option ℚ) (t : Thermal) :
    Thermal × Bool :=
  if 0 < throttleTempC then
    let t := t.poll now reading
    match t.cache with
    | none => (t, false)
    | some temp =>
      if throttleTempC ≤ temp then
        let skip := min (t.skip + 1) (2 ^ 32 - 1)
        ({ t with skip }, decide (skip % max throttleEveryN 1 ≠ 0))
      else (t, false)
  else (t, false)

end Thermal

inductive Outcome
  | quiet
  | maxDuration
  | noFrames
  | failed
  deriving DecidableEq, Repr

/-- Where the component is in its loop, or in `wait_first`: at the head, in `acquire`, between the
first frame and the loop, with a frame in its hand, at work on it, or asleep after it found none. -/
inductive Phase
  | head
  | polling
  | starting (id : ℕ)
  | took (id : ℕ)
  | working
  | asleep (since : ℕ)
  | ended (why : Outcome) (since : ℕ)
  deriving DecidableEq, Repr

/-- The component's own state. Three fields are for the record: the id of the frame that it counted
last, when the last frame came that it has not taken yet, and how often it passed the head of its
loop. -/
structure Runner where
  clock : ℕ
  phase : Phase
  deadline : ℕ
  startedAt : ℕ
  lastFrameAt : ℕ
  frames : ℕ
  thermal : Thermal
  pending : Option ℕ
  counted : ℕ
  arrivedAt : ℕ
  turns : ℕ
  deriving DecidableEq, Repr

namespace Runner

def first (cfg : QuietConfig) : Runner :=
  ⟨0, .head, cfg.quietTimeout, 0, 0, 0, ⟨none, 0, 0⟩, none, 0, 0, 0⟩

def limitReached (cfg : QuietConfig) (r : Runner) : Bool :=
  match cfg.maxDuration with
  | some limit => decide (limit ≤ r.clock - r.startedAt)
  | none => false

/-- `last_frame_at.elapsed() >= quiet_timeout`. -/
def quietOver (cfg : QuietConfig) (r : Runner) : Bool :=
  decide (cfg.quietTimeout ≤ r.clock - r.lastFrameAt)

def check (cfg : QuietConfig) (r : Runner) : Runner :=
  if r.limitReached cfg then { r with phase := .ended .maxDuration r.clock }
  else if r.quietOver cfg ∧ 0 < r.frames then { r with phase := .ended .quiet r.clock }
  else
    match r.pending with
    | some id => { r with phase := .took id, pending := none, turns := r.turns + 1 }
    | none => { r with phase := .polling, turns := r.turns + 1 }

/-- The loop begins; the recorder has its first frame still in its hand. -/
def start (cfg : QuietConfig) (id : ℕ) (r : Runner) : Runner :=
  { r with
    phase := .head
    startedAt := r.clock
    lastFrameAt := r.clock
    frames := 0
    thermal := ⟨none, (r.clock : ℤ) - seconds 10, 0⟩
    pending :=
      match cfg.component with
      | .detector _ _ => none
      | .recorder _ => some id }

def count (id : ℕ) (r : Runner) : Runner :=
  { r with phase := .working, lastFrameAt := r.clock, frames := r.frames + 1, counted := id }

/-- A frame was acquired: the detector may skip it. -/
def take (cfg : QuietConfig) (reading : Option ℚ) (id : ℕ) (r : Runner) : Runner :=
  match cfg.component with
  | .recorder _ => r.count id
  | .detector throttleTempC throttleEveryN =>
    let (thermal, skip) := r.thermal.throttle throttleTempC throttleEveryN r.clock reading
    let r := { r with thermal }
    if skip then { r with phase := .head } else r.count id

def sleepTime (looping : Bool) : ℕ := if looping then 1000000 else 2000000

/-- The next step of the component outside of `acquire`. It may fail on its way into the loop and at
work on a frame. -/
def turn (cfg : QuietConfig) (looping : Bool) (reading : Option ℚ) (ok : Bool) (r : Runner) :
    Option Runner :=
  match r.phase with
  | .head =>
    if looping then some (r.check cfg)
    else if r.clock < r.deadline then some { r with phase := .polling }
    else some { r with phase := .ended .noFrames r.clock }
  | .starting id => if ok then some (r.start cfg id) else some { r with phase := .ended .failed r.clock }
  | .took id => some (r.take cfg reading id)
  | .working => some { r with phase := if ok then .head else .ended .failed r.clock }
  | .asleep since =>
    if since + sleepTime looping ≤ r.clock then some { r with phase := .head } else none
  | .polling | .ended _ _ => none

/-- `acquire` hears from the ring: after the first `TooFarBehind` it asks again. -/
def answered (a : Answer) (p : Poll) (r : Runner) : Runner :=
  if r.phase = .polling then
    match p.cursor.acquire a with
    | (_, some g) =>
      { r with phase := if p.looping then .took g.view.frameId else .starting g.view.frameId }
    | (cursor, none) => if cursor.retry then r else { r with phase := .asleep r.clock }
  else r

/-- A frame was published, and the component has not taken it before. -/
def arrived (seq seq' : ℕ) (r : Runner) : Runner :=
  match r.phase with
  | .ended _ _ => r
  | _ => if seq ≠ seq' ∧ r.counted < seq' then { r with arrivedAt := r.clock } else r

end Runner

structure Timed where
  core : Observed State Poll
  run : Runner

inductive TimedEvent
  | ring (e : Event)
  | pass (d : ℕ)
  | turn (reading : Option ℚ) (ok : Bool)

namespace Timed

/-- Beside the producer only the component is at the ring, and it calls the ring where `acquire`
does, with no guard in its hand. -/
def Permits (cfg : QuietConfig) (pid : ℕ) (t : Timed) (e : Event) : Prop :=
  cfg.component.loop.Alone pid t.core e ∧
    (e = .call pid (cfg.component.call t.core.view) → t.run.phase = .polling ∧ t.core.state.guards = 0)

instance (cfg : QuietConfig) (pid : ℕ) (t : Timed) (e : Event) : Decidable (t.Permits cfg pid e) :=
  inferInstanceAs (Decidable (_ ∧ (_ → _)))

def afterRing (c : CheckedConfig) (t : Timed) (e : Event) (core : Observed State Poll) : Runner :=
  let run :=
    match t.core.state.answer c e with
    | some a => t.run.answered a t.core.view
    | none => t.run
  run.arrived t.core.state.region.writeSeq core.state.region.writeSeq

def step (c : CheckedConfig) (producerPid : ℕ) (cfg : QuietConfig) (pid : ℕ) (t : Timed) :
    TimedEvent → Option Timed
  | .ring e =>
    if t.Permits cfg pid e then
      ((cfg.component.loop.machine c producerPid).step t.core e).map fun core =>
        ⟨core, t.afterRing c e core⟩
    else none
  | .pass d => some { t with run := { t.run with clock := t.run.clock + d } }
  | .turn reading ok =>
    (t.run.turn cfg t.core.view.looping reading ok).map fun run => { t with run }

end Timed

def timed (c : CheckedConfig) (producerPid : ℕ) (cfg : QuietConfig) (pid : ℕ) :
    Machine Timed TimedEvent where
  Init t := (cfg.component.loop.machine c producerPid).Init t.core ∧ t.run = .first cfg
  step := Timed.step c producerPid cfg pid

end AutoTargeting.Ring
