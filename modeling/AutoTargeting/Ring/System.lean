import AutoTargeting.Library.Machine
import AutoTargeting.Ring.Acquire
import AutoTargeting.Ring.Publish
import AutoTargeting.Ring.Reaper
import Mathlib.Data.Multiset.Count
import Mathlib.Data.Multiset.Filter

namespace AutoTargeting.Ring

open Runs

/-- A consumer call under way in process `pid`. -/
structure Op where
  pid : ℕ
  pc : ConsumerPc
  deriving DecidableEq

/-- A live guard in process `pid`. -/
structure Hold where
  pid : ℕ
  guard : FrameGuard
  deriving DecidableEq

/-- A call of `recover_stale_slots` under way. -/
structure Reap where
  call : ReapCall
  pc : ReaperPc
  deriving DecidableEq

/-- The segment and everything that runs on it. The ring's own state is `region`; the
processes hold the rest. `orphans` has a slot once for each reference whose owner died,
`published` the calls that returned `Published`, in order. -/
structure State where
  region : Region
  producer : ProducerPc
  producerUp : Bool
  alive : ℕ → Bool
  ops : Multiset Op
  guards : Multiset Hold
  reapers : Multiset Reap
  orphans : Multiset ℕ
  published : List Publication

/-- One event is one access to the shared memory, or a process event. -/
inductive Event
  | publish (data : List UInt8) (tsNs : ℕ)
  | producerStep
  | call (pid : ℕ) (k : Call)
  | consumerStep (op : Op)
  | dropGuard (h : Hold)
  | reap (pid maxAgeNs nowNs : ℕ)
  | reaperStep (rp : Reap)
  | spawn (pid : ℕ)
  | die (pid : ℕ)
  deriving DecidableEq

namespace State

/-- A fresh segment, mapped by its producer; other processes exist already. -/
def start (alive : ℕ → Bool) : State :=
  ⟨.fresh, .idle, true, alive, 0, 0, 0, 0, []⟩

/-- The references to slot `i`: acquisitions under way, guards, and those of the dead. -/
def holds (s : State) (i : ℕ) : ℕ :=
  s.ops.countP (·.pc.holding = some i) + s.guards.countP (·.guard.slotIdx = i) +
    s.orphans.count i

/-- The calls that returned `Published`, and the one that is about to. -/
def calls (s : State) : List Publication := s.published ++ s.producer.returning

def afterProducer (s : State) (t : ProducerStep) : State :=
  { s with
    region := t.region
    producer := t.pc
    published := s.calls }

/-- The call of `op` goes on or returns; a guard that it returns is live from now on. -/
def afterConsumer (s : State) (op : Op) (t : ConsumerStep) : State :=
  match t.next with
  | .inl pc => { s with region := t.region, ops := ⟨op.pid, pc⟩ ::ₘ s.ops.erase op }
  | .inr answer =>
    { s with
      region := t.region
      ops := s.ops.erase op
      guards := match answer.guard? with
        | some g => ⟨op.pid, g⟩ ::ₘ s.guards
        | none => s.guards }

/-- A reference that the reaper takes away belonged to a dead process, or was no
orphan at all. -/
def afterReaper (s : State) (rp : Reap) (t : ReaperStep) : State :=
  { s with
    region := t.region
    reapers := match t.next with
      | .inl pc => ⟨rp.call, pc⟩ ::ₘ s.reapers.erase rp
      | .inr _ => s.reapers.erase rp
    orphans := match rp.pc.frees s.region with
      | some i => s.orphans.erase i
      | none => s.orphans }

/-- The process is gone with its stack: what it counted itself on stays counted. -/
def afterDeath (s : State) (producerPid pid : ℕ) : State :=
  { s with
    producerUp := s.producerUp && pid != producerPid
    alive := Function.update s.alive pid false
    ops := s.ops.filter (·.pid ≠ pid)
    guards := s.guards.filter (·.pid ≠ pid)
    reapers := s.reapers.filter (·.call.pid ≠ pid)
    orphans := s.orphans + (s.ops.filter (·.pid = pid)).filterMap (·.pc.holding) +
      (s.guards.filter (·.pid = pid)).map (·.guard.slotIdx) }

def step (c : CheckedConfig) (producerPid : ℕ) (s : State) : Event → Option State
  | .publish data tsNs =>
    if s.producerUp ∧ s.producer = .idle then
      match ProducerPc.enter c data tsNs with
      | .ok pc => some { s with producer := pc }
      | .error _ => some s
    else none
  | .producerStep =>
    if s.producerUp ∧ s.producer ≠ .idle then
      some (s.afterProducer (s.producer.step c s.region))
    else none
  | .call pid k => if s.alive pid then some { s with ops := ⟨pid, k.enter⟩ ::ₘ s.ops } else none
  | .consumerStep op =>
    if op ∈ s.ops then some (s.afterConsumer op (op.pc.step c op.pid s.region)) else none
  | .dropGuard h =>
    if h ∈ s.guards then
      some { s with region := s.region.dropGuard h.guard, guards := s.guards.erase h }
    else none
  | .reap pid maxAgeNs nowNs =>
    if s.alive pid then
      let dead := producerPid != 0 && !pidAlive s.alive producerPid
      some { s with reapers := ⟨⟨pid, maxAgeNs, dead, nowNs⟩, .loadRef 0 0⟩ ::ₘ s.reapers }
    else none
  | .reaperStep rp =>
    if rp ∈ s.reapers then some (s.afterReaper rp (rp.pc.step c s.alive rp.call s.region))
    else none
  | .spawn pid =>
    if s.alive pid then none else some { s with alive := Function.update s.alive pid true }
  | .die pid => if s.alive pid then some (s.afterDeath producerPid pid) else none

end State

/-- The ring of configuration `c` whose header names `producerPid`. -/
def ring (c : CheckedConfig) (producerPid : ℕ) : Machine State Event where
  Init s := ∃ alive, alive producerPid = true ∧ s = .start alive
  step := State.step c producerPid

/-- A call of `publish` and its first `steps` accesses. -/
def publishEvents (data : List UInt8) (tsNs steps : ℕ) : List Event :=
  .publish data tsNs :: List.replicate steps .producerStep

/-- A call of `latest` that nothing delays: it finds slot `idx` with count `cur` and the
frame `v`. -/
def latestEvents (pid idx cur : ℕ) (v : FrameView) : List Event :=
  let k := Caller.latest
  let a : Attempt := ⟨idx, none⟩
  .call pid .latest ::
    [.latestSeq, .loadRef k a 63, .casRef k a 63 cur, .storePid k a, .loadId k a,
      .readTs k a v.frameId, .readWidth k a v.frameId v.tsNs,
      .readHeight k a v.frameId v.tsNs v.width,
      ConsumerPc.readFormat k a v.frameId v.tsNs v.width v.height].map
        fun pc => .consumerStep ⟨pid, pc⟩

end AutoTargeting.Ring
