import AutoTargeting.Ring.TornRead

namespace AutoTargeting.Ring

open Runs

/-- `try_acquire` where nothing else runs. -/
def acquire (c : CheckedConfig) (pid : ℕ) (r : Region) (slotIdx : ℕ) (expectedId : Option ℕ) :
    Region × Acquired :=
  let idx := slotIdx % c.capacity
  let m := r.slot idx
  if m.refCount = writerLock then (r, .busy)
  else
    let taken := (r.setRef idx (m.refCount + 1)).modifySlot idx fun m => { m with holderPid := pid }
    let got : Region × Acquired :=
      (taken, .got ⟨idx, ⟨m.frameId, m.tsNs, m.width, m.height, m.format⟩⟩)
    match expectedId with
    | none => got
    | some want =>
      if m.frameId ≠ want then
        (taken.setRef idx (fetchSub (taken.slot idx).refCount), .mismatch m.frameId)
      else got

/-- `FrameConsumer::latest` where nothing else runs. -/
def latest (c : CheckedConfig) (pid : ℕ) (r : Region) : Region × Option FrameGuard :=
  if r.writeSeq = 0 then (r, none)
  else
    match acquire c pid r (r.writeSeq % c.capacity) none with
    | (r', .got g) => (r', some g)
    | (r', .busy) | (r', .mismatch _) => (r', none)

/-- One turn of the loop of `next_after`; `again` is the rest of the loop. -/
def nextTurn (c : CheckedConfig) (pid lastId : ℕ) (r : Region)
    (again : Region → Region × NextStep) : Region × NextStep :=
  if r.writeSeq = 0 then (r, .upToDate)
  else if r.writeSeq < wanted lastId then (r, .upToDate)
  else if c.capacity ≤ r.writeSeq - wanted lastId then (r, .tooFarBehind lastId r.writeSeq)
  else
    match acquire c pid r (wanted lastId % c.capacity) (some (wanted lastId)) with
    | (r', .got g) => (r', .frame g)
    | (r', .busy) | (r', .mismatch _) => again r'

def nextTurns (c : CheckedConfig) (pid lastId : ℕ) : ℕ → Region → Region × NextStep
  | 0, r => nextTurn c pid lastId r fun r' => (r', .upToDate)
  | n + 1, r => nextTurn c pid lastId r (nextTurns c pid lastId n)

/-- `FrameConsumer::next_after` where nothing else runs. -/
def nextAfter (c : CheckedConfig) (pid : ℕ) (r : Region) (lastId : ℕ) : Region × NextStep :=
  nextTurns c pid lastId (acquireSpins * 4 - 1) r

/-- The ring between two operations, with what happened to it so far: `tried` calls of
`publish` had a frame of the right size, `dropped` of them returned `Dropped`, and
`overflowed` of them ran out of frame ids. -/
structure Quiet where
  region : Region
  guards : Multiset Hold
  published : List Publication
  tried : ℕ
  dropped : ℕ
  overflowed : ℕ

inductive Operation
  | publish (data : List UInt8) (tsNs : ℕ)
  | latest (pid : ℕ)
  | nextAfter (pid lastId : ℕ)
  | dropGuard (h : Hold)
  deriving DecidableEq

namespace Quiet

def start : Quiet := ⟨.fresh, 0, [], 0, 0, 0⟩

/-- A guard that a call returned is live from now on. -/
def taking (q : Quiet) (pid : ℕ) (r : Region) (g : Option FrameGuard) : Quiet :=
  { q with
    region := r
    guards := match g with
      | some g => ⟨pid, g⟩ ::ₘ q.guards
      | none => q.guards }

/-- What a call of `publish` with this result leaves on record. -/
def record (q : Quiet) (data : List UInt8) (tsNs : ℕ) (r : Region) :
    Except RingError PublishResult → Quiet
  | .ok (.published id) =>
    { q with region := r, published := q.published ++ [⟨id, data, tsNs⟩] }
  | .ok (.dropped _) => { q with region := r, dropped := q.dropped + 1 }
  | .error (.invalidFrameSize _ _) => { q with region := r }
  | .error _ => { q with region := r, overflowed := q.overflowed + 1 }

def publishing (c : CheckedConfig) (q : Quiet) (data : List UInt8) (tsNs : ℕ) : Quiet :=
  let t := publish c q.region data tsNs
  { q.record data tsNs t.1 t.2 with
    tried := q.tried + if data.length = c.frameSize then 1 else 0 }

def step (c : CheckedConfig) (q : Quiet) : Operation → Option Quiet
  | .publish data tsNs => some (q.publishing c data tsNs)
  | .latest pid =>
    let t := Ring.latest c pid q.region
    some (q.taking pid t.1 t.2)
  | .nextAfter pid lastId =>
    let t := Ring.nextAfter c pid q.region lastId
    some (q.taking pid t.1 (Answer.next t.2).guard?)
  | .dropGuard h =>
    if h ∈ q.guards then
      some { q with region := q.region.dropGuard h.guard, guards := q.guards.erase h }
    else none

/-- The same moment in the interleaved ring: nothing is under way. -/
def state (q : Quiet) : State :=
  ⟨q.region, .idle, true, fun _ => true, 0, q.guards, 0, 0, q.published⟩

end Quiet

/-- The ring under a sequence of operations, one after the other. -/
def operations (c : CheckedConfig) : Machine Quiet Operation where
  Init q := q = .start
  step := Quiet.step c

variable {c : CheckedConfig} {producerPid : ℕ}

/-- A consumer that runs alone, from one access to the next. -/
def Alone (c : CheckedConfig) (pid : ℕ) :
    Region × (ConsumerPc ⊕ Answer) → Region × (ConsumerPc ⊕ Answer) → Prop :=
  Relation.ReflTransGen fun x y =>
    ∃ pc, x.2 = .inl pc ∧ y = ((pc.step c pid x.1).region, (pc.step c pid x.1).next)

theorem Alone.step {pid : ℕ} {r : Region} {pc : ConsumerPc} {z : ConsumerPc ⊕ Answer}
    (r' : Region) (y : ConsumerPc ⊕ Answer) (h : pc.step c pid r = ⟨r', y⟩) {r'' : Region} (ht : Alone c pid (r', y) (r'', z)) :
    Alone c pid (r, .inl pc) (r'', z) := by
  refine .head ⟨pc, rfl, ?_⟩ ht
  rw [h]

/-- Where a call that runs alone stands in the whole system. -/
def Quiet.during (q : Quiet) (pid : ℕ) : Region × (ConsumerPc ⊕ Answer) → State
  | (r, .inl pc) => { q.state with region := r, ops := {⟨pid, pc⟩} }
  | (r, .inr answer) => (q.taking pid r answer.guard?).state

theorem alone_run {q : Quiet} {pid : ℕ} {x y : Region × (ConsumerPc ⊕ Answer)}
    (h : Alone c pid x y) :
    (ring c producerPid).RunBy Undisturbed (q.during pid x) (q.during pid y) := by
  refine Relation.ReflTransGen.lift (q.during pid) ?_ _ _ h
  rintro ⟨r, x⟩ _ ⟨pc, hx, rfl⟩
  cases hx
  refine ⟨.consumerStep ⟨pid, pc⟩, trivial, ?_⟩
  simp only [ring, State.step, Quiet.during, Multiset.mem_singleton, if_true, Option.some.injEq]
  unfold State.afterConsumer
  rcases (pc.step c pid r).next with pc' | answer
  · simp [Quiet.state]
  · rcases hg : answer.guard? <;> simp [Quiet.state, Quiet.taking, hg]

end AutoTargeting.Ring
