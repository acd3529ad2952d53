import AutoTargeting.Control.StateMachine
import Mathlib.Data.List.Perm.Basic

namespace AutoTargeting.Control

inductive WatchdogId
  | videoLoop
  | inferenceLoop
  | trackingLoop
  | commandLoop
  | fcHeartbeat
  deriving DecidableEq, Repr

def WatchdogId.all : List WatchdogId :=
  [.videoLoop, .inferenceLoop, .trackingLoop, .commandLoop, .fcHeartbeat]

inductive WatchdogAction
  | degrade
  | abort
  deriving DecidableEq, Repr

structure WatchdogConfig where
  timeoutMs : ℕ
  onExpiry : WatchdogAction
  deriving DecidableEq, Repr

/-- `lastFed` is the wall clock in nanoseconds. -/
structure WatchdogEntry where
  lastFed : ℤ
  config : WatchdogConfig
  expiryCount : ℕ
  feedCount : ℕ
  deriving DecidableEq, Repr

/-- Whole milliseconds from `t` to `now`, and zero where the clock went back. -/
def elapsedMs (now t : ℤ) : ℕ := ((now - t).tdiv 1000000).toNat

theorem elapsedMs_le_iff {now t : ℤ} {n : ℕ} :
    elapsedMs now t ≤ n ↔ now - t < (n + 1) * 1000000 := by
  unfold elapsedMs
  by_cases h : 0 ≤ now - t
  · rw [Int.tdiv_eq_ediv_of_nonneg h]
    omega
  · have hneg : (now - t).tdiv 1000000 = -((t - now) / 1000000) := by
      rw [← Int.tdiv_eq_ediv_of_nonneg (by omega), ← Int.neg_tdiv, Int.neg_sub]
    rw [hneg]
    omega

def WatchdogEntry.expired (now : ℤ) (e : WatchdogEntry) : Prop :=
  e.config.timeoutMs < elapsedMs now e.lastFed

instance {now : ℤ} {e : WatchdogEntry} : Decidable (e.expired now) :=
  inferInstanceAs (Decidable (_ < _))

/-- The order in which the hash map yields its keys. -/
structure HashOrder where
  ids : List WatchdogId
  perm : ids.Perm WatchdogId.all

def HashOrder.declared : HashOrder := ⟨WatchdogId.all, .refl _⟩

theorem HashOrder.mem (o : HashOrder) (id : WatchdogId) : id ∈ o.ids := by
  rw [o.perm.mem_iff]
  cases id <;> decide

abbrev WatchdogRegistry := WatchdogId → Option WatchdogEntry

namespace WatchdogRegistry

def new : WatchdogRegistry := fun _ => none

/-- The registry with another entry under `id`. -/
def insert (r : WatchdogRegistry) (id : WatchdogId) (e : Option WatchdogEntry) :
    WatchdogRegistry := fun i => if i = id then e else r i

def register (r : WatchdogRegistry) (id : WatchdogId) (config : WatchdogConfig) (now : ℤ) :
    WatchdogRegistry := r.insert id (some ⟨now, config, 0, 0⟩)

def feed (r : WatchdogRegistry) (id : WatchdogId) (now : ℤ) : WatchdogRegistry :=
  r.insert id ((r id).map fun e => { e with lastFed := now, feedCount := e.feedCount + 1 })

/-- The expired watchdogs and their actions; an expired watchdog stays so until it is fed. -/
def checkExpired (r : WatchdogRegistry) (o : HashOrder) (now : ℤ) :
    List (WatchdogId × WatchdogAction) :=
  o.ids.filterMap fun id =>
    (r id).bind fun e => if e.expired now then some (id, e.config.onExpiry) else none

def noteExpiryProcessed (r : WatchdogRegistry) (id : WatchdogId) : WatchdogRegistry :=
  r.insert id ((r id).map fun e => { e with expiryCount := e.expiryCount + 1 })

theorem mem_checkExpired {r : WatchdogRegistry} {o : HashOrder} {now : ℤ} {id : WatchdogId}
    {a : WatchdogAction} : (id, a) ∈ r.checkExpired o now ↔
      ∃ e, r id = some e ∧ e.expired now ∧ e.config.onExpiry = a := by
  unfold checkExpired
  simp only [List.mem_filterMap, Option.bind_eq_some_iff]
  constructor
  · intro h
    obtain ⟨i, -, e, he, h⟩ := h
    split at h
    case isTrue hx =>
      obtain ⟨rfl, rfl⟩ := Prod.mk.inj (Option.some.inj h)
      exact ⟨e, he, hx, rfl⟩
    case isFalse => cases h
  · intro h
    obtain ⟨e, he, hx, ha⟩ := h
    refine ⟨id, o.mem id, e, he, ?_⟩
    rw [if_pos hx, ha]

end WatchdogRegistry

end AutoTargeting.Control
