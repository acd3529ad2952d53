import AutoTargeting.Control.AntiLoop
import AutoTargeting.Control.Watchdogs
import AutoTargeting.Library.Machine

namespace AutoTargeting.Control

open Runs

/-- When a watchdog was really fed, and how far the wall clock was ahead of real time then. -/
structure Feeding where
  real : Instant
  offset : ℤ
  deriving DecidableEq, Repr

/-- A registry under two clocks: real time, which only advances, and the wall clock, which is
`offset` nanoseconds ahead of it. `fed` is the history of the feeds; the code does not read it. -/
structure Clocked where
  registry : WatchdogRegistry
  real : Instant
  offset : ℤ
  fed : WatchdogId → Option Feeding

/-- The calls of a registry that change it, and what the clocks do between them. -/
inductive ClockEvent
  | advance (duration : ℕ)
  | adjust (step : ℤ)
  | register (id : WatchdogId) (config : WatchdogConfig)
  | feed (id : WatchdogId)
  | note (id : WatchdogId)
  deriving DecidableEq, Repr

namespace Clocked

/-- The clock that the registry reads. -/
def wall (s : Clocked) : ℤ := s.real + s.offset

def step (s : Clocked) : ClockEvent → Option Clocked
  | .advance duration => some { s with real := s.real + duration }
  | .adjust step => some { s with offset := s.offset + step }
  | .register id config => some { s with
    registry := s.registry.register id config s.wall
    fed := fun i => if i = id then some ⟨s.real, s.offset⟩ else s.fed i }
  | .feed id => some { s with
    registry := s.registry.feed id s.wall
    fed := fun i => if i = id then (s.registry id).map fun _ => ⟨s.real, s.offset⟩ else s.fed i }
  | .note id => some { s with registry := s.registry.noteExpiryProcessed id }

def Reports (s : Clocked) (order : HashOrder) (id : WatchdogId) : Prop :=
  ∃ action, (id, action) ∈ s.registry.checkExpired order s.wall

/-- Has more time than its timeout passed since this watchdog was fed, in whole milliseconds? -/
def Overdue (s : Clocked) (id : WatchdogId) : Prop :=
  ∃ e f, s.registry id = some e ∧ s.fed id = some f ∧
    e.config.timeoutMs < (s.real - f.real) / 1000000

/-- Since its last feed the wall clock was not adjusted across the limit of this watchdog: by
less than what is left until then, or by no more back than what has passed since. -/
def Steady (s : Clocked) (id : WatchdogId) : Prop :=
  ∀ e f, s.registry id = some e → s.fed id = some f →
    let elapsed : ℤ := s.real - f.real
    let limit : ℤ := (e.config.timeoutMs + 1) * 1000000
    let drift := s.offset - f.offset
    (elapsed < limit → drift < limit - elapsed) ∧ (limit ≤ elapsed → limit - elapsed ≤ drift)

end Clocked

/-- Any sequence of calls, at any times and under any adjustments. -/
def clockedRun : Machine Clocked ClockEvent where
  Init s := s.registry = WatchdogRegistry.new ∧ s.fed = fun _ => none
  step := Clocked.step

/-- The history explains what the registry holds of a watchdog. -/
def Explains (entry : Option WatchdogEntry) (fed : Option Feeding) (real : Instant) : Prop :=
  match entry, fed with
  | some e, some f => e.lastFed = f.real + f.offset ∧ f.real ≤ real
  | none, none => True
  | _, _ => False

theorem explains_later {entry : Option WatchdogEntry} {fed : Option Feeding} {real : Instant}
    (h : Explains entry fed real) (duration : ℕ) : Explains entry fed (real + duration) := by
  revert h
  cases entry with
  | none => cases fed with
    | none => exact fun _ => trivial
    | some f => exact id
  | some e => cases fed with
    | none => exact id
    | some f => exact fun h => ⟨h.1, Nat.le_trans h.2 (Nat.le_add_right _ _)⟩

/-- A feed writes the same time to the registry and to the history. -/
theorem explains_fed {entry : Option WatchdogEntry} (config : WatchdogEntry → WatchdogEntry)
    (real : Instant) (offset : ℤ) (hfed : ∀ e, (config e).lastFed = real + offset) :
    Explains (entry.map config) (entry.map fun _ => ⟨real, offset⟩) real := by
  cases entry with
  | none => trivial
  | some e => exact ⟨hfed e, Nat.le_refl real⟩

theorem explains_step {s s' : Clocked} {event : ClockEvent}
    (h : ∀ id, Explains (s.registry id) (s.fed id) s.real) (hstep : clockedRun.step s event = some s')
    (id : WatchdogId) : Explains (s'.registry id) (s'.fed id) s'.real := by
  cases event with
  | advance duration =>
    cases hstep
    exact explains_later (h id) duration
  | adjust step =>
    cases hstep
    exact h id
  | register i config =>
    cases hstep
    show Explains (if id = i then _ else _) (if id = i then _ else _) s.real
    split
    · exact ⟨rfl, Nat.le_refl s.real⟩
    · exact h id
  | feed i =>
    cases hstep
    show Explains (if id = i then _ else _) (if id = i then _ else _) s.real
    split
    · exact explains_fed _ s.real s.offset fun _ => rfl
    · exact h id
  | note i =>
    cases hstep
    show Explains (if id = i then _ else _) (s.fed id) s.real
    split
    case isTrue heq =>
      have hid := h id
      rw [heq] at hid ⊢
      revert hid
      cases s.registry i with
      | none => exact fun hid => hid
      | some e => cases s.fed i <;> exact fun hid => hid
    case isFalse => exact h id

theorem clockedRun_explains {s : Clocked} (h : clockedRun.Reachable s) (id : WatchdogId) :
    Explains (s.registry id) (s.fed id) s.real := by
  refine h.invariant (I := fun s => ∀ id, Explains (s.registry id) (s.fed id) s.real) ?_ ?_ id
  · intro s hinit id
    obtain ⟨hregistry, hfed⟩ := hinit
    rw [hregistry, hfed]
    trivial
  · intro s event s' _ hs _ hstep
    exact explains_step hs hstep

theorem reports_iff {s : Clocked} {order : HashOrder} {id : WatchdogId} :
    s.Reports order id ↔ ∃ e, s.registry id = some e ∧ e.expired s.wall := by
  unfold Clocked.Reports
  constructor
  · intro h
    obtain ⟨action, hmem⟩ := h
    obtain ⟨e, he, hexpired, -⟩ := WatchdogRegistry.mem_checkExpired.mp hmem
    exact ⟨e, he, hexpired⟩
  · intro h
    obtain ⟨e, he, hexpired⟩ := h
    exact ⟨e.config.onExpiry, WatchdogRegistry.mem_checkExpired.mpr ⟨e, he, hexpired, rfl⟩⟩

/-- Whole milliseconds are over when the next one has begun. -/
theorem timeout_lt_iff {now fed timeoutMs : ℕ} (h : fed ≤ now) :
    timeoutMs < (now - fed) / 1000000 ↔ ((timeoutMs : ℤ) + 1) * 1000000 ≤ (now : ℤ) - fed := by
  omega

/-- In any state that calls and adjustments lead to, a check reports a watchdog exactly when its
real time is over, exactly if the wall clock was steady enough since its last feed. -/
theorem reports_overdue_iff_steady {s : Clocked} (h : clockedRun.Reachable s) (order : HashOrder)
    (id : WatchdogId) : (s.Reports order id ↔ s.Overdue id) ↔ s.Steady id := by
  have hexplains := clockedRun_explains h id
  rw [reports_iff]
  unfold Clocked.Overdue Clocked.Steady
  cases hentry : s.registry id with
  | none =>
    refine iff_of_true (iff_of_false ?_ ?_) nofun
    · intro hreports
      obtain ⟨e, he, -⟩ := hreports
      cases he
    · intro hoverdue
      obtain ⟨e, f, he, -⟩ := hoverdue
      cases he
  | some e =>
    cases hfed : s.fed id with
    | none =>
      rw [hentry, hfed] at hexplains
      exact hexplains.elim
    | some f =>
      rw [hentry, hfed] at hexplains
      obtain ⟨hlast, hle⟩ := hexplains
      -- the wall clock shows the real time and how far it was set since the feed
      have hexpired : e.expired s.wall ↔
          ((e.config.timeoutMs : ℤ) + 1) * 1000000 ≤ (s.real - f.real) + (s.offset - f.offset) := by
        unfold WatchdogEntry.expired
        rw [← not_le, elapsedMs_le_iff, hlast]
        unfold Clocked.wall
        omega
      have hreports : (∃ e', some e = some e' ∧ e'.expired s.wall) ↔ e.expired s.wall := by simp
      have hoverdue : (∃ e' f', some e = some e' ∧ some f = some f' ∧
          e'.config.timeoutMs < (s.real - f'.real) / 1000000) ↔
          e.config.timeoutMs < (s.real - f.real) / 1000000 := by simp
      rw [hreports, hoverdue, hexpired, timeout_lt_iff hle]
      constructor
      · intro hiff e' f' he hf
        cases he
        cases hf
        dsimp only
        omega
      · intro hsteady
        have hdrift := hsteady e f rfl rfl
        dsimp only at hdrift
        omega

/-- A watchdog of a second, ten seconds and an adjustment after it was registered. -/
theorem adjusted_reachable (step : ℤ) : ∃ s : Clocked, clockedRun.Reachable s ∧
    s.registry .fcHeartbeat = some ⟨0, ⟨1000, .abort⟩, 0, 0⟩ ∧
    s.fed .fcHeartbeat = some ⟨0, 0⟩ ∧ s.real = secs 10 ∧ s.offset = 0 + step := by
  have hstart : clockedRun.Reachable ⟨WatchdogRegistry.new, 0, 0, fun _ => none⟩ := .init ⟨rfl, rfl⟩
  have hregistered := hstart.step (e := .register .fcHeartbeat ⟨1000, .abort⟩) trivial rfl
  have hadjusted := hregistered.step (e := .adjust step) trivial rfl
  have hadvanced := hadjusted.step (e := .advance (secs 10)) trivial rfl
  exact ⟨_, hadvanced, rfl, rfl, Nat.zero_add _, rfl⟩

theorem reports_overdue_after_small_step : ∃ s : Clocked, s.offset = secs 2 ∧
    (s.Reports .declared .fcHeartbeat ↔ s.Overdue .fcHeartbeat) := by
  obtain ⟨s, hreach, hentry, hfed, hreal, hoffset⟩ := adjusted_reachable (secs 2)
  refine ⟨s, ?_, (reports_overdue_iff_steady hreach .declared .fcHeartbeat).mpr ?_⟩
  · rw [hoffset]
    rfl
  · intro e f he hf
    rw [hentry] at he
    cases he
    rw [hfed] at hf
    cases hf
    dsimp only
    rw [hreal, hoffset]
    unfold secs
    omega

/-- The wall clock goes back an hour: a watchdog that is nine seconds over is not reported. -/
theorem overdue_not_reported :
    ¬ ∀ (s : Clocked) (order : HashOrder) (id : WatchdogId), clockedRun.Reachable s →
      (s.Reports order id ↔ s.Overdue id) := by
  intro hall
  obtain ⟨s, hreach, hentry, hfed, hreal, hoffset⟩ := adjusted_reachable (-secs 3600)
  have hreports := (hall s .declared .fcHeartbeat hreach).mpr
    ⟨_, _, hentry, hfed, by rw [hreal]; decide⟩
  obtain ⟨e, he, hexpired⟩ := reports_iff.mp hreports
  rw [hentry] at he
  cases he
  have hwall : s.wall = -3590000000000 := by
    unfold Clocked.wall
    rw [hreal, hoffset]
    unfold secs
    omega
  rw [hwall] at hexpired
  revert hexpired
  decide

end AutoTargeting.Control
