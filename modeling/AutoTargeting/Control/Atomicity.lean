import AutoTargeting.Control.Disarm

namespace AutoTargeting.Control

open Runs

/-- What an operation that fails should leave alone: of the watchdogs, which are registered, and
when each was last fed. -/
@[ext]
structure Observed where
  state : SystemState
  transitionCount : ℕ
  connected : Bool
  activeTargetId : Option TargetId
  lastFed : WatchdogId → Option ℤ

section
variable {F : Type} {c : Commander F} {env : Env F}

def Commander.observed (c : Commander F) : Observed :=
  ⟨c.state, c.machine.transitionCount, c.connected, c.activeTargetId,
    fun id => (c.watchdogs id).map (·.lastFed)⟩

/-- An operation that fails leaves the commander as it was observed. -/
def Atomic (c : Commander F) (t : CommanderResult × Commander F) : Prop :=
  ∀ e, t.1 = .error e → t.2.observed = c.observed

theorem Atomic.of_ok {t : CommanderResult × Commander F} (h : t.1 = .ok ()) : Atomic c t := by
  intro e he
  rw [h] at he
  cases he

theorem Atomic.of_observed {t : CommanderResult × Commander F} (h : t.2.observed = c.observed) :
    Atomic c t := fun _ _ => h

theorem callFc_atomic (c : Commander F) (call : FcCall F) (env : Env F) (sentAt : Instant) :
    Atomic c (c.callFc call env sentAt) := .of_observed rfl

/-- A refused transition changes nothing at all. -/
theorem tryTransition_error (c : Commander F) {next : SystemState} {e : CommanderError}
    {c' : Commander F} (h : c.tryTransition next = (.error e, c')) : c' = c := by
  rcases c.tryTransition_cases next with ⟨-, htry⟩ | ⟨-, -, htry⟩ | ⟨-, -, htry⟩
  · rw [htry] at h
    cases h
  · rw [htry] at h
    cases h
  · rw [htry] at h
    exact (Prod.mk.inj h).2.symm

theorem disconnect_atomic (c : Commander F) (env : Env F) : Atomic c (c.disconnect env) := by
  unfold Commander.disconnect
  rcases c.callFc_cases .disconnect env (env.mono 0) with ⟨-, hcall⟩ | ⟨e, -, hcall⟩
  · rw [hcall]
    exact .of_ok rfl
  · rw [hcall]
    exact .of_observed rfl

theorem requestFc_atomic (c : Commander F) (call : FcCall F) (env : Env F) :
    Atomic c (c.requestFc call env) := by
  unfold Commander.requestFc
  split
  · exact .of_observed rfl
  · exact callFc_atomic c call env (env.mono 0)

theorem disarm_atomic (c : Commander F) (env : Env F) : Atomic c (c.disarm env) := by
  unfold Commander.disarm
  split
  · exact .of_observed rfl
  · rcases c.callFc_cases .disarm env (env.mono 0) with ⟨-, hcall⟩ | ⟨e, -, hcall⟩
    · rw [hcall]
      exact .of_ok rfl
    · rw [hcall]
      exact .of_observed rfl

theorem startScanning_atomic (c : Commander F) : Atomic c c.startScanning := by
  unfold Commander.startScanning
  split
  case h_1 h => exact .of_observed (by rw [tryTransition_error c h])
  case h_2 => exact .of_ok rfl

/-- Only SCANNING has an edge to TARGET_SELECTED: from the other states that a selection lets
through, it is refused by the table. -/
theorem Commander.selectTarget_cases (c : Commander F) (targetId : TargetId) :
    (c.state = .scanning ∧ ∃ c', c.selectTarget targetId = (.ok (), c') ∧
      c'.state = .tracking ∧ c'.activeTargetId = some targetId) ∨
    (c.state ≠ .scanning ∧ ∃ e, c.selectTarget targetId = (.error e, c)) := by
  by_cases hscanning : c.state = .scanning
  · left
    refine ⟨hscanning, ?_⟩
    unfold Commander.selectTarget
    rw [hscanning]
    rcases c.tryTransition_cases .targetSelected with ⟨hsame, -⟩ | ⟨-, -, htry⟩ | ⟨-, hnot, -⟩
    · rw [hscanning] at hsame
      cases hsame
    · rw [htry]
      exact ⟨_, rfl, rfl, rfl⟩
    · rw [hscanning] at hnot
      cases hnot
  · right
    refine ⟨hscanning, ?_⟩
    unfold Commander.selectTarget
    -- from any other state the transition is refused, and nothing is written
    have hrefused : ∀ {s : SystemState}, c.state = s → s ≠ .targetSelected →
        isTransitionAllowed s .targetSelected = false →
        ∃ e, c.tryTransition .targetSelected = (.error e, c) := by
      intro s hs hne hnot
      rcases c.tryTransition_cases .targetSelected with ⟨hsame, -⟩ | ⟨-, hyes, -⟩ | ⟨-, -, htry⟩
      · exact absurd (hs.symm.trans hsame) hne
      · rw [hs, hnot] at hyes
        cases hyes
      · exact ⟨_, htry⟩
    split
    case h_1 h => exact absurd h hscanning
    case h_5 => exact ⟨_, rfl⟩
    all_goals
      rename_i h
      obtain ⟨e, htry⟩ := hrefused h nofun rfl
      rw [htry]
      exact ⟨e, rfl⟩

theorem selectTarget_atomic (c : Commander F) (targetId : TargetId) :
    Atomic c (c.selectTarget targetId) := by
  rcases c.selectTarget_cases targetId with ⟨-, c', hok, -⟩ | ⟨-, e, herror⟩
  · rw [hok]
    exact .of_ok rfl
  · rw [herror]
    exact .of_observed rfl

theorem reset_atomic (c : Commander F) : Atomic c c.reset := by
  unfold Commander.reset
  split
  · exact .of_observed rfl
  · split
    case h_1 h => exact .of_observed (by rw [tryTransition_error c h])
    case h_2 => exact .of_ok rfl

/-- The flight controller takes the connection, and the transition to ARMED is refused: by then
the commander counts as connected, and its heartbeat watchdog is a new one. -/
def HalfConnects (c : Commander F) (env : Env F) : Prop :=
  env.fcError = none ∧ c.state ≠ .idle ∧ c.state ≠ .armed ∧
    ¬ (c.connected = true ∧ (c.watchdogs .fcHeartbeat).map (·.lastFed) = some (env.utc 0))

/-- The commander in `connect` once the flight controller has answered. -/
def Commander.connecting (c : Commander F) (env : Env F) : Commander F :=
  { c.called .connect none (env.mono 0) with
    connected := true
    watchdogs := c.watchdogs.register .fcHeartbeat
      ⟨max c.config.fcHeartbeatWdtMs 1000, .abort⟩ (env.utc 0) }

theorem connecting_observed (c : Commander F) (env : Env F) :
    (c.connecting env).observed = c.observed ↔
      c.connected = true ∧ (c.watchdogs .fcHeartbeat).map (·.lastFed) = some (env.utc 0) := by
  constructor
  · intro h
    exact ⟨(congrArg Observed.connected h).symm,
      (congrFun (congrArg Observed.lastFed h) .fcHeartbeat).symm⟩
  · intro h
    obtain ⟨hconnected, hfed⟩ := h
    ext : 1
    · rfl
    · rfl
    · exact hconnected.symm
    · rfl
    · funext id
      by_cases hid : id = .fcHeartbeat
      · rw [hid]
        exact hfed.symm
      · have hother : (c.connecting env).watchdogs id = c.watchdogs id := if_neg hid
        exact congrArg (Option.map (·.lastFed)) hother

theorem connect_eq (c : Commander F) (env : Env F) (h : env.fcError = none) :
    c.connect env = (c.connecting env).tryTransition .armed := by
  unfold Commander.connect
  rcases c.callFc_cases .connect env (env.mono 0) with ⟨-, hcall⟩ | ⟨e, he, -⟩
  · rw [hcall]
    rfl
  · rw [h] at he
    cases he

theorem connect_atomic_iff (c : Commander F) (env : Env F) :
    Atomic c (c.connect env) ↔ ¬ HalfConnects c env := by
  unfold HalfConnects
  cases hfc : env.fcError with
  | some e =>
    refine iff_of_true ?_ (fun h => nomatch h.1)
    unfold Commander.connect Commander.callFc
    rw [hfc]
    exact .of_observed rfl
  | none =>
    rw [connect_eq c env hfc]
    rcases (c.connecting env).tryTransition_cases .armed with
      ⟨hsame, htry⟩ | ⟨-, hallowed, htry⟩ | ⟨hne, hnot, htry⟩
    · rw [htry]
      exact iff_of_true (.of_ok rfl) fun h => h.2.2.1 hsame
    · rw [htry]
      refine iff_of_true (.of_ok rfl) fun h => h.2.1 ?_
      have hedge : isTransitionAllowed c.state .armed = true := hallowed
      revert hedge
      cases c.state <;> decide
    · rw [htry]
      -- refused, with the adapter connected: half of the request is done
      have hidle : c.state ≠ .idle := by
        intro hidle
        have hedge : isTransitionAllowed c.state .armed = false := hnot
        rw [hidle] at hedge
        cases hedge
      have herror : Atomic c (.error (.stateTransition ⟨(c.connecting env).state, .armed⟩),
          c.connecting env) ↔ (c.connecting env).observed = c.observed :=
        ⟨fun h => h _ rfl, fun h => .of_observed h⟩
      rw [herror, connecting_observed]
      constructor
      · intro h hhalf
        exact hhalf.2.2.2 h
      · intro h
        by_contra hnot'
        exact h ⟨rfl, hidle, hne, hnot'⟩

end

namespace Operation
variable {F : Type} [F32 F]

/-- The operations that an operator asks for and that can fail. -/
def IsRequest : Operation F → Prop
  | connect _ | disconnect _ | arm _ | disarm _ | startScanning | selectTarget _
  | setFlightMode _ _ | setRoi _ _ | reset => True
  | update _ _ | processWatchdogExpiries _ _ | abort _ | feed _ _ => False

def HalfDone (c : Commander F) : Operation F → Prop
  | connect env => HalfConnects c env
  | _ => False

/-- A request that fails is atomic, except for a `connect` that gets as far as the flight
controller. -/
theorem failed_request_atomic_iff (c : Commander F) (op : Operation F) (hop : op.IsRequest) :
    Atomic c (op.run c) ↔ ¬ op.HalfDone c := by
  cases op with
  | connect env => exact connect_atomic_iff c env
  | disconnect env => exact iff_of_true (disconnect_atomic c env) id
  | arm env => exact iff_of_true (requestFc_atomic c .arm env) id
  | disarm env => exact iff_of_true (disarm_atomic c env) id
  | startScanning => exact iff_of_true (startScanning_atomic c) id
  | selectTarget targetId => exact iff_of_true (selectTarget_atomic c targetId) id
  | setFlightMode mode env => exact iff_of_true (requestFc_atomic c (.setMode mode) env) id
  | setRoi roi env => exact iff_of_true (requestFc_atomic c (.setRoi roi) env) id
  | reset => exact iff_of_true (reset_atomic c) id
  | update | processWatchdogExpiries | abort | feed => exact hop.elim

/-- The start of a scan in IDLE. -/
theorem scanning_refused_in_idle :
    Atomic (Commander.new .default (envAt 0)) (Commander.new .default (envAt 0)).startScanning ∧
      (Commander.new .default (envAt 0)).startScanning.1 =
        .error (.stateTransition ⟨.idle, .scanning⟩) :=
  ⟨(failed_request_atomic_iff (Commander.new .default (envAt 0)) .startScanning trivial).mpr id, rfl⟩

/-- A reconnect while scanning fails, and leaves the commander connected. -/
theorem half_done_reconnect :
    ¬ ∀ (c : Commander ℚ) (op : Operation ℚ), (machine ℚ).Reachable c → op.IsRequest →
      Atomic c (op.run c) := by
  intro hall
  have hrun : ((machine ℚ).exec (fun _ _ => True) (Commander.new .default (envAt 0))
      [.connect (envAt 0), .startScanning, .disconnect (envAt 0)]).map
      (fun c => (c.connected, (c.connect (envAt 0)).1, (c.connect (envAt 0)).2.connected)) =
      some (false, .error (.stateTransition ⟨.scanning, .armed⟩), true) := rfl
  obtain ⟨c, hc, hobs⟩ := Option.map_eq_some_iff.mp hrun
  obtain ⟨hbefore, hafter⟩ := Prod.mk.inj hobs
  obtain ⟨herror, hafter⟩ := Prod.mk.inj hafter
  have hsame := hall c (.connect (envAt 0)) (.of_exec (.init ⟨.default, envAt 0, .default, rfl⟩) hc)
    trivial _ herror
  have hconnected : (c.connect (envAt 0)).2.connected = c.connected :=
    congrArg Observed.connected hsame
  rw [hbefore, hafter] at hconnected
  cases hconnected

end Operation

end AutoTargeting.Control
