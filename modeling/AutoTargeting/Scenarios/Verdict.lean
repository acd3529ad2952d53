import AutoTargeting.Control.Operations
import AutoTargeting.Scenarios.RunnerLaws

namespace AutoTargeting.Scenarios

open Control RunnerState

inductive Kpi (F : Type)
  | lockAcquisitionTimeMs (target : ℕ)
  | trackingAccuracyPercent (target : F)
  | recoveryTimeMs (target : ℕ)
  | yawCorrectionRateHz (target : ℕ)
  | watchdogTriggers (limit : ℕ)
  | lostStateTransitions (target : ℕ)
  | wrongTargetLockCount (target : ℕ)
  | oscillationEscalationToAbort (target : Bool)
  | maxConsecutiveOscillations (limit : ℕ)
  deriving DecidableEq, Repr

def KpiChecks.given {F : Type} (k : KpiChecks F) : List (Kpi F) :=
  (k.lockAcquisitionTimeMs.map .lockAcquisitionTimeMs).toList ++
  (k.trackingAccuracyPercent.map .trackingAccuracyPercent).toList ++
  (k.recoveryTimeMs.map .recoveryTimeMs).toList ++
  (k.yawCorrectionRateHz.map .yawCorrectionRateHz).toList ++
  (k.watchdogTriggers.map .watchdogTriggers).toList ++
  (k.lostStateTransitions.map .lostStateTransitions).toList ++
  (k.wrongTargetLockCount.map .wrongTargetLockCount).toList ++
  (k.oscillationEscalationToAbort.map .oscillationEscalationToAbort).toList ++
  (k.maxConsecutiveOscillations.map .maxConsecutiveOscillations).toList

/-- The two fields that the runner reads. -/
def Kpi.Enforced {F : Type} : Kpi F → Prop
  | lockAcquisitionTimeMs _ | watchdogTriggers _ => True
  | _ => False

/-- What the author of a scenario means by an event in a frame of a run, and by a target for
a KPI. The program says neither: no code names an event, or measures the other KPIs. -/
structure Meaning (F : Type) where
  occurs : ExpectedEvent → RunnerState F → ℕ → Prop
  reached : Kpi F → RunnerState F → Prop

/-- The two KPIs that the runner measures mean what it measures. -/
def Meaning.met {F : Type} (M : Meaning F) (s : RunnerState F) : Kpi F → Prop
  | .lockAcquisitionTimeMs target => ∃ actual ≤ target, s.lockAcquisitionTimeMs = some actual
  | .watchdogTriggers limit => expiries s.checks ≤ limit
  | k => M.reached k s

section
variable {F : Type} [F32 F]

/-- A check that finds a watchdog with action Abort expired. -/
def WatchdogCheck.FindsAbort (c : WatchdogCheck F) : Prop :=
  ∃ id, (id, .abort) ∈ c.before.watchdogs.checkExpired c.order c.now

/-- What the loop on the bus does about a watchdog with action Abort: it aborts and resets. -/
def WatchdogCheck.ActedUpon (c : WatchdogCheck F) : Prop :=
  ∃ env, c.after = ((c.before.processWatchdogExpiries c.order c.now).2.abort env).2.reset.2

/-- The action at place `i` was executed, in its frame and in no other. -/
def ExecutedInItsFrame (s : RunnerState F) (a : OperatorAction) (i : ℕ) : Prop :=
  ⟨a.atFrame, i, .ok ()⟩ ∈ s.executed ∧ ∀ e ∈ s.executed, e.index = i → e.frame = a.atFrame

/-- The scenario was executed and met by the run that ended in `s`. -/
structure Met (M : Meaning F) (sc : Scenario F) (s : RunnerState F) : Prop where
  actions : ∀ i (hi : i < sc.operatorActions.length),
    sc.operatorActions[i].atFrame < sc.video.durationFrames →
      ExecutedInItsFrame s sc.operatorActions[i] i
  events : ∀ e ∈ sc.expectedEvents,
    ∃ n < sc.video.durationFrames, e.atFrame.matches n = true ∧ M.occurs e s n
  kpis : ∀ k ∈ sc.kpiChecks.given, M.met s k
  expiries : ∀ c ∈ s.checks, c.FindsAbort → c.ActedUpon

/-- What a file has to look like, and how its run has to go, for a pass to mean something:
the actions of the run stand in order and are all known, nothing is expected that the runner
does not look at, and no watchdog with action Abort is overdue when the runner looks. -/
structure Covered (sc : Scenario F) (s : RunnerState F) : Prop where
  inOrder : Cursor.InOrderBelow OperatorAction.atFrame sc.operatorActions sc.video.durationFrames
  asks : ∀ a ∈ sc.operatorActions, a.atFrame < sc.video.durationFrames → a.Asks
  noEvents : sc.expectedEvents = []
  enforced : ∀ k ∈ sc.kpiChecks.given, k.Enforced
  noneOverdue : ∀ c ∈ s.checks, ∀ id e, c.before.watchdogs id = some e →
    e.config.onExpiry = .abort → ¬ e.expired c.now

omit [F32 F] in
/-- An abort goes on record, and a reset takes nothing back. -/
theorem length_log_abort_reset (c : Commander F) (env : Env F) :
    c.log.length < ((c.abort env).2.reset).2.log.length := by
  have hforced : Moves (fun _ => True) True c.standing (c.forceTransition .abort).standing :=
    c.forceAbort_moves trivial
  have hmoves : Moves (fun _ => True) True (c.abort env).2.standing
      ((c.abort env).2.reset).2.standing := (c.abort env).2.reset_moves trivial
  have hforce : c.log <+: (c.forceTransition .abort).log := hforced.log_grows
  have hreset : (c.abort env).2.log <+: ((c.abort env).2.reset).2.log := hmoves.log_grows
  have habort : (c.abort env).2.log =
      (c.forceTransition .abort).log ++ [.fc (.setMode .rtl) env.fcError (env.mono 3)] := by
    unfold Commander.abort Commander.callFc
    cases env.fcError <;> simp
  have hlen := hforce.length_le
  have hlen' := hreset.length_le
  rw [habort, List.length_append, List.length_singleton] at hlen'
  omega

variable {sc : Scenario F} {s : RunnerState F}

omit [F32 F] in
/-- The runner reacts to no expiry with an abort. -/
theorem not_actedUpon (hs : Checked s) {c : WatchdogCheck F} (hc : c ∈ s.checks) :
    ¬ c.ActedUpon := by
  rintro ⟨env, hafter⟩
  have hlonger := length_log_abort_reset (c.before.processWatchdogExpiries c.order c.now).2 env
  rw [← hafter, hs.left c hc] at hlonger
  omega

omit [F32 F] in
theorem expiries_met_iff (hs : Checked s) :
    (∀ c ∈ s.checks, c.FindsAbort → c.ActedUpon) ↔
      ∀ c ∈ s.checks, ∀ id e, c.before.watchdogs id = some e →
        e.config.onExpiry = .abort → ¬ e.expired c.now := by
  constructor
  · intro h c hc id e he habort hexpired
    apply not_actedUpon hs hc
    apply h c hc
    exact ⟨id, WatchdogRegistry.mem_checkExpired.mpr ⟨e, he, hexpired, habort⟩⟩
  · rintro h c hc ⟨id, hid⟩
    obtain ⟨e, he, hexpired, habort⟩ := WatchdogRegistry.mem_checkExpired.mp hid
    exact absurd hexpired (h c hc id e he habort)

omit [F32 F] in
/-- The actions that were executed when the cursor stands where `hidx` says. -/
theorem actions_met_iff {d : ℕ} (hs : Logged sc.operatorActions s) (hfail : s.failures = [])
    (hidx : s.actionIdx = cursor OperatorAction.atFrame sc.operatorActions d) :
    (∀ i (hi : i < sc.operatorActions.length), sc.operatorActions[i].atFrame < d →
      ExecutedInItsFrame s sc.operatorActions[i] i) ↔
    Cursor.InOrderBelow OperatorAction.atFrame sc.operatorActions d ∧
      ∀ a ∈ sc.operatorActions, a.atFrame < d → a.Asks := by
  constructor
  · intro h
    constructor
    · apply Cursor.passes_all_iff.mp
      intro i hi hd
      rw [← hidx]
      exact (hs.sound _ (h i hi hd).1).1
    · intro a ha hd
      obtain ⟨i, hi, rfl⟩ := List.getElem_of_mem ha
      exact ((hs.sound _ (h i hi hd).1).2 _ (List.getElem?_eq_getElem hi)).2
  · rintro ⟨hinOrder, hasks⟩ i hi hd
    have hpassed : i < s.actionIdx := by
      rw [hidx]
      exact Cursor.passes_all_iff.mpr hinOrder i hi hd
    have hget := List.getElem?_eq_getElem hi
    obtain ⟨result, hmem⟩ := hs.complete i hpassed _ hget (hasks _ (List.getElem_mem hi) hd)
    obtain rfl : result = .ok () := hs.succeeded hfail _ hmem
    refine ⟨hmem, ?_⟩
    intro e he hindex
    subst hindex
    exact ((hs.sound e he).2 _ hget).1

omit [F32 F] in
theorem finalFailures_eq_nil_iff : finalFailures sc s = [] ↔
    s.commander.state = parseState sc.expectedFinalState ∧
    (∀ target, sc.kpiChecks.lockAcquisitionTimeMs = some target →
      ∃ actual ≤ target, s.lockAcquisitionTimeMs = some actual) ∧
    (∀ limit, sc.kpiChecks.watchdogTriggers = some limit → s.watchdogTriggers ≤ limit) := by
  unfold finalFailures
  simp only [List.append_eq_nil_iff, and_assoc]
  apply and_congr
  · simp
  apply and_congr
  · cases sc.kpiChecks.lockAcquisitionTimeMs <;> cases s.lockAcquisitionTimeMs <;> simp
  · cases sc.kpiChecks.watchdogTriggers <;> simp

omit [F32 F] in
theorem met_of_enforced (M : Meaning F) (hs : Checked s) (h : finalFailures sc s = []) {k : Kpi F}
    (hk : k ∈ sc.kpiChecks.given) (henforced : k.Enforced) : M.met s k := by
  obtain ⟨-, hlock, htriggers⟩ := finalFailures_eq_nil_iff.mp h
  cases k with
  | lockAcquisitionTimeMs target =>
    apply hlock
    simpa [KpiChecks.given] using hk
  | watchdogTriggers limit =>
    simp only [Meaning.met, ← hs.counted]
    apply htriggers
    simpa [KpiChecks.given] using hk
  | _ => exact henforced.elim

/-- Nothing happens in a frame, and no target is reached. -/
def Meaning.nothing : Meaning F := ⟨fun _ _ _ => False, fun _ _ => False⟩

omit [F32 F] in
theorem enforced_of_met {k : Kpi F} (h : Meaning.nothing.met s k) : k.Enforced := by
  cases k with
  | lockAcquisitionTimeMs | watchdogTriggers => trivial
  | _ => exact h

theorem runScenario_eq_ok {path : String} {t : RunClocks} {r : ScenarioResult}
    (h : runScenario path sc t = .ok (r, s)) :
    r = conclude sc s ∧ Logged sc.operatorActions s ∧ Checked s ∧
      s.actionIdx = cursor OperatorAction.atFrame sc.operatorActions sc.video.durationFrames := by
  unfold runScenario at h
  split at h
  case h_1 => cases h
  case h_2 loaded hload =>
    obtain rfl : loaded = sc := by
      unfold Scenario.load at hload
      split at hload
      · cases hload
      · exact (Except.ok.inj hload).symm
    split at h
    case h_1 => cases h
    case h_2 c _ =>
      obtain ⟨rfl, rfl⟩ := Prod.mk.inj (Except.ok.inj h)
      refine ⟨rfl, ?_, ?_, ?_⟩
      · apply Logged.beforeFrame
        constructor <;> simp
      · apply Checked.beforeFrame
        constructor <;> simp [expiries]
      · exact beforeFrame_actionIdx _ rfl _

/-- A pass means that the scenario was executed and met, whatever is meant by its events and
targets, exactly where the file and the run are covered by what the runner looks at. -/
theorem pass_means_met_iff {path : String} {t : RunClocks} {r : ScenarioResult}
    (h : runScenario path sc t = .ok (r, s)) (hp : r.passed = true) :
    (∀ M : Meaning F, Met M sc s) ↔ Covered sc s := by
  obtain ⟨rfl, hlogged, hchecked, hidx⟩ := runScenario_eq_ok h
  have hclean : s.failures = [] ∧ finalFailures sc s = [] := by
    simpa [conclude] using hp
  have hactions := actions_met_iff hlogged hclean.1 hidx
  constructor
  · intro hmet
    have hnothing := hmet .nothing
    obtain ⟨hinOrder, hasks⟩ := hactions.mp hnothing.actions
    refine ⟨hinOrder, hasks, ?_, ?_, (expiries_met_iff hchecked).mp hnothing.expiries⟩
    · apply List.eq_nil_iff_forall_not_mem.mpr
      intro e he
      obtain ⟨n, -, -, hoccurs⟩ := hnothing.events e he
      exact hoccurs
    · exact fun k hk => enforced_of_met (hnothing.kpis k hk)
  · intro hc M
    refine ⟨hactions.mpr ⟨hc.inOrder, hc.asks⟩, ?_, ?_,
      (expiries_met_iff hchecked).mpr hc.noneOverdue⟩
    · simp [hc.noEvents]
    · exact fun k hk => met_of_enforced M hchecked hclean.2 hk (hc.enforced k hk)

/-- The verdict is the same whatever events a file expects, and whatever it asks of the KPIs
that the runner does not read. -/
theorem runScenario_ignores (path : String) (sc : Scenario F) (t : RunClocks)
    (events : List ExpectedEvent) (kpis : KpiChecks F)
    (hlock : kpis.lockAcquisitionTimeMs = sc.kpiChecks.lockAcquisitionTimeMs)
    (htriggers : kpis.watchdogTriggers = sc.kpiChecks.watchdogTriggers) :
    runScenario path { sc with expectedEvents := events, kpiChecks := kpis } t =
      runScenario path sc t := by
  have hframes : ∀ s n,
      beforeFrame { sc with expectedEvents := events, kpiChecks := kpis } t.frame s n =
        beforeFrame sc t.frame s n := by
    intro s n
    induction n with
    | zero => rfl
    | succ n ih =>
      rw [beforeFrame, beforeFrame, ih]
      rfl
  have hconclude : ∀ s,
      conclude { sc with expectedEvents := events, kpiChecks := kpis } s = conclude sc s := by
    intro s
    simp only [conclude, finalFailures, hlock, htriggers]
  unfold runScenario Scenario.load
  rw [show Scenario.validate { sc with expectedEvents := events, kpiChecks := kpis } =
    sc.validate from rfl]
  cases sc.validate with
  | error e => rfl
  | ok _ =>
    cases (startUp t : Except CommanderError (Commander F)) with
    | error e => rfl
    | ok c => simp only [hframes, hconclude]

end

/-- Thirty frames a second, on clocks that stand still within a frame. -/
def steadyClocks : RunClocks :=
  let at' (now : ℕ) : Clocks := ⟨fun _ => now, fun _ => now⟩
  ⟨at' 0, at' 0, at' 0, fun n =>
    let now := 33333333 * n
    ⟨fun _ => at' now, now, at' now, now, now, .declared⟩⟩

/-- Four frames of a target that crosses a small picture, and a lock within a second. -/
def crossing (actions : List OperatorAction) : Scenario ℚ where
  name := "crossing"
  video := ⟨"synthetic", 64, 48, 30, 4, none⟩
  detections := ⟨"person", 0, 9 / 10, 6, 12, []⟩
  operatorActions := actions
  expectedEvents := []
  expectedFinalState := "TRACKING"
  kpiChecks := ⟨some 1000, none, none, none, some 0, none, none, none, none⟩

theorem exists_run_of_passed {path : String} {sc : Scenario ℚ} {t : RunClocks}
    {p : RunnerState ℚ → Bool}
    (h : (runScenario path sc t).toOption.any (fun r => r.1.passed && p r.2) = true) :
    ∃ r s, runScenario path sc t = .ok (r, s) ∧ r.passed = true ∧ p s = true := by
  cases hrun : runScenario path sc t with
  | error e => simp [hrun, Except.toOption] at h
  | ok answer =>
    obtain ⟨r, s⟩ := answer
    simp only [hrun, Except.toOption, Option.any_some, Bool.and_eq_true] at h
    exact ⟨r, s, rfl, h.1, h.2⟩

/-- No watchdog with action Abort is overdue in a check. -/
def inTime (s : RunnerState ℚ) : Bool :=
  s.checks.all fun c => WatchdogId.all.all fun id => (c.before.watchdogs id).all fun e =>
    !(e.config.onExpiry = .abort ∧ e.expired c.now)

theorem noneOverdue_of_inTime {s : RunnerState ℚ} (h : inTime s = true) :
    ∀ c ∈ s.checks, ∀ id e, c.before.watchdogs id = some e →
      e.config.onExpiry = .abort → ¬ e.expired c.now := by
  intro c hc id e he habort hexpired
  have hall : id ∈ WatchdogId.all := by cases id <;> decide
  have hin := List.all_eq_true.mp (List.all_eq_true.mp h c hc) id hall
  rw [he] at hin
  simp [habort, hexpired] at hin

/-- A target selected in frame 2 is all that the file asks for. -/
theorem pass_of_one_selection : ∃ r, ∃ s : RunnerState ℚ,
    runScenario "crossing.json"
      (crossing [⟨2, "select_target", some 1⟩]) steadyClocks = .ok (r, s) ∧ r.passed = true ∧
    Covered (crossing [⟨2, "select_target", some 1⟩]) s ∧
    ∀ M : Meaning ℚ, Met M (crossing [⟨2, "select_target", some 1⟩]) s := by
  obtain ⟨r, s, hrun, hp, hinTime⟩ : ∃ r, ∃ s : RunnerState ℚ,
      runScenario "crossing.json" (crossing [⟨2, "select_target", some 1⟩]) steadyClocks =
        .ok (r, s) ∧ r.passed = true ∧ inTime s = true :=
    exists_run_of_passed (by decide +kernel)
  have hcovered : Covered (crossing [⟨2, "select_target", some 1⟩]) s := by
    refine ⟨?_, by decide, rfl, ?_, noneOverdue_of_inTime hinTime⟩
    · intro j hj _ i hi
      have hone : j < 1 := hj
      omega
    · intro k hk
      rcases List.mem_pair.mp hk with rfl | rfl <;> trivial
  exact ⟨r, s, hrun, hp, hcovered, (pass_means_met_iff hrun hp).mpr hcovered⟩

/-- An abort in frame 1 that the file lists after a selection in frame 2 is never executed:
the cursor still waits for frame 2 in frame 1, and stops at the abort for good. The state is
TRACKING to the end, and the scenario passes. -/
theorem passes_without_abort : ∃ r, ∃ s : RunnerState ℚ,
    runScenario "crossing.json"
      (crossing [⟨2, "select_target", some 1⟩, ⟨1, "abort", none⟩]) steadyClocks = .ok (r, s) ∧
    r.passed = true ∧
    ∀ M : Meaning ℚ, ¬ Met M (crossing [⟨2, "select_target", some 1⟩, ⟨1, "abort", none⟩]) s := by
  obtain ⟨r, s, hrun, hp, hexecuted⟩ : ∃ r, ∃ s : RunnerState ℚ,
      runScenario "crossing.json"
        (crossing [⟨2, "select_target", some 1⟩, ⟨1, "abort", none⟩]) steadyClocks =
        .ok (r, s) ∧ r.passed = true ∧
      (fun s : RunnerState ℚ => s.executed.all (·.index = 0)) s = true :=
    exists_run_of_passed (by decide +kernel)
  refine ⟨r, s, hrun, hp, ?_⟩
  intro M hmet
  have habort := hmet.actions 1 (by decide) (by decide)
  have hindex := List.all_eq_true.mp hexecuted _ habort.1
  simp at hindex

end AutoTargeting.Scenarios
