import AutoTargeting.Library.Cursor
import AutoTargeting.Scenarios.Runner

namespace AutoTargeting.Scenarios

open Control

/-- The actions for which the runner has a command to give. -/
def OperatorAction.Asks (a : OperatorAction) : Prop :=
  a.action = "abort" ∨ a.action = "scan" ∨ a.action = "select_target" ∧ a.targetId.isSome

instance : DecidablePred OperatorAction.Asks := fun _ => inferInstanceAs (Decidable (_ ∨ _))

namespace RunnerState
variable {F : Type} [F32 F] {actions : List OperatorAction} {s : RunnerState F} {n : ℕ}

omit [F32 F] in
theorem command_isSome_iff {c : Commander F} {a : OperatorAction} {env : Env F} :
    (command c a env).isSome ↔ a.Asks := by
  unfold command OperatorAction.Asks
  split
  case h_1 h => simp [h]
  case h_2 h => simp [h]
  case h_3 h => simp [h]
  case h_4 hselect habort hscan =>
    apply iff_of_false (by simp)
    rintro (h | h | h)
    · exact habort h
    · exact hscan h
    · exact hselect h.1

/-- The history of a run tells which actions were executed: those that the cursor has passed
and that ask for something, each in the frame it names, and without an error where no failure
is on record. -/
structure Logged (actions : List OperatorAction) (s : RunnerState F) : Prop where
  sound : ∀ e ∈ s.executed, e.index < s.actionIdx ∧
    ∀ a, actions[e.index]? = some a → e.frame = a.atFrame ∧ a.Asks
  complete : ∀ i < s.actionIdx, ∀ a, actions[i]? = some a → a.Asks →
    ∃ result, ⟨a.atFrame, i, result⟩ ∈ s.executed
  succeeded : s.failures = [] → ∀ e ∈ s.executed, e.result = .ok ()

/-- What one turn of the `while` loop does to the history. -/
theorem act_cases (s : RunnerState F) (a : OperatorAction) (t : Clocks) :
    (s.act n a t).actionIdx = s.actionIdx + 1 ∧
    (¬ a.Asks ∧ (s.act n a t).executed = s.executed ∧ (s.act n a t).failures = s.failures ∨
      a.Asks ∧ ∃ result, (s.act n a t).executed = s.executed ++ [⟨n, s.actionIdx, result⟩] ∧
        ((s.act n a t).failures = [] → s.failures = [] ∧ result = .ok ())) := by
  have hasks : (command s.commander a t.env).isSome ↔ a.Asks := command_isSome_iff
  unfold act
  cases hc : command s.commander a t.env with
  | none =>
    rw [hc] at hasks
    simp only [Option.isSome_none, Bool.false_eq_true, false_iff] at hasks
    by_cases hk : a.action ∈ known
    · simp [hk, hasks]
    · simp [hk, hasks]
  | some answer =>
    obtain ⟨result, c⟩ := answer
    rw [hc] at hasks
    have hyes : a.Asks := hasks.mp rfl
    cases result with
    | error e => simp [fail, hyes]
    | ok _ =>
      by_cases hselect : a.action = "select_target"
      · simp [hselect, hyes]
      · simp [hselect, hyes]

theorem Logged.act {a : OperatorAction} {t : Clocks} (h : Logged actions s)
    (ha : actions[s.actionIdx]? = some a) (hn : a.atFrame = n) :
    Logged actions (s.act n a t) := by
  obtain ⟨hidx, hcases⟩ := act_cases s a t (n := n)
  constructor
  · -- what is in the history was asked for
    intro e he
    rw [hidx]
    have hold : e ∈ s.executed → e.index < s.actionIdx + 1 ∧
        ∀ a, actions[e.index]? = some a → e.frame = a.atFrame ∧ a.Asks := by
      intro hmem
      have hsound := h.sound e hmem
      exact ⟨by omega, hsound.2⟩
    rcases hcases with ⟨-, hexec, -⟩ | ⟨hasks, result, hexec, -⟩
    · rw [hexec] at he
      exact hold he
    · rw [hexec, List.mem_append, List.mem_singleton] at he
      rcases he with he | rfl
      · exact hold he
      · apply And.intro (Nat.lt_succ_self _)
        intro b hb
        obtain rfl : a = b := Option.some.inj (ha.symm.trans hb)
        exact ⟨hn.symm, hasks⟩
  · -- what was asked for is in the history
    intro i hi b hb hasks
    rw [hidx] at hi
    by_cases hlast : i = s.actionIdx
    · subst hlast
      obtain rfl : a = b := Option.some.inj (ha.symm.trans hb)
      rcases hcases with ⟨hnot, -, -⟩ | ⟨-, result, hexec, -⟩
      · exact absurd hasks hnot
      · refine ⟨result, ?_⟩
        rw [hexec, hn]
        simp
    · obtain ⟨result, hmem⟩ := h.complete i (by omega) b hb hasks
      refine ⟨result, ?_⟩
      rcases hcases with ⟨-, hexec, -⟩ | ⟨-, _, hexec, -⟩
      · rwa [hexec]
      · rw [hexec]
        exact List.mem_append_left _ hmem
  · intro hfail e he
    rcases hcases with ⟨-, hexec, hsame⟩ | ⟨-, result, hexec, hclean⟩
    · rw [hexec] at he
      rw [hsame] at hfail
      exact h.succeeded hfail e he
    · obtain ⟨hbefore, hok⟩ := hclean hfail
      rw [hexec, List.mem_append, List.mem_singleton] at he
      rcases he with he | rfl
      · exact h.succeeded hbefore e he
      · exact hok

theorem runActions_actionIdx (t : ℕ → Clocks) (rest : List OperatorAction) (s : RunnerState F) :
    (runActions n t rest s).actionIdx =
      s.actionIdx + (rest.takeWhile (·.atFrame = n)).length := by
  induction rest generalizing s with
  | nil => rfl
  | cons a rest ih =>
    unfold runActions
    by_cases ha : a.atFrame = n
    · rw [if_pos ha, ih, (act_cases s a (t s.actionIdx)).1]
      simp only [ha, decide_true, List.takeWhile_cons_of_pos, List.length_cons]
      omega
    · simp [ha]

theorem Logged.runActions {t : ℕ → Clocks} {rest : List OperatorAction} (h : Logged actions s)
    (hrest : actions.drop s.actionIdx = rest) : Logged actions (runActions n t rest s) := by
  induction rest generalizing s with
  | nil => exact h
  | cons a rest ih =>
    unfold RunnerState.runActions
    split
    case isTrue ha =>
      have hget : actions[s.actionIdx]? = some a := by
        rw [← List.head?_drop, hrest]
        simp
      apply ih (h.act hget ha)
      rw [(act_cases s a (t s.actionIdx)).1, ← List.drop_drop, hrest]
      simp
    case isFalse => exact h

/-- `s'` has the history of `s`, and at least its failures. -/
structure Quiet (s s' : RunnerState F) : Prop where
  executed : s'.executed = s.executed
  actionIdx : s'.actionIdx = s.actionIdx
  failures : s'.failures = [] → s.failures = []
  checks : s'.checks = s.checks
  watchdogTriggers : s'.watchdogTriggers = s.watchdogTriggers

omit [F32 F] in
theorem Logged.quiet {s' : RunnerState F} (h : Logged actions s) (hq : Quiet s s') :
    Logged actions s' := by
  constructor
  · rw [hq.executed, hq.actionIdx]
    exact h.sound
  · rw [hq.executed, hq.actionIdx]
    exact h.complete
  · rw [hq.executed]
    exact fun hclean => h.succeeded (hq.failures hclean)

omit [F32 F] in
theorem Quiet.trans {s' s'' : RunnerState F} (h : Quiet s s') (h' : Quiet s' s'') :
    Quiet s s'' where
  executed := h'.executed.trans h.executed
  actionIdx := h'.actionIdx.trans h.actionIdx
  failures hclean := h.failures (h'.failures hclean)
  checks := h'.checks.trans h.checks
  watchdogTriggers := h'.watchdogTriggers.trans h.watchdogTriggers

omit [F32 F] in
theorem checkLock_quiet (now : Instant) (s : RunnerState F) : Quiet s (s.checkLock now) := by
  unfold checkLock
  split
  · split <;> constructor <;> simp
  · constructor <;> simp

theorem feedCommander_quiet (offset : Option (F × F)) (t : Clocks) (s : RunnerState F) :
    Quiet s (s.feedCommander n offset t) := by
  unfold feedCommander
  split
  · constructor <;> simp [fail]
  · constructor <;> simp

variable {sc : Scenario F}

/-- A frame after its actions, up to its watchdogs. -/
theorem control_quiet (sc : Scenario F) (n : ℕ) (t : FrameClocks) (s : RunnerState F) :
    Quiet s ((s.checkLock t.lockChecked).feedCommander n
      (computeTargetOffset sc (generateDetections sc n) (s.checkLock t.lockChecked).commander)
      t.update) :=
  (checkLock_quiet _ s).trans (feedCommander_quiet _ _ _)

theorem onFrame_actionIdx (t : FrameClocks) (s : RunnerState F) :
    (s.onFrame sc t n).actionIdx =
      s.actionIdx + ((sc.operatorActions.drop s.actionIdx).takeWhile (·.atFrame = n)).length := by
  simp only [onFrame, checkWatchdogs]
  rw [(control_quiet sc n t _).actionIdx, runActions_actionIdx]

theorem Logged.onFrame {t : FrameClocks} (h : Logged sc.operatorActions s) :
    Logged sc.operatorActions (s.onFrame sc t n) := by
  have hacted : Logged sc.operatorActions
      (RunnerState.runActions n t.action (sc.operatorActions.drop s.actionIdx) s) :=
    h.runActions rfl
  have hcontrolled := hacted.quiet (control_quiet sc n t _)
  exact ⟨hcontrolled.sound, hcontrolled.complete, hcontrolled.succeeded⟩

/-- Before frame `n` the runner stands where a cursor over the actions stands. -/
theorem beforeFrame_actionIdx (t : ℕ → FrameClocks) (h : s.actionIdx = 0) (n : ℕ) :
    (beforeFrame sc t s n).actionIdx = cursor OperatorAction.atFrame sc.operatorActions n := by
  induction n with
  | zero => exact h
  | succ n ih =>
    rw [beforeFrame, onFrame_actionIdx, ih]
    rfl

theorem Logged.beforeFrame (t : ℕ → FrameClocks) (h : Logged sc.operatorActions s) (n : ℕ) :
    Logged sc.operatorActions (beforeFrame sc t s n) := by
  induction n with
  | zero => exact h
  | succ n ih => exact ih.onFrame

/-- The watchdogs that the checks of a run found expired, one by one. -/
def expiries (checks : List (WatchdogCheck F)) : ℕ :=
  (checks.map fun c => (c.before.watchdogs.checkExpired c.order c.now).length).sum

/-- What the history says of the watchdogs: every expiry was counted, and the commander was
left as `process_watchdog_expiries` leaves it. -/
structure Checked (s : RunnerState F) : Prop where
  counted : s.watchdogTriggers = expiries s.checks
  left : ∀ c ∈ s.checks, c.after = (c.before.processWatchdogExpiries c.order c.now).2

theorem act_checks (a : OperatorAction) (t : Clocks) (s : RunnerState F) :
    (s.act n a t).checks = s.checks ∧ (s.act n a t).watchdogTriggers = s.watchdogTriggers := by
  unfold act
  cases command s.commander a t.env with
  | none =>
    by_cases hk : a.action ∈ known
    · simp [hk]
    · simp [hk]
  | some answer =>
    obtain ⟨result, c⟩ := answer
    cases result with
    | error e => simp [fail]
    | ok _ =>
      by_cases hselect : a.action = "select_target"
      · simp [hselect]
      · simp [hselect]

theorem runActions_checks (t : ℕ → Clocks) (rest : List OperatorAction) (s : RunnerState F) :
    (runActions n t rest s).checks = s.checks ∧
      (runActions n t rest s).watchdogTriggers = s.watchdogTriggers := by
  induction rest generalizing s with
  | nil => exact ⟨rfl, rfl⟩
  | cons a rest ih =>
    unfold runActions
    split
    · rw [(ih _).1, (ih _).2]
      exact act_checks a _ s
    · exact ⟨rfl, rfl⟩

omit [F32 F] in
theorem Checked.quiet {s' : RunnerState F} (h : Checked s) (hq : Quiet s s') : Checked s' := by
  constructor
  · rw [hq.watchdogTriggers, hq.checks]
    exact h.counted
  · rw [hq.checks]
    exact h.left

omit [F32 F] in
theorem Checked.checkWatchdogs {t : FrameClocks} (h : Checked s) : Checked (s.checkWatchdogs t) := by
  constructor
  · simp [RunnerState.checkWatchdogs, expiries, h.counted, Commander.processWatchdogExpiries]
  · intro c hc
    simp only [RunnerState.checkWatchdogs, List.mem_append, List.mem_singleton] at hc
    rcases hc with hc | rfl
    · exact h.left c hc
    · simp

theorem Checked.onFrame {t : FrameClocks} (h : Checked s) : Checked (s.onFrame sc t n) := by
  simp only [RunnerState.onFrame]
  apply Checked.checkWatchdogs
  apply Checked.quiet _ (control_quiet sc n t _)
  obtain ⟨hchecks, htriggers⟩ :=
    runActions_checks (n := n) t.action (sc.operatorActions.drop s.actionIdx) s
  constructor
  · rw [hchecks, htriggers]
    exact h.counted
  · rw [hchecks]
    exact h.left

theorem Checked.beforeFrame (t : ℕ → FrameClocks) (h : Checked s) (n : ℕ) :
    Checked (beforeFrame sc t s n) := by
  induction n with
  | zero => exact h
  | succ n ih => exact ih.onFrame

end RunnerState

end AutoTargeting.Scenarios
