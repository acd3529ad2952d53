import AutoTargeting.Cli.Repl
import AutoTargeting.Library.Machine

namespace AutoTargeting.Cli

open Control FcAdapter Runs

variable {F : Type}

/-- The states of the state machine between two lines. -/
def restStates : List SystemState := [.idle, .armed, .scanning, .tracking, .abort]

namespace Repl

/-- Is the flight controller as its records tell, and the state machine at rest? -/
structure Sound (s : Repl F) : Prop where
  fc : s.fc.Faithful
  rests : s.state.state ∈ restStates

/-- What a command may make of a console: an error leaves it as it was. -/
structure Handled (s : Repl F) (r : Except String Unit × Repl F) : Prop where
  unchanged : ∀ e, r.1 = .error e → r.2 = s
  sound : r.2.Sound

theorem Sound.refused {s : Repl F} (h : s.Sound) (result : Except String Unit) :
    s.Handled (result, s) := ⟨fun _ _ => rfl, h⟩

theorem Handled.of_ok {s s' : Repl F} (h : s'.Sound) : s.Handled (.ok (), s') where
  unchanged := by
    intro e he
    cases he
  sound := h

/-- A step that the table does not have is an error, and changes nothing. -/
theorem tryTransition_cases (m : StateMachine) (next : SystemState) :
    m.tryTransition next = (.error ⟨m.state, next⟩, m) ∨
      (m.tryTransition next).1 = .ok () ∧ (m.tryTransition next).2.state = next := by
  unfold StateMachine.tryTransition
  split
  case isTrue h => exact .inr ⟨rfl, h⟩
  case isFalse =>
    split
    · exact .inl rfl
    · exact .inr ⟨rfl, rfl⟩

theorem Sound.transition {s : Repl F} (h : s.Sound) {next : SystemState} (hnext : next ∈ restStates)
    (what : String) : s.Handled (s.transition next what) := by
  unfold Repl.transition
  rcases tryTransition_cases s.state next with hrefused | ⟨hok, hstate⟩
  · rw [hrefused]
    exact h.refused _
  · split
    case h_1 m hm =>
      rw [hm] at hstate
      exact .of_ok ⟨h.fc, hstate ▸ hnext⟩
    case h_2 e m hm =>
      rw [hm] at hok
      cases hok

/-- A connected flight controller takes every command, so that a command's line is no error. -/
theorem Sound.commandThen {s : Repl F} (h : s.Sound) {c : RecordedCommand F} {armed : Bool}
    {mode : FlightMode} (hc : (armed, mode) = c.effect (s.fc.armed, s.fc.mode)) (what : String)
    {next : Option SystemState} (hnext : ∀ n ∈ next, n ∈ restStates) :
    s.Handled (s.commandThen (s.fc.record c armed mode) what next) := by
  have hfaithful := h.fc.record hc
  rw [MockFcState.record_connected h.fc.1] at hfaithful ⊢
  refine .of_ok ⟨hfaithful, ?_⟩
  show (next.elim s.state fun next => (s.state.tryTransition next).2).state ∈ restStates
  cases next with
  | none => exact h.rests
  | some n =>
    rcases tryTransition_cases s.state n with hrefused | ⟨-, hstate⟩
    · rw [Option.elim_some, hrefused]
      exact h.rests
    · rw [Option.elim_some, hstate]
      exact hnext n rfl

section
variable [Arguments F]

omit [Arguments F] in
/-- TARGET_SELECTED is passed through within a line: TRACKING is allowed from it. -/
theorem Sound.selectTarget {s : Repl F} (h : s.Sound) (args : List String) :
    s.Handled (s.selectTarget args) := by
  unfold Repl.selectTarget
  split
  · exact h.refused _
  · split
    · exact h.refused _
    · unfold Repl.transition
      rcases tryTransition_cases s.state .targetSelected with hrefused | ⟨hok, hstate⟩
      · rw [hrefused]
        exact h.refused _
      · generalize s.state.tryTransition .targetSelected = selected at hok hstate
        obtain ⟨result, m⟩ := selected
        obtain ⟨_, n⟩ := m
        simp only at hok hstate
        subst hok hstate
        exact .of_ok ⟨h.fc, by simp [StateMachine.moveTo, restStates]⟩

omit [Arguments F] in
theorem Sound.abort {s : Repl F} (h : s.Sound) : s.Handled s.abort := by
  refine .of_ok ⟨h.fc.record rfl, ?_⟩
  show (s.state.forceTransition .abort).state ∈ restStates
  unfold StateMachine.forceTransition
  split
  · exact h.rests
  · simp [StateMachine.moveTo, restStates]

omit [Arguments F] in
theorem Sound.reset {s : Repl F} (h : s.Sound) : s.Handled s.reset := by
  unfold Repl.reset
  split
  · exact h.refused _
  · exact h.transition (by decide) _

theorem Sound.setMode {s : Repl F} (h : s.Sound) (args : List String) :
    s.Handled (s.setMode args) := by
  unfold Repl.setMode
  split
  · exact h.refused _
  · split
    · exact h.refused _
    · exact h.commandThen rfl _ (by simp)

omit [Arguments F] in
theorem Sound.feedWatchdog {s : Repl F} (h : s.Sound) (clock : Clock) (args : List String) :
    s.Handled (s.feedWatchdog clock args) := by
  unfold Repl.feedWatchdog
  split
  · exact h.refused _
  · split
    · exact h.refused _
    · exact .of_ok ⟨h.fc, h.rests⟩

theorem Sound.simulateAttitude {s : Repl F} (h : s.Sound) (clock : Clock) (args : List String) :
    s.Handled (s.simulateAttitude clock args) := by
  unfold Repl.simulateAttitude
  split
  · simp only
    split
    · exact h.refused _
    · exact .of_ok ⟨h.fc, h.rests⟩
  · exact h.refused _

theorem Sound.handleCommand {s : Repl F} (h : s.Sound) (clock : Clock) (input : String) :
    s.Handled (s.handleCommand clock input) := by
  unfold Repl.handleCommand
  split
  · exact h.refused _
  · split
    all_goals
      first
      | exact h.refused _
      | exact h.commandThen rfl _ (by simp [restStates])
      | exact h.setMode _
      | exact h.transition (by decide) _
      | exact h.selectTarget _
      | exact h.abort
      | exact h.reset
      | exact h.feedWatchdog clock _
      | exact h.simulateAttitude clock _
      | exact .of_ok ⟨h.fc, h.rests⟩

/-- From ABORT the table leads to IDLE alone. -/
theorem tryTransition_abort {m : StateMachine} (h : m.state = .abort) {next : SystemState}
    (hnext : next ≠ .idle) : (m.tryTransition next).2.state = .abort := by
  rcases tryTransition_cases m next with hrefused | ⟨hok, hstate⟩
  · rw [hrefused]
    exact h
  · obtain ⟨state, count⟩ := m
    obtain rfl : state = .abort := h
    cases next <;> first | exact absurd rfl hnext | rfl

theorem tryTransition_idle {m : StateMachine} (h : m.state = .abort) :
    m.tryTransition .idle = (.ok (), m.moveTo .idle) := by
  obtain ⟨state, count⟩ := m
  obtain rfl : state = .abort := h
  rfl

omit [Arguments F] in
theorem transition_abort {s : Repl F} (h : s.state.state = .abort) {next : SystemState}
    (hnext : next ≠ .idle) (what : String) : (s.transition next what).2.state.state = .abort := by
  have hstays := tryTransition_abort h hnext
  unfold Repl.transition
  split <;> simp_all

omit [Arguments F] in
theorem commandThen_state {s : Repl F} (hs : s.Sound) {c : RecordedCommand F} {armed : Bool}
    {mode : FlightMode} (what : String) (next : Option SystemState) :
    (s.commandThen (s.fc.record c armed mode) what next).2.state =
      next.elim s.state fun next => (s.state.tryTransition next).2 := by
  rw [MockFcState.record_connected hs.fc.1]
  rfl

omit [Arguments F] in
theorem selectTarget_abort {s : Repl F} (h : s.state.state = .abort) (args : List String) :
    (s.selectTarget args).2.state.state = .abort := by
  unfold Repl.selectTarget
  split
  · exact h
  · split
    · exact h
    · have hrefused : (s.transition .targetSelected "state transition failed").2.state.state =
          .abort := transition_abort h (by decide) _
      split
      · simp_all
      · rename_i selected hselected
        rw [hselected] at hrefused
        exact transition_abort hrefused (by decide) _

theorem setMode_state {s : Repl F} (hs : s.Sound) (args : List String) :
    (s.setMode args).2.state = s.state := by
  unfold Repl.setMode
  split
  · rfl
  · split
    · rfl
    · exact commandThen_state hs _ none

omit [Arguments F] in
theorem feedWatchdog_state (s : Repl F) (clock : Clock) (args : List String) :
    (s.feedWatchdog clock args).2.state = s.state := by
  unfold Repl.feedWatchdog
  split
  · rfl
  · split <;> rfl

theorem simulateAttitude_state (s : Repl F) (clock : Clock) (args : List String) :
    (s.simulateAttitude clock args).2.state = s.state := by
  unfold Repl.simulateAttitude
  split
  · simp only
    split <;> rfl
  · rfl

omit [Arguments F] in
theorem abort_state (s : Repl F) : s.abort.2.state.state = .abort := by
  show (s.state.forceTransition .abort).state = .abort
  unfold StateMachine.forceTransition
  split
  case isTrue h => exact h
  case isFalse => rfl

/-- The words that lead out of ABORT. -/
def releases (line : String) : Bool :=
  (splitWhitespace line).head? = some "disarm" || (splitWhitespace line).head? = some "reset"

/-- In ABORT, no line but `disarm` and `reset` moves the state machine, and these lead to IDLE. -/
theorem handleCommand_abort {s : Repl F} (hs : s.Sound) (h : s.state.state = .abort) (clock : Clock)
    (input : String) : (s.handleCommand clock input).2.state.state =
      if releases input = true then .idle else .abort := by
  unfold Repl.handleCommand releases
  split
  · rename_i hwords
    simp [hwords, h]
  · rename_i cmd args hwords
    rw [hwords, List.head?_cons]
    split
    case h_7 =>
      rw [if_pos (by simp)]
      refine (congrArg StateMachine.state (commandThen_state hs _ _)).trans ?_
      rw [Option.elim_some, tryTransition_idle h]
      rfl
    case h_14 =>
      rw [if_pos (by simp)]
      unfold Repl.reset Repl.transition
      rw [if_neg (fun hne => hne h), tryTransition_idle h]
      rfl
    all_goals
      rw [if_neg (by simp_all)]
      first
      | exact h
      | exact (congrArg StateMachine.state (commandThen_state hs _ _)).trans
          (tryTransition_abort h (by decide))
      | exact (congrArg StateMachine.state (setMode_state hs _)).trans h
      | exact transition_abort h (by decide) _
      | exact selectTarget_abort h _
      | exact (congrArg StateMachine.state (feedWatchdog_state s clock _)).trans h
      | exact (congrArg StateMachine.state (simulateAttitude_state s clock _)).trans h
      | exact abort_state s

end

end Repl

variable [Arguments F]

def replMachine (F : Type) [Arguments F] : Machine (ReplRun F) ReplEvent where
  Init s := ∃ cfg clock connectedAt, s = ReplRun.start cfg clock connectedAt
  step := ReplRun.step

theorem sound_start (cfg : ReplConfig) (clock : WatchdogId → ℤ) (connectedAt : ℕ) :
    (ReplRun.start cfg clock connectedAt : ReplRun F).repl.Sound :=
  ⟨⟨rfl, rfl⟩, .tail _ (.tail _ (.head _))⟩

theorem repl_line {s s' : ReplRun F} {text : String} {clock : Repl.Clock}
    (h : (replMachine F).step s (.line text clock) = some s') :
    s'.repl = s.repl ∨ s'.repl = (s.repl.handleCommand clock (trim text)).2 := by
  obtain ⟨-, h⟩ := Option.ite_none_left_eq_some.mp h
  split at h
  · obtain rfl := Option.some.inj h
    exact .inl rfl
  · obtain rfl := Option.some.inj h
    exact .inr rfl

theorem sound_step {s s' : ReplRun F} {e : ReplEvent} (hs : s.repl.Sound)
    (h : (replMachine F).step s e = some s') : s'.repl.Sound := by
  cases e with
  | line text clock =>
    rcases repl_line h with hsame | hhandled
    · exact hsame ▸ hs
    · exact hhandled ▸ (hs.handleCommand clock _).sound
  | interrupted =>
    obtain ⟨-, h⟩ := Option.ite_none_left_eq_some.mp h
    obtain rfl := Option.some.inj h
    exact hs
  | ended =>
    obtain ⟨-, h⟩ := Option.ite_none_left_eq_some.mp h
    obtain rfl := Option.some.inj h
    exact hs
  | fed id utc =>
    obtain ⟨-, h⟩ := Option.ite_none_right_eq_some.mp h
    obtain rfl := Option.some.inj h
    exact ⟨hs.fc, hs.rests⟩

theorem sound_reachable {s : ReplRun F} (h : (replMachine F).Reachable s) : s.repl.Sound := by
  refine h.invariant (I := fun s => s.repl.Sound) ?_ fun _ _ _ _ hs _ hstep => sound_step hs hstep
  rintro s ⟨cfg, clock, connectedAt, rfl⟩
  exact sound_start cfg clock connectedAt

/-- After any lines, the flight controller is armed and in the mode that its records say, the state
machine is in one of five states, and a line that is an error leaves all of it as it is. -/
theorem lines_all_or_nothing {s : ReplRun F} (h : (replMachine F).Reachable s) :
    (s.repl.fc.armed, s.repl.fc.mode) =
        s.repl.fc.commands.foldl RecordedCommand.effect (false, .stabilize) ∧
      s.repl.state.state ∈ restStates ∧
      ∀ clock input e, (s.repl.handleCommand clock input).1 = .error e →
        (s.repl.handleCommand clock input).2 = s.repl := by
  have hs := sound_reachable h
  exact ⟨hs.fc.2, hs.rests, fun clock input => (hs.handleCommand clock input).unchanged⟩

/-- Of arguments, whole numbers in lower case. -/
instance : Arguments ℚ where
  parseF32 s := (parseU64 s).map fun n => n
  toLowercase s := s
  zero := 0

def replConfig : ReplConfig := ⟨100, 200, 50, 100, 1000⟩

def replStart : ReplRun ℚ := .start replConfig (fun _ => 0) 0

/-- The flight controller is disarmed while the state machine goes on tracking, and another target
cannot be selected. -/
theorem lines_all_or_nothing_disarm : ∃ s : ReplRun ℚ,
    (s.repl.fc.armed, s.repl.state.state) = (false, .tracking) ∧
      (s.repl.fc.armed, s.repl.fc.mode) =
        s.repl.fc.commands.foldl RecordedCommand.effect (false, .stabilize) ∧
      (s.repl.handleCommand ⟨3, 3⟩ "select-target 7").1 =
        .error "state transition failed: invalid transition: TRACKING -> TARGET_SELECTED" ∧
      (s.repl.handleCommand ⟨3, 3⟩ "select-target 7").2 = s.repl := by
  have hrun : ((replMachine ℚ).exec (fun _ _ => True) replStart
      [.line "arm" ⟨0, 0⟩, .line "select-target 42" ⟨1, 1⟩, .line "disarm" ⟨2, 2⟩]).map
        (fun s => ((s.repl.fc.armed, s.repl.state.state),
          (s.repl.handleCommand ⟨3, 3⟩ "select-target 7").1)) = some ((false, .tracking),
        .error "state transition failed: invalid transition: TRACKING -> TARGET_SELECTED") := by
    decide +kernel
  obtain ⟨s, hexec, hout⟩ := Option.map_eq_some_iff.mp hrun
  obtain ⟨hstate, herror⟩ := Prod.mk.inj hout
  obtain ⟨hrecords, -, hunchanged⟩ := lines_all_or_nothing (.of_exec (.init ⟨_, _, _, rfl⟩) hexec)
  exact ⟨s, hstate, hrecords, herror, hunchanged _ _ _ herror⟩

/-- A line that may be typed in ABORT without leaving it. -/
def Holds (_ : ReplRun F) (e : ReplEvent) : Prop :=
  ∀ text clock, e = .line text clock → Repl.releases (trim text) = false

theorem abort_step {s s' : ReplRun F} {e : ReplEvent} (hs : s.repl.Sound)
    (ha : s.repl.state.state = .abort) (hholds : Holds s e)
    (h : (replMachine F).step s e = some s') : s'.repl.state.state = .abort := by
  cases e with
  | line text clock =>
    have hstays := Repl.handleCommand_abort hs ha clock (trim text)
    rw [hholds text clock rfl] at hstays
    rcases repl_line h with hsame | hhandled
    · exact hsame ▸ ha
    · rw [hhandled]
      exact hstays
  | interrupted =>
    obtain ⟨-, h⟩ := Option.ite_none_left_eq_some.mp h
    obtain rfl := Option.some.inj h
    exact ha
  | ended =>
    obtain ⟨-, h⟩ := Option.ite_none_left_eq_some.mp h
    obtain rfl := Option.some.inj h
    exact ha
  | fed id utc =>
    obtain ⟨-, h⟩ := Option.ite_none_right_eq_some.mp h
    obtain rfl := Option.some.inj h
    exact ha

/-- ABORT holds over any lines but `disarm` and `reset`, each of which leads to IDLE. -/
theorem abort_held {s s' : ReplRun F} (h : (replMachine F).Reachable s)
    (ha : s.repl.state.state = .abort) (hrun : (replMachine F).RunBy Holds s s') :
    s'.repl.state.state = .abort ∧ ∀ clock input, Repl.releases input = true →
      (s'.repl.handleCommand clock input).2.state.state = .idle := by
  have hinv : s'.repl.Sound ∧ s'.repl.state.state = .abort :=
    hrun.preserves (I := fun s => s.repl.Sound ∧ s.repl.state.state = .abort)
      (fun _ _ _ hs hholds hstep => ⟨sound_step hs.1 hstep, abort_step hs.1 hs.2 hholds hstep⟩)
      ⟨sound_reachable h, ha⟩
  refine ⟨hinv.2, fun clock input hreleases => ?_⟩
  rw [Repl.handleCommand_abort hinv.1 hinv.2, if_pos hreleases]

/-- The same condition on texts alone. -/
def holdsOf : ReplEvent → Bool
  | .line text _ => !Repl.releases (trim text)
  | _ => true

omit [Arguments F] in
theorem holds_of {s : ReplRun F} {e : ReplEvent} (h : holdsOf e = true) : Holds s e := by
  rintro text clock rfl
  simpa [holdsOf] using h

/-- Neither `arm` nor `scan` leads out of ABORT. -/
theorem abort_held_arm : ∃ s : ReplRun ℚ, s.repl.fc.armed = true ∧ s.repl.state.state = .abort ∧
    ∀ clock input, Repl.releases input = true →
      (s.repl.handleCommand clock input).2.state.state = .idle := by
  have hfirst : ((replMachine ℚ).exec (fun _ _ => True) replStart
      [.line " abort" ⟨1, 1⟩]).map (·.repl.state.state) = some .abort := by decide +kernel
  obtain ⟨s, hexec, hstate⟩ := Option.map_eq_some_iff.mp hfirst
  have hsecond : (((replMachine ℚ).exec (fun _ _ => True) replStart [.line " abort" ⟨1, 1⟩]).bind
      fun s => (replMachine ℚ).exec (fun _ e => holdsOf e = true) s
        [.line "arm" ⟨2, 2⟩, .line "scan" ⟨3, 3⟩]).map (·.repl.fc.armed) = some true := by
    decide +kernel
  rw [hexec] at hsecond
  obtain ⟨s', hexec', harmed⟩ := Option.map_eq_some_iff.mp hsecond
  exact ⟨s', harmed, abort_held (.of_exec (.init ⟨_, _, _, rfl⟩) hexec) hstate
    ((Machine.RunBy.of_exec hexec').mono fun _ _ => holds_of)⟩

end AutoTargeting.Cli
