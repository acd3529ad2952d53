import AutoTargeting.Control.Commands

namespace AutoTargeting.Control

open Runs

section
variable {F : Type} {c c' : Commander F} {env : Env F}

theorem tryTransition_state (c : Commander F) (next : SystemState) :
    (c.tryTransition next).2.state =
      if c.state = next ∨ isTransitionAllowed c.state next = true then next else c.state := by
  rcases c.tryTransition_cases next with ⟨hsame, h⟩ | ⟨-, hallowed, h⟩ | ⟨hne, hnot, h⟩
  · rw [h, if_pos (.inl hsame)]
    exact hsame
  · rw [h, if_pos (.inr hallowed)]
    rfl
  · rw [h, if_neg]
    rintro (hsame | hallowed)
    · exact hne hsame
    · exact absurd (hnot.symm.trans hallowed) nofun

/-- An accepted disarm clears the target, and goes to IDLE where the table lets it. -/
theorem disarm_ok (h : c.disarm env = (.ok (), c')) :
    c'.activeTargetId = none ∧ c'.state =
      if c.state = .idle ∨ isTransitionAllowed c.state .idle = true then .idle else c.state := by
  unfold Commander.disarm at h
  split at h
  case isTrue => cases h
  case isFalse =>
    have hcall : (c.callFc .disarm env (env.mono 0)).2.state = c.state := rfl
    split at h
    case h_1 => cases h
    case h_2 called hcalled =>
      rw [hcalled] at hcall
      cases h
      refine ⟨rfl, ?_⟩
      rw [← hcall]
      exact tryTransition_state called .idle

end

namespace Operation
variable {F : Type} [F32 F] {c c' : Commander F} {env : Env F}

/-- No sequence of operations reaches LOST or RTH. -/
theorem state_reachable (h : (machine F).Reachable c) : Targets c.state := by
  refine h.invariant (I := fun c => Targets c.state) ?_ ?_
  · rintro c ⟨config, env, camera, rfl⟩
    exact (by decide : Targets .idle)
  · intro c op c' _ hc _ hstep
    cases hstep
    rcases (run_moves c op).state_or with hsame | htargets
    · exact (show (op.run c).2.state = c.state from hsame) ▸ hc
    · exact htargets

/-- An accepted disarm lands in IDLE, without a target, from three states only: the others
have no edge to IDLE, and nothing reports it. -/
theorem disarm_lands_in_idle_iff (h : (machine F).Reachable c)
    (hok : c.disarm env = (.ok (), c')) :
    (c'.state = .idle ∧ c'.activeTargetId = none) ↔
      (c.state = .idle ∨ c.state = .scanning ∨ c.state = .abort) := by
  obtain ⟨htarget, hstate⟩ := disarm_ok hok
  have hnotRth : c.state ≠ .rth := (state_reachable h).2
  have hedges : (c.state = .idle ∨ isTransitionAllowed c.state .idle = true) ↔
      (c.state = .idle ∨ c.state = .scanning ∨ c.state = .abort) := by
    revert hnotRth
    cases c.state <;> decide
  rw [hstate, ← hedges]
  constructor
  · rintro ⟨hidle, -⟩
    by_contra hnot
    rw [if_neg hnot] at hidle
    exact hnot (.inl hidle)
  · intro hedge
    exact ⟨if_pos hedge, htarget⟩

/-- What a run from a new commander shows after a disarm. -/
def afterDisarm (ops : List (Operation ℚ)) : Option (CommanderResult × SystemState) :=
  ((machine ℚ).exec (fun _ _ => True) (Commander.new .default (envAt 0)) ops).map fun c =>
    ((c.disarm (envAt 0)).1, (c.disarm (envAt 0)).2.state)

theorem of_afterDisarm {ops : List (Operation ℚ)} {state : SystemState}
    (h : afterDisarm ops = some (.ok (), state)) :
    ∃ c c', (machine ℚ).Reachable c ∧ c.disarm (envAt 0) = (.ok (), c') ∧ c'.state = state := by
  obtain ⟨c, hc, hobs⟩ := Option.map_eq_some_iff.mp h
  obtain ⟨hok, hstate⟩ := Prod.mk.inj hobs
  exact ⟨c, _, .of_exec (.init ⟨.default, envAt 0, .default, rfl⟩) hc, Prod.ext hok rfl, hstate⟩

theorem disarm_while_scanning : ∃ c c' : Commander ℚ, c.disarm (envAt 0) = (.ok (), c') ∧
    c'.state = .idle ∧ (c.state = .idle ∨ c.state = .scanning ∨ c.state = .abort) := by
  obtain ⟨c, c', hreach, hok, hstate⟩ :=
    of_afterDisarm (show afterDisarm [.connect (envAt 0), .startScanning] = some (.ok (), .idle)
      from rfl)
  exact ⟨c, c', hok, hstate, (disarm_lands_in_idle_iff hreach hok).mp ⟨hstate, (disarm_ok hok).1⟩⟩

/-- Right after `connect` the state is ARMED, and a disarm leaves it there. -/
theorem disarm_stays_armed :
    ¬ ∀ (c c' : Commander ℚ) (env : Env ℚ), (machine ℚ).Reachable c →
      c.disarm env = (.ok (), c') → c'.state = .idle ∧ c'.activeTargetId = none := by
  intro hall
  obtain ⟨c, c', hreach, hok, hstate⟩ :=
    of_afterDisarm (show afterDisarm [.connect (envAt 0)] = some (.ok (), .armed) from rfl)
  have hidle := (hall c c' (envAt 0) hreach hok).1
  rw [hstate] at hidle
  cases hidle

end Operation

end AutoTargeting.Control
