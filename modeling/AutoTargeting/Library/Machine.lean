import Mathlib.Logic.Relation
import Mathlib.Data.List.Basic

namespace Runs

/-- A machine whose nondeterminism is in its events: `step s e` is `none` where `e`
cannot happen. -/
structure Machine (σ ε : Type*) where
  Init : σ → Prop
  step : σ → ε → Option σ

namespace Machine

variable {σ ε : Type*} (M : Machine σ ε)

/-- The last states of the runs all of whose steps meet `C`. -/
inductive ReachableBy (C : σ → ε → Prop) : σ → Prop
  | init {s : σ} : M.Init s → ReachableBy C s
  | step {s s' : σ} {e : ε} :
      ReachableBy C s → C s e → M.step s e = some s' → ReachableBy C s'

def StepBy (C : σ → ε → Prop) (s s' : σ) : Prop := ∃ e, C s e ∧ M.step s e = some s'

/-- A run from `s` to `s'` all of whose steps meet `C`. -/
def RunBy (C : σ → ε → Prop) : σ → σ → Prop := Relation.ReflTransGen (M.StepBy C)

/-- The condition that every step meets. -/
abbrev Anything : σ → ε → Prop := fun _ _ => True

abbrev Reachable : σ → Prop := M.ReachableBy Anything

variable {M} {C D : σ → ε → Prop} {s s' : σ}

/-- What holds first and survives every allowed step holds in every reachable state. -/
theorem ReachableBy.invariant {I : σ → Prop} (h0 : ∀ s, M.Init s → I s)
    (hstep : ∀ s e s', M.ReachableBy C s → I s → C s e → M.step s e = some s' → I s')
    (h : M.ReachableBy C s) : I s := by
  induction h with
  | init hi => exact h0 _ hi
  | step hr hc hs ih => exact hstep _ _ _ hr ih hc hs

theorem ReachableBy.mono (hCD : ∀ s e, C s e → D s e) (h : M.ReachableBy C s) :
    M.ReachableBy D s := by
  induction h with
  | init hi => exact .init hi
  | step _ hc hs ih => exact .step ih (hCD _ _ hc) hs

theorem ReachableBy.run (h : M.ReachableBy C s) (hr : M.RunBy C s s') : M.ReachableBy C s' := by
  induction hr with
  | refl => exact h
  | tail _ hs ih =>
    obtain ⟨e, hc, hs⟩ := hs
    exact .step ih hc hs

theorem RunBy.mono (hCD : ∀ s e, C s e → D s e) (hr : M.RunBy C s s') : M.RunBy D s s' :=
  Relation.ReflTransGen.mono (fun _ _ ⟨e, hc, hs⟩ => ⟨e, hCD _ _ hc, hs⟩) _ _ hr

/-- What survives every allowed step survives a run. -/
theorem RunBy.preserves {I : σ → Prop}
    (hstep : ∀ s e s', I s → C s e → M.step s e = some s' → I s')
    (hr : M.RunBy C s s') (h : I s) : I s' := by
  induction hr with
  | refl => exact h
  | tail _ hs ih =>
    obtain ⟨e, hc, hs⟩ := hs
    exact hstep _ _ _ ih hc hs

/-- Runs the events in order, and stops where one cannot happen or is not allowed. -/
def exec (M : Machine σ ε) (C : σ → ε → Prop) [∀ s e, Decidable (C s e)] (s : σ) :
    List ε → Option σ
  | [] => some s
  | e :: es => if C s e then (M.step s e).bind (M.exec C · es) else none

variable [∀ s e, Decidable (C s e)]

theorem exec_cons {e : ε} {es : List ε} (h : M.exec C s (e :: es) = some s') :
    ∃ t, C s e ∧ M.step s e = some t ∧ M.exec C t es = some s' := by
  simp only [exec] at h
  split at h
  case isTrue hc =>
    obtain ⟨t, ht, h⟩ := Option.bind_eq_some_iff.mp h
    exact ⟨t, hc, ht, h⟩
  case isFalse => cases h

theorem RunBy.of_exec {es : List ε} (h : M.exec C s es = some s') : M.RunBy C s s' := by
  induction es generalizing s with
  | nil => cases h; exact .refl
  | cons e es ih =>
    obtain ⟨t, hc, hs, h⟩ := exec_cons h
    exact .head ⟨e, hc, hs⟩ (ih h)

theorem ReachableBy.of_exec {es : List ε} (h0 : M.ReachableBy C s)
    (h : M.exec C s es = some s') : M.ReachableBy C s' := h0.run (.of_exec h)

end Machine

/-- A state with what the events so far handed out, in order. -/
structure Logged (σ α : Type*) where
  state : σ
  log : List α

namespace Machine

variable {σ ε α : Type*} {M : Machine σ ε} {out : σ → ε → List α}

/-- The machine that keeps a log of what its events hand out. -/
def logged (M : Machine σ ε) (out : σ → ε → List α) : Machine (Logged σ α) ε where
  Init t := M.Init t.state ∧ t.log = []
  step t e := (M.step t.state e).map fun s => ⟨s, t.log ++ out t.state e⟩

theorem logged_step {t t' : Logged σ α} {e : ε} (h : (M.logged out).step t e = some t') :
    ∃ s, M.step t.state e = some s ∧ t' = ⟨s, t.log ++ out t.state e⟩ := by
  obtain ⟨s, hs, rfl⟩ := Option.map_eq_some_iff.mp h
  exact ⟨s, hs, rfl⟩

end Machine

/-- A state with what an onlooker made of the events so far. -/
structure Observed (σ π : Type*) where
  state : σ
  view : π

namespace Machine

variable {σ ε π : Type*} {M : Machine σ ε} {first : π} {see : σ → ε → π → π}

/-- The machine with an onlooker, who sees each event in the state in which it happens. -/
def observed (M : Machine σ ε) (first : π) (see : σ → ε → π → π) : Machine (Observed σ π) ε where
  Init t := M.Init t.state ∧ t.view = first
  step t e := (M.step t.state e).map fun s => ⟨s, see t.state e t.view⟩

theorem observed_step {t t' : Observed σ π} {e : ε} (h : (M.observed first see).step t e = some t') :
    ∃ s, M.step t.state e = some s ∧ t' = ⟨s, see t.state e t.view⟩ := by
  obtain ⟨s, hs, rfl⟩ := Option.map_eq_some_iff.mp h
  exact ⟨s, hs, rfl⟩

end Machine

end Runs
