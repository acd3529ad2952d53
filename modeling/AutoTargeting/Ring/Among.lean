import AutoTargeting.Ring.Loop

namespace AutoTargeting.Ring

open Runs

variable {c : CheckedConfig} {producerPid pid : ℕ} {s s' : State} {π : Type*}

def Event.callOf? (pid : ℕ) : Event → Option Call
  | .call caller k => if caller = pid then some k else none
  | .publish _ _ | .producerStep | .consumerStep _ | .dropGuard _ | .reap _ _ _ | .reaperStep _
  | .spawn _ | .die _ => none

theorem Event.callOf?_eq_some {e : Event} {k : Call} : e.callOf? pid = some k ↔ e = .call pid k := by
  cases e <;> simp [callOf?]

namespace Loop

variable (L : Loop π)

/-- Of the answers of the ring, the program sees those to its own process. -/
def seeAs (c : CheckedConfig) (pid : ℕ) (s : State) (e : Event) (p : π) : π :=
  match e with
  | .consumerStep op => if op.pid = pid then L.see c s e p else p
  | .publish _ _ | .producerStep | .call _ _ | .dropGuard _ | .reap _ _ _ | .reaperStep _
  | .spawn _ | .die _ => p

def machineAs (c : CheckedConfig) (producerPid pid : ℕ) : Machine (Observed State π) Event :=
  (ring c producerPid).observed L.first (L.seeAs c pid)

/-- The process makes the calls of its program, one after another; the others do what `Careful` leaves
them: the producer lives, and a reaper breaks only what the dead have held. -/
def Among (producerPid pid : ℕ) (t : Observed State π) (e : Event) : Prop :=
  Careful producerPid t.state e ∧ ∀ k, e = .call pid k →
    k = L.call t.view ∧ t.state.ops.countP (·.pid = pid) = 0

/-- What is enough for the program to keep to `I`, as in `Keeps`, but for the calls of others. -/
structure KeepsAmong (L : Loop π) (c : CheckedConfig) (pid : ℕ)
    (C : Observed State π → Event → Prop) (At : Region → π → ConsumerPc → Prop)
    (I : Region → π → Prop) : Prop where
  first : I .fresh L.first
  grows : ∀ r r' p, r.Grows r' → I r p → I r' p
  atGrows : ∀ r r' p pc, r.Grows r' → At r p pc → At r' p pc
  enter : ∀ t, C t (.call pid (L.call t.view)) → I t.state.region t.view →
    At t.state.region t.view (L.call t.view).enter
  goesOn : ∀ (t : Observed State π) (op : Op) pc, op.pid = pid → Window c t.state.region → I t.state.region t.view →
    At t.state.region t.view op.pc → (op.pc.step c op.pid t.state.region).next = .inl pc →
    At t.state.region t.view pc
  answers : ∀ (t : Observed State π) (op : Op) answer, op.pid = pid → Window c t.state.region → I t.state.region t.view →
    At t.state.region t.view op.pc → (op.pc.step c op.pid t.state.region).next = .inr answer →
    I t.state.region (L.answered t.state.region answer t.view)

/-- The ring's own invariant, and that of the program with its one call under way. -/
structure RunningAmong (c : CheckedConfig) (producerPid pid : ℕ)
    (At : Region → π → ConsumerPc → Prop) (I : Region → π → Prop) (t : Observed State π) :
    Prop where
  inv : Inv c producerPid t.state
  one : t.state.ops.countP (·.pid = pid) ≤ 1
  positions : ∀ op ∈ t.state.ops, op.pid = pid → At t.state.region t.view op.pc
  keeps : I t.state.region t.view

variable {L} {C : Observed State π → Event → Prop} {At : Region → π → ConsumerPc → Prop}
  {I : Region → π → Prop} {t t' : Observed State π}

/-- A step in which no call of the program returns. -/
theorem runningAmong_silent (hL : L.KeepsAmong c pid C At I)
    (h : RunningAmong c producerPid pid At I t) (hinv : Inv c producerPid s')
    (hgrows : t.state.region.Grows s'.region) (hone : s'.ops.countP (·.pid = pid) ≤ 1)
    (hops : ∀ op ∈ s'.ops, op.pid = pid → op ∈ t.state.ops ∨ At t.state.region t.view op.pc) :
    RunningAmong c producerPid pid At I ⟨s', t.view⟩ := by
  refine ⟨hinv, hone, fun op hop hpid => ?_, hL.grows _ _ _ hgrows h.keeps⟩
  apply hL.atGrows _ _ _ _ hgrows
  rcases hops op hop hpid with hop | hat
  · exact h.positions op hop hpid
  · exact hat

/-- A consumer's step leaves the calls of its process as many as they were, or one less. -/
theorem countP_afterConsumer {op : Op} (hop : op ∈ s.ops) (t : ConsumerStep) (pid : ℕ) :
    (s.afterConsumer op t).ops.countP (·.pid = pid) ≤ s.ops.countP (·.pid = pid) ∧
      ∀ answer, t.next = .inr answer → op.pid = pid →
        (s.afterConsumer op t).ops.countP (·.pid = pid) + 1 = s.ops.countP (·.pid = pid) := by
  have herase := countP_erase_add (fun o : Op => o.pid = pid) hop
  unfold State.afterConsumer
  cases t.next with
  | inl pc =>
    refine ⟨?_, nofun⟩
    simp only [Multiset.countP_cons]
    omega
  | inr answer =>
    refine ⟨?_, fun _ _ hpid => ?_⟩
    · dsimp only
      omega
    · simp only [hpid, if_true] at herase
      exact herase

theorem runningAmong_consumerStep (hL : L.KeepsAmong c pid C At I)
    (h : RunningAmong c producerPid pid At I t) {op : Op} (hop : op ∈ t.state.ops)
    (hinv : Inv c producerPid s') (hgrows : t.state.region.Grows s'.region)
    (hs : s' = t.state.afterConsumer op (op.pc.step c op.pid t.state.region)) :
    RunningAmong c producerPid pid At I ⟨s', L.seeAs c pid t.state (.consumerStep op) t.view⟩ := by
  obtain ⟨hle, hreturns⟩ := countP_afterConsumer hop (op.pc.step c op.pid t.state.region) pid
  rw [← hs] at hle hreturns
  have hone := hle.trans h.one
  by_cases hpid : op.pid = pid
  · have hat := h.positions op hop hpid
    have hwindow := h.inv.frames.window
    cases hnext : (op.pc.step c op.pid t.state.region).next with
    | inl pc =>
      have hsee : L.seeAs c pid t.state (.consumerStep op) t.view = t.view := by
        simp only [seeAs, if_pos hpid, see, State.answer, hnext]
      rw [hsee]
      refine runningAmong_silent hL h hinv hgrows hone fun o ho _ => ?_
      rw [hs] at ho
      rcases mem_ops_afterConsumer ho with ho | ⟨pc', hpc, rfl⟩
      · exact .inl ho
      · cases hnext.symm.trans hpc
        exact .inr (hL.goesOn t op pc hpid hwindow h.keeps hat hnext)
    | inr answer =>
      -- it was the only call of the process
      have hnone : s'.ops.countP (·.pid = pid) = 0 := by
        have := hreturns answer hnext hpid
        have := h.one
        omega
      have hsee : L.seeAs c pid t.state (.consumerStep op) t.view =
          L.answered t.state.region answer t.view := by
        simp only [seeAs, if_pos hpid, see, State.answer, hnext]
      rw [hsee]
      refine ⟨hinv, hone, fun o ho ho' => ?_, ?_⟩
      · exact absurd ho' (Multiset.countP_eq_zero.mp hnone o ho)
      · apply hL.grows _ _ _ hgrows
        exact hL.answers t op answer hpid hwindow h.keeps hat hnext
  · have hsee : L.seeAs c pid t.state (.consumerStep op) t.view = t.view := if_neg hpid
    rw [hsee]
    refine runningAmong_silent hL h hinv hgrows hone fun o ho ho' => ?_
    rw [hs] at ho
    rcases mem_ops_afterConsumer ho with ho | ⟨pc', -, rfl⟩
    · exact .inl ho
    · exact absurd ho' hpid

theorem runningAmong_step (hL : L.KeepsAmong c pid C At I)
    (h : RunningAmong c producerPid pid At I t) {e : Event} (hC : C t e)
    (hamong : L.Among producerPid pid t e) (hs : (L.machineAs c producerPid pid).step t e = some t') :
    RunningAmong c producerPid pid At I t' := by
  obtain ⟨s', hstep, rfl⟩ := Machine.observed_step hs
  change t.state.step c producerPid e = some s' at hstep
  have hinv := inv_step h.inv hamong.1 hstep
  have hgrows := step_grows h.inv hstep
  cases step_stepped hstep with
  | refused | publish | producerStep | dropGuard | reap | reaperStep | spawn =>
    exact runningAmong_silent hL h hinv hgrows h.one fun op hop _ => .inl hop
  | consumerStep hop => exact runningAmong_consumerStep hL h hop hinv hgrows rfl
  | @call caller k =>
    by_cases hcaller : caller = pid
    · subst hcaller
      obtain ⟨rfl, hnone⟩ := hamong.2 k rfl
      refine runningAmong_silent hL h hinv hgrows ?_ fun op hop _ => ?_
      · simp [hnone]
      · rcases Multiset.mem_cons.mp hop with rfl | hop
        · exact .inr (hL.enter t hC h.keeps)
        · exact .inl hop
    · refine runningAmong_silent hL h hinv hgrows ?_ fun op hop hpid => ?_
      · simpa [Multiset.countP_cons, hcaller] using h.one
      · rcases Multiset.mem_cons.mp hop with rfl | hop
        · exact absurd hpid hcaller
        · exact .inl hop
  | die =>
    refine runningAmong_silent hL h hinv hgrows ?_ fun op hop _ =>
      .inl (Multiset.mem_of_mem_filter hop)
    exact (Multiset.countP_le_of_le _ (Multiset.filter_le _ _)).trans h.one

/-- The program keeps to its invariant whatever the other processes do. -/
theorem KeepsAmong.reachable (hL : L.KeepsAmong c pid C At I)
    (h : (L.machineAs c producerPid pid).ReachableBy
      (fun t e => L.Among producerPid pid t e ∧ C t e) t) :
    RunningAmong c producerPid pid At I t := by
  refine h.invariant ?_ fun t e t' _ ht hC hs => runningAmong_step hL ht hC.2 hC.1 hs
  rintro ⟨_, _⟩ ⟨⟨alive, hup, rfl⟩, rfl⟩
  refine ⟨inv_start hup, Nat.zero_le _, fun _ hop => ?_, hL.first⟩
  cases hop

end Loop

end AutoTargeting.Ring
