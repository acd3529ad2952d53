import AutoTargeting.Ring.LatestOrder
import AutoTargeting.Ring.Seeking

namespace AutoTargeting.Ring

open Runs

variable {c : CheckedConfig} {producerPid pid : ℕ} {r r' : Region} {s s' : State} {π : Type*}

/-- Neither `write_seq` nor the id in any slot falls. -/
structure Region.Grows (r r' : Region) : Prop where
  writeSeq : r.writeSeq ≤ r'.writeSeq
  frameId : ∀ i, (r.slot i).frameId ≤ (r'.slot i).frameId

theorem Region.SameFrames.grows (h : r.SameFrames r') : r.Grows r' :=
  ⟨h.writeSeq.ge, fun i => (h.frameId i).ge⟩

theorem step_grows (h : Inv c producerPid s) {e : Event}
    (hs : s.step c producerPid e = some s') : s.region.Grows s'.region := by
  refine ⟨?_, step_frameId_le h hs⟩
  by_cases he : e = .producerStep
  · subst he
    cases step_stepped hs
    by_cases hret : s.producer.returning = []
    · exact (producer_writeSeq hret).ge
    · cases hpc : s.producer with
      | storeSeq p =>
        have hid := (h.frames.next p (by rw [hpc]; rfl)).1
        simp only [State.afterProducer, ProducerPc.step]
        omega
      | _ => simp [hpc, ProducerPc.returning] at hret
  · exact (step_sameFrames hs he).writeSeq.ge

/-- A program that calls the ring again and again: which call comes next, and what becomes of
the program with the answer. -/
structure Loop (π : Type*) where
  first : π
  call : π → Call
  answered : Region → Answer → π → π

/-- The answer that a consumer's call returns at this event. -/
def State.answer (c : CheckedConfig) (s : State) : Event → Option Answer
  | .consumerStep op =>
    match (op.pc.step c op.pid s.region).next with
    | .inr answer => some answer
    | .inl _ => none
  | .publish _ _ | .producerStep | .call _ _ | .dropGuard _ | .reap _ _ _ | .reaperStep _
  | .spawn _ | .die _ => none

namespace Loop

variable (L : Loop π)

def see (c : CheckedConfig) (s : State) (e : Event) (p : π) : π :=
  match s.answer c e with
  | some answer => L.answered s.region answer p
  | none => p

def machine (c : CheckedConfig) (producerPid : ℕ) : Machine (Observed State π) Event :=
  (ring c producerPid).observed L.first (L.see c)

/-- Beside the producer there is process `pid` alone, which runs the program. -/
def Alone (pid : ℕ) (t : Observed State π) : Event → Prop
  | .publish _ _ | .producerStep | .consumerStep _ | .dropGuard _ => True
  | .call caller k => caller = pid ∧ k = L.call t.view ∧ t.state.ops = 0
  | .reap _ _ _ | .reaperStep _ | .spawn _ | .die _ => False

instance (pid : ℕ) (t : Observed State π) (e : Event) : Decidable (L.Alone pid t e) :=
  match e with
  | .publish _ _ | .producerStep | .consumerStep _ | .dropGuard _ =>
    inferInstanceAs (Decidable True)
  | .call caller k =>
    inferInstanceAs (Decidable (caller = pid ∧ k = L.call t.view ∧ t.state.ops = 0))
  | .reap _ _ _ | .reaperStep _ | .spawn _ | .die _ => inferInstanceAs (Decidable False)

variable {L}

theorem alone_undisturbed {t : Observed State π} {e : Event} (h : L.Alone pid t e) :
    Undisturbed t.state e := by
  cases e with
  | publish | producerStep | call | consumerStep | dropGuard => trivial
  | reap | reaperStep | spawn | die => cases h

/-- What is enough for the program to keep to `I`, with `At` at the positions of its call:
other steps spoil neither, `At` holds when the call begins and follows it, and the answer
restores `I`. -/
structure Keeps (L : Loop π) (c : CheckedConfig) (pid : ℕ)
    (C : Observed State π → Event → Prop) (At : Region → π → ConsumerPc → Prop)
    (I : Region → π → Prop) : Prop where
  alone : ∀ t e, C t e → L.Alone pid t e
  first : I .fresh L.first
  grows : ∀ r r' p, r.Grows r' → I r p → I r' p
  atGrows : ∀ r r' p pc, r.Grows r' → At r p pc → At r' p pc
  enter : ∀ t k, C t (.call pid k) → I t.state.region t.view →
    At t.state.region t.view (L.call t.view).enter
  goesOn : ∀ t op pc, C t (.consumerStep op) → Window c t.state.region →
    I t.state.region t.view → At t.state.region t.view op.pc →
    (op.pc.step c op.pid t.state.region).next = .inl pc → At t.state.region t.view pc
  answers : ∀ t op answer, C t (.consumerStep op) → Window c t.state.region →
    I t.state.region t.view → At t.state.region t.view op.pc →
    (op.pc.step c op.pid t.state.region).next = .inr answer →
    I t.state.region (L.answered t.state.region answer t.view)

/-- The ring's own invariant, and that of the program with its one call under way. -/
structure Running (c : CheckedConfig) (producerPid : ℕ) (At : Region → π → ConsumerPc → Prop)
    (I : Region → π → Prop) (t : Observed State π) : Prop where
  inv : Inv c producerPid t.state
  one : t.state.ops.card ≤ 1
  positions : ∀ op ∈ t.state.ops, At t.state.region t.view op.pc
  keeps : I t.state.region t.view

variable {C : Observed State π → Event → Prop} {At : Region → π → ConsumerPc → Prop}
  {I : Region → π → Prop} {t t' : Observed State π}

theorem running_silent (hL : L.Keeps c pid C At I) (h : Running c producerPid At I t)
    (hinv : Inv c producerPid s') (hgrows : t.state.region.Grows s'.region)
    (hcard : s'.ops.card ≤ 1)
    (hops : ∀ op ∈ s'.ops, op ∈ t.state.ops ∨ At t.state.region t.view op.pc) :
    Running c producerPid At I ⟨s', t.view⟩ := by
  refine ⟨hinv, hcard, fun op hop => ?_, hL.grows _ _ _ hgrows h.keeps⟩
  apply hL.atGrows _ _ _ _ hgrows
  rcases hops op hop with hop | hop
  · exact h.positions op hop
  · exact hop

theorem running_consumerStep (hL : L.Keeps c pid C At I) (h : Running c producerPid At I t)
    {op : Op} (hop : op ∈ t.state.ops) (hC : C t (.consumerStep op))
    (hinv : Inv c producerPid s') (hgrows : t.state.region.Grows s'.region)
    (hs : s' = t.state.afterConsumer op (op.pc.step c op.pid t.state.region)) :
    Running c producerPid At I ⟨s', L.see c t.state (.consumerStep op) t.view⟩ := by
  have hcard : s'.ops.card ≤ 1 := hs ▸ (card_ops_afterConsumer hop _).trans h.one
  have hat := h.positions op hop
  cases hnext : (op.pc.step c op.pid t.state.region).next with
  | inl pc =>
    have hsee : L.see c t.state (.consumerStep op) t.view = t.view := by
      simp only [see, State.answer, hnext]
    rw [hsee]
    refine running_silent hL h hinv hgrows hcard fun o ho => ?_
    rw [hs] at ho
    rcases mem_ops_afterConsumer ho with ho | ⟨pc', hpc, rfl⟩
    · exact .inl ho
    · cases hnext.symm.trans hpc
      exact .inr (hL.goesOn t op pc hC h.inv.frames.window h.keeps hat hnext)
  | inr answer =>
    -- it was the only call, so the program has none under way now
    have hops : s'.ops = 0 := hs ▸ ops_afterConsumer_alone hop h.one hnext
    have hsee : L.see c t.state (.consumerStep op) t.view =
        L.answered t.state.region answer t.view := by
      simp only [see, State.answer, hnext]
    rw [hsee]
    refine ⟨hinv, hcard, fun o ho => ?_, ?_⟩
    · simp [hops] at ho
    · apply hL.grows _ _ _ hgrows
      exact hL.answers t op answer hC h.inv.frames.window h.keeps hat hnext

theorem running_step (hL : L.Keeps c pid C At I) (h : Running c producerPid At I t) {e : Event}
    (hC : C t e) (hs : (L.machine c producerPid).step t e = some t') :
    Running c producerPid At I t' := by
  obtain ⟨s', hstep, rfl⟩ := Machine.observed_step hs
  change t.state.step c producerPid e = some s' at hstep
  have halone := hL.alone t e hC
  have hinv := inv_step h.inv (undisturbed_careful _ _ (alone_undisturbed halone)) hstep
  have hgrows := step_grows h.inv hstep
  cases step_stepped hstep with
  | refused | publish | producerStep | dropGuard =>
    exact running_silent hL h hinv hgrows h.one fun op hop => .inl hop
  | consumerStep hop => exact running_consumerStep hL h hop hC hinv hgrows rfl
  | call =>
    obtain ⟨rfl, rfl, hops⟩ := halone
    refine running_silent hL h hinv hgrows (by simp [hops]) fun op hop => ?_
    rcases Multiset.mem_cons.mp hop with rfl | hop
    · exact .inr (hL.enter t _ hC h.keeps)
    · exact .inl hop
  | reap | reaperStep | spawn | die => cases halone

/-- The program keeps to its invariant in every interleaving with the producer. -/
theorem Keeps.reachable (hL : L.Keeps c pid C At I)
    (h : (L.machine c producerPid).ReachableBy C t) : Running c producerPid At I t := by
  refine h.invariant ?_ fun t e t' _ ht hC hs => running_step hL ht hC hs
  rintro ⟨_, _⟩ ⟨⟨alive, hup, rfl⟩, rfl⟩
  refine ⟨inv_start hup, Nat.zero_le _, fun _ hop => ?_, hL.first⟩
  cases hop

end Loop

end AutoTargeting.Ring
