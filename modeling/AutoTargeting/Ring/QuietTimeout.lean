import AutoTargeting.Ring.QuietLoop
import Mathlib.Tactic.NormNum

namespace AutoTargeting.Ring

open Runs

variable {c : CheckedConfig} {producerPid pid : ℕ} {cfg : QuietConfig} {k : Component}
  {t t' : Timed} {r r' : Runner}

/-- What a step must find. The head of the loop, once the quiet time is over: the newest frame is
the one that was counted last, and if none was counted, the first one is still in hand. `acquire` in
`Sequential` mode: the cursor is not at the last id there is; in `Latest` mode: a frame that it
returns is newer than the one before. -/
def Watchful (c : CheckedConfig) (cfg : QuietConfig) (t : Timed) : TimedEvent → Prop
  | .turn _ _ =>
    t.core.view.looping = true ∧ t.run.phase = .head ∧ t.run.limitReached cfg = false ∧
        t.run.quietOver cfg = true →
      (0 < t.run.frames → t.core.state.region.writeSeq ≤ t.run.counted) ∧
      (t.run.frames = 0 → t.run.pending ≠ none)
  | .ring (.call _ _) => cfg.component.mode = .sequential → t.core.view.cursor.last + 1 < 2 ^ 64
  | .ring (.consumerStep op) =>
    cfg.component.mode = .latest → ∀ a ∈ t.core.state.answer c (.consumerStep op),
      ∀ g ∈ a.guard?, t.core.view.cursor.last < g.view.frameId
  | .ring _ | .pass _ => True

instance (c : CheckedConfig) (cfg : QuietConfig) (t : Timed) (e : TimedEvent) :
    Decidable (Watchful c cfg t e) := by
  rcases e with (_ | _ | _ | _ | _ | _ | _ | _ | _) | _ | _ <;> unfold Watchful <;> infer_instance

def CallsAhead (k : Component) (pid : ℕ) (t : Observed State Poll) (e : Event) : Prop :=
  k.loop.Alone pid t e ∧
    ∀ caller call, e = .call caller call → k.mode = .sequential → t.view.cursor.last + 1 < 2 ^ 64

def PollsAt (k : Component) (c : CheckedConfig) (region : Region) (p : Poll) (pc : ConsumerPc) :
    Prop :=
  match k.mode with
  | .sequential => Seeks p.cursor.last (p.cursor.last + 1 ≤ region.writeSeq) pc
  | .latest => pc.NotBefore c region []

theorem poll_keeps (k : Component) (c : CheckedConfig) (pid : ℕ) :
    k.loop.Keeps c pid (CallsAhead k pid) (PollsAt k c) (fun _ _ => True) where
  alone _ _ h := h.1
  first := trivial
  grows _ _ _ _ _ := trivial
  atGrows r r' p pc hgrows h := by
    unfold PollsAt at h ⊢
    cases hmode : k.mode with
    | sequential =>
      simp only [hmode] at h ⊢
      exact seeks_mono (fun hle => hle.trans hgrows.writeSeq) h
    | latest =>
      simp only [hmode] at h ⊢
      exact notBefore_mono hgrows.frameId h
  enter t call hC _ := by
    have hleft := hC.2 pid call rfl
    unfold PollsAt
    cases hmode : k.mode with
    | sequential =>
      simp only [Component.loop, Component.call, hmode]
      exact ⟨rfl, hleft hmode⟩
    | latest =>
      simp only [Component.loop, Component.call, hmode]
      trivial
  goesOn t op pc _ _ _ hat h := by
    unfold PollsAt at hat ⊢
    cases hmode : k.mode with
    | sequential =>
      simp only [hmode] at hat ⊢
      exact seeks_goesOn op.pid hat (fun _ _ hseq _ => hseq) h
    | latest =>
      simp only [hmode] at hat ⊢
      have hnext := consumer_notBefore (c := c) (r := t.state.region) op.pid (by simp) hat
      rw [h] at hnext
      exact hnext
  answers _ _ _ _ _ _ _ _ := trivial

theorem timed_ring {e : Event}
    (hs : (timed c producerPid cfg pid).step t (.ring e) = some t') :
    t.Permits cfg pid e ∧
      (cfg.component.loop.machine c producerPid).step t.core e = some t'.core ∧
      t'.run = t.afterRing c e t'.core := by
  simp only [timed, Timed.step] at hs
  split at hs
  case isTrue hpermits =>
    obtain ⟨core, hcore, rfl⟩ := Option.map_eq_some_iff.mp hs
    exact ⟨hpermits, hcore, rfl⟩
  case isFalse => cases hs

theorem timed_turn {reading : Option ℚ} {ok : Bool}
    (hs : (timed c producerPid cfg pid).step t (.turn reading ok) = some t') :
    t'.core = t.core ∧ t.run.turn cfg t.core.view.looping reading ok = some t'.run := by
  obtain ⟨run, hrun, rfl⟩ := Option.map_eq_some_iff.mp hs
  exact ⟨rfl, hrun⟩

theorem core_reachable
    (h : (timed c producerPid cfg pid).ReachableBy (Watchful c cfg) t) :
    (cfg.component.loop.machine c producerPid).ReachableBy (CallsAhead cfg.component pid) t.core := by
  induction h with
  | init hi => exact .init hi.1
  | @step t t' e hr hc hs ih =>
    cases e with
    | ring e =>
      obtain ⟨hpermits, hcore, -⟩ := timed_ring hs
      refine ih.step ⟨hpermits.1, fun caller call he hmode => ?_⟩ hcore
      subst he
      exact hc hmode
    | pass d =>
      obtain rfl := Option.some.inj hs
      exact ih
    | turn reading ok => exact (timed_turn hs).1 ▸ ih

theorem running_core (h : (timed c producerPid cfg pid).ReachableBy (Watchful c cfg) t) :
    Loop.Running c producerPid (PollsAt cfg.component c) (fun _ _ => True) t.core :=
  (poll_keeps cfg.component c pid).reachable (core_reachable h)

theorem check_cases (cfg : QuietConfig) (r : Runner) :
    (r.limitReached cfg = true ∧ r.check cfg = { r with phase := .ended .maxDuration r.clock }) ∨
    (r.limitReached cfg = false ∧ r.quietOver cfg = true ∧ 0 < r.frames ∧
      r.check cfg = { r with phase := .ended .quiet r.clock }) ∨
    r.limitReached cfg = false ∧ ¬ (r.quietOver cfg = true ∧ 0 < r.frames) ∧
      ((∃ id, r.pending = some id ∧
          r.check cfg = { r with phase := .took id, pending := none, turns := r.turns + 1 }) ∨
        r.pending = none ∧ r.check cfg = { r with phase := .polling, turns := r.turns + 1 }) := by
  unfold Runner.check
  by_cases hlimit : r.limitReached cfg = true
  · exact .inl ⟨hlimit, if_pos hlimit⟩
  · rw [if_neg hlimit]
    rw [Bool.not_eq_true] at hlimit
    by_cases hquiet : r.quietOver cfg = true ∧ 0 < r.frames
    · exact .inr (.inl ⟨hlimit, hquiet.1, hquiet.2, if_pos hquiet⟩)
    · rw [if_neg hquiet]
      cases hpending : r.pending with
      | none => exact .inr (.inr ⟨hlimit, hquiet, .inr ⟨rfl, rfl⟩⟩)
      | some id => exact .inr (.inr ⟨hlimit, hquiet, .inl ⟨id, rfl, rfl⟩⟩)

/-- A frame in hand counts, or the throttle skips it. -/
theorem take_cases (cfg : QuietConfig) (reading : Option ℚ) (id : ℕ) (r : Runner) :
    ∃ thermal, r.take cfg reading id = { r with thermal, phase := .head } ∨
      r.take cfg reading id = { r with thermal }.count id := by
  unfold Runner.take
  split
  · exact ⟨r.thermal, .inr rfl⟩
  · dsimp only
    split
    · exact ⟨_, .inl rfl⟩
    · exact ⟨_, .inr rfl⟩

theorem turn_cases {looping : Bool} {reading : Option ℚ} {ok : Bool}
    (h : r.turn cfg looping reading ok = some r') :
    (r.phase = .head ∧ looping = true ∧ r' = r.check cfg) ∨
    (∃ id, r.phase = .starting id ∧ r' = r.start cfg id) ∨
    (∃ id, r.phase = .took id ∧ r' = r.take cfg reading id) ∨
    (r.phase = .working ∧ r' = { r with phase := .head }) ∨
    (∃ since, r.phase = .asleep since ∧ since < r.clock ∧ r' = { r with phase := .head }) ∨
    (looping = false ∧ r' = { r with phase := .polling }) ∨
    ∃ why since, why ≠ .quiet ∧ r' = { r with phase := .ended why since } := by
  unfold Runner.turn at h
  split at h
  case h_1 hphase =>
    split at h
    · exact .inl ⟨hphase, by assumption, (Option.some.inj h).symm⟩
    · split at h
      · refine .inr (.inr (.inr (.inr (.inr (.inl ⟨?_, (Option.some.inj h).symm⟩)))))
        simpa using ‹¬looping = true›
      · exact .inr (.inr (.inr (.inr (.inr (.inr ⟨.noFrames, r.clock, nofun,
          (Option.some.inj h).symm⟩)))))
  case h_2 id hphase =>
    split at h
    · exact .inr (.inl ⟨id, hphase, (Option.some.inj h).symm⟩)
    · exact .inr (.inr (.inr (.inr (.inr (.inr ⟨.failed, r.clock, nofun,
        (Option.some.inj h).symm⟩)))))
  case h_3 id hphase => exact .inr (.inr (.inl ⟨id, hphase, (Option.some.inj h).symm⟩))
  case h_4 hphase =>
    cases ok with
    | true => exact .inr (.inr (.inr (.inl ⟨hphase, (Option.some.inj h).symm⟩)))
    | false =>
      exact .inr (.inr (.inr (.inr (.inr (.inr ⟨.failed, r.clock, nofun,
        (Option.some.inj h).symm⟩)))))
  case h_5 since hphase =>
    split at h
    case isTrue hslept =>
      -- a sleep lasts a while: some time has passed
      have hlt : since < r.clock := by
        unfold Runner.sleepTime at hslept
        split at hslept <;> omega
      exact .inr (.inr (.inr (.inr (.inl ⟨since, hphase, hlt, (Option.some.inj h).symm⟩))))
    case isFalse => cases h
  all_goals cases h

/-- An answer changes where the component is, and that only if it asked. -/
theorem answered_cases (a : Answer) (p : Poll) (r : Runner) :
    r.answered a p = r ∨ r.phase = .polling ∧
      ((∃ cursor g, p.cursor.acquire a = (cursor, some g) ∧ r.answered a p = { r with
          phase := if p.looping then .took g.view.frameId else .starting g.view.frameId }) ∨
        ∃ cursor, p.cursor.acquire a = (cursor, none) ∧
          r.answered a p = { r with phase := .asleep r.clock }) := by
  unfold Runner.answered
  split
  case isTrue hphase =>
    rcases hacquire : p.cursor.acquire a with ⟨cursor, _ | g⟩
    · dsimp only
      split
      · exact .inl rfl
      · exact .inr ⟨hphase, .inr ⟨cursor, rfl, rfl⟩⟩
    · exact .inr ⟨hphase, .inl ⟨cursor, g, rfl, rfl⟩⟩
  case isFalse => exact .inl rfl

theorem arrived_cases (seq seq' : ℕ) (r : Runner) :
    (r.arrived seq seq' = r ∧ ((∃ why since, r.phase = .ended why since) ∨ seq = seq' ∨
      seq' ≤ r.counted)) ∨
    r.arrived seq seq' = { r with arrivedAt := r.clock } ∧ r.counted < seq' ∧
      ¬ ∃ why since, r.phase = .ended why since := by
  unfold Runner.arrived
  split
  case h_1 why since hphase => exact .inl ⟨rfl, .inl ⟨why, since, hphase⟩⟩
  case h_2 hphase =>
    split
    case isTrue hnew => exact .inr ⟨rfl, hnew.2, fun ⟨why, since, h⟩ => hphase why since h⟩
    case isFalse hold =>
      refine .inl ⟨rfl, .inr ?_⟩
      omega

/-- After a step of the ring the component is where it was, or `acquire` returned. -/
theorem afterRing_cases (c : CheckedConfig) (t : Timed) (e : Event) (core : Observed State Poll) :
    ∃ phase, (phase = t.run.phase ∨
        t.run.phase = .polling ∧ ∀ why since, phase ≠ .ended why since) ∧
      t.afterRing c e core = ({ t.run with phase } : Runner).arrived t.core.state.region.writeSeq
        core.state.region.writeSeq := by
  unfold Timed.afterRing
  cases t.core.state.answer c e with
  | none => exact ⟨t.run.phase, .inl rfl, rfl⟩
  | some a =>
    dsimp only
    rcases answered_cases a t.core.view t.run with heq | ⟨hphase, ⟨_, g, -, heq⟩ | ⟨_, -, heq⟩⟩
    · exact ⟨t.run.phase, .inl rfl, by rw [heq]⟩
    · rw [heq]
      refine ⟨_, .inr ⟨hphase, fun why since => ?_⟩, rfl⟩
      split <;> simp
    · rw [heq]
      exact ⟨_, .inr ⟨hphase, fun why since => by simp⟩, rfl⟩

theorem writeSeq_le (h : (timed c producerPid cfg pid).ReachableBy (Watchful c cfg) t) {e : Event}
    (hs : (timed c producerPid cfg pid).step t (.ring e) = some t') :
    t.core.state.region.writeSeq ≤ t'.core.state.region.writeSeq := by
  obtain ⟨-, hcore, -⟩ := timed_ring hs
  obtain ⟨s', hstep, hcore'⟩ := Machine.observed_step hcore
  rw [hcore']
  exact (step_grows (running_core h).inv hstep).writeSeq

/-- While the newest frame is the one counted last, none came after `last_frame_at`; and where the
quiet timeout ended the run, it was over for the frames that came, too. -/
structure Silence (cfg : QuietConfig) (t : Timed) : Prop where
  arrived_le : t.run.arrivedAt ≤ t.run.clock
  last_le : t.run.lastFrameAt ≤ t.run.clock
  newest : (∀ why since, t.run.phase ≠ .ended why since) →
    t.core.state.region.writeSeq ≤ t.run.counted → t.run.arrivedAt ≤ t.run.lastFrameAt
  ended : ∀ since, t.run.phase = .ended .quiet since →
    cfg.quietTimeout ≤ since - t.run.arrivedAt

theorem Silence.ring (h : Silence cfg t) {e : Event} {core : Observed State Poll}
    (hgrows : t.core.state.region.writeSeq ≤ core.state.region.writeSeq) :
    Silence cfg ⟨core, t.afterRing c e core⟩ := by
  obtain ⟨phase, hphase, heq⟩ := afterRing_cases c t e core
  rw [heq]
  have hended : ∀ {why since}, phase = .ended why since → t.run.phase = .ended why since := by
    intro why since hended
    rcases hphase with heq | ⟨-, hne⟩
    · rw [← heq, hended]
    · exact absurd hended (hne why since)
  have hgoing : (∀ why since, phase ≠ .ended why since) →
      ∀ why since, t.run.phase ≠ .ended why since := by
    rintro hne why since hold
    rcases hphase with heq | ⟨hpolling, -⟩
    · exact hne why since (heq.trans hold)
    · rw [hpolling] at hold
      cases hold
  rcases arrived_cases t.core.state.region.writeSeq core.state.region.writeSeq
    { t.run with phase } with ⟨heq, hold⟩ | ⟨heq, hnew, hne⟩
  · rw [heq]
    refine ⟨h.arrived_le, h.last_le, fun hne hseq => ?_, fun since hquiet =>
      h.ended since (hended hquiet)⟩
    exact h.newest (hgoing hne) (hgrows.trans hseq)
  · rw [heq]
    refine ⟨le_refl _, h.last_le, fun _ hseq => ?_, fun since hquiet =>
      absurd ⟨_, _, hquiet⟩ hne⟩
    exact absurd hseq (not_le.mpr hnew)

theorem Silence.check (h : Silence cfg t) (hphase : t.run.phase = .head)
    (hnewest : t.run.limitReached cfg = false → t.run.quietOver cfg = true → 0 < t.run.frames →
      t.core.state.region.writeSeq ≤ t.run.counted) :
    Silence cfg ⟨t.core, t.run.check cfg⟩ := by
  have hgoing : ∀ why since, t.run.phase ≠ .ended why since := by simp [hphase]
  rcases check_cases cfg t.run with ⟨-, heq⟩ | ⟨hlimit, hquiet, hframes, heq⟩ |
    ⟨-, -, ⟨id, -, heq⟩ | ⟨-, heq⟩⟩
  · rw [heq]
    exact ⟨h.arrived_le, h.last_le, fun hne => absurd rfl (hne _ _), fun since hquiet => by
      simp at hquiet⟩
  · rw [heq]
    refine ⟨h.arrived_le, h.last_le, fun hne => absurd rfl (hne _ _), fun since hsince => ?_⟩
    have hle := h.newest hgoing (hnewest hlimit hquiet hframes)
    obtain ⟨-, rfl⟩ := Phase.ended.inj hsince
    have hover : cfg.quietTimeout ≤ t.run.clock - t.run.lastFrameAt := of_decide_eq_true hquiet
    show cfg.quietTimeout ≤ t.run.clock - t.run.arrivedAt
    omega
  · rw [heq]
    exact ⟨h.arrived_le, h.last_le, fun _ => h.newest hgoing, fun since hquiet => by simp at hquiet⟩
  · rw [heq]
    exact ⟨h.arrived_le, h.last_le, fun _ => h.newest hgoing, fun since hquiet => by simp at hquiet⟩

theorem Silence.turn (h : Silence cfg t) {reading : Option ℚ} {ok : Bool}
    (hc : Watchful c cfg t (.turn reading ok))
    (hr : t.run.turn cfg t.core.view.looping reading ok = some r') :
    Silence cfg ⟨t.core, r'⟩ := by
  have hgoing : ∀ {why since}, t.run.phase = .ended why since → False := by
    intro why since hphase
    simp [Runner.turn, hphase] at hr
  have hgoing : ∀ why since, t.run.phase ≠ .ended why since := fun _ _ h => hgoing h
  rcases turn_cases hr with ⟨hphase, hlooping, rfl⟩ | ⟨id, -, rfl⟩ | ⟨id, -, rfl⟩ | ⟨-, rfl⟩ |
    ⟨since, -, -, rfl⟩ | ⟨-, rfl⟩ | ⟨why, since, hwhy, rfl⟩
  · exact h.check hphase fun hlimit hquiet hframes =>
      (hc ⟨hlooping, hphase, hlimit, hquiet⟩).1 hframes
  · exact ⟨h.arrived_le, le_refl _, fun _ _ => h.arrived_le, fun since hquiet => by
      simp [Runner.start] at hquiet⟩
  · obtain ⟨thermal, heq | heq⟩ := take_cases cfg reading id t.run
    · rw [heq]
      exact ⟨h.arrived_le, h.last_le, fun _ => h.newest hgoing, fun since hquiet => by
        simp at hquiet⟩
    · rw [heq]
      exact ⟨h.arrived_le, le_refl _, fun _ _ => h.arrived_le, fun since hquiet => by
        simp [Runner.count] at hquiet⟩
  · exact ⟨h.arrived_le, h.last_le, fun _ => h.newest hgoing, fun since hquiet => by simp at hquiet⟩
  · exact ⟨h.arrived_le, h.last_le, fun _ => h.newest hgoing, fun since hquiet => by simp at hquiet⟩
  · exact ⟨h.arrived_le, h.last_le, fun _ => h.newest hgoing, fun since hquiet => by simp at hquiet⟩
  · refine ⟨h.arrived_le, h.last_le, fun hne => absurd rfl (hne _ _), fun since hquiet => ?_⟩
    exact absurd (Phase.ended.inj hquiet).1 hwhy

theorem silence_reachable
    (h : (timed c producerPid cfg pid).ReachableBy (Watchful c cfg) t) : Silence cfg t := by
  apply h.invariant
  · rintro ⟨core, run⟩ ⟨-, rfl⟩
    exact ⟨le_refl _, le_refl _, fun _ _ => le_refl _, fun since hquiet => by
      simp [Runner.first] at hquiet⟩
  · intro t e t' hreach hsilence hc hs
    cases e with
    | ring e =>
      obtain ⟨core', run'⟩ := t'
      have hrun : run' = t.afterRing c e core' := (timed_ring hs).2.2
      rw [hrun]
      exact hsilence.ring (writeSeq_le hreach hs)
    | pass d =>
      obtain rfl := Option.some.inj hs
      exact ⟨hsilence.arrived_le.trans (Nat.le_add_right _ _),
        hsilence.last_le.trans (Nat.le_add_right _ _), hsilence.newest, hsilence.ended⟩
    | turn reading ok =>
      obtain ⟨core', run'⟩ := t'
      obtain ⟨rfl, hrun⟩ := timed_turn hs
      exact hsilence.turn hc hrun

/-- Nothing is published in this step. -/
def Unpublished (c : CheckedConfig) (producerPid : ℕ) (cfg : QuietConfig) (pid : ℕ) (t : Timed)
    (e : TimedEvent) : Prop :=
  ∀ t', (timed c producerPid cfg pid).step t e = some t' →
    t'.core.state.region.writeSeq = t.core.state.region.writeSeq

/-- The ids above the cursor that a frame may still have. -/
def Timed.idsLeft (t : Timed) : ℕ := t.core.state.region.writeSeq + 1 - t.core.view.cursor.last

/-- How often the component may still pass the head of its loop before it takes another frame: each
time the clock moves on. -/
def Runner.patience (cfg : QuietConfig) (r : Runner) : ℕ :=
  match r.phase with
  | .head | .working => r.lastFrameAt + cfg.quietTimeout - r.clock
  | .polling => r.lastFrameAt + cfg.quietTimeout - r.clock - 1
  | .starting _ => cfg.quietTimeout + (cfg.quietTimeout + 1)
  | .took _ => cfg.quietTimeout
  | .asleep since => r.lastFrameAt + cfg.quietTimeout - since - 1
  | .ended _ _ => 0

def Runner.inHand (cfg : QuietConfig) (r : Runner) : ℕ :=
  if r.pending = none then 0 else cfg.quietTimeout + 1

/-- A bound on the turns that are left on a silent ring. -/
def Timed.turnsLeft (cfg : QuietConfig) (t : Timed) : ℕ :=
  t.idsLeft * (cfg.quietTimeout + 1) + t.run.inHand cfg + t.run.patience cfg

/-- An answer takes the cursor further, and a frame is behind it. -/
theorem answer_idsLeft (hrun : Loop.Running c producerPid (PollsAt k c) (fun _ _ => True) t.core)
    {op : Op} (hop : op ∈ t.core.state.ops) {a : Answer}
    (ha : (op.pc.step c op.pid t.core.state.region).next = .inr a)
    (hnew : k.mode = .latest → ∀ g ∈ a.guard?, t.core.view.cursor.last < g.view.frameId)
    {cursor : Cursor} {g? : Option FrameGuard} (hacquire : t.core.view.cursor.acquire a = (cursor, g?)) :
    t.core.view.cursor.last ≤ cursor.last ∧
      (g?.isSome = true → t.core.view.cursor.last < cursor.last ∧
        cursor.last ≤ t.core.state.region.writeSeq + 1) := by
  have hat := hrun.positions op hop
  unfold PollsAt at hat
  cases hmode : k.mode with
  | sequential =>
    simp only [hmode] at hat
    have hsought := seeks_answers op.pid hat ha
    rcases a with _ | (g | _ | ⟨lastSeen, latest⟩)
    · cases hsought
    · obtain ⟨hid, hseq⟩ := hsought
      cases hacquire
      simp only [Option.isSome_some, forall_const]
      omega
    · cases hacquire
      simp
    · obtain ⟨-, rfl, hfar⟩ := hsought
      simp only [Cursor.acquire] at hacquire
      split at hacquire
      · cases hacquire
        simp
      · cases hacquire
        simp only [Option.isSome_none, Bool.false_eq_true, false_implies, and_true]
        omega
  | latest =>
    simp only [hmode] at hat
    have hnext := consumer_notBefore (c := c) (r := t.core.state.region) op.pid (by simp) hat
    rw [ha] at hnext
    rcases a with (_ | g) | _
    · cases hacquire
      simp
    · have hid := hnew hmode g rfl
      have hslot := hrun.inv.frames.slot_le g.slotIdx
      obtain ⟨-, hle, -⟩ := hnext
      cases hacquire
      simp only [Option.isSome_some, forall_const]
      omega
    · cases hnext

@[simp] theorem arrived_turns (seq seq' : ℕ) (r : Runner) :
    (r.arrived seq seq').turns = r.turns := by
  rcases arrived_cases seq seq' r with ⟨heq, -⟩ | ⟨heq, -⟩ <;> rw [heq]

@[simp] theorem arrived_inHand (seq seq' : ℕ) (r : Runner) :
    (r.arrived seq seq').inHand cfg = r.inHand cfg := by
  rcases arrived_cases seq seq' r with ⟨heq, -⟩ | ⟨heq, -⟩
  · rw [heq]
  · rw [heq]
    rfl

@[simp] theorem arrived_patience (seq seq' : ℕ) (r : Runner) :
    (r.arrived seq seq').patience cfg = r.patience cfg := by
  rcases arrived_cases seq seq' r with ⟨heq, -⟩ | ⟨heq, -⟩
  · rw [heq]
  · rw [heq]
    rfl

theorem answer_eq_some {s s' : State} {e : Event} {a : Answer}
    (hs : s.step c producerPid e = some s') (ha : s.answer c e = some a) :
    ∃ op, e = .consumerStep op ∧ op ∈ s.ops ∧ (op.pc.step c op.pid s.region).next = .inr a := by
  cases step_stepped hs with
  | consumerStep hop =>
    refine ⟨_, rfl, hop, ?_⟩
    simp only [State.answer] at ha
    split at ha <;> cases ha
    assumption
  | _ => cases ha

theorem turnsLeft_ring (h : (timed c producerPid cfg pid).ReachableBy (Watchful c cfg) t) {e : Event}
    (hc : Watchful c cfg t (.ring e)) (hlooping : t.core.view.looping = true)
    (hs : (timed c producerPid cfg pid).step t (.ring e) = some t')
    (hsilent : t'.core.state.region.writeSeq = t.core.state.region.writeSeq) :
    t'.core.view.looping = true ∧
      t'.run.turns + t'.turnsLeft cfg ≤ t.run.turns + t.turnsLeft cfg := by
  have hrunning := running_core h
  obtain ⟨-, hcore, hrun⟩ := timed_ring hs
  obtain ⟨s', hstep, hcore'⟩ := Machine.observed_step hcore
  have hview : t'.core.view = cfg.component.loop.see c t.core.state e t.core.view := by rw [hcore']
  unfold Timed.turnsLeft Timed.idsLeft
  rw [hsilent, hrun]
  unfold Timed.afterRing
  unfold Loop.see at hview
  cases ha : t.core.state.answer c e with
  | none =>
    rw [ha] at hview
    have hview : t'.core.view = t.core.view := hview
    simp only [hview, arrived_turns, arrived_inHand, arrived_patience]
    exact ⟨hlooping, le_refl _⟩
  | some a =>
    rw [ha] at hview
    have hview : t'.core.view = cfg.component.answered t.core.state.region a t.core.view := hview
    obtain ⟨op, rfl, hop, hnext⟩ := answer_eq_some hstep ha
    have hnew : cfg.component.mode = .latest → ∀ g ∈ a.guard?,
        t.core.view.cursor.last < g.view.frameId := fun hmode => hc hmode a ha
    rcases hacquire : t.core.view.cursor.acquire a with ⟨cursor, g?⟩
    obtain ⟨hle, htaken⟩ := answer_idsLeft hrunning hop hnext hnew hacquire
    have hview' : t'.core.view.looping = true ∧ t'.core.view.cursor = cursor := by
      rw [hview]
      cases g? with
      | none => simp only [Component.answered, hacquire, hlooping, and_self]
      | some g => simp only [Component.answered, hacquire, hlooping, if_true, and_self]
    refine ⟨hview'.1, ?_⟩
    rw [hview'.2]
    simp only [arrived_turns, arrived_inHand, arrived_patience]
    have hids : t.core.state.region.writeSeq + 1 - cursor.last ≤
        t.core.state.region.writeSeq + 1 - t.core.view.cursor.last := by omega
    have hmul := Nat.mul_le_mul_right (cfg.quietTimeout + 1) hids
    rcases answered_cases a t.core.view t.run with heq | ⟨hphase, ⟨_, g, hg, heq⟩ | ⟨_, -, heq⟩⟩
    · rw [heq]
      omega
    · -- the frame pays for the patience that it gives
      rw [hacquire] at hg
      obtain ⟨rfl, rfl⟩ := Prod.mk.inj hg
      have hpay : t.core.state.region.writeSeq + 1 - cursor.last + 1 ≤
          t.core.state.region.writeSeq + 1 - t.core.view.cursor.last := by
        have := htaken rfl
        omega
      have hpay := Nat.mul_le_mul_right (cfg.quietTimeout + 1) hpay
      rw [Nat.add_mul, Nat.one_mul] at hpay
      rw [heq, hlooping]
      simp only [if_true, Runner.inHand, Runner.patience]
      omega
    · rw [heq]
      simp only [Runner.inHand, Runner.patience, hphase]
      omega

theorem turnsLeft_turn (h : Silence cfg t) {reading : Option ℚ} {ok : Bool}
    (hc : Watchful c cfg t (.turn reading ok)) (hlooping : t.core.view.looping = true)
    (hr : t.run.turn cfg t.core.view.looping reading ok = some r') :
    r'.turns + r'.inHand cfg + r'.patience cfg ≤
      t.run.turns + t.run.inHand cfg + t.run.patience cfg := by
  have hlast := h.last_le
  rcases turn_cases hr with ⟨hphase, -, rfl⟩ | ⟨id, hphase, rfl⟩ | ⟨id, hphase, rfl⟩ |
    ⟨hphase, rfl⟩ | ⟨since, hphase, hslept, rfl⟩ | ⟨hwaiting, rfl⟩ | ⟨why, since, hwhy, rfl⟩
  · rcases check_cases cfg t.run with ⟨-, heq⟩ | ⟨-, -, -, heq⟩ |
      ⟨hlimit, hgoing, ⟨id, hpending, heq⟩ | ⟨hpending, heq⟩⟩
    · rw [heq]
      simp only [Runner.inHand, Runner.patience]
      omega
    · rw [heq]
      simp only [Runner.inHand, Runner.patience]
      omega
    · rw [heq]
      simp only [Runner.inHand, Runner.patience, hpending, hphase, if_true]
      simp only [reduceCtorEq, if_false]
      omega
    · -- the quiet time is not over: where it is, a frame was counted
      have hquiet : ¬ t.run.quietOver cfg = true := by
        intro hquiet
        have hcond := hc ⟨hlooping, hphase, hlimit, hquiet⟩
        rcases Nat.eq_zero_or_pos t.run.frames with hzero | hpos
        · exact hcond.2 hzero hpending
        · exact hgoing ⟨hquiet, hpos⟩
      simp only [Runner.quietOver, decide_eq_true_eq, not_le] at hquiet
      rw [heq]
      simp only [Runner.inHand, Runner.patience, hpending, hphase, if_true]
      omega
  · unfold Runner.start
    simp only [Runner.inHand, Runner.patience, hphase]
    split <;> split <;> omega
  · obtain ⟨thermal, heq | heq⟩ := take_cases cfg reading id t.run
    · have hhand : ({ t.run with thermal, phase := .head } : Runner).inHand cfg =
          t.run.inHand cfg := rfl
      rw [heq, hhand]
      simp only [Runner.patience, hphase]
      omega
    · have hhand : (({ t.run with thermal } : Runner).count id).inHand cfg = t.run.inHand cfg := rfl
      rw [heq, hhand]
      simp only [Runner.count, Runner.patience, hphase]
      omega
  · simp only [Runner.inHand, Runner.patience, hphase]
    omega
  · simp only [Runner.inHand, Runner.patience, hphase]
    omega
  · rw [hlooping] at hwaiting
    cases hwaiting
  · simp only [Runner.inHand, Runner.patience]
    omega

theorem turnsLeft_pass (cfg : QuietConfig) (r : Runner) (d : ℕ) :
    ({ r with clock := r.clock + d } : Runner).patience cfg ≤ r.patience cfg := by
  unfold Runner.patience
  dsimp only
  split <;> omega

theorem turnsLeft_step (h : (timed c producerPid cfg pid).ReachableBy (Watchful c cfg) t)
    {e : TimedEvent} (hc : Watchful c cfg t e) (hsilent : Unpublished c producerPid cfg pid t e)
    (hlooping : t.core.view.looping = true)
    (hs : (timed c producerPid cfg pid).step t e = some t') :
    t'.core.view.looping = true ∧
      t'.run.turns + t'.turnsLeft cfg ≤ t.run.turns + t.turnsLeft cfg := by
  cases e with
  | ring e => exact turnsLeft_ring h hc hlooping hs (hsilent t' hs)
  | pass d =>
    obtain rfl := Option.some.inj hs
    refine ⟨hlooping, ?_⟩
    have hpatience := turnsLeft_pass cfg t.run d
    unfold Timed.turnsLeft
    exact Nat.add_le_add_left (Nat.add_le_add_left hpatience _) _
  | turn reading ok =>
    obtain ⟨core', run'⟩ := t'
    obtain ⟨rfl, hrun⟩ := timed_turn hs
    refine ⟨hlooping, ?_⟩
    have hle := turnsLeft_turn (silence_reachable h) hc hlooping hrun
    unfold Timed.turnsLeft Timed.idsLeft
    dsimp only at hle ⊢
    omega

/-- In every run whose steps meet the condition: where the quiet timeout ended the component, no
frame that was new to it had come for that long; and once it took a frame, it passes the head of its
loop only so often while nothing is published. -/
theorem quiet_means_silent (h : (timed c producerPid cfg pid).ReachableBy (Watchful c cfg) t) :
    (∀ since, t.run.phase = .ended .quiet since → cfg.quietTimeout ≤ since - t.run.arrivedAt) ∧
    (t.core.view.looping = true → ∃ bound, ∀ t',
      (timed c producerPid cfg pid).RunBy
        (fun t e => Watchful c cfg t e ∧ Unpublished c producerPid cfg pid t e) t t' →
      t'.run.turns ≤ bound) := by
  refine ⟨(silence_reachable h).ended, fun hlooping => ?_⟩
  refine ⟨t.run.turns + t.turnsLeft cfg, fun t' hrun => ?_⟩
  have hkept : (timed c producerPid cfg pid).ReachableBy (Watchful c cfg) t' ∧
      t'.core.view.looping = true ∧
      t'.run.turns + t'.turnsLeft cfg ≤ t.run.turns + t.turnsLeft cfg := by
    apply hrun.preserves ?_ ⟨h, hlooping, le_refl _⟩
    rintro u e u' ⟨hu, hlooping, hle⟩ ⟨hc, hsilent⟩ hs
    obtain ⟨hlooping', hle'⟩ := turnsLeft_step hu hc hsilent hlooping hs
    exact ⟨hu.step hc hs, hlooping', hle'.trans hle⟩
  omega

/-- The detector on a ring of two slots, with a quiet timeout of 5. -/
def coolDetector : QuietConfig := ⟨.detector 0 1, 5, none⟩

def onRing (es : List Event) : List TimedEvent := es.map .ring

/-- Frame 1 is the first frame, and frame 2 comes at once. -/
def twoFrames : List TimedEvent :=
  List.flatten [onRing (publishEvents [1, 2, 3] 9 12), [.turn none true],
    onRing (nextAfterEvents 1 0 1 0 ⟨1, 9, 1, 1, 1⟩ ++ [.dropGuard ⟨1, ⟨1, ⟨1, 9, 1, 1, 1⟩⟩⟩]),
    [.turn none true], onRing (publishEvents [4, 5, 6] 10 12), [.turn none true],
    onRing (nextAfterEvents 1 1 0 0 ⟨2, 10, 1, 1, 1⟩ ++ [.dropGuard ⟨1, ⟨0, ⟨2, 10, 1, 1, 1⟩⟩⟩])]

def twoFramesRun : List TimedEvent := twoFrames ++ [.turn none true]

/-- Then nothing comes for a time of 5. -/
def silentTurns : List TimedEvent := [.turn none true, .pass 5, .turn none true]

theorem quiet_means_silent_at_end : ∃ t t' : Timed,
    (t.core.view.looping = true ∧ ∃ bound, ∀ u,
      (timed tinyConfig 100 coolDetector 1).RunBy (fun t e => Watchful tinyConfig coolDetector t e ∧
        Unpublished tinyConfig 100 coolDetector 1 t e) t u → u.run.turns ≤ bound) ∧
    t'.run.phase = .ended .quiet 5 ∧ t'.run.frames = 1 ∧ 5 ≤ 5 - t'.run.arrivedAt := by
  have hbusy : ((timed tinyConfig 100 coolDetector 1).exec (Watchful tinyConfig coolDetector)
      ⟨⟨.start fun _ => true, coolDetector.component.loop.first⟩, .first coolDetector⟩
      twoFramesRun).map (·.core.view.looping) = some true := by decide
  have hend : ((timed tinyConfig 100 coolDetector 1).exec (Watchful tinyConfig coolDetector)
      ⟨⟨.start fun _ => true, coolDetector.component.loop.first⟩, .first coolDetector⟩
      (twoFramesRun ++ silentTurns)).map (fun t => (t.run.phase, t.run.frames)) =
      some (.ended .quiet 5, 1) := by decide
  obtain ⟨t, ht, hlooping⟩ := Option.map_eq_some_iff.mp hbusy
  obtain ⟨t', ht', hend⟩ := Option.map_eq_some_iff.mp hend
  obtain ⟨hphase, hframes⟩ := Prod.mk.inj hend
  refine ⟨t, t', ⟨hlooping, ?_⟩, hphase, hframes, ?_⟩
  · exact (quiet_means_silent (.of_exec (.init ⟨⟨⟨_, rfl, rfl⟩, rfl⟩, rfl⟩) ht)).2 hlooping
  · exact (quiet_means_silent (.of_exec (.init ⟨⟨⟨_, rfl, rfl⟩, rfl⟩, rfl⟩) ht')).1 5 hphase

/-- The detector with a throttle at 80 degrees, and a quiet timeout of 6 seconds. -/
def hotDetector : QuietConfig := ⟨.detector 80 10, seconds 6, none⟩

/-- Frame 2 is counted; after 5 seconds frame 3 comes, and is skipped; after one more, frame 4. -/
def throttledRun : List TimedEvent :=
  List.flatten [twoFrames, [.turn (some 20) true, .turn none true, .pass (seconds 5)],
    onRing (publishEvents [7, 8, 9] 11 12), [.turn none true],
    onRing (nextAfterEvents 1 2 1 0 ⟨3, 11, 1, 1, 1⟩ ++ [.dropGuard ⟨1, ⟨1, ⟨3, 11, 1, 1, 1⟩⟩⟩]),
    [.turn (some 85) true, .pass (seconds 1)], onRing (publishEvents [1, 1, 1] 12 12),
    [.turn none true]]

theorem quiet_while_frames_arrive :
    ¬ ∀ t, (timed tinyConfig 100 hotDetector 1).Reachable t →
      ∀ since, t.run.phase = .ended .quiet since →
        hotDetector.quietTimeout ≤ since - t.run.arrivedAt := by
  intro hall
  have hrun : ((timed tinyConfig 100 hotDetector 1).exec Machine.Anything
      ⟨⟨.start fun _ => true, hotDetector.component.loop.first⟩, .first hotDetector⟩
      throttledRun).map (fun t => (t.run.phase, t.run.arrivedAt)) =
      some (.ended .quiet (seconds 6), seconds 6) := by decide +kernel
  obtain ⟨t, ht, hend⟩ := Option.map_eq_some_iff.mp hrun
  obtain ⟨hphase, harrived⟩ := Prod.mk.inj hend
  have hsilent := hall t (.of_exec (.init ⟨⟨⟨_, rfl, rfl⟩, rfl⟩, rfl⟩) ht) _ hphase
  rw [harrived] at hsilent
  revert hsilent
  decide

end AutoTargeting.Ring
