import AutoTargeting.Control.GuardLaw
import Mathlib.Data.List.DropRight
import Mathlib.Tactic.NormNum

namespace AutoTargeting.Control

open Runs

/-- How often two neighbours differ. -/
def signChanges : List Bool → ℕ
  | a :: b :: rest => (if b ≠ a then 1 else 0) + signChanges (b :: rest)
  | _ => 0

theorem signChanges_le (l : List Bool) : signChanges l ≤ l.length - 1 := by
  induction l with
  | nil => simp [signChanges]
  | cons a rest ih =>
    cases rest with
    | nil => simp [signChanges]
    | cons b rest =>
      simp only [signChanges, List.length_cons] at ih ⊢
      split <;> omega

/-- The loop of `count_sign_changes`, from the count so far and the last sign. -/
theorem countSignChanges_loop (rest : List Bool) (next : Bool) (n : ℕ) (prev : Bool) :
    let t := rest.foldl (fun (t : ℕ × Bool) v => (if v ≠ t.2 then t.1 + 1 else t.1, v)) (n, prev)
    (if next ≠ t.2 then t.1 + 1 else t.1) = n + signChanges (prev :: rest ++ [next]) := by
  induction rest generalizing n prev with
  | nil =>
    by_cases hsame : next = prev <;> simp [signChanges, hsame]
  | cons v rest ih =>
    simp only [List.foldl_cons]
    rw [ih]
    by_cases hsame : v = prev <;> simp [signChanges, hsame, Nat.add_assoc]

theorem countSignChanges_eq (history : List Bool) (next : Bool) :
    countSignChanges history next = signChanges (history ++ [next]) := by
  cases history with
  | nil => rfl
  | cons front rest =>
    have hloop := countSignChanges_loop rest next 0 front
    rw [Nat.zero_add] at hloop
    exact hloop

/-- A buffer of `w` entries, to which one is pushed at the back. -/
theorem rtake_push {α : Type} (l : List α) (w : ℕ) (a : α) :
    (if w < (l.rtake w ++ [a]).length then (l.rtake w ++ [a]).tail else l.rtake w ++ [a]) =
      (l ++ [a]).rtake w := by
  unfold List.rtake
  have hlen : (l.drop (l.length - w) ++ [a]).length = l.length - (l.length - w) + 1 := by simp
  rw [hlen, List.length_append, List.length_singleton]
  split
  case isTrue hfull =>
    have hback : l.drop (l.length - w) ++ [a] = (l ++ [a]).drop (l.length - w) := by
      rw [List.drop_append_of_le_length (by omega)]
    rw [hback, List.tail_drop]
    congr 1
    omega
  case isFalse hroom =>
    have hshort : l.length < w := by omega
    rw [show l.length - w = 0 by omega, show l.length + 1 - w = 0 by omega]
    simp

section
variable {F : Type} [F32 F] {c : CommanderConfig F} {s s' : GuardRun F}

/-- The signs of the commands allowed since the last trigger, oldest first. -/
def signsSinceTrigger (c : CommanderConfig F) (handled : List (Handled F)) : List Bool :=
  ((handled.rtakeWhile (!·.decision.isTrigger)).filter (·.decision.isAllow)).map
    (yawSign c ·.call.cmd)

/-- The signs that the ring buffer holds: the last of these, as many as the window allows. -/
def heldSigns (c : CommanderConfig F) (handled : List (Handled F)) : List Bool :=
  (signsSinceTrigger c handled).rtake c.oscillationWindow

theorem signsSinceTrigger_concat (handled : List (Handled F)) (h : Handled F) :
    signsSinceTrigger c (handled ++ [h]) =
      if h.decision.isTrigger = true then []
      else if h.decision.isAllow = true then
        signsSinceTrigger c handled ++ [yawSign c h.call.cmd]
      else signsSinceTrigger c handled := by
  unfold signsSinceTrigger
  rw [List.rtakeWhile_concat]
  cases htrigger : h.decision.isTrigger with
  | true => simp
  | false => cases hallow : h.decision.isAllow <;> simp [hallow]

/-- The ring buffer is what the run says, at any times of the calls. -/
theorem history_eq (h : (guardRun c).Reachable s) :
    s.state.yawSignHistory = heldSigns c s.handled := by
  apply h.invariant (I := fun s => s.state.yawSignHistory = heldSigns c s.handled)
  · rintro _ rfl
    simp [heldSigns, signsSinceTrigger, AntiLoopState.new]
  · intro s call s' _ hs _ hstep
    obtain ⟨decision, state, hexit, rfl⟩ := guardRun_step hstep
    dsimp only
    unfold heldSigns at hs ⊢
    rw [signsSinceTrigger_concat]
    cases hexit with
    | frozen => exact hs
    | deadband => exact s.state.thawed_history.trans hs
    | allow =>
      simp only [AntiLoopState.allowed, AntiLoopState.thawed_history, hs]
      exact rtake_push _ _ _
    | trigger =>
      have htrigger := handleOscillation_isTrigger c s.state.thawed call.triggeredAt
      simp only [htrigger, if_true, handleOscillation_state]
      simp

theorem allow_outside (h : (guardRun c).Reachable s) : ∀ x ∈ s.handled,
    x.decision.isAllow = true → ¬ InDeadband c x.call.cmd := by
  refine h.invariant (I := fun s => ∀ x ∈ s.handled, x.decision.isAllow = true →
    ¬ InDeadband c x.call.cmd) ?_ ?_
  · rintro _ rfl
    simp
  · intro s call s' _ hs _ hstep x hx hallow
    obtain ⟨decision, state, hexit, rfl⟩ := guardRun_step hstep
    rcases List.mem_append.mp hx with hold | hnew
    · exact hs x hold hallow
    · rw [List.mem_singleton.mp hnew] at hallow ⊢
      cases decision with
      | allow cmd => exact (hexit.allowed rfl).1
      | suppress => cases hallow
      | degrade => cases hallow
      | abort => cases hallow

/-- Where a trigger came from: the detector, on the signs held then. -/
theorem trigger_oscillates (h : (guardRun c).Reachable s) : ∀ before x,
    before ++ [x] <+: s.handled → x.decision.isTrigger = true →
    ¬ InDeadband c x.call.cmd ∧ oscillates c (heldSigns c before)
      (clip x.call.cmd.yawRateDps c.maxYawRateDps) = true := by
  refine h.invariant (I := fun s => ∀ before x, before ++ [x] <+: s.handled →
    x.decision.isTrigger = true → ¬ InDeadband c x.call.cmd ∧
      oscillates c (heldSigns c before) (clip x.call.cmd.yawRateDps c.maxYawRateDps) = true) ?_ ?_
  · rintro _ rfl
    simp
  · intro s call s' hreach hs _ hstep
    obtain ⟨decision, state, hexit, rfl⟩ := guardRun_step hstep
    apply each_call_step hs
    intro htrigger
    rw [← history_eq hreach]
    cases hexit with
    | frozen => cases htrigger
    | deadband => cases htrigger
    | allow => cases htrigger
    | trigger _ hdead hoscillates => exact ⟨hdead, hoscillates⟩

end

/-- The detector in exact arithmetic: another sign than the last, a rate of more than 0.1, and
more changes than the threshold allows for the signs held. -/
theorem oscillates_iff (c : CommanderConfig ℚ) (history : List Bool) (yawRate : ℚ) :
    oscillates c history yawRate = true ↔
      ∃ prev, history.getLast? = some prev ∧ prev ≠ decide (0 < yawRate) ∧ 1 / 10 < |yawRate| ∧
        c.oscillationThreshold * history.length <
          signChanges (history ++ [decide (0 < yawRate)]) := by
  unfold oscillates
  cases hlast : history.getLast? with
  | none => simp
  | some prev =>
    have hpos : (0 : ℚ) < history.length := by
      have hne : history ≠ [] := by
        intro hnil
        rw [hnil] at hlast
        cases hlast
      exact_mod_cast List.length_pos_iff.mpr hne
    have hrate : F32.ofRat (0 : ℚ) < (F32.ofNat history.length : ℚ) ∧ c.oscillationThreshold <
        (F32.ofNat (countSignChanges history (decide (F32.ofRat 0 < yawRate))) : ℚ) /
          F32.ofNat history.length ↔
        c.oscillationThreshold * history.length <
          signChanges (history ++ [decide (0 < yawRate)]) := by
      rw [countSignChanges_eq]
      change ((0 : ℚ) < history.length ∧ c.oscillationThreshold <
        (signChanges (history ++ [decide (0 < yawRate)]) : ℚ) / history.length) ↔ _
      rw [lt_div_iff₀ hpos]
      exact and_iff_right hpos
    simp only [Option.some.injEq, exists_eq_left']
    rw [f32_abs_eq]
    split
    case isTrue hturn =>
      rw [decide_eq_true_iff, hrate]
      exact ⟨fun h => ⟨hturn.1, hturn.2, h⟩, fun h => h.2.2⟩
    case isFalse hno =>
      refine iff_of_false nofun fun h => hno ⟨h.1, h.2.1⟩

/-- A command triggers only where the signs that the ring buffer holds, and its own, change more
often than the threshold allows for so many signs; one change is not enough where the threshold
allows one. -/
theorem trigger_rate {c : CommanderConfig ℚ} {s : GuardRun ℚ} (h : (guardRun c).Reachable s)
    {before : List (Handled ℚ)} {x : Handled ℚ} (hx : before ++ [x] <+: s.handled)
    (htrigger : x.decision.isTrigger = true) :
    let held := heldSigns c before
    let changes := signChanges (held ++ [yawSign c x.call.cmd])
    c.oscillationThreshold * held.length < changes ∧
      (1 ≤ c.oscillationThreshold * held.length → 2 ≤ changes) := by
  obtain ⟨-, hoscillates⟩ := trigger_oscillates h before x hx htrigger
  obtain ⟨prev, -, -, -, hrate⟩ := (oscillates_iff _ _ _).mp hoscillates
  refine ⟨hrate, fun hone => ?_⟩
  have hlt : (1 : ℚ) < signChanges (heldSigns c before ++ [yawSign c x.call.cmd]) :=
    hone.trans_lt hrate
  exact_mod_cast hlt

/-- A command to the right is allowed, -/
def firstRight : Handled ℚ := ⟨callAt 20 1 0, .allow ⟨20, 0, 3 / 10, 3 / 10, 0⟩⟩

/-- and the next, to the left, triggers. -/
def thenLeft : Handled ℚ := ⟨callAt (-20) (-1) 100, .degrade⟩

theorem reversal_run : ∃ s, (guardRun CommanderConfig.default).Reachable s ∧
    s.handled = [firstRight] ++ [thenLeft] := by
  have hrun : ((guardRun CommanderConfig.default).exec Machine.Anything ⟨.new, []⟩
      [firstRight.call, thenLeft.call]).map (·.handled) = some ([firstRight] ++ [thenLeft]) := by
    decide +kernel
  obtain ⟨s, hs, hhandled⟩ := Option.map_eq_some_iff.mp hrun
  exact ⟨s, .of_exec (.init rfl) hs, hhandled⟩

theorem trigger_rate_of_reversal :
    (CommanderConfig.default : CommanderConfig ℚ).oscillationThreshold *
        (heldSigns CommanderConfig.default [firstRight]).length <
      signChanges (heldSigns CommanderConfig.default [firstRight] ++
        [yawSign CommanderConfig.default thenLeft.call.cmd]) := by
  obtain ⟨s, hs, hhandled⟩ := reversal_run
  have hlast : [firstRight] ++ [thenLeft] <+: s.handled := hhandled ▸ List.prefix_refl _
  exact (trigger_rate hs hlast rfl).1

/-- The signs of the commands that the detector saw. -/
def detectorSigns (c : CommanderConfig ℚ) (handled : List (Handled ℚ)) : List Bool :=
  (handled.filter (·.decision ≠ .suppress)).map (yawSign c ·.call.cmd)

/-- Over the window of the configuration that trigger has one change among 30 commands. -/
theorem reversal_below_window_rate :
    ¬ ∀ (c : CommanderConfig ℚ) (s : GuardRun ℚ), (guardRun c).Reachable s →
      ∀ before x, before ++ [x] <+: s.handled → x.decision.isTrigger = true →
        c.oscillationThreshold * c.oscillationWindow <
          signChanges ((detectorSigns c (before ++ [x])).rtake c.oscillationWindow) := by
  intro hall
  obtain ⟨s, hs, hhandled⟩ := reversal_run
  have hrate := hall _ s hs [firstRight] thenLeft
    (hhandled ▸ List.prefix_refl _) rfl
  revert hrate
  decide +kernel

/-- No two yaw rates have opposite signs. -/
def Steady (s : GuardRun ℚ) : Prop :=
  (∀ h ∈ s.handled, 0 ≤ h.call.cmd.yawRateDps) ∨ ∀ h ∈ s.handled, h.call.cmd.yawRateDps ≤ 0

def Quiet {F : Type} (s : GuardRun F) : Prop := ∀ h ∈ s.handled, h.decision.isTrigger = false

/-- The history has one and the same entry for all commands outside the deadband. -/
def OneSign (c : CommanderConfig ℚ) (s : GuardRun ℚ) : Prop :=
  ∃ b, ∀ h ∈ s.handled, ¬ InDeadband c h.call.cmd → yawSign c h.call.cmd = b

/-- A configuration with which no sequence of steady commands triggers. -/
def Blunt (c : CommanderConfig ℚ) : Prop :=
  |c.maxYawRateDps| ≤ 1 / 10 ∨ c.oscillationWindow = 0 ∨ 1 ≤ c.oscillationThreshold

/-- Each sign held is that of an earlier command outside the deadband. -/
theorem mem_heldSigns {c : CommanderConfig ℚ} {s : GuardRun ℚ} (h : (guardRun c).Reachable s)
    {before : List (Handled ℚ)} (hbefore : before <+: s.handled) {b : Bool}
    (hb : b ∈ heldSigns c before) :
    ∃ x ∈ s.handled, ¬ InDeadband c x.call.cmd ∧ yawSign c x.call.cmd = b := by
  have hsign : b ∈ signsSinceTrigger c before := List.mem_of_mem_drop hb
  simp only [signsSinceTrigger, List.mem_map, List.mem_filter] at hsign
  obtain ⟨x, ⟨hx, hallow⟩, hsign⟩ := hsign
  have hmem : x ∈ s.handled := hbefore.subset (List.rtakeWhile_suffix _ _ |>.subset hx)
  refine ⟨x, hmem, ?_, hsign⟩
  exact allow_outside h x hmem hallow

/-- Where all signs are one, the last one held is that of the next command. -/
theorem quiet_of_oneSign {c : CommanderConfig ℚ} {s : GuardRun ℚ} (h : (guardRun c).Reachable s)
    (hone : OneSign c s) : Quiet s := by
  obtain ⟨b, hone⟩ := hone
  intro x hx
  rw [Bool.eq_false_iff]
  intro htrigger
  obtain ⟨before, after, hsplit⟩ := List.append_of_mem hx
  have hprefix : before ++ [x] <+: s.handled := ⟨after, by simp [hsplit]⟩
  obtain ⟨hdead, hoscillates⟩ := trigger_oscillates h before x hprefix htrigger
  obtain ⟨prev, hlast, hturn, -⟩ := (oscillates_iff _ _ _).mp hoscillates
  obtain ⟨y, hy, hout, hprev⟩ := mem_heldSigns h ((List.prefix_append _ _).trans hprefix)
    (List.mem_of_getLast? hlast)
  apply hturn
  rw [← hprev, hone y hy hout]
  exact (hone x hx hdead).symm

theorem abs_clip_le_abs (x limit : ℚ) : |clip x limit| ≤ |limit| := by
  rcases clip_cases x limit with ⟨-, hclip⟩ | ⟨hle, hclip⟩
  · rw [hclip, abs_mul]
    split <;> simp
  · rw [hclip]
    exact hle.trans (le_abs_self limit)

theorem quiet_of_blunt {c : CommanderConfig ℚ} {s : GuardRun ℚ} (h : (guardRun c).Reachable s)
    (hblunt : Blunt c) : Quiet s := by
  intro x hx
  rw [Bool.eq_false_iff]
  intro htrigger
  obtain ⟨before, after, hsplit⟩ := List.append_of_mem hx
  have hprefix : before ++ [x] <+: s.handled := ⟨after, by simp [hsplit]⟩
  obtain ⟨-, hoscillates⟩ := trigger_oscillates h before x hprefix htrigger
  obtain ⟨prev, hlast, -, hrate, hchanges⟩ := (oscillates_iff _ _ _).mp hoscillates
  rcases hblunt with hyaw | hwindow | hthreshold
  · have hle := abs_clip_le_abs x.call.cmd.yawRateDps c.maxYawRateDps
    exact absurd (hrate.trans_le hle) (not_lt.mpr hyaw)
  · -- nothing is held
    rw [heldSigns, hwindow, List.rtake_zero] at hlast
    cases hlast
  · have hfew := signChanges_le (heldSigns c before ++
      [decide (0 < clip x.call.cmd.yawRateDps c.maxYawRateDps)])
    rw [List.length_append, List.length_singleton, Nat.add_sub_cancel] at hfew
    have hfew' : (signChanges (heldSigns c before ++
      [decide (0 < clip x.call.cmd.yawRateDps c.maxYawRateDps)]) : ℚ) ≤
        (heldSigns c before).length := by exact_mod_cast hfew
    have hlen : (0 : ℚ) ≤ (heldSigns c before).length := Nat.cast_nonneg _
    nlinarith

/-- A call with this yaw rate that is outside the deadband. -/
def outsideCall (c : CommanderConfig ℚ) (yawRate : ℚ) : GuardCall ℚ :=
  ⟨⟨yawRate, 0, |c.deadbandFraction| + 1, |c.deadbandFraction| + 1, 0⟩, 0, 0⟩

theorem outsideCall_outside (c : CommanderConfig ℚ) (yawRate : ℚ) :
    ¬ InDeadband c (outsideCall c yawRate).cmd := by
  intro hdead
  have hx : F32.abs (|c.deadbandFraction| + 1) < c.deadbandFraction := hdead.1
  rw [f32_abs_eq, abs_of_nonneg (by positivity)] at hx
  have hle := le_abs_self c.deadbandFraction
  linarith

/-- Where nothing is frozen, the detector decides on a command outside the deadband. -/
theorem Exit.unfrozen {F : Type} [F32 F] {c : CommanderConfig F} {state : AntiLoopState}
    {call : GuardCall F} {decision : GuardDecision F} {after : AntiLoopState}
    (h : Exit c state call decision after) (hfreeze : state.freezeUntil = none)
    (hdead : ¬ InDeadband c call.cmd) :
    decision.isTrigger =
        oscillates c state.yawSignHistory (clip call.cmd.yawRateDps c.maxYawRateDps) ∧
      (decision.isTrigger = false →
        after = state.thawed.allowed c.oscillationWindow (yawSign c call.cmd)) := by
  cases h with
  | frozen until_ hsome =>
    rw [hfreeze] at hsome
    cases hsome
  | deadband _ hin => exact absurd hin hdead
  | allow _ _ hno => exact ⟨hno.symm, fun _ => rfl⟩
  | trigger _ _ hyes =>
    have htrigger := handleOscillation_isTrigger c state.thawed call.triggeredAt
    exact ⟨htrigger.trans hyes.symm, fun hno => absurd (htrigger.symm.trans hno) nofun⟩

/-- A zero that is beyond a negative limit is moved to the limit. -/
theorem clip_zero_le (limit : ℚ) : clip 0 limit ≤ 0 := by
  rcases clip_cases 0 limit with ⟨hlt, hclip⟩ | ⟨-, hclip⟩
  · rw [hclip]
    simp at hlt ⊢
    exact hlt.le
  · rw [hclip]

/-- A limit below zero is beyond itself, and loses its sign. -/
theorem clip_limit (limit : ℚ) : clip limit limit = |limit| := by
  rcases clip_cases limit limit with ⟨hlt, hclip⟩ | ⟨hle, hclip⟩
  · have hneg : limit < 0 := by
      by_contra hpos
      rw [abs_of_nonneg (not_lt.mp hpos)] at hlt
      exact absurd hlt (lt_irrefl _)
    rw [hclip, if_pos hneg, abs_of_neg hneg]
    exact neg_one_mul limit
  · rw [hclip]
    exact (abs_of_nonneg ((abs_nonneg _).trans hle)).symm

/-- A command without a yaw, and one with the greatest: the first counts as a turn to the left. -/
theorem steady_trigger {c : CommanderConfig ℚ} (hblunt : ¬ Blunt c) :
    ∃ s, (guardRun c).Reachable s ∧ Steady s ∧ ¬ Quiet s := by
  unfold Blunt at hblunt
  simp only [not_or, not_le] at hblunt
  obtain ⟨hyaw, hwindow, hthreshold⟩ := hblunt
  let first := outsideCall c 0
  let second := outsideCall c c.maxYawRateDps
  have hfirst := process_exit c .new first
  obtain ⟨hno, hafter⟩ := hfirst.unfrozen rfl (outsideCall_outside c 0)
  have hallow := hafter hno
  -- the history of the second command
  have hsign : yawSign c first.cmd = false := by
    exact decide_eq_false (not_lt.mpr (clip_zero_le c.maxYawRateDps))
  have hhistory : (AntiLoopState.new.thawed.allowed c.oscillationWindow
      (yawSign c first.cmd)).yawSignHistory = [false] := by
    rw [hsign]
    simp only [AntiLoopState.allowed, AntiLoopState.thawed_history, AntiLoopState.new]
    rw [if_neg (by simp; omega)]
    rfl
  have hclip := clip_limit c.maxYawRateDps
  have hoscillates : oscillates c [false] (clip c.maxYawRateDps c.maxYawRateDps) = true := by
    have hpos : 0 < |c.maxYawRateDps| := by linarith
    refine (oscillates_iff c _ _).mpr ⟨false, rfl, ?_, ?_, ?_⟩
    · rw [hclip, decide_eq_true hpos]
      simp
    · rw [hclip, abs_abs]
      exact hyaw
    · rw [hclip, decide_eq_true hpos]
      simpa [signChanges] using hthreshold
  let s₁ : GuardRun ℚ := ⟨AntiLoopState.new.thawed.allowed c.oscillationWindow
    (yawSign c first.cmd), [⟨first, (process c .new first.cmd first.now first.triggeredAt).1⟩]⟩
  let s₂ : GuardRun ℚ :=
    ⟨(process c s₁.state second.cmd second.now second.triggeredAt).2, s₁.handled ++
      [⟨second, (process c s₁.state second.cmd second.now second.triggeredAt).1⟩]⟩
  have hreach₁ : (guardRun c).Reachable s₁ := by
    refine .step (.init rfl) (e := first) trivial ?_
    change some (GuardRun.mk (process c .new first.cmd first.now first.triggeredAt).2 _) = _
    rw [hallow]
    rfl
  have hreach₂ : (guardRun c).Reachable s₂ := .step hreach₁ (e := second) trivial rfl
  refine ⟨s₂, hreach₂, ?_, fun hquiet => ?_⟩
  · rcases le_total 0 c.maxYawRateDps with hpos | hneg
    · left
      intro x hx
      rcases List.mem_pair.mp hx with rfl | rfl
      · exact le_refl (0 : ℚ)
      · exact hpos
    · right
      intro x hx
      rcases List.mem_pair.mp hx with rfl | rfl
      · exact le_refl (0 : ℚ)
      · exact hneg
  · have hsecond := process_exit c s₁.state second
    obtain ⟨htrigger, -⟩ := hsecond.unfrozen rfl (outsideCall_outside c c.maxYawRateDps)
    have hno := hquiet ⟨second, _⟩ (List.mem_append_right _ (List.mem_singleton_self _))
    rw [show s₁.state.yawSignHistory = [false] from hhistory] at htrigger
    exact Bool.false_ne_true ((hno.symm.trans htrigger).trans hoscillates)

/-- Clipping keeps all positive rates on one side of zero, and all negative ones. -/
theorem clip_side {x y limit : ℚ} (h : 0 < x ∧ 0 < y ∨ x < 0 ∧ y < 0) (hx : 0 < clip x limit) :
    0 < clip y limit := by
  rcases h with ⟨hxpos, hypos⟩ | ⟨hxneg, hyneg⟩
  · rcases clip_cases y limit with ⟨-, hclip⟩ | ⟨-, hclip⟩
    · rw [hclip, if_neg (not_lt.mpr hypos.le), one_mul]
      rcases clip_cases x limit with ⟨-, hclipx⟩ | ⟨hle, -⟩
      · rwa [hclipx, if_neg (not_lt.mpr hxpos.le), one_mul] at hx
      · exact (abs_pos.mpr hxpos.ne').trans_le hle
    · rwa [hclip]
  · rcases clip_cases x limit with ⟨-, hclipx⟩ | ⟨-, hclipx⟩
    · rw [hclipx, if_pos hxneg, neg_one_mul, neg_pos] at hx
      rcases clip_cases y limit with ⟨-, hclip⟩ | ⟨hle, -⟩
      · rwa [hclip, if_pos hyneg, neg_one_mul, neg_pos]
      · exact absurd (hle.trans_lt hx) (not_lt.mpr (abs_nonneg y))
    · rw [hclipx] at hx
      exact absurd hx (not_lt.mpr hxneg.le)

/-- So a steady sequence has one sign, if no command outside the deadband has a yaw of zero. -/
theorem oneSign_of_nonzero {c : CommanderConfig ℚ} {s : GuardRun ℚ} (hsteady : Steady s)
    (hzero : ∀ h ∈ s.handled, ¬ InDeadband c h.call.cmd → h.call.cmd.yawRateDps ≠ 0) :
    OneSign c s := by
  have hside : ∀ x ∈ s.handled, ∀ y ∈ s.handled, ¬ InDeadband c x.call.cmd →
      ¬ InDeadband c y.call.cmd →
      0 < x.call.cmd.yawRateDps ∧ 0 < y.call.cmd.yawRateDps ∨
        x.call.cmd.yawRateDps < 0 ∧ y.call.cmd.yawRateDps < 0 := by
    intro x hx y hy hxout hyout
    rcases hsteady with hright | hleft
    · exact .inl ⟨(hright x hx).lt_of_ne' (hzero x hx hxout),
        (hright y hy).lt_of_ne' (hzero y hy hyout)⟩
    · exact .inr ⟨(hleft x hx).lt_of_ne (hzero x hx hxout),
        (hleft y hy).lt_of_ne (hzero y hy hyout)⟩
  by_cases hpositive : ∃ x ∈ s.handled, ¬ InDeadband c x.call.cmd ∧ yawSign c x.call.cmd = true
  · obtain ⟨x, hx, hxout, hxsign⟩ := hpositive
    refine ⟨true, fun y hy hyout => decide_eq_true ?_⟩
    exact clip_side (hside x hx y hy hxout hyout) (of_decide_eq_true hxsign)
  · refine ⟨false, fun y hy hyout => ?_⟩
    rw [Bool.eq_false_iff]
    exact fun hsign => hpositive ⟨y, hy, hyout, hsign⟩

/-- A steady sequence does not trigger where the history has one sign for its commands, or the
configuration is blunt; with any other configuration some steady sequence triggers. -/
theorem steady_quiet_when (c : CommanderConfig ℚ) :
    (∀ s, (guardRun c).Reachable s → Steady s → Blunt c ∨ OneSign c s → Quiet s) ∧
      ((∀ s, (guardRun c).Reachable s → Steady s → Quiet s) ↔ Blunt c) := by
  refine ⟨fun s hs _ hwhen => ?_, fun hall => ?_, fun hblunt s hs _ => quiet_of_blunt hs hblunt⟩
  · rcases hwhen with hblunt | hone
    · exact quiet_of_blunt hs hblunt
    · exact quiet_of_oneSign hs hone
  · by_contra hnot
    obtain ⟨s, hs, hsteady, hloud⟩ := steady_trigger hnot
    exact hloud (hall s hs hsteady)

/-- A target that moves to the right, ever slower, with a look at its middle in between. -/
def slowingRight : List (GuardCall ℚ) :=
  [⟨⟨6, 3, 1 / 5, 1 / 5, 0⟩, 0, 0⟩, ⟨⟨0, 0, 0, 0, secs 1⟩, secs 1, secs 1⟩,
    ⟨⟨4, 1, 1 / 10, 1 / 10, secs 2⟩, secs 2, secs 2⟩, ⟨⟨2, 0, 1 / 10, 0, secs 3⟩, secs 3, secs 3⟩]

/-- The default configuration is not blunt, and the sequence is quiet for its one sign. -/
theorem steady_quiet_when_slowing : ¬ Blunt .default ∧
    ∃ s, (guardRun .default).Reachable s ∧ s.handled.length = 4 ∧ Steady s ∧ Quiet s := by
  have hrun : ((guardRun CommanderConfig.default).exec Machine.Anything ⟨.new, []⟩
      slowingRight).map (·.handled.map (·.call)) = some slowingRight := by decide +kernel
  obtain ⟨s, hs, hcalls⟩ := Option.map_eq_some_iff.mp hrun
  have hcall : ∀ x ∈ s.handled, x.call ∈ slowingRight := by
    intro x hx
    rw [← hcalls]
    exact List.mem_map_of_mem hx
  have hsteady : Steady s := by
    have hright : ∀ call ∈ slowingRight, 0 ≤ call.cmd.yawRateDps := by decide +kernel
    exact .inl fun x hx => hright _ (hcall x hx)
  have hone : OneSign .default s := by
    have hturns : ∀ call ∈ slowingRight, ¬ InDeadband .default call.cmd →
        call.cmd.yawRateDps ≠ 0 := by
      unfold InDeadband
      decide +kernel
    exact oneSign_of_nonzero hsteady fun x hx => hturns _ (hcall x hx)
  have hreach : (guardRun .default).Reachable s := .of_exec (.init rfl) hs
  have hlength : s.handled.length = 4 := by
    rw [← List.length_map (·.call), hcalls]
    rfl
  have hsharp : ¬ Blunt .default := by
    unfold Blunt
    decide +kernel
  refine ⟨hsharp, s, hreach, hlength, hsteady, ?_⟩
  exact (steady_quiet_when .default).1 s hreach hsteady (.inr hone)

/-- A target straight above, -/
def above : GuardCall ℚ := ⟨⟨0, 3, 0, 1 / 5, 0⟩, 0, 0⟩

/-- which then moves to the right. -/
def thenRight : GuardCall ℚ := ⟨⟨6, 3, 1 / 5, 1 / 5, secs 1⟩, secs 1, secs 1⟩

theorem right_turn_triggers :
    ¬ ∀ (c : CommanderConfig ℚ) (s : GuardRun ℚ), (guardRun c).Reachable s → Steady s →
      Quiet s := by
  intro hall
  have hrun : ((guardRun CommanderConfig.default).exec Machine.Anything ⟨.new, []⟩
      [above, thenRight]).map (·.handled) =
      some [⟨above, .allow above.cmd⟩, ⟨thenRight, .degrade⟩] := by decide +kernel
  obtain ⟨s, hs, hhandled⟩ := Option.map_eq_some_iff.mp hrun
  have hsteady : Steady s := by
    left
    rw [hhandled]
    intro x hx
    rcases List.mem_pair.mp hx with rfl | rfl <;> norm_num [above, thenRight]
  have hquiet := hall _ s (.of_exec (.init rfl) hs) hsteady ⟨thenRight, .degrade⟩
    (by simp [hhandled])
  cases hquiet

end AutoTargeting.Control
