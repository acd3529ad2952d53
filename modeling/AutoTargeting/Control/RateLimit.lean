import AutoTargeting.Control.AntiLoop
import AutoTargeting.Library.Spacing
import Mathlib.Algebra.Order.BigOperators.Group.List
import Mathlib.Data.Nat.Prime.Basic

namespace AutoTargeting.Control

open Runs

inductive LimiterCall
  | trySend
  | forceSend
  deriving DecidableEq, Repr

/-- A limiter with the times at which `try_send` said yes. -/
structure Granting where
  limiter : CommandRateLimiter
  granted : List ℕ
  deriving DecidableEq, Repr

namespace Granting

def new (rateHz : ℕ) : Granting := ⟨.new rateHz, []⟩

def call (t : Granting) (call : LimiterCall × ℕ) : Granting :=
  match call.1 with
  | .trySend =>
    let (sent, limiter) := t.limiter.trySend call.2
    ⟨limiter, if sent then t.granted ++ [call.2] else t.granted⟩
  | .forceSend => { t with limiter := t.limiter.forceSend call.2 }

def after (rateHz : ℕ) (calls : List (LimiterCall × ℕ)) : Granting :=
  calls.foldl call (new rateHz)

end Granting

/-- The clock does not go back from call to call. -/
def Ordered (calls : List (LimiterCall × ℕ)) : Prop := calls.Pairwise (·.2 ≤ ·.2)

/-- The times within the second that starts at `t`. -/
def within (t : ℕ) (times : List ℕ) : List ℕ :=
  times.filter fun a => t ≤ a ∧ a < t + secs 1

/-- At most `rateHz` commands in any second, and no call that is not counted. -/
structure KeepsRate (rateHz : ℕ) (calls : List (LimiterCall × ℕ)) : Prop where
  rate : ∀ t, (within t (Granting.after rateHz calls).granted).length ≤ rateHz
  counted : (Granting.after rateHz calls).limiter.sentCount +
    (Granting.after rateHz calls).limiter.droppedCount = calls.length

/-- The rates whose interval ends on half a nanosecond and for which the `f64` of it is not below. -/
def tiesUp : List ℕ := [5120, 25600, 128000, 640000, 3200000, 400000000, 2000000000]

/-- The nearest nanosecond is not below `1 / rateHz` seconds. -/
def RoundsUp (rateHz : ℕ) : Prop :=
  secs 1 % rateHz = 0 ∨ rateHz < 2 * (secs 1 % rateHz) ∨ rateHz ∈ tiesUp

instance (rateHz : ℕ) : Decidable (RoundsUp rateHz) := inferInstanceAs (Decidable (_ ∨ _ ∨ _))

section
variable {rate : ℕ}

theorem abs_interval_sub_le (h0 : 0 < rate) (h : rate < 2 ^ 32) :
    |Strtod.nearest (1 / rate) * secs 1 - secs 1 / rate| ≤ 1 / (8 * rate) := by
  have hpos : (0 : ℚ) < rate := by exact_mod_cast h0
  have hlt : (rate : ℚ) ≤ 2 ^ 32 := by exact_mod_cast h.le
  have habs : |(1 / rate : ℚ)| = 1 / rate := abs_of_pos (by positivity)
  have hnormal : (2 : ℚ) ^ (-1022 : ℤ) ≤ |(1 / rate : ℚ)| := by
    rw [habs]
    calc (2 : ℚ) ^ (-1022 : ℤ) ≤ 2 ^ (-32 : ℤ) := zpow_le_zpow_right₀ (by norm_num) (by norm_num)
      _ = 1 / 2 ^ 32 := by norm_num
      _ ≤ 1 / rate := one_div_le_one_div_of_le hpos hlt
  have hnear := Strtod.abs_nearest_sub_le_place hnormal
  rw [habs] at hnear
  have hsecs : (secs 1 : ℚ) = 10 ^ 9 := by norm_num [secs]
  have hscale : Strtod.nearest (1 / rate) * secs 1 - secs 1 / rate =
      (Strtod.nearest (1 / rate) - 1 / rate) * 10 ^ 9 := by
    rw [hsecs]
    ring
  rw [hscale, abs_mul, abs_of_pos (by positivity : (0 : ℚ) < 10 ^ 9)]
  calc |Strtod.nearest (1 / rate) - 1 / rate| * 10 ^ 9 ≤ 1 / rate / 2 ^ 53 * 10 ^ 9 :=
        mul_le_mul_of_nonneg_right hnear (by positivity)
    _ = 1 / rate * (10 ^ 9 / 2 ^ 53) := by ring
    _ ≤ 1 / rate * (1 / 8) := mul_le_mul_of_nonneg_left (by norm_num) (by positivity)
    _ = 1 / (8 * rate) := by
      rw [one_div_mul_one_div, mul_comm]

/-- How far a quotient is from `k` when it is not half way to the next number. -/
theorem abs_div_sub_le {s k r : ℕ} (h0 : 0 < r) (hk : 2 * |(s : ℤ) - k * r| < r) :
    |(s : ℚ) / r - k| ≤ 1 / 2 - 1 / (2 * r) := by
  have hpos : (0 : ℚ) < r := by exact_mod_cast h0
  have hk' : 2 * |(s : ℤ) - k * r| + 1 ≤ r := by omega
  have hcast : 2 * |(s : ℚ) - k * r| + 1 ≤ r := by exact_mod_cast hk'
  have hdiv : (s : ℚ) / r - k = (s - k * r) / r := by
    rw [sub_div, mul_div_cancel_right₀ _ hpos.ne']
  have hhalf : 1 / (2 * (r : ℚ)) * r = 1 / 2 := by
    rw [one_div, mul_inv, mul_assoc, inv_mul_cancel₀ hpos.ne']
    norm_num
  rw [hdiv, abs_div, abs_of_pos hpos, div_le_iff₀ hpos, sub_mul, hhalf]
  linarith

/-- Where the interval does not end on half a nanosecond, the error of the `f64` does not matter. -/
theorem minInterval_eq {k : ℕ} (h0 : 0 < rate) (h : rate < 2 ^ 32)
    (hk : 2 * |(secs 1 : ℤ) - k * rate| < rate) : (CommandRateLimiter.new rate).minInterval = k := by
  have hround : Strtod.roundEven (Strtod.nearest (1 / rate) * secs 1) = (k : ℤ) := by
    apply Strtod.roundEven_eq
    have hpos : (0 : ℚ) < rate := by exact_mod_cast h0
    have herror := abs_interval_sub_le h0 h
    have hdist := abs_div_sub_le h0 hk
    have hsum := abs_add_le (Strtod.nearest (1 / rate) * secs 1 - secs 1 / rate)
      ((secs 1 : ℚ) / rate - k)
    rw [sub_add_sub_cancel] at hsum
    have hsmall : 1 / (8 * (rate : ℚ)) < 1 / (2 * rate) :=
      one_div_lt_one_div_of_lt (by positivity) (by linarith)
    rw [Int.cast_natCast]
    linarith
  rw [CommandRateLimiter.new, hround, Int.toNat_natCast]

theorem minInterval_down (h : rate < 2 ^ 32) (hdown : 2 * (secs 1 % rate) < rate) :
    (CommandRateLimiter.new rate).minInterval = secs 1 / rate := by
  apply minInterval_eq (by omega) h
  have hrest : (secs 1 : ℤ) - (secs 1 / rate : ℕ) * rate = (secs 1 % rate : ℕ) := by
    rw [sub_eq_iff_eq_add, ← Nat.cast_mul, ← Nat.cast_add, Nat.mul_comm, Nat.mod_add_div]
  rw [hrest, abs_of_nonneg (Nat.cast_nonneg _)]
  exact_mod_cast hdown

theorem minInterval_up (h0 : 0 < rate) (h : rate < 2 ^ 32) (hup : rate < 2 * (secs 1 % rate)) :
    (CommandRateLimiter.new rate).minInterval = secs 1 / rate + 1 := by
  apply minInterval_eq h0 h
  have hmod : ((secs 1 % rate : ℕ) : ℤ) < rate := by exact_mod_cast Nat.mod_lt (secs 1) h0
  have hup' : (rate : ℤ) < 2 * (secs 1 % rate : ℕ) := by exact_mod_cast hup
  have hrest : (secs 1 : ℤ) - (secs 1 / rate + 1 : ℕ) * rate = (secs 1 % rate : ℕ) - rate := by
    have hdivmod : (secs 1 : ℤ) = (secs 1 % rate : ℕ) + (secs 1 / rate : ℕ) * rate := by
      rw [← Nat.cast_mul, ← Nat.cast_add, Nat.mul_comm, Nat.mod_add_div]
    rw [Nat.cast_add, Nat.cast_one, add_mul, one_mul]
    linarith
  rw [hrest, abs_of_neg (by omega)]
  omega

/-- The interval ends on half a nanosecond for the powers of five times 1024 alone. -/
theorem tie_eq (h0 : 0 < rate) (htie : 2 * (secs 1 % rate) = rate) :
    ∃ j < 10, rate = 2 ^ 10 * 5 ^ j := by
  have hdivmod := Nat.div_add_mod (secs 1) rate
  have hrest : 0 < secs 1 % rate := by omega
  -- twice a second is an odd multiple of the rate
  have hodd : secs 1 % rate * (2 * (secs 1 / rate) + 1) = 2 ^ 9 * 5 ^ 9 := by
    calc secs 1 % rate * (2 * (secs 1 / rate) + 1)
        = 2 * (secs 1 % rate) * (secs 1 / rate) + secs 1 % rate := by ring
      _ = rate * (secs 1 / rate) + secs 1 % rate := by rw [htie]
      _ = secs 1 := hdivmod
      _ = 2 ^ 9 * 5 ^ 9 := by norm_num [secs]
  generalize secs 1 % rate = e at htie hrest hodd
  generalize secs 1 / rate = d at hodd
  have hpow : 2 ^ 9 ∣ e := by
    have hcoprime : Nat.Coprime (2 ^ 9) (2 * d + 1) := by
      apply Nat.Coprime.pow_left
      exact (Nat.coprime_two_left).mpr ⟨d, rfl⟩
    exact hcoprime.dvd_of_dvd_mul_right (hodd ▸ Dvd.intro _ rfl)
  obtain ⟨f, rfl⟩ := hpow
  have hfive : f * (2 * d + 1) = 5 ^ 9 := by
    apply Nat.eq_of_mul_eq_mul_left (show 0 < 2 ^ 9 by norm_num)
    rw [← hodd, Nat.mul_assoc]
  obtain ⟨j, hj, rfl⟩ := (Nat.dvd_prime_pow Nat.prime_five).mp (Dvd.intro _ hfive)
  exact ⟨j, by omega, by rw [← htie]; ring⟩

/-- Which of these the `f64` rounds up. -/
theorem tie_rounds : ∀ j < 10, secs 1 ≤ 2 ^ 10 * 5 ^ j *
    (CommandRateLimiter.new (2 ^ 10 * 5 ^ j)).minInterval ↔ 2 ^ 10 * 5 ^ j ∈ tiesUp := by
  decide +kernel

theorem tie_of_mem : ∀ r ∈ tiesUp, 2 * (secs 1 % r) = r := by decide

/-- The interval of a rate is long enough for it exactly where it is rounded up. -/
theorem rate_mul_minInterval (h0 : 0 < rate) (h : rate < 2 ^ 32) :
    secs 1 ≤ rate * (CommandRateLimiter.new rate).minInterval ↔ RoundsUp rate := by
  have hdivmod := Nat.div_add_mod (secs 1) rate
  have hmod := Nat.mod_lt (secs 1) h0
  rcases lt_trichotomy (2 * (secs 1 % rate)) rate with hdown | htie | hup
  · have hnot : rate ∉ tiesUp := fun hmem => hdown.ne (tie_of_mem rate hmem)
    rw [minInterval_down h hdown]
    unfold RoundsUp
    generalize secs 1 % rate = e at hdivmod hmod hdown ⊢
    constructor
    · exact fun hle => .inl (by omega)
    · rintro (rfl | hup | hmem)
      · omega
      · omega
      · exact absurd hmem hnot
  · obtain ⟨j, hj, rfl⟩ := tie_eq h0 htie
    rw [tie_rounds j hj]
    unfold RoundsUp
    constructor
    · exact fun hmem => .inr (.inr hmem)
    · rintro (hzero | hup | hmem)
      · omega
      · omega
      · exact hmem
  · rw [minInterval_up h0 h hup]
    have hlong : secs 1 ≤ rate * (secs 1 / rate + 1) := by
      rw [Nat.mul_add, Nat.mul_one]
      omega
    exact ⟨fun _ => .inr (.inl hup), fun _ => hlong⟩

end

/-- A limiter that has granted these times, by the time `now`. -/
structure Paced (m : ℕ) (now : ℕ) (t : Granting) : Prop where
  minInterval : t.limiter.minInterval = m
  past : ∀ last : ℕ, last ∈ t.limiter.lastSent → last ≤ now
  behind : ∀ a ∈ t.granted, ∃ last : ℕ, last ∈ t.limiter.lastSent ∧ a ≤ last
  spaced : Spaced m t.granted

section
variable {m : ℕ} {now later : ℕ} {t : Granting}

theorem Paced.granted_le (h : Paced m now t) : ∀ a ∈ t.granted, a ≤ now := by
  intro a ha
  obtain ⟨last, hlast, hle⟩ := h.behind a ha
  exact hle.trans (h.past last hlast)

theorem Paced.mono (h : Paced m now t) (hle : now ≤ later) : Paced m later t :=
  { h with past := fun last hlast => (h.past last hlast).trans hle }

/-- The reference point moves, whether by a grant or by force. -/
theorem Paced.forced (h : Paced m now t) (hle : now ≤ later) :
    Paced m later { t with limiter := t.limiter.forceSend later } where
  minInterval := h.minInterval
  past := by
    rintro last hlast
    cases hlast
    exact le_rfl
  behind a ha := ⟨later, rfl, (h.granted_le a ha).trans hle⟩
  spaced := h.spaced

theorem Paced.granting (h : Paced m now t) (hle : now ≤ later)
    (hfar : ∀ last : ℕ, last ∈ t.limiter.lastSent → m ≤ later - last) :
    Paced m later ⟨t.limiter.forceSend later, t.granted ++ [later]⟩ := by
  have hforced := h.forced hle
  refine ⟨hforced.minInterval, hforced.past, fun a ha => ?_, ?_⟩
  · rcases List.mem_append.mp ha with hold | hnew
    · exact hforced.behind a hold
    · exact ⟨later, rfl, (List.mem_singleton.mp hnew).le⟩
  · rw [spaced_concat]
    refine ⟨h.spaced, fun a ha => ?_⟩
    obtain ⟨last, hlast, hbefore⟩ := h.behind a ha
    have hpast := h.past last hlast
    have hgap := hfar last hlast
    omega

theorem Paced.call {c : LimiterCall} (h : Paced m now t) (hle : now ≤ later) :
    Paced m later (t.call (c, later)) := by
  cases c with
  | forceSend => exact h.forced hle
  | trySend =>
    simp only [Granting.call, CommandRateLimiter.trySend]
    split
    case h_1 hnone => exact h.granting hle (by simp [hnone])
    case h_2 last hsome =>
      split
      case isTrue hfar =>
        refine h.granting hle fun last' hlast' => ?_
        rw [hsome] at hlast'
        cases hlast'
        rwa [h.minInterval] at hfar
      case isFalse =>
        have hkept := h.mono hle
        exact ⟨hkept.minInterval, hkept.past, hkept.behind, hkept.spaced⟩

theorem call_counted (t : Granting) (call : LimiterCall × ℕ) :
    (t.call call).limiter.sentCount + (t.call call).limiter.droppedCount =
      t.limiter.sentCount + t.limiter.droppedCount + 1 := by
  obtain ⟨c, now⟩ := call
  cases c with
  | forceSend =>
    simp only [Granting.call, CommandRateLimiter.forceSend]
    omega
  | trySend =>
    simp only [Granting.call, CommandRateLimiter.trySend]
    split
    · simp only [CommandRateLimiter.forceSend]
      omega
    · split
      · simp only [CommandRateLimiter.forceSend]
        omega
      · dsimp only
        omega

end

section
variable {rate : ℕ} {calls : List (LimiterCall × ℕ)}

theorem after_concat (rate : ℕ) (calls : List (LimiterCall × ℕ))
    (call : LimiterCall × ℕ) :
    Granting.after rate (calls ++ [call]) = (Granting.after rate calls).call call := by
  rw [Granting.after, List.foldl_append]
  rfl

theorem after_paced (rate : ℕ) (h : Ordered calls) : ∀ later, (∀ call ∈ calls, call.2 ≤ later) →
    Paced (CommandRateLimiter.new rate).minInterval later (Granting.after rate calls) := by
  induction calls using List.reverseRecOn with
  | nil => exact fun later _ => ⟨rfl, by simp [Granting.after, Granting.new, CommandRateLimiter.new],
      by simp [Granting.after, Granting.new], spaced_nil⟩
  | append_singleton calls call ih =>
    intro later hlater
    obtain ⟨hcalls, -, hlast⟩ := List.pairwise_append.mp h
    rw [after_concat]
    have hbefore := ih hcalls call.2 fun c hc => hlast c hc call List.mem_cons_self
    exact (hbefore.call le_rfl).mono (hlater call (by simp))

theorem after_counted (rate : ℕ) (calls : List (LimiterCall × ℕ)) :
    (Granting.after rate calls).limiter.sentCount +
      (Granting.after rate calls).limiter.droppedCount = calls.length := by
  induction calls using List.reverseRecOn with
  | nil => rfl
  | append_singleton calls call ih =>
    rw [after_concat, call_counted, ih, List.length_append]
    rfl

theorem within_length_le (hlong : secs 1 ≤ rate * (CommandRateLimiter.new rate).minInterval)
    (h : Ordered calls) (t : ℕ) :
    (within t (Granting.after rate calls).granted).length ≤ rate := by
  obtain ⟨later, hlater⟩ : ∃ later, ∀ call ∈ calls, call.2 ≤ later := by
    refine ⟨(calls.map (·.2)).sum, fun call hcall => ?_⟩
    exact List.single_le_sum (fun _ _ => Nat.zero_le _) _ (List.mem_map_of_mem hcall)
  have hspaced := (after_paced rate h later hlater).spaced.sublist
    (List.filter_sublist (p := fun a => decide (t ≤ a ∧ a < t + secs 1)))
  have hwithin : ∀ a ∈ within t (Granting.after rate calls).granted, t ≤ a ∧ a < t + secs 1 :=
    fun a ha => of_decide_eq_true (List.mem_filter.mp ha).2
  have hsecs : 0 < secs 1 := by decide
  have hend : ∀ a ∈ within t (Granting.after rate calls).granted, a ≤ t + secs 1 - 1 := by
    intro a ha
    have hin := hwithin a ha
    omega
  refine Spaced.length_le hspaced hend fun a ha => ?_
  have hin := hwithin a ha
  omega

/-- `try_send` as often as it says yes. -/
def greedy (m n : ℕ) : List (LimiterCall × ℕ) :=
  (List.range n).map fun k => (.trySend, k * m)

theorem ordered_greedy (m n : ℕ) : Ordered (greedy m n) := by
  rw [Ordered, greedy, List.pairwise_map]
  exact List.pairwise_lt_range.imp fun hlt => Nat.mul_le_mul_right m hlt.le

theorem greedy_succ (m n : ℕ) : greedy m (n + 1) = greedy m n ++ [(.trySend, n * m)] := by
  rw [greedy, List.range_succ, List.map_append]
  rfl

theorem trySend_far {l : CommandRateLimiter} {now : ℕ}
    (hfar : ∀ last : ℕ, last ∈ l.lastSent → l.minInterval ≤ now - last) :
    l.trySend now = (true, l.forceSend now) := by
  unfold CommandRateLimiter.trySend
  cases hlast : l.lastSent with
  | none => rfl
  | some last => exact if_pos (hfar last hlast)

theorem after_greedy (rate n : ℕ) :
    (∀ last : ℕ, last ∈ (Granting.after rate
        (greedy (CommandRateLimiter.new rate).minInterval n)).limiter.lastSent →
          last + (CommandRateLimiter.new rate).minInterval =
            n * (CommandRateLimiter.new rate).minInterval) ∧
      (Granting.after rate (greedy (CommandRateLimiter.new rate).minInterval n)).granted =
        (List.range n).map (· * (CommandRateLimiter.new rate).minInterval) := by
  generalize hm : (CommandRateLimiter.new rate).minInterval = m
  induction n with
  | zero => exact ⟨fun last hlast => absurd hlast (Option.not_mem_none last), rfl⟩
  | succ n ih =>
    obtain ⟨hlast, hgranted⟩ := ih
    have hinterval : (Granting.after rate (greedy m n)).limiter.minInterval = m := by
      have hpaced := after_paced rate (ordered_greedy m n) (n * m) (by
        intro call hcall
        obtain ⟨k, hk, rfl⟩ := List.mem_map.mp hcall
        exact Nat.mul_le_mul_right m (List.mem_range.mp hk).le)
      exact hpaced.minInterval.trans hm
    have htry : (Granting.after rate (greedy m n)).limiter.trySend (n * m) =
        (true, (Granting.after rate (greedy m n)).limiter.forceSend (n * m)) := by
      apply trySend_far
      intro last hmem
      have hat := hlast last hmem
      omega
    rw [greedy_succ, after_concat]
    simp only [Granting.call, htry, if_true]
    refine ⟨fun last hmem => ?_, ?_⟩
    · cases hmem
      rw [Nat.succ_mul]
    · rw [hgranted, List.range_succ, List.map_append]
      rfl

end

/-- The limiter keeps to its rate exactly where the interval is rounded up. -/
theorem keepsRate_iff (rateHz : ℕ) (h0 : 0 < rateHz) (h : rateHz < 2 ^ 32) :
    (∀ calls, Ordered calls → KeepsRate rateHz calls) ↔ RoundsUp rateHz := by
  rw [← rate_mul_minInterval h0 h]
  constructor
  · intro hkeeps
    by_contra hshort
    have hshort := not_le.mp hshort
    generalize hm : (CommandRateLimiter.new rateHz).minInterval = m at hshort
    have hrate := (hkeeps _ (ordered_greedy m (rateHz + 1))).rate 0
    have hgranted := (after_greedy rateHz (rateHz + 1)).2
    rw [hm] at hgranted
    -- one more than the rate allows is granted within the first second
    have hall : within 0 (Granting.after rateHz (greedy m (rateHz + 1))).granted =
        (List.range (rateHz + 1)).map (· * m) := by
      rw [within, hgranted, List.filter_eq_self]
      intro a ha
      obtain ⟨k, hk, rfl⟩ := List.mem_map.mp ha
      have hk := List.mem_range.mp hk
      have hle : k * m ≤ rateHz * m := Nat.mul_le_mul_right m (by omega)
      simp only [Nat.zero_le, Nat.zero_add, true_and, decide_eq_true_eq]
      omega
    rw [hall, List.length_map, List.length_range] at hrate
    omega
  · exact fun hlong calls hordered =>
      ⟨within_length_le hlong hordered, after_counted rateHz calls⟩

theorem keepsRate_iff_ten :
    (∀ calls, Ordered calls → KeepsRate 10 calls) ↔ RoundsUp 10 :=
  keepsRate_iff 10 (by decide) (by decide)

/-- A third of a second ends below itself. -/
theorem three_hertz_exceeded :
    ¬ ∀ rateHz, 0 < rateHz → rateHz < 2 ^ 32 → ∀ calls, Ordered calls → KeepsRate rateHz calls := by
  intro h
  have hkeeps := h 3 (by decide) (by decide) (greedy 333333333 4) (ordered_greedy _ _)
  have hrate := hkeeps.rate 0
  revert hrate
  decide +kernel

end AutoTargeting.Control
