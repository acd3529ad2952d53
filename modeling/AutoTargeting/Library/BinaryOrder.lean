import AutoTargeting.Library.Binary
import Mathlib.Order.WithBot

namespace Binary

namespace Format

variable (f : Format)

def value (bits : ℕ) : WithBot (WithTop ℚ) :=
  match f.decode bits with
  | some v => ((v : WithTop ℚ) : WithBot (WithTop ℚ))
  | none => if bits / f.signBit = 0 then ((⊤ : WithTop ℚ) : WithBot (WithTop ℚ)) else ⊥

/-- `x < y`, which is false for a NaN. -/
def less (x y : ℕ) : Bool := !f.isNaN x && !f.isNaN y && decide (f.value x < f.value y)

def negInfinity : ℕ := f.signBit + f.infinity

variable {f} {x y : ℕ}

theorem less_iff (hx : f.isNaN x = false) (hy : f.isNaN y = false) :
    f.less x y = true ↔ f.value x < f.value y := by
  rw [less, hx, hy]
  exact decide_eq_true_iff

theorem negInfinity_mod (f : Format) : f.negInfinity % f.signBit = f.infinity := by
  rw [negInfinity, Nat.add_mod_left, Nat.mod_eq_of_lt f.infinity_lt_signBit]

theorem negInfinity_div (f : Format) : f.negInfinity / f.signBit = 1 := by
  rw [negInfinity, Nat.add_div_left _ f.signBit_pos, Nat.div_eq_of_lt f.infinity_lt_signBit]

theorem not_nan_negInfinity (f : Format) : f.isNaN f.negInfinity = false := by
  rw [isNaN, negInfinity_mod]
  exact decide_eq_false (lt_irrefl _)

theorem value_negInfinity (f : Format) : f.value f.negInfinity = ⊥ := by
  have hdecode : f.decode f.negInfinity = none := by
    rw [decode, negInfinity_mod, if_neg (lt_irrefl _)]
  rw [value, hdecode, negInfinity_div]
  rfl

/-- No other bits stand for minus infinity. -/
theorem eq_negInfinity (hx : x < 2 * f.signBit) (hnan : f.isNaN x = false)
    (h : f.value x = ⊥) : x = f.negInfinity := by
  have hle : x % f.signBit ≤ f.infinity := not_lt.mp (of_decide_eq_false hnan)
  unfold value at h
  split at h
  case h_1 => cases h
  case h_2 hdecode =>
    have hinfinite : x % f.signBit = f.infinity := by
      unfold decode at hdecode
      split_ifs at hdecode with hfinite
      exact le_antisymm hle (not_lt.mp hfinite)
    by_cases hsign : x / f.signBit = 0
    · rw [if_pos hsign] at h
      cases h
    · have hone : x / f.signBit = 1 := by
        have htwo : x / f.signBit < 2 := Nat.div_lt_of_lt_mul (by rwa [Nat.mul_comm])
        exact le_antisymm (Nat.le_of_lt_succ htwo) (Nat.pos_of_ne_zero hsign)
      have hsplit := Nat.div_add_mod x f.signBit
      rw [hone, hinfinite, Nat.mul_one] at hsplit
      exact hsplit.symm

/-- What is not greater than minus infinity is minus infinity. -/
theorem eq_of_not_less_negInfinity (hx : x < 2 * f.signBit) (hnan : f.isNaN x = false)
    (h : f.less f.negInfinity x = false) : x = f.negInfinity := by
  apply eq_negInfinity hx hnan
  have hnot : ¬ f.value f.negInfinity < f.value x := by
    rw [← less_iff (not_nan_negInfinity f) hnan, h]
    exact Bool.false_ne_true
  rw [value_negInfinity, bot_lt_iff_ne_bot, not_not] at hnot
  exact hnot

end Format

def f32Less (x y : UInt32) : Bool := binary32.less x.toNat y.toNat

def f32NegInfinity : UInt32 := 0xFF800000

def f32IsNaN (x : UInt32) : Bool := binary32.isNaN x.toNat

def f32Value (x : UInt32) : WithBot (WithTop ℚ) := binary32.value x.toNat

/-- The two zeros are not told apart, and a NaN is neither less nor greater. -/
example : f32Less 0x80000000 0 = false ∧ f32Less 0 0x80000000 = false ∧
    f32Less f32NegInfinity 0x7FC00000 = false ∧ f32Less 0x7F7FFFFF 0x7F800000 = true := by
  decide +kernel

variable {x y : UInt32}

theorem f32Less_iff (hx : f32IsNaN x = false) (hy : f32IsNaN y = false) :
    f32Less x y = true ↔ f32Value x < f32Value y := Format.less_iff hx hy

theorem eq_f32NegInfinity (hx : f32IsNaN x = false) (h : f32Less f32NegInfinity x = false) :
    x = f32NegInfinity := by
  apply UInt32.toNat_inj.mp
  exact Format.eq_of_not_less_negInfinity (f := binary32) x.toNat_lt hx h

end Binary
