import Mathlib.Algebra.Group.Nat.Defs
import Mathlib.Data.Char
import Mathlib.Data.List.Lex
import Mathlib.Data.Nat.Basic
import Mathlib.Order.Nat

namespace DecimalOrder

def digits (n : ℕ) : List Char := Nat.toDigits 10 n

/-- What may stand behind a number: nothing, or a character before the digits. -/
def Ends (s : List Char) : Prop := ∀ c ∈ s.head?, c < '0'

/-- The smaller of two numbers is no larger than what the other one begins with. -/
def Agrees (x y : ℕ) : Prop :=
  min x y ≤ max x y / 10 ^ ((digits (max x y)).length - (digits (min x y)).length)

instance (x y : ℕ) : Decidable (Agrees x y) := inferInstanceAs (Decidable (_ ≤ _))

variable {x y n j : ℕ} {s t : List Char}

theorem digits_of_lt (h : n < 10) : digits n = [n.digitChar] := Nat.toDigits_of_lt_base h

theorem digits_step (h : 10 ≤ n) : digits n = digits (n / 10) ++ [(n % 10).digitChar] :=
  Nat.toDigits_of_base_le (by decide) h

theorem length_digits_pos (n : ℕ) : 0 < (digits n).length := Nat.length_toDigits_pos

theorem length_digits_mono (h : x ≤ y) : (digits x).length ≤ (digits y).length := by
  have hbase : 1 < 10 := by decide
  apply (Nat.length_toDigits_le_iff hbase (length_digits_pos y)).mpr
  exact h.trans_lt ((Nat.length_toDigits_le_iff hbase (length_digits_pos y)).mp le_rfl)

theorem digitChar_lt : ∀ b < 10, ∀ a < b, a.digitChar < b.digitChar := by decide

/-- Numbers of one length are in the order of their first different digits. -/
theorem lt_of_length_eq (hlen : (digits x).length = (digits y).length) (hlt : x < y)
    (s t : List Char) : digits x ++ s < digits y ++ t := by
  induction y using Nat.strong_induction_on generalizing x s t with
  | h y ih =>
    by_cases hy : y < 10
    · rw [digits_of_lt hy, digits_of_lt (hlt.trans hy), List.singleton_append,
        List.singleton_append, List.cons_lt_cons_iff]
      exact .inl (digitChar_lt y hy x hlt)
    · have hy : 10 ≤ y := not_lt.mp hy
      have hx : 10 ≤ x := by
        by_contra hx
        have hpos := length_digits_pos (y / 10)
        rw [digits_of_lt (not_le.mp hx), digits_step hy, List.length_append] at hlen
        simp only [List.length_singleton] at hlen
        omega
      rw [digits_step hx, digits_step hy, List.append_assoc, List.append_assoc]
      rcases (Nat.div_le_div_right hlt.le : x / 10 ≤ y / 10).lt_or_eq with hfirst | hsame
      · apply ih (y / 10) (by omega) ?_ hfirst
        rw [digits_step hx, digits_step hy] at hlen
        simpa using hlen
      · rw [hsame]
        apply List.append_left_lt
        rw [List.singleton_append, List.singleton_append, List.cons_lt_cons_iff]
        exact .inl (digitChar_lt _ (by omega) _ (by omega))

/-- The last digits, and the number that stands before them. -/
theorem exists_rest (h : j < (digits n).length) : ∃ rest, digits n = digits (n / 10 ^ j) ++ rest ∧
    rest.length = j ∧ ∀ c ∈ rest, c.isDigit = true := by
  induction j generalizing n with
  | zero => exact ⟨[], by simp, rfl, nofun⟩
  | succ j ih =>
    have hn : 10 ≤ n := by
      by_contra hn
      rw [digits_of_lt (not_le.mp hn)] at h
      simp at h
    rw [digits_step hn, List.length_append] at h
    obtain ⟨rest, hrest, hlen, hdigits⟩ := ih (n := n / 10) (by simpa using h)
    refine ⟨rest ++ [(n % 10).digitChar], ?_, by simp [hlen], ?_⟩
    · rw [digits_step hn, hrest, Nat.div_div_eq_div_mul, ← Nat.pow_succ', List.append_assoc]
    · intro c hc
      rcases List.mem_append.mp hc with hold | hnew
      · exact hdigits c hold
      · rw [List.mem_singleton.mp hnew, Nat.isDigit_digitChar]
        exact decide_eq_true (Nat.mod_lt n (by decide))

/-- An end is before any digits. -/
theorem lt_of_ends {rest : List Char} (hs : Ends s) (hne : rest ≠ [])
    (hdigits : ∀ c ∈ rest, c.isDigit = true) : s < rest ++ t := by
  obtain ⟨d, rest, rfl⟩ := List.exists_cons_of_ne_nil hne
  have hd : '0' ≤ d := by
    have hdigit := hdigits d List.mem_cons_self
    simp only [Char.isDigit, Bool.and_eq_true, decide_eq_true_eq] at hdigit
    exact hdigit.1
  cases s with
  | nil => exact List.nil_lt_cons _ _
  | cons c s =>
    rw [List.cons_append, List.cons_lt_cons_iff]
    exact .inl (lt_of_lt_of_le (hs c rfl) hd)

/-- The larger number, cut to the length of the smaller one. -/
theorem exists_prefix (hlt : x < y) : ∃ rest,
    digits y = digits (y / 10 ^ ((digits y).length - (digits x).length)) ++ rest ∧
      (digits (y / 10 ^ ((digits y).length - (digits x).length))).length = (digits x).length ∧
      (x = y / 10 ^ ((digits y).length - (digits x).length) → rest ≠ []) ∧
      ∀ c ∈ rest, c.isDigit = true := by
  have hx := length_digits_pos x
  have hmono := length_digits_mono hlt.le
  obtain ⟨rest, hrest, hlen, hdigits⟩ :=
    exists_rest (n := y) (j := (digits y).length - (digits x).length) (by omega)
  refine ⟨rest, hrest, ?_, ?_, hdigits⟩
  · have hsum := congrArg List.length hrest
    rw [List.length_append, hlen] at hsum
    omega
  · rintro hsame rfl
    rw [← hlen, List.length_nil, Nat.pow_zero, Nat.div_one] at hsame
    omega

theorem agrees_iff (hlt : x < y) :
    Agrees x y ↔ x ≤ y / 10 ^ ((digits y).length - (digits x).length) := by
  rw [Agrees, min_eq_left hlt.le, max_eq_right hlt.le]

theorem agrees_comm : Agrees x y ↔ Agrees y x := by
  rw [Agrees, Agrees, min_comm, max_comm]

theorem lt_of_agrees (hlt : x < y) (h : Agrees x y) (hs : Ends s) :
    digits x ++ s < digits y ++ t := by
  rw [agrees_iff hlt] at h
  obtain ⟨rest, hrest, hlen, hne, hdigits⟩ := exists_prefix hlt
  rw [hrest, List.append_assoc]
  rcases h.lt_or_eq with hbefore | hsame
  · exact lt_of_length_eq hlen.symm hbefore _ _
  · rw [← hsame]
    exact List.append_left_lt (lt_of_ends hs (hne hsame) hdigits)

theorem gt_of_not_agrees (hlt : x < y) (h : ¬ Agrees x y) : digits y ++ t < digits x ++ s := by
  rw [agrees_iff hlt] at h
  obtain ⟨rest, hrest, hlen, -, -⟩ := exists_prefix hlt
  rw [hrest, List.append_assoc]
  exact lt_of_length_eq hlen (not_le.mp h) _ _

/-- Where two numbers differ, their texts are in the same order if they agree, and in the other
order if they do not. -/
theorem digits_lt_iff (hne : x ≠ y) (hs : Ends s) (ht : Ends t) :
    digits x ++ s < digits y ++ t ↔ (x < y ↔ Agrees x y) := by
  rcases Nat.lt_or_gt_of_ne hne with hlt | hgt
  · rw [iff_true_left hlt]
    constructor
    · intro hless
      by_contra hnot
      exact absurd hless (gt_of_not_agrees hlt hnot).asymm
    · exact fun h => lt_of_agrees hlt h hs
  · rw [iff_false_left hgt.asymm, agrees_comm]
    constructor
    · intro hless h
      exact absurd hless (lt_of_agrees hgt h ht).asymm
    · exact gt_of_not_agrees hgt

end DecimalOrder
