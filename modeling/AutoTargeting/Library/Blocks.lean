import Mathlib.Data.List.Basic

namespace Blocks

variable {α : Type*} {g : ℕ → List α} {m n k c : ℕ}

theorem length_flatMap_range (hg : ∀ k < n, (g k).length = m) :
    ((List.range n).flatMap g).length = n * m := by
  induction n with
  | zero => simp
  | succ n ih =>
    rw [List.range_succ, List.flatMap_append, List.length_append,
      ih fun k hk => hg k (by omega), List.flatMap_singleton, hg n (Nat.lt_succ_self n),
      Nat.succ_mul]

theorem getElem?_flatMap_range (hg : ∀ k < n, (g k).length = m) (hk : k < n) (hc : c < m) :
    ((List.range n).flatMap g)[k * m + c]? = (g k)[c]? := by
  induction n with
  | zero => omega
  | succ n ih =>
    have hlen := length_flatMap_range (g := g) fun k hk => hg k (Nat.lt_succ_of_lt hk)
    rw [List.range_succ, List.flatMap_append, List.flatMap_singleton]
    rcases Nat.lt_succ_iff_lt_or_eq.mp hk with hlt | rfl
    · have hmul : (k + 1) * m ≤ n * m := Nat.mul_le_mul_right _ hlt
      rw [Nat.succ_mul] at hmul
      rw [List.getElem?_append_left (by omega)]
      exact ih (fun k hk => hg k (Nat.lt_succ_of_lt hk)) hlt
    · rw [List.getElem?_append_right (by omega), hlen, Nat.add_sub_cancel_left]

theorem take_drop_flatMap_range (hg : ∀ k < n, (g k).length = m) (hk : k < n) :
    (((List.range n).flatMap g).drop (k * m)).take m = g k := by
  apply List.ext_getElem?
  intro c
  by_cases hc : c < m
  · rw [List.getElem?_take_of_lt hc, List.getElem?_drop, getElem?_flatMap_range hg hk hc]
  · rw [List.getElem?_eq_none, List.getElem?_eq_none]
    · rw [hg k hk]
      omega
    · rw [List.length_take]
      omega

theorem flatMap_range_take (l : List α) (m n : ℕ) :
    ((List.range n).flatMap fun k => (l.drop (k * m)).take m) = l.take (n * m) := by
  induction n with
  | zero => simp
  | succ n ih =>
    rw [List.range_succ, List.flatMap_append, List.flatMap_singleton, ih, Nat.succ_mul,
      List.take_add]

theorem flatMap_range_pairs (g : ℕ → List α) (n : ℕ) :
    (List.range (2 * n)).flatMap g =
      (List.range n).flatMap fun k => g (2 * k) ++ g (2 * k + 1) := by
  induction n with
  | zero => rfl
  | succ n ih =>
    rw [Nat.mul_succ, List.range_succ, List.range_succ, List.range_succ, List.flatMap_append,
      List.flatMap_append, List.flatMap_append, ih, List.append_assoc]
    simp only [List.flatMap_singleton]

end Blocks
