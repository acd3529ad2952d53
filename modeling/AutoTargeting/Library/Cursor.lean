import Mathlib.Data.List.TakeWhile
import Mathlib.Order.Monotone.Basic

/-- A cursor moves once over a list whose items name a step each. In step `n` it passes items
as long as they name `n`: an item that names another step stops it until that step comes. -/
def cursor {α : Type*} (step : α → ℕ) (xs : List α) : ℕ → ℕ
  | 0 => 0
  | n + 1 =>
    cursor step xs n + ((xs.drop (cursor step xs n)).takeWhile (step · = n)).length

namespace Cursor
variable {α : Type*} {step : α → ℕ} {xs : List α} {n m d i : ℕ}

/-- Below `d`, no item names an earlier step than one before it. -/
def InOrderBelow (step : α → ℕ) (xs : List α) (d : ℕ) : Prop :=
  ∀ j (hj : j < xs.length), step xs[j] < d → ∀ i (hi : i < j), step xs[i] ≤ step xs[j]

theorem getElem_of_lt_length_takeWhile (p : α → Bool) (l : List α)
    (hi : i < (l.takeWhile p).length) (hl : i < l.length) : p l[i] = true := by
  have hmem : (l.takeWhile p)[i] ∈ l.takeWhile p := List.getElem_mem hi
  have hp := List.mem_takeWhile_imp hmem
  rwa [(List.takeWhile_prefix p).getElem hi] at hp

theorem not_getElem_length_takeWhile (p : α → Bool) (l : List α)
    (h : (l.takeWhile p).length < l.length) : p l[(l.takeWhile p).length] = false := by
  induction l with
  | nil => simp at h
  | cons a l ih =>
    by_cases ha : p a = true
    · simp only [List.takeWhile_cons_of_pos ha, List.length_cons] at h ⊢
      exact ih (by omega)
    · simp only [List.takeWhile_cons_of_neg ha, List.length_nil, List.getElem_cons_zero]
      simpa using ha

theorem cursor_le_succ (n : ℕ) : cursor step xs n ≤ cursor step xs (n + 1) := by
  simp [cursor]

theorem cursor_mono (h : n ≤ m) : cursor step xs n ≤ cursor step xs m :=
  monotone_nat_of_le_succ cursor_le_succ h

/-- What the cursor passes in step `n` names `n`. -/
theorem step_of_passed (hle : cursor step xs n ≤ i) (hlt : i < cursor step xs (n + 1))
    (hi : i < xs.length) : step xs[i] = n := by
  simp only [cursor] at hlt
  have h := getElem_of_lt_length_takeWhile (step · = n) (xs.drop (cursor step xs n))
    (show i - cursor step xs n < _ by omega) (by rw [List.length_drop]; omega)
  rw [List.getElem_drop] at h
  simpa [Nat.add_sub_cancel' hle] using h

/-- Where the cursor stands after step `n`, no item of that step stands. -/
theorem step_of_stopped (h : cursor step xs (n + 1) < xs.length) :
    step xs[cursor step xs (n + 1)] ≠ n := by
  have hlen : ((xs.drop (cursor step xs n)).takeWhile (step · = n)).length <
      (xs.drop (cursor step xs n)).length := by
    simp only [cursor] at h
    rw [List.length_drop]
    omega
  have hstop := not_getElem_length_takeWhile _ _ hlen
  rw [List.getElem_drop] at hstop
  simpa [cursor] using hstop

/-- Every item that the cursor has passed was passed in the step it names. -/
theorem passed_in_its_step (h : i < cursor step xs d) (hi : i < xs.length) :
    step xs[i] < d ∧ cursor step xs (step xs[i]) ≤ i ∧ i < cursor step xs (step xs[i] + 1) := by
  induction d with
  | zero => simp [cursor] at h
  | succ d ih =>
    by_cases hd : i < cursor step xs d
    · have hpassed := ih hd
      exact ⟨by omega, hpassed.2⟩
    · have hstep := step_of_passed (by omega) h hi
      rw [hstep]
      exact ⟨by omega, by omega, h⟩

/-- Where the list is in order, what the cursor has not passed is still to come. -/
theorem le_step_of_inOrder (ho : InOrderBelow step xs d) (hn : n ≤ d)
    (hle : cursor step xs n ≤ i) (hi : i < xs.length) : n ≤ step xs[i] := by
  induction n generalizing i with
  | zero => omega
  | succ n ih =>
    have hstay : cursor step xs n ≤ cursor step xs (n + 1) := cursor_le_succ n
    have hlow : n ≤ step xs[i] := ih (by omega) (by omega) hi
    have hstopAt : cursor step xs (n + 1) < xs.length := by omega
    have hstop := step_of_stopped hstopAt
    have hfirst : n ≤ step xs[cursor step xs (n + 1)] := ih (by omega) (by omega) hstopAt
    by_cases heq : cursor step xs (n + 1) = i
    · subst heq
      omega
    -- the item where the cursor stands would name a later step than item `i`
    · by_contra hlt
      have := ho i hi (by omega) _ (show cursor step xs (n + 1) < i by omega)
      omega

/-- The cursor passes every item that names a step below `d` exactly where these are in order. -/
theorem passes_all_iff :
    (∀ i (hi : i < xs.length), step xs[i] < d → i < cursor step xs d) ↔
      InOrderBelow step xs d := by
  constructor
  · intro h j hj hd i hij
    have hpj := (passed_in_its_step (h j hj hd) hj).2
    have hpi := (passed_in_its_step (Nat.lt_trans hij (h j hj hd)) (Nat.lt_trans hij hj)).2
    by_contra hlt
    have hmono : cursor step xs (step xs[j] + 1) ≤ cursor step xs (step xs[i]) := by
      apply cursor_mono
      omega
    omega
  · intro ho i hi hd
    by_contra hge
    have := le_step_of_inOrder ho le_rfl (not_lt.mp hge) hi
    omega

end Cursor
