import Mathlib.Data.List.DropRight

namespace Streaks

def hits (h : List Bool) : ℕ := h.count true

/-- The hits since the last miss. -/
def streak (h : List Bool) : ℕ := (h.rtakeWhile id).length

/-- The misses since the last hit. -/
def misses (h : List Bool) : ℕ := (h.rtakeWhile not).length

/-- There were `n` hits in a row. -/
def InARow (n : ℕ) (h : List Bool) : Prop := List.replicate n true <:+: h

instance (n : ℕ) (h : List Bool) : Decidable (InARow n h) :=
  inferInstanceAs (Decidable (List.replicate n true <:+: h))

variable {h : List Bool} {n : ℕ}

@[simp] theorem hits_hit : hits (h ++ [true]) = hits h + 1 := by simp [hits]

@[simp] theorem hits_miss : hits (h ++ [false]) = hits h := by simp [hits]

@[simp] theorem streak_hit : streak (h ++ [true]) = streak h + 1 := by
  simp [streak]

@[simp] theorem streak_miss : streak (h ++ [false]) = 0 := by
  simp [streak]

@[simp] theorem misses_hit : misses (h ++ [true]) = 0 := by
  simp [misses]

@[simp] theorem misses_miss : misses (h ++ [false]) = misses h + 1 := by
  simp [misses]

theorem misses_cons_le (h : List Bool) : misses (true :: h) ≤ h.length := by
  induction h using List.reverseRecOn with
  | nil => exact le_refl 0
  | append_singleton h b ih =>
    rw [← List.cons_append, List.length_append, List.length_singleton]
    cases b with
    | true =>
      rw [misses_hit]
      exact Nat.zero_le _
    | false =>
      rw [misses_miss]
      exact Nat.add_le_add_right ih 1

/-- All is missed since the first hit exactly if nothing else is in the history. -/
theorem misses_cons_eq_iff : misses (true :: h) = h.length ↔ h = List.replicate h.length false := by
  induction h using List.reverseRecOn with
  | nil => exact ⟨fun _ => rfl, fun _ => rfl⟩
  | append_singleton h b ih =>
    rw [← List.cons_append, List.length_append, List.length_singleton, List.replicate_succ']
    cases b with
    | true =>
      rw [misses_hit]
      simp
    | false =>
      rw [misses_miss, Nat.add_right_cancel_iff, ih, List.append_cancel_right_eq]

theorem replicate_suffix_iff : List.replicate n true <:+ h ↔ n ≤ streak h := by
  induction h using List.reverseRecOn generalizing n with
  | nil => simp [streak]
  | append_singleton h b ih =>
    cases n with
    | zero => simp
    | succ n =>
      rw [List.suffix_concat_iff]
      cases b with
      | false =>
        rw [streak_miss]
        simp [List.replicate_succ']
      | true =>
        rw [streak_hit, Nat.add_le_add_iff_right, ← ih]
        simp [List.replicate_succ']

/-- A row of hits ends with the last entry, or is older. -/
theorem inARow_hit : InARow n (h ++ [true]) ↔ InARow n h ∨ n ≤ streak h + 1 := by
  unfold InARow
  rw [List.infix_concat_iff, replicate_suffix_iff, streak_hit, or_comm]

theorem inARow_miss (hrow : InARow n h) : InARow n (h ++ [false]) :=
  hrow.trans (List.prefix_append h [false]).isInfix

/-- The next hit is hit number `count`, and no row of `n` hits has come about with it. -/
def Unearned (count n : ℕ) (h : List Bool) : Prop :=
  hits h + 1 = count ∧ ¬ InARow n h ∧ streak h + 1 < n

instance (count n : ℕ) (h : List Bool) : Decidable (Unearned count n h) :=
  inferInstanceAs (Decidable (_ ∧ ¬ InARow n h ∧ _))

theorem streak_le_hits (h : List Bool) : streak h ≤ hits h := by
  induction h using List.reverseRecOn with
  | nil => exact le_refl 0
  | append_singleton h b ih =>
    cases b with
    | true =>
      rw [streak_hit, hits_hit]
      exact Nat.add_le_add_right ih 1
    | false =>
      rw [streak_miss]
      exact Nat.zero_le _

theorem InARow.le_hits (hrow : InARow n h) : n ≤ hits h := by
  have hcount := hrow.sublist.count_le true
  rwa [List.count_replicate_self] at hcount

/-- Where the row is to be as long as the count, an older hit is cut off by a miss. -/
theorem unearned_self_iff : Unearned n n h ↔ hits h + 1 = n ∧ streak h < hits h := by
  have hle := streak_le_hits h
  constructor
  · rintro ⟨hcount, -, hstreak⟩
    exact ⟨hcount, by omega⟩
  · rintro ⟨hcount, hcut⟩
    refine ⟨hcount, fun hrow => ?_, by omega⟩
    have hhits := hrow.le_hits
    omega

/-- From `count` hits on, `n` of them were in a row. -/
def Earned (count n : ℕ) (h : List Bool) : Prop := count ≤ hits h → InARow n h

theorem Earned.hit {count : ℕ} (he : Earned count n h) (hnext : ¬ Unearned count n h) :
    Earned count n (h ++ [true]) := by
  intro hcount
  rw [hits_hit] at hcount
  rw [inARow_hit]
  by_cases hbefore : count ≤ hits h
  · exact .inl (he hbefore)
  · by_contra hno
    rw [not_or, not_le] at hno
    exact hnext ⟨by omega, hno⟩

theorem Earned.miss {count : ℕ} (he : Earned count n h) : Earned count n (h ++ [false]) := by
  intro hcount
  rw [hits_miss] at hcount
  exact inARow_miss (he hcount)

theorem not_earned_of_unearned {count : ℕ} (hnext : Unearned count n h) :
    ¬ Earned count n (h ++ [true]) := by
  intro he
  have hrow := he (by rw [hits_hit, hnext.1])
  rcases inARow_hit.mp hrow with hrow | hrow
  · exact hnext.2.1 hrow
  · exact absurd hrow (not_le.mpr hnext.2.2)

end Streaks
