import Mathlib.Data.List.Basic
import Mathlib.Data.Nat.Notation

namespace Runs

/-- Each time is at least `d` behind every earlier one. -/
def Spaced (d : ℕ) (times : List ℕ) : Prop := times.Pairwise fun a b => a + d ≤ b

variable {d : ℕ} {times : List ℕ}

theorem spaced_nil : Spaced d [] := List.Pairwise.nil

theorem spaced_concat {t : ℕ} :
    Spaced d (times ++ [t]) ↔ Spaced d times ∧ ∀ a ∈ times, a + d ≤ t := by
  unfold Spaced
  rw [List.pairwise_append]
  simp

theorem Spaced.sublist {l : List ℕ} (h : Spaced d times) (hl : l.Sublist times) : Spaced d l :=
  List.Pairwise.sublist hl h

theorem Spaced.room {lo hi : ℕ} (h : Spaced d times) (hlo : ∀ a ∈ times, lo ≤ a)
    (hhi : ∀ a ∈ times, a ≤ hi) (hne : times ≠ []) : lo + (times.length - 1) * d ≤ hi := by
  induction times generalizing lo with
  | nil => exact absurd rfl hne
  | cons a rest ih =>
    have ha : lo ≤ a := hlo a (by simp)
    obtain ⟨hfirst, hrest⟩ := List.pairwise_cons.mp h
    by_cases hnil : rest = []
    · have hle : a ≤ hi := hhi a (by simp)
      simp [hnil]
      omega
    · have hroom : a + d + (rest.length - 1) * d ≤ hi :=
        ih hrest hfirst (fun b hb => hhi b (by simp [hb])) hnil
      have hpos : 0 < rest.length := List.length_pos_iff.mpr hnil
      have hlen : (a :: rest).length - 1 = (rest.length - 1) + 1 := by
        simp only [List.length_cons]
        omega
      rw [hlen, Nat.add_mul]
      omega

/-- Fewer times than `n` lie within less than `n` distances. -/
theorem Spaced.length_le {n now : ℕ} (h : Spaced d times)
    (hnow : ∀ a ∈ times, a ≤ now) (hrecent : ∀ a ∈ times, now - a < n * d) : times.length ≤ n := by
  by_cases hnil : times = []
  · simp [hnil]
  · by_contra hlong
    have hpos : 0 < times.length := List.length_pos_iff.mpr hnil
    obtain ⟨first, hfirst⟩ : ∃ first, first ∈ times := List.exists_mem_of_ne_nil _ hnil
    have hnd : 0 < n * d := Nat.lt_of_le_of_lt (Nat.zero_le _) (hrecent first hfirst)
    have hlo : ∀ a ∈ times, now + 1 - n * d ≤ a := by
      intro a ha
      have h1 := hnow a ha
      have h2 := hrecent a ha
      omega
    have hroom := h.room hlo hnow hnil
    have hmany : n * d ≤ (times.length - 1) * d := Nat.mul_le_mul_right d (by omega)
    omega

end Runs
