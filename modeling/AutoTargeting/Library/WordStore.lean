import AutoTargeting.Library.LittleEndian
import Mathlib.Algebra.Group.Nat.Defs

namespace Bytes

def store (memory : List UInt8) (offset width value : ℕ) : List UInt8 :=
  memory.take offset ++ (ofWord width value ++ memory.drop (offset + width))

/-- Words that stand one behind the other. -/
def layOut : List ℕ → List ℕ → List UInt8
  | width :: widths, value :: values => ofWord width value ++ layOut widths values
  | _, _ => []

/-- Each value fits in its word, and there is a word for each value. -/
def Fit : List ℕ → List ℕ → Prop := List.Forall₂ fun width value => value < 256 ^ width

variable {widths values : List ℕ} {rest : List UInt8} {i v : ℕ}

theorem ofWord_zero (width : ℕ) : ofWord width 0 = List.replicate width 0 := by
  simp [ofWord, Nat.digitsAppend]

theorem layOut_zero (widths : List ℕ) :
    layOut widths (List.replicate widths.length 0) = List.replicate widths.sum 0 := by
  induction widths with
  | nil => rfl
  | cons width widths ih =>
    rw [List.length_cons, List.replicate_succ, layOut, ih, ofWord_zero, List.sum_cons,
      List.replicate_add]

theorem fit_zero (widths : List ℕ) : Fit widths (List.replicate widths.length 0) := by
  induction widths with
  | nil => exact List.Forall₂.nil
  | cons width widths ih => exact List.Forall₂.cons (Nat.pow_pos (by omega)) ih

theorem length_layOut (h : Fit widths values) : (layOut widths values).length = widths.sum := by
  induction h with
  | nil => rfl
  | cons hv _ ih => rw [layOut, List.length_append, length_ofWord hv, ih, List.sum_cons]

theorem Fit.set (h : Fit widths values) (hv : ∀ hi : i < widths.length, v < 256 ^ widths[i]) :
    Fit widths (values.set i v) := by
  induction h generalizing i with
  | nil => exact List.Forall₂.nil
  | cons hw htail ih =>
    cases i with
    | zero => exact List.Forall₂.cons (hv (Nat.succ_pos _)) htail
    | succ i => exact List.Forall₂.cons hw (ih fun hi => hv (Nat.succ_lt_succ hi))

/-- A store at the place of a word changes that word. -/
theorem store_layOut (h : Fit widths values) (hi : i < widths.length) :
    store (layOut widths values ++ rest) (widths.take i).sum widths[i] v =
      layOut widths (values.set i v) ++ rest := by
  induction h generalizing i with
  | nil => cases hi
  | @cons width value widths values hw htail ih =>
    cases i with
    | zero =>
      simp only [store, layOut, List.take_zero, List.sum_nil, List.nil_append, List.set_cons_zero,
        List.getElem_cons_zero, Nat.zero_add, List.append_assoc]
      rw [List.drop_left' (length_ofWord hw)]
    | succ i =>
      have h := ih (Nat.lt_of_succ_lt_succ hi)
      have hlen := length_ofWord hw
      simp only [store, layOut, List.take_succ_cons, List.sum_cons, List.getElem_cons_succ,
        List.set_cons_succ, List.append_assoc] at h ⊢
      rw [← h, List.take_append, List.drop_append, hlen, Nat.add_sub_cancel_left, Nat.add_assoc,
        Nat.add_sub_cancel_left, List.take_of_length_le (by omega), List.drop_of_length_le (by omega),
        List.nil_append, List.append_assoc]

theorem word_layOut (h : Fit widths values) (hi : i < widths.length) :
    word (layOut widths values ++ rest) (widths.take i).sum widths[i] = values.getD i 0 := by
  induction h generalizing i with
  | nil => cases hi
  | @cons width value widths values hw htail ih =>
    cases i with
    | zero =>
      simp only [layOut, List.take_zero, List.sum_nil, List.getElem_cons_zero,
        List.getD_cons_zero, List.append_assoc]
      exact word_here hw _
    | succ i =>
      simp only [layOut, List.take_succ_cons, List.sum_cons, List.getElem_cons_succ,
        List.getD_cons_succ, List.append_assoc]
      rw [word_behind (length_ofWord hw) (Nat.le_add_right _ _), Nat.add_sub_cancel_left]
      exact ih (Nat.lt_of_succ_lt_succ hi)

/-- Words inside what two memories share are the same. -/
theorem word_eq_of_take {a b : List UInt8} {n offset width : ℕ} (h : a.take n = b.take n)
    (hle : offset + width ≤ n) : word a offset width = word b offset width := by
  have hpart (l : List UInt8) : (l.drop offset).take width =
      (((l.take n).drop offset).take width) := by
    rw [List.drop_take, List.take_take, Nat.min_eq_left (by omega)]
  unfold word
  rw [hpart a, hpart b, h]

end Bytes
