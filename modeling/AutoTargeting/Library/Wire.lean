import Mathlib.Data.List.InsertIdx
import Mathlib.Data.Nat.Notation

namespace Runs

/-- What one publisher put on a bus for one subscriber, and has not come yet. The bus keeps the
order of what it delivers, but takes its time, and may lose any of it. -/
structure Wire (α : Type*) where
  flying : List α
  lost : ℕ
  deriving DecidableEq, Repr

namespace Wire

variable {α β : Type*}

def empty : Wire α := ⟨[], 0⟩

def put (w : Wire α) (news : List α) : Wire α := { w with flying := w.flying ++ news }

/-- The first of what is on its way comes. -/
def deliver (w : Wire α) : Option (α × Wire α) :=
  match w.flying with
  | [] => none
  | a :: rest => some (a, { w with flying := rest })

/-- One of what is on its way never comes. -/
def lose (w : Wire α) (i : ℕ) : Option (Wire α) :=
  if i < w.flying.length then some ⟨w.flying.eraseIdx i, w.lost + 1⟩ else none

def map (f : α → β) (w : Wire α) : Wire β := ⟨w.flying.map f, w.lost⟩

/-- What came and what is on its way are, in their order, all that was put but for what was
lost. -/
structure Carries (sent came : List α) (w : Wire α) : Prop where
  inOrder : (came ++ w.flying).Sublist sent
  all : came.length + w.flying.length + w.lost = sent.length

variable {sent came : List α} {w w' : Wire α} {a : α} {i : ℕ}

theorem carries_empty : Carries ([] : List α) [] empty := ⟨.refl _, rfl⟩

theorem carries_start (sent : List α) : Carries sent [] ⟨sent, 0⟩ :=
  ⟨.refl _, by rw [List.length_nil, Nat.zero_add, Nat.add_zero]⟩

theorem Carries.put (h : Carries sent came w) (news : List α) :
    Carries (sent ++ news) came (w.put news) := by
  obtain ⟨horder, hall⟩ := h
  constructor
  · rw [Wire.put, ← List.append_assoc]
    exact List.Sublist.append horder (.refl _)
  · simp only [Wire.put, List.length_append]
    omega

theorem deliver_eq_some (hw : w.deliver = some (a, w')) :
    w.flying = a :: w'.flying ∧ w'.lost = w.lost := by
  unfold deliver at hw
  split at hw
  · cases hw
  · rename_i hflying
    cases hw
    exact ⟨hflying, rfl⟩

theorem Carries.deliver (h : Carries sent came w) (hw : w.deliver = some (a, w')) :
    Carries sent (came ++ [a]) w' := by
  obtain ⟨horder, hall⟩ := h
  obtain ⟨hflying, hlost⟩ := deliver_eq_some hw
  rw [hflying] at horder hall
  constructor
  · rw [List.append_assoc]
    exact horder
  · rw [hlost, List.length_append, List.length_singleton]
    rw [List.length_cons] at hall
    omega

theorem lose_eq_some (hw : w.lose i = some w') :
    i < w.flying.length ∧ w' = ⟨w.flying.eraseIdx i, w.lost + 1⟩ := by
  unfold lose at hw
  split at hw
  case isTrue hi => exact ⟨hi, (Option.some.inj hw).symm⟩
  case isFalse => cases hw

theorem Carries.lose (h : Carries sent came w) (hw : w.lose i = some w') :
    Carries sent came w' := by
  obtain ⟨horder, hall⟩ := h
  obtain ⟨hi, rfl⟩ := lose_eq_some hw
  constructor
  · have herased : (came ++ w.flying.eraseIdx i).Sublist (came ++ w.flying) :=
      List.Sublist.append (.refl _) (List.eraseIdx_sublist _ _)
    exact herased.trans horder
  · dsimp only
    rw [List.length_eraseIdx_of_lt hi]
    omega

section
variable {f : α → β}

theorem put_map (w : Wire α) (news : List α) :
    (w.put news).map f = (w.map f).put (news.map f) := by
  rw [map, map, Wire.put, Wire.put, List.map_append]

theorem deliver_map {b : β} {v : Wire β} (h : (w.map f).deliver = some (b, v)) :
    ∃ a w', w.deliver = some (a, w') ∧ b = f a ∧ v = w'.map f := by
  obtain ⟨hflying, hlost⟩ := deliver_eq_some h
  obtain ⟨a, rest, hw, rfl, hrest⟩ := List.map_eq_cons_iff.mp hflying
  refine ⟨a, ⟨rest, w.lost⟩, ?_, rfl, ?_⟩
  · rw [Wire.deliver, hw]
  · rw [map, hrest, show w.lost = v.lost from hlost.symm]

theorem lose_map {v : Wire β} (h : (w.map f).lose i = some v) :
    ∃ w', w.lose i = some w' ∧ v = w'.map f := by
  obtain ⟨hi, rfl⟩ := lose_eq_some h
  rw [map, List.length_map] at hi
  refine ⟨⟨w.flying.eraseIdx i, w.lost + 1⟩, if_pos hi, ?_⟩
  simp only [map, List.eraseIdx_map]

end

/-- Where nothing was lost, all that was put came or is on its way. -/
theorem Carries.eq_of_none_lost (h : Carries sent came w) (hlost : w.lost = 0) :
    came ++ w.flying = sent := by
  apply h.inOrder.eq_of_length
  have hall := h.all
  rw [List.length_append]
  omega

end Wire

end Runs
