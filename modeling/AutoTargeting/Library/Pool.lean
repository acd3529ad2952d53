import Mathlib.Data.Multiset.Count
import Mathlib.Data.Multiset.Filter

namespace Runs

variable {α β : Type*} (p q : α → Prop) [DecidablePred p] [DecidablePred q]

theorem countP_erase_add [DecidableEq α] {a : α} {s : Multiset α} (h : a ∈ s) :
    (s.erase a).countP p + (if p a then 1 else 0) = s.countP p := by
  rw [← Multiset.countP_cons, Multiset.cons_erase h]

/-- A pool splits into the members that meet `q` and the rest. -/
theorem countP_filter_add_not (s : Multiset α) :
    (s.filter fun a => ¬ q a).countP p + (s.filter q).countP p = s.countP p := by
  rw [Nat.add_comm, ← Multiset.countP_eq_countP_filter_add]

theorem count_filterMap [DecidableEq β] (f : α → Option β) (s : Multiset α) (b : β) :
    (s.filterMap f).count b = s.countP (f · = some b) := by
  induction s using Multiset.induction with
  | empty => rfl
  | cons a s ih =>
    rw [Multiset.countP_cons]
    cases hf : f a with
    | none => rw [Multiset.filterMap_cons_none _ _ hf, ih]; simp
    | some d =>
      rw [Multiset.filterMap_cons_some _ _ _ hf, Multiset.count_cons, ih]
      simp [eq_comm]

theorem count_map_eq_countP [DecidableEq β] (f : α → β) (s : Multiset α) (b : β) :
    (s.map f).count b = s.countP (f · = b) := by
  rw [Multiset.count_map, Multiset.countP_eq_card_filter]
  simp only [eq_comm]

/-- Where the keys of a list differ, a key picks one entry. -/
theorem filter_key_eq_singleton [DecidableEq β] {f : α → β} {l : List α} {a : α}
    (hl : (l.map f).Nodup) (ha : a ∈ l) : l.filter (f · = f a) = [a] := by
  induction l with
  | nil => cases ha
  | cons b l ih =>
    obtain ⟨hb, hl⟩ := List.nodup_cons.mp (List.map_cons ▸ hl)
    rcases List.mem_cons.mp ha with rfl | ha
    · have hnone : l.filter (f · = f a) = [] := by
        rw [List.filter_eq_nil_iff]
        intro d hd hda
        exact hb (List.mem_map.mpr ⟨d, hd, of_decide_eq_true hda⟩)
      rw [List.filter_cons_of_pos (by simp), hnone]
    · have hne : ¬ f b = f a := fun hba => hb (List.mem_map.mpr ⟨a, ha, hba.symm⟩)
      rw [List.filter_cons_of_neg (by simpa using hne), ih hl ha]

end Runs
