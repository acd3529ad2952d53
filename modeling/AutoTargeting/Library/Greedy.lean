import Mathlib.Data.List.Basic
import Mathlib.Data.List.Induction

namespace Greedy

variable {α : Type*} (overlaps : α → α → Bool)

/-- Walks down a list with a flag for each entry. An entry without a flag stays, and flags all
later entries that it overlaps. -/
def survivors : List α → List Bool → List α
  | a :: as, gone :: flags =>
    if gone then survivors as flags
    else a :: survivors as (List.zipWith (fun b flag => flag || overlaps a b) as flags)
  | [], _ | _ :: _, [] => []

/-- The walk that begins without flags. -/
def suppress (as : List α) : List α := survivors overlaps as (List.replicate as.length false)

theorem survivors_sublist (as : List α) (flags : List Bool) :
    (survivors overlaps as flags).Sublist as := by
  induction as generalizing flags with
  | nil => exact List.Sublist.refl []
  | cons a as ih =>
    cases flags with
    | nil => exact List.nil_sublist _
    | cons gone flags =>
      simp only [survivors]
      split
      · exact (ih _).cons a
      · exact (ih _).cons_cons a

/-- Nothing comes out that did not go in, and nothing changes places. -/
theorem suppress_sublist (as : List α) : (suppress overlaps as).Sublist as :=
  survivors_sublist overlaps as _

/-- An entry joins those that stay if none of them overlaps it. -/
def join (stay : List α) (a : α) : List α := if stay.any (overlaps · a) then stay else stay ++ [a]

/-- The entries that stay, without flags. -/
def keep (as : List α) : List α := as.foldl (join overlaps) []

/-- What is left of a list: what stays does not overlap, and what goes is overlapped by something
before it that stays. -/
structure Selected (before : α → α → Prop) (stay as : List α) : Prop where
  ordered : stay.Pairwise before
  apart : stay.Pairwise fun a b => overlaps a b = false
  gone : ∃ gone, (stay ++ gone).Perm as ∧ ∀ b ∈ gone, ∃ a ∈ stay, overlaps a b = true ∧ before a b

variable {overlaps} {before : α → α → Prop}

/-- The flags of `survivors` say which entries overlap with those that stay. -/
theorem append_survivors (stay as : List α) :
    stay ++ survivors overlaps as (as.map fun b => stay.any (overlaps · b)) =
      as.foldl (join overlaps) stay := by
  induction as generalizing stay with
  | nil => exact List.append_nil stay
  | cons a as ih =>
    have hflags : List.zipWith (fun b flag => flag || overlaps a b) as
        (as.map fun b => stay.any (overlaps · b)) =
          as.map fun b => (stay ++ [a]).any (overlaps · b) := by
      rw [List.zipWith_map_right, List.zipWith_self]
      simp
    rw [List.foldl_cons, ← ih, List.map_cons, survivors, join]
    split
    case isTrue => rfl
    case isFalse =>
      rw [hflags, List.append_assoc]
      rfl

theorem suppress_eq_keep (as : List α) : suppress overlaps as = keep overlaps as := by
  rw [keep, ← append_survivors]
  simp [suppress, List.map_const']

theorem keep_append (as : List α) (a : α) :
    keep overlaps (as ++ [a]) = join overlaps (keep overlaps as) a := by
  rw [keep, List.foldl_append]
  rfl

theorem keep_selected {as : List α} (h : as.Pairwise before) :
    Selected overlaps before (keep overlaps as) as := by
  induction as using List.reverseRecOn with
  | nil => exact ⟨.nil, .nil, [], .refl _, nofun⟩
  | append_singleton as a ih =>
    obtain ⟨has, -, ha⟩ := List.pairwise_append.mp h
    obtain ⟨hordered, hapart, gone, hperm, hgone⟩ := ih has
    have hbefore : ∀ b ∈ keep overlaps as, before b a := fun b hb =>
      ha b (hperm.mem_iff.mp (List.mem_append_left _ hb)) a (List.mem_singleton_self a)
    rw [keep_append, join]
    split
    case isTrue hany =>
      -- `a` goes: something that is kept, and stands before it, overlaps with it
      obtain ⟨b, hb, hover⟩ := List.any_eq_true.mp hany
      refine ⟨hordered, hapart, gone ++ [a], ?_, ?_⟩
      · rw [← List.append_assoc]
        exact hperm.append_right [a]
      · intro c hc
        rcases List.mem_append.mp hc with hc | hc
        · exact hgone c hc
        · obtain rfl := List.mem_singleton.mp hc
          exact ⟨b, hb, hover, hbefore b hb⟩
    case isFalse hnone =>
      -- `a` is kept
      have hfree : ∀ b ∈ keep overlaps as, overlaps b a = false := by
        intro b hb
        by_contra hover
        exact hnone (List.any_eq_true.mpr ⟨b, hb, by simpa using hover⟩)
      refine ⟨?_, ?_, gone, ?_, ?_⟩
      · exact List.pairwise_append.mpr ⟨hordered, List.pairwise_singleton _ _, by simpa using hbefore⟩
      · exact List.pairwise_append.mpr ⟨hapart, List.pairwise_singleton _ _, by simpa using hfree⟩
      · rw [List.append_assoc]
        exact (List.perm_append_comm.append_left _).trans
          ((List.append_assoc _ _ _).symm ▸ hperm.append_right [a])
      · intro c hc
        obtain ⟨b, hb, hover⟩ := hgone c hc
        exact ⟨b, List.mem_append_left _ hb, hover⟩

/-- What is selected of a list is selected of it in any other order. -/
theorem Selected.of_perm {stay as as' : List α} (h : Selected overlaps before stay as)
    (hperm : as.Perm as') : Selected overlaps before stay as' := by
  obtain ⟨gone, hgone, hover⟩ := h.gone
  exact ⟨h.ordered, h.apart, gone, hgone.trans hperm, hover⟩

theorem keep_eq_self {as : List α} (h : as.Pairwise fun a b => overlaps a b = false) :
    keep overlaps as = as := by
  induction as using List.reverseRecOn with
  | nil => rfl
  | append_singleton as a ih =>
    obtain ⟨has, -, ha⟩ := List.pairwise_append.mp h
    have hnone : (as.any fun b => overlaps b a) = false := by
      rw [List.any_eq_false]
      intro b hb
      rw [ha b hb a (List.mem_singleton_self a)]
      exact Bool.false_ne_true
    rw [keep_append, ih has, join, hnone]
    rfl

end Greedy
