import Mathlib.Data.List.Nodup

structure Keyed {α κ : Type*} (key : α → κ) where
  entries : List α
  nodup : (entries.map key).Nodup

namespace Keyed

variable {α κ : Type*} {key : α → κ} {m : Keyed key} {a b : α} {k : κ}

def empty : Keyed key := ⟨[], List.nodup_nil⟩

def keys (m : Keyed key) : List κ := m.entries.map key

def size (m : Keyed key) : ℕ := m.entries.length

def retain (m : Keyed key) (p : α → Bool) : Keyed key :=
  ⟨m.entries.filter p, m.nodup.sublist (List.filter_sublist.map key)⟩

/-- A change to every value, which keeps its key. -/
def mapValues (m : Keyed key) (f : α → α) (hf : ∀ a, key (f a) = key a) : Keyed key :=
  ⟨m.entries.map f, by
    have hkeys : (m.entries.map f).map key = m.entries.map key := by
      simp [Function.comp_def, hf]
    rw [hkeys]
    exact m.nodup⟩

@[simp] theorem keys_mapValues {f : α → α} {hf : ∀ a, key (f a) = key a} :
    (m.mapValues f hf).keys = m.keys := by
  simp [keys, mapValues, Function.comp_def, hf]

@[simp] theorem size_mapValues {f : α → α} {hf : ∀ a, key (f a) = key a} :
    (m.mapValues f hf).size = m.size := List.length_map _

theorem size_retain_le (m : Keyed key) (p : α → Bool) : (m.retain p).size ≤ m.size :=
  List.length_filter_le p m.entries

variable [DecidableEq κ]

def contains (m : Keyed key) (k : κ) : Bool := decide (k ∈ m.keys)

def get? (m : Keyed key) (k : κ) : Option α := m.entries.find? fun a => decide (key a = k)

theorem get?_eq_some (h : m.get? k = some a) : a ∈ m.entries ∧ key a = k :=
  ⟨List.mem_of_find?_eq_some h, by simpa using List.find?_some h⟩

def erase (m : Keyed key) (k : κ) : Keyed key := m.retain fun a => decide (key a ≠ k)

/-- The value takes the place of one with its key. -/
def insert (m : Keyed key) (a : α) : Keyed key where
  entries := (m.erase (key a)).entries ++ [a]
  nodup := by
    rw [List.map_append, List.map_singleton, List.nodup_append]
    refine ⟨(m.erase (key a)).nodup, List.nodup_singleton _, fun k hk k' hk' => ?_⟩
    obtain ⟨b, hb, rfl⟩ := List.mem_map.mp hk
    have hne : key b ≠ key a := of_decide_eq_true (List.mem_filter.mp hb).2
    simpa [List.mem_singleton.mp hk'] using hne

/-- A change to the value with a key, if there is one. -/
def modify (m : Keyed key) (k : κ) (f : α → α) (hf : ∀ a, key (f a) = key a) : Keyed key :=
  m.mapValues (fun a => if key a = k then f a else a) fun a => by
    split
    · exact hf a
    · trivial

@[simp] theorem keys_modify {f : α → α} {hf : ∀ a, key (f a) = key a} :
    (m.modify k f hf).keys = m.keys := keys_mapValues

@[simp] theorem size_modify {f : α → α} {hf : ∀ a, key (f a) = key a} :
    (m.modify k f hf).size = m.size := size_mapValues

theorem mem_insert : b ∈ (m.insert a).entries ↔ b = a ∨ b ∈ m.entries ∧ key b ≠ key a := by
  simp [insert, erase, retain, or_comm]

theorem size_insert_le : (m.insert a).size ≤ m.size + 1 := by
  have hle := size_retain_le m fun b => decide (key b ≠ key a)
  simp only [size, insert, List.length_append, List.length_singleton]
  exact Nat.add_le_add_right hle 1

@[simp] theorem contains_eq_true : m.contains k = true ↔ k ∈ m.keys := decide_eq_true_iff

/-- Changes to the values of some keys, one after the other, are a change to each of them. -/
theorem foldl_modify {f : κ → α → α} {hf : ∀ k a, key (f k a) = key a} {ks : List κ}
    (hks : ks.Nodup) :
    (ks.foldl (fun m k => m.modify k (f k) (hf k)) m).entries =
      m.entries.map fun a => if key a ∈ ks then f (key a) a else a := by
  induction ks generalizing m with
  | nil => simp
  | cons k ks ih =>
    obtain ⟨hnot, hnodup⟩ := List.nodup_cons.mp hks
    rw [List.foldl_cons, ih hnodup]
    simp only [modify, mapValues, List.map_map]
    apply List.map_congr_left
    intro a _
    by_cases ha : key a = k
    · subst ha
      simp [hf, hnot]
    · simp [ha]

end Keyed
