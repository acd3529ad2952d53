import Mathlib.Data.List.Basic
import Mathlib.Data.Nat.Notation

/-- What waits, and what the receiver has taken so far. -/
structure BoundedChannel (α : Type*) where
  capacity : ℕ
  waiting : List α
  received : List α
  closed : Bool
  deriving DecidableEq, Repr

namespace BoundedChannel

variable {α β : Type*}

inductive Sent
  | ok
  | full
  | closed
  deriving DecidableEq, Repr

def new (capacity : ℕ) : BoundedChannel α := ⟨capacity, [], [], false⟩

def trySend (c : BoundedChannel α) (a : α) : BoundedChannel α × Sent :=
  if c.closed = true then (c, .closed)
  else if c.waiting.length < c.capacity then ({ c with waiting := c.waiting ++ [a] }, .ok)
  else (c, .full)

/-- The receiver takes the first of those that wait. -/
def recv (c : BoundedChannel α) : Option (α × BoundedChannel α) :=
  match c.waiting with
  | [] => none
  | a :: rest => some (a, { c with waiting := rest, received := c.received ++ [a] })

/-- The receiver goes, and what waits with it. -/
def hangUp (c : BoundedChannel α) : BoundedChannel α := { c with waiting := [], closed := true }

/-- All that went into the channel and was not lost with the receiver. -/
def carried (c : BoundedChannel α) : List α := c.received ++ c.waiting

/-- Of all that was offered, in order, the channel carries a part, and never more than it has room
for. As long as nothing is taken, the first ones stay. -/
structure Carries (f : α → β) (offered : List β) (c : BoundedChannel α) : Prop where
  sublist : (c.carried.map f).Sublist offered
  bounded : c.waiting.length ≤ c.capacity
  first : c.received = [] → c.closed = false → c.waiting.map f = offered.take c.capacity

variable {f : α → β} {offered : List β} {c c' : BoundedChannel α} {a : α}

theorem carries_new (f : α → β) (capacity : ℕ) : (new capacity : BoundedChannel α).Carries f [] :=
  ⟨.refl _, Nat.zero_le _, fun _ _ => List.take_nil.symm⟩

/-- Of an open channel only what waits becomes more. -/
theorem trySend_open (h : c.closed = false) (a : α) :
    (c.trySend a).1 = { c with
      waiting := if c.waiting.length < c.capacity then c.waiting ++ [a] else c.waiting } := by
  unfold trySend
  rw [if_neg (by simp [h])]
  split <;> rfl

theorem trySend_closed (h : c.closed = true) (a : α) : c.trySend a = (c, .closed) := by
  rw [trySend, if_pos h]

theorem eq_of_trySend_closed (h : c.trySend a = (c', .closed)) : c' = c := by
  unfold trySend at h
  split at h
  · exact (Prod.mk.inj h).1.symm
  · split at h <;> cases h

theorem carried_trySend (c : BoundedChannel α) (a : α) :
    (c.trySend a).1.carried = c.carried ∨ (c.trySend a).1.carried = c.carried ++ [a] := by
  unfold trySend
  split
  · exact .inl rfl
  · split
    · exact .inr (List.append_assoc _ _ _).symm
    · exact .inl rfl

theorem trySend_keeps (c : BoundedChannel α) (a : α) :
    (c.trySend a).1.capacity = c.capacity ∧ (c.trySend a).1.received = c.received := by
  unfold trySend
  split
  · exact ⟨rfl, rfl⟩
  · split <;> exact ⟨rfl, rfl⟩

/-- One more is offered: to an open channel with room, or to one that is full. -/
theorem take_offered {waiting : List α} {room : ℕ} (hle : waiting.length ≤ room)
    (h : waiting.map f = offered.take room) (a : α) :
    (if waiting.length < room then waiting ++ [a] else waiting).map f =
      (offered ++ [f a]).take room := by
  have hlen : waiting.length = min room offered.length := by
    rw [← List.length_take, ← h, List.length_map]
  split
  case isTrue hlt =>
    have hall : offered.length < room := by omega
    rw [List.map_append, h, List.take_of_length_le (Nat.le_of_lt hall), List.take_of_length_le]
    · rfl
    · simp only [List.length_append, List.length_singleton]
      omega
  case isFalse hfull =>
    rw [h, List.take_append_of_le_length]
    omega

theorem Carries.trySend (h : c.Carries f offered) (a : α) :
    (c.trySend a).1.Carries f (offered ++ [f a]) := by
  constructor
  case sublist =>
    rcases carried_trySend c a with hsame | hmore
    · rw [hsame]
      exact h.sublist.trans (List.sublist_append_left _ _)
    · rw [hmore, List.map_append]
      exact h.sublist.append (List.Sublist.refl _)
  all_goals cases hclosed : c.closed
  case bounded.false =>
    have hbounded := h.bounded
    rw [trySend_open hclosed]
    dsimp only
    split
    · simp only [List.length_append, List.length_singleton]
      omega
    · exact hbounded
  case bounded.true =>
    rw [trySend_closed hclosed]
    exact h.bounded
  case first.false =>
    rw [trySend_open hclosed]
    intro hreceived _
    exact take_offered h.bounded (h.first hreceived hclosed) a
  case first.true =>
    rw [trySend_closed hclosed]
    intro _ hopen
    cases hclosed.symm.trans hopen

theorem recv_eq (h : c.recv = some (a, c')) :
    c'.carried = c.carried ∧ c'.received = c.received ++ [a] ∧ c'.capacity = c.capacity ∧
      c'.waiting.length ≤ c.waiting.length := by
  unfold recv at h
  split at h <;> cases h
  rename_i rest hwaiting
  refine ⟨?_, rfl, rfl, ?_⟩
  · simp [carried, hwaiting]
  · simp [hwaiting]

theorem Carries.recv (h : c.Carries f offered) (hrecv : c.recv = some (a, c')) :
    c'.Carries f offered := by
  obtain ⟨hcarried, hreceived, hcapacity, hle⟩ := recv_eq hrecv
  refine ⟨hcarried ▸ h.sublist, ?_, fun hnone => ?_⟩
  · have hbounded := h.bounded
    omega
  · rw [hreceived] at hnone
    exact absurd hnone (by simp)

theorem Carries.hangUp (h : c.Carries f offered) : c.hangUp.Carries f offered := by
  refine ⟨?_, Nat.zero_le _, fun _ hopen => absurd hopen (by simp [BoundedChannel.hangUp])⟩
  have hreceived : (c.received.map f).Sublist (c.carried.map f) := by
    rw [carried, List.map_append]
    exact List.sublist_append_left _ _
  simpa [BoundedChannel.hangUp, carried] using hreceived.trans h.sublist

end BoundedChannel
