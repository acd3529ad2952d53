import Mathlib.Data.List.Basic
import Mathlib.Tactic.Ring

-- Loops that write into a buffer: a `none` is an index out of range.

namespace Buffers

variable {α β γ : Type*}

/-- What comes back from a buffer of `n` entries is a buffer of `n` entries. -/
def Keeps (n : ℕ) (f : List α → Option (List α)) : Prop :=
  ∀ buf, buf.length = n → ∃ out, f buf = some out ∧ out.length = n

/-- The chunks of `n` entries, without an incomplete one. -/
def chunks (n : ℕ) (l : List α) : List (List α) :=
  (List.range (l.length / n)).map fun k => (l.drop (k * n)).take n

/-- There are no chunks of length 0. -/
def chunksExact (n : ℕ) (l : List α) : Option (List (List α)) :=
  if n = 0 then none else some (chunks n l)

def remainder (n : ℕ) (l : List α) : List α := l.drop (l.length / n * n)

def overwrite (src buf : List α) : Option (List α) :=
  if src.length = buf.length then some src else none

def setAt (i : ℕ) (x : α) (buf : List α) : Option (List α) :=
  if i < buf.length then some (buf.set i x) else none

/-- Works on `len` entries from `start` on. -/
def onSlice (start len : ℕ) (f : List α → Option (List α)) (buf : List α) : Option (List α) :=
  if start + len ≤ buf.length then
    (f ((buf.drop start).take len)).map fun s => buf.take start ++ s ++ buf.drop (start + len)
  else none

/-- Works on both parts of a buffer. -/
def onSplit (mid : ℕ) (f g : List α → Option (List α)) (buf : List α) : Option (List α) :=
  if mid ≤ buf.length then
    (f (buf.take mid)).bind fun left => (g (buf.drop mid)).map fun right => left ++ right
  else none

/-- Works on the chunks in order, one for each `x`, until either runs out. -/
def zipChunks (n : ℕ) (body : β → List α → Option (List α)) : List β → List α → Option (List α)
  | x :: xs, buf =>
    if buf.length < n then some buf
    else (body x (buf.take n)).bind fun chunk =>
      (zipChunks n body xs (buf.drop n)).map fun rest => chunk ++ rest
  | [], buf => some buf

def zipChunksMut (n : ℕ) (body : β → List α → Option (List α)) (xs : List β) (buf : List α) :
    Option (List α) := if n = 0 then none else zipChunks n body xs buf

def enumerateChunksMut (n : ℕ) (body : ℕ → List α → Option (List α)) (buf : List α) :
    Option (List α) := zipChunksMut n body (List.range (buf.length / n)) buf

variable {n m i start len mid : ℕ} {f g : List α → Option (List α)}

theorem length_of_mem_chunks {l c : List α} (hc : c ∈ chunks n l) : c.length = n := by
  obtain ⟨k, hk, rfl⟩ := List.mem_map.mp hc
  rw [List.mem_range] at hk
  have hend : (k + 1) * n ≤ l.length :=
    (Nat.mul_le_mul_right n hk).trans (Nat.div_mul_le_self _ _)
  rw [Nat.succ_mul] at hend
  rw [List.length_take, List.length_drop]
  omega

theorem chunksExact_eq {l : List α} (hn : 0 < n) : chunksExact n l = some (chunks n l) :=
  if_neg hn.ne'

theorem keeps_some : Keeps n (some : List α → Option (List α)) := fun buf h => ⟨buf, rfl, h⟩

theorem Keeps.bind (hf : Keeps n f) (hg : Keeps n g) : Keeps n fun buf => (f buf).bind g := by
  intro buf hbuf
  obtain ⟨out, hout, hlen⟩ := hf buf hbuf
  obtain ⟨out', hout', hlen'⟩ := hg out hlen
  exact ⟨out', (congrArg (·.bind g) hout).trans hout', hlen'⟩

theorem Keeps.replicate (hf : Keeps n f) (x : α) :
    ∃ out, f (List.replicate n x) = some out ∧ out.length = n := hf _ List.length_replicate

theorem keeps_overwrite {src : List α} (h : src.length = n) : Keeps n (overwrite src) := by
  intro buf hbuf
  exact ⟨src, if_pos (h.trans hbuf.symm), h⟩

theorem keeps_setAt (h : i < n) (x : α) : Keeps n (setAt i x) := by
  rintro buf rfl
  exact ⟨buf.set i x, if_pos h, List.length_set⟩

theorem Keeps.onSlice (hf : Keeps len f) (h : start + len ≤ n) :
    Keeps n (Buffers.onSlice start len f) := by
  rintro buf rfl
  obtain ⟨s, hs, hlen⟩ := hf ((buf.drop start).take len) (by
    rw [List.length_take, List.length_drop]
    omega)
  refine ⟨buf.take start ++ s ++ buf.drop (start + len), ?_, ?_⟩
  · rw [Buffers.onSlice, if_pos h, hs, Option.map_some]
  · rw [List.length_append, List.length_append, hlen, List.length_take, List.length_drop]
    omega

theorem Keeps.onTail (hf : Keeps (n - start) f) (h : start ≤ n) :
    Keeps n fun buf => Buffers.onSlice start (buf.length - start) f buf := by
  rintro buf rfl
  exact hf.onSlice (by omega) buf rfl

theorem Keeps.onSplit (hf : Keeps mid f) (hg : Keeps (n - mid) g) (h : mid ≤ n) :
    Keeps n (Buffers.onSplit mid f g) := by
  rintro buf rfl
  obtain ⟨left, hleft, hl⟩ := hf (buf.take mid) (List.length_take_of_le h)
  obtain ⟨right, hright, hr⟩ := hg (buf.drop mid) List.length_drop
  refine ⟨left ++ right, ?_, ?_⟩
  · rw [Buffers.onSplit, if_pos h, hleft, Option.bind_some, hright, Option.map_some]
  · rw [List.length_append, hl, hr]
    omega

theorem onSplit_eq {left right buf : List α} (hf : ∀ buf, buf.length = mid → f buf = some left)
    (hg : ∀ buf, buf.length = n → g buf = some right) (hlen : buf.length = mid + n) :
    onSplit mid f g buf = some (left ++ right) := by
  have hdrop : (buf.drop mid).length = n := by
    rw [List.length_drop, hlen, Nat.add_sub_cancel_left]
  rw [onSplit, if_pos (by omega), hf _ (List.length_take_of_le (by omega)), Option.bind_some,
    hg _ hdrop, Option.map_some]

theorem onSlice_all {buf : List α} (hlen : buf.length = n) : onSlice 0 n f buf = f buf := by
  rw [onSlice, if_pos (by omega), List.drop_zero, List.take_of_length_le hlen.le,
    List.drop_of_length_le (by omega)]
  simp

/-- The chunks of a list, entry by entry. -/
theorem chunks_eq_map {l : List α} (hlen : l.length = m * n) (hn : 0 < n) (d : α) :
    chunks n l = (List.range m).map fun k => (List.range n).map fun i => l.getD (k * n + i) d := by
  have hcount : l.length / n = m := by rw [hlen, Nat.mul_div_cancel _ hn]
  rw [chunks, hcount]
  apply List.map_congr_left
  intro k hk
  have hend : k * n + n ≤ l.length := by
    rw [hlen, ← Nat.succ_mul]
    exact Nat.mul_le_mul_right n (List.mem_range.mp hk)
  apply List.ext_getElem?
  intro i
  by_cases hi : i < n
  · rw [List.getElem?_take_of_lt hi, List.getElem?_drop, List.getElem?_map,
      List.getElem?_range hi, Option.map_some, List.getD_eq_getElem?_getD,
      List.getElem?_eq_getElem (by omega), Option.getD_some]
  · rw [List.getElem?_eq_none, List.getElem?_eq_none]
    · simp only [List.length_map, List.length_range]
      omega
    · rw [List.length_take]
      omega

theorem chunks_append {x : List α} (hlen : x.length = n) (hn : 0 < n) (l : List α) :
    chunks n (x ++ l) = x :: chunks n l := by
  have hcount : (x ++ l).length / n = l.length / n + 1 := by
    rw [List.length_append, hlen, Nat.add_comm, Nat.add_div_right _ hn]
  rw [chunks, hcount, List.range_succ_eq_map, List.map_cons, List.map_map]
  refine congrArg₂ List.cons ?_ (List.map_congr_left fun k _ => ?_)
  · rw [Nat.zero_mul, List.drop_zero, List.take_append_of_le_length hlen.ge,
      List.take_of_length_le hlen.le]
  · have hdrop : (x ++ l).drop ((k + 1) * n) = l.drop (k * n) := by
      rw [Nat.succ_mul, Nat.add_comm, ← List.drop_drop, List.drop_left' hlen]
    exact congrArg (List.take n) hdrop

/-- Pieces of one length come apart again, and what is left is shorter. -/
theorem chunks_flatten_append {xs : List (List α)} (hn : 0 < n) (hlen : ∀ x ∈ xs, x.length = n)
    {rest : List α} (hrest : rest.length < n) : chunks n (xs.flatten ++ rest) = xs := by
  induction xs with
  | nil =>
    rw [List.flatten_nil, List.nil_append, chunks, Nat.div_eq_of_lt hrest]
    rfl
  | cons x xs ih =>
    obtain ⟨hx, hxs⟩ := List.forall_mem_cons.mp hlen
    rw [List.flatten_cons, List.append_assoc, chunks_append hx hn, ih hxs]

theorem zipChunksMut_map {body : β → List α → Option (List α)} {f : γ → β} {xs : List γ}
    {buf : List α} :
    zipChunksMut n body (xs.map f) buf = zipChunksMut n (fun x => body (f x)) xs buf := by
  unfold zipChunksMut
  split
  case isTrue => rfl
  case isFalse =>
    induction xs generalizing buf with
    | nil => rfl
    | cons x xs ih =>
      rw [List.map_cons, zipChunks, zipChunks]
      simp only [ih]

theorem zipChunksMut_overwrites {body : β → List α → Option (List α)} {g : β → List α}
    {xs : List β} {buf : List α} (hn : 0 < n)
    (hbody : ∀ x ∈ xs, ∀ chunk, chunk.length = n → body x chunk = some (g x))
    (hlen : buf.length = xs.length * n) : zipChunksMut n body xs buf = some (xs.flatMap g) := by
  rw [zipChunksMut, if_neg hn.ne']
  induction xs generalizing buf with
  | nil =>
    rw [List.length_nil, Nat.zero_mul, List.length_eq_zero_iff] at hlen
    rw [hlen]
    rfl
  | cons x xs ih =>
    rw [List.length_cons, Nat.succ_mul] at hlen
    have hrest : (buf.drop n).length = xs.length * n := by
      rw [List.length_drop]
      omega
    rw [zipChunks, if_neg (by omega), hbody x List.mem_cons_self _
      (List.length_take_of_le (by omega)), Option.bind_some,
      ih (fun y hy => hbody y (List.mem_cons_of_mem _ hy)) hrest]
    rfl

/-- A loop over chunks keeps the length if its body keeps that of a chunk. -/
theorem keeps_zipChunksMut {body : β → List α → Option (List α)} {xs : List β} (hn : 0 < n)
    (hbody : ∀ x ∈ xs, Keeps n (body x)) (m : ℕ) : Keeps m (zipChunksMut n body xs) := by
  -- a chunk at a time; what is left over at the end stays
  have hloop : ∀ (xs : List β), (∀ x ∈ xs, Keeps n (body x)) → ∀ m, Keeps m (zipChunks n body xs) := by
    intro xs
    induction xs with
    | nil => exact fun _ _ => keeps_some
    | cons x xs ih =>
      rintro hbody m buf rfl
      rw [zipChunks]
      split
      case isTrue => exact ⟨buf, rfl, rfl⟩
      case isFalse hlong =>
        have hle : n ≤ buf.length := not_lt.mp hlong
        obtain ⟨chunk, hchunk, hc⟩ :=
          hbody x List.mem_cons_self (buf.take n) (List.length_take_of_le hle)
        obtain ⟨rest, hrest, hr⟩ := ih (fun y hy => hbody y (List.mem_cons_of_mem _ hy)) _
          (buf.drop n) List.length_drop
        refine ⟨chunk ++ rest, by rw [hchunk, Option.bind_some, hrest, Option.map_some], ?_⟩
        rw [List.length_append, hc, hr]
        omega
  intro buf hbuf
  rw [zipChunksMut, if_neg hn.ne']
  exact hloop xs hbody m buf hbuf

theorem keeps_enumerateChunksMut {body : ℕ → List α → Option (List α)} (hn : 0 < n) (m : ℕ)
    (hbody : ∀ k < m / n, Keeps n (body k)) : Keeps m (enumerateChunksMut n body) := by
  rintro buf rfl
  apply keeps_zipChunksMut hn ?_ _ buf rfl
  intro k hk
  exact hbody k (List.mem_range.mp hk)

theorem keeps_foldlM {body : List α → β → Option (List α)} {xs : List β}
    (hbody : ∀ x ∈ xs, Keeps n (body · x)) : Keeps n fun buf => xs.foldlM body buf := by
  induction xs with
  | nil => exact keeps_some
  | cons x xs ih =>
    intro buf hbuf
    obtain ⟨out, hout, hlen⟩ := hbody x List.mem_cons_self buf hbuf
    obtain ⟨out', hout', hlen'⟩ := ih (fun y hy => hbody y (List.mem_cons_of_mem _ hy)) out hlen
    exact ⟨out', (congrArg (·.bind fun b => xs.foldlM body b) hout).trans hout', hlen'⟩

theorem setAt_map_range (h : i < n) (g : ℕ → α) (x : α) :
    setAt i x ((List.range n).map g) = some ((List.range n).map (Function.update g i x)) := by
  rw [setAt, if_pos (by rwa [List.length_map, List.length_range])]
  refine congrArg some (List.ext_getElem? fun j => ?_)
  rw [List.getElem?_set, List.length_map, List.length_range, if_pos h]
  by_cases hj : j < n
  · rw [List.getElem?_map, List.getElem?_map, List.getElem?_range hj]
    by_cases hij : i = j
    · rw [if_pos hij, hij, Option.map_some, Function.update_self]
    · rw [if_neg hij, Option.map_some, Option.map_some, Function.update_of_ne (Ne.symm hij)]
  · rw [if_neg (by omega), List.getElem?_eq_none (by simpa using hj),
      List.getElem?_eq_none (by simpa using hj)]

section
variable {σ : Type*} {state : (ℕ → β) → σ} {visit : σ → γ × ℕ → Option σ} {f : β → γ → β}

theorem foldlM_zipIdx_from
    (hvisit : ∀ b x i, i < n → visit (state b) (x, i) =
      some (state (Function.update b i (f (b i) x)))) :
    ∀ (row : List γ) (k : ℕ) (b : ℕ → β), k + row.length ≤ n →
      (row.zipIdx k).foldlM visit (state b) = some (state fun i =>
        if k ≤ i then (row[i - k]?).elim (b i) (f (b i)) else b i) := by
  intro row
  induction row with
  | nil =>
    intro k b _
    simp
  | cons x row ih =>
    intro k b hk
    rw [List.length_cons] at hk
    rw [List.zipIdx_cons, List.foldlM_cons, hvisit b x k (by omega), Option.bind_eq_bind,
      Option.bind_some, ih (k + 1) _ (by omega)]
    refine congrArg (fun b => some (state b)) (funext fun i => ?_)
    rcases lt_trichotomy i k with hlt | rfl | hgt
    · rw [if_neg (by omega), if_neg (by omega), Function.update_of_ne hlt.ne]
    · rw [if_neg (by omega), if_pos le_rfl, Nat.sub_self, Function.update_self]
      rfl
    · rw [if_pos (by omega), if_pos hgt.le, Function.update_of_ne hgt.ne',
        show i - k = (i - (k + 1)) + 1 by omega, List.getElem?_cons_succ]

/-- A loop over a row, whose step for an entry changes what the state has at the entry's place. -/
theorem foldlM_zipIdx
    (hvisit : ∀ b x i, i < n → visit (state b) (x, i) =
      some (state (Function.update b i (f (b i) x))))
    {row : List γ} (hrow : row.length ≤ n) (b : ℕ → β) :
    row.zipIdx.foldlM visit (state b) =
      some (state fun i => (row[i]?).elim (b i) (f (b i))) := by
  rw [foldlM_zipIdx_from hvisit row 0 b (by omega)]
  simp only [Nat.zero_le, if_true, Nat.sub_zero]

end

end Buffers
