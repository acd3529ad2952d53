import Mathlib.Data.List.Basic
import Mathlib.Data.List.Induction

namespace LastWrite

variable {α ε : Type*} (w : ε → Option α) (a : α)

/-- The register that holds `a` first and is overwritten by each event that `w` gives a value. -/
def lastWrite (es : List ε) : α := es.foldl (fun a e => (w e).getD a) a

theorem lastWrite_concat (es : List ε) (e : ε) :
    lastWrite w a (es ++ [e]) = (w e).getD (lastWrite w a es) := by
  unfold lastWrite
  rw [List.foldl_append]
  rfl

def writers (es : List ε) : List ε := es.filter fun e => (w e).isSome

theorem writers_concat (es : List ε) (e : ε) :
    writers w (es ++ [e]) = writers w es ++ if (w e).isSome then [e] else [] := by
  unfold writers
  rw [List.filter_append, List.filter_singleton, Bool.cond_eq_ite]

theorem lastWrite_of_none {es : List ε} (h : (writers w es).getLast? = none) :
    lastWrite w a es = a := by
  induction es using List.reverseRecOn with
  | nil => rfl
  | append_singleton es e ih =>
    rw [lastWrite_concat]
    rw [writers_concat] at h
    cases he : w e with
    | none =>
      rw [he] at h
      apply ih
      simpa using h
    | some v =>
      rw [he] at h
      simp at h

theorem lastWrite_of_some {es : List ε} {e : ε} (h : (writers w es).getLast? = some e) :
    w e = some (lastWrite w a es) := by
  induction es using List.reverseRecOn with
  | nil => cases h
  | append_singleton es e' ih =>
    rw [lastWrite_concat]
    rw [writers_concat] at h
    cases he : w e' with
    | none =>
      rw [he] at h
      apply ih
      simpa using h
    | some v =>
      rw [he] at h
      have heq : e' = e := by simpa using h
      rw [← heq, he]
      rfl

/-- If the last writer is among the events that `p` keeps, it is the last writer of those. -/
theorem writers_filter_getLast {p : ε → Bool} {es : List ε} {e : ε}
    (h : (writers w es).getLast? = some e) (hp : p e = true) :
    (writers w (es.filter p)).getLast? = some e := by
  obtain ⟨before, hbefore⟩ := List.getLast?_eq_some_iff.mp h
  have hcomm : writers w (es.filter p) = (writers w es).filter p := by
    unfold writers
    rw [List.filter_filter, List.filter_filter]
    congr 1
    funext e
    exact Bool.and_comm _ _
  rw [hcomm, hbefore, List.filter_append, List.filter_singleton, hp]
  exact List.getLast?_append_of_ne_nil _ (by simp)

/-- The last writer is one of the events that `p` keeps, or wrote what they leave. -/
def LastOwned (p : ε → Bool) (es : List ε) : Prop :=
  ∀ e, (writers w es).getLast? = some e → p e = false → w e = some (lastWrite w a (es.filter p))

/-- The register depends on the events that `p` keeps alone exactly if they own its last write. -/
theorem lastWrite_filter_iff (p : ε → Bool) (es : List ε) :
    lastWrite w a es = lastWrite w a (es.filter p) ↔ LastOwned w a p es := by
  unfold LastOwned
  cases hlast : (writers w es).getLast? with
  | none =>
    have hnone : (writers w (es.filter p)).getLast? = none := by
      rw [List.getLast?_eq_none_iff] at hlast ⊢
      unfold writers at hlast ⊢
      rw [List.filter_eq_nil_iff] at hlast ⊢
      exact fun e he => hlast e (List.mem_of_mem_filter he)
    rw [lastWrite_of_none w a hlast, lastWrite_of_none w a hnone]
    exact iff_of_true rfl nofun
  | some e =>
    have hwrote := lastWrite_of_some w a hlast
    constructor
    · intro heq e' he' _
      rw [← Option.some.inj he', hwrote, heq]
    · intro h
      cases hp : p e with
      | false => exact Option.some.inj (hwrote.symm.trans (h e rfl hp))
      | true =>
        have hkept := lastWrite_of_some w a (writers_filter_getLast w hlast hp)
        exact Option.some.inj (hwrote.symm.trans hkept)

end LastWrite
