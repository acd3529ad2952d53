import AutoTargeting.Library.Machine
import Mathlib.Logic.Function.Basic
import Mathlib.Data.Nat.Notation
import Mathlib.Order.Basic
import Mathlib.Data.Fintype.Basic
import Mathlib.Data.Finset.Dedup

namespace Runs

/-- The machine on a list of events, and `none` where one of them cannot happen. -/
def Machine.replay {σ ε : Type*} (M : Machine σ ε) (s : σ) (es : List ε) : Option σ :=
  es.foldlM M.step s

theorem Machine.replay_append {σ ε : Type*} {M : Machine σ ε} {s s' : σ} {es es' : List ε}
    (h : M.replay s es = some s') : M.replay s (es ++ es') = M.replay s' es' := by
  rw [Machine.replay, List.foldlM_append]
  change (M.replay s es).bind _ = _
  rw [h]
  rfl

theorem Machine.replay_snoc {σ ε : Type*} {M : Machine σ ε} {s s' : σ} {es : List ε} {e : ε}
    (h : M.replay s (es ++ [e]) = some s') :
    ∃ t, M.replay s es = some t ∧ M.step t e = some s' := by
  rw [Machine.replay, List.foldlM_append] at h
  obtain ⟨t, ht, hstep⟩ := Option.bind_eq_some_iff.mp h
  exact ⟨t, ht, by simpa using hstep⟩

/-- What a loop got from one queue in one turn; it stops at a payload that does not decode. -/
structure Drained (α : Type) where
  messages : List α
  refused : Bool
  deriving DecidableEq, Repr

section
variable {P M : Type} (decode : P → Option M)

/-- Up to `budget` payloads from the queue, and the rest of it. -/
def drainUpTo : ℕ → List P → Drained M × List P
  | 0, q => (⟨[], false⟩, q)
  | _ + 1, [] => (⟨[], false⟩, [])
  | n + 1, p :: q =>
    match decode p with
    | none => (⟨[], true⟩, q)
    | some m =>
      let r := drainUpTo n q
      (⟨m :: r.1.messages, r.1.refused⟩, r.2)

/-- Without a budget, the queue is emptied. -/
def drain (budget : Option ℕ) (q : List P) : Drained M × List P :=
  drainUpTo decode (budget.getD q.length) q

/-- What is drained and what still waits are the decodable payloads of the queue. -/
theorem drainUpTo_decodable (n : ℕ) (q : List P) :
    (drainUpTo decode n q).1.messages ++ (drainUpTo decode n q).2.filterMap decode =
      q.filterMap decode := by
  induction n generalizing q with
  | zero => rfl
  | succ n ih =>
    cases q with
    | nil => rfl
    | cons p q =>
      rw [drainUpTo]
      cases hp : decode p with
      | none => simp [hp]
      | some m => simp [hp, ih q]

theorem drainUpTo_length_le (n : ℕ) (q : List P) :
    (drainUpTo decode n q).1.messages.length ≤ n := by
  induction n generalizing q with
  | zero => simp [drainUpTo]
  | succ n ih =>
    cases q with
    | nil => simp [drainUpTo]
    | cons p q =>
      rw [drainUpTo]
      have hq := ih q
      cases decode p with
      | none => simp
      | some m =>
        simp only [List.length_cons]
        omega

theorem drainUpTo_rest_le (n : ℕ) (q : List P) :
    (drainUpTo decode n q).2.length ≤ q.length := by
  induction n generalizing q with
  | zero => exact le_refl _
  | succ n ih =>
    cases q with
    | nil => exact le_refl _
    | cons p q =>
      rw [drainUpTo]
      have hq := ih q
      cases decode p with
      | none => simp
      | some m =>
        simp only [List.length_cons]
        omega

/-- A turn takes something from a queue in which something waits. -/
theorem drainUpTo_rest_lt {n : ℕ} {q : List P} (hn : n ≠ 0) (hq : q ≠ []) :
    (drainUpTo decode n q).2.length < q.length := by
  cases n with
  | zero => exact absurd rfl hn
  | succ n =>
    cases q with
    | nil => exact absurd rfl hq
    | cons p q =>
      rw [drainUpTo]
      have hle := drainUpTo_rest_le decode n q
      cases decode p with
      | none => simp
      | some m =>
        simp only [List.length_cons]
        omega

/-- Where every payload decodes, none is refused, and all that is left does, too. -/
theorem drainUpTo_accepts (n : ℕ) {q : List P} (h : ∀ p ∈ q, (decode p).isSome) :
    (drainUpTo decode n q).1.refused = false ∧
      ∀ p ∈ (drainUpTo decode n q).2, (decode p).isSome := by
  induction n generalizing q with
  | zero => exact ⟨rfl, h⟩
  | succ n ih =>
    cases q with
    | nil => exact ⟨rfl, h⟩
    | cons p q =>
      obtain ⟨m, hm⟩ := Option.isSome_iff_exists.mp (h p (by simp))
      rw [drainUpTo, hm]
      exact ih fun p hp => h p (by simp [hp])

/-- What is drained comes from the front of the queue, and the rest waits on. -/
theorem drainUpTo_split (n : ℕ) (q : List P) :
    ∃ k, (drainUpTo decode n q).1.messages = (q.take k).filterMap decode ∧
      (drainUpTo decode n q).2 = q.drop k := by
  induction n generalizing q with
  | zero => exact ⟨0, rfl, rfl⟩
  | succ n ih =>
    cases q with
    | nil => exact ⟨0, rfl, rfl⟩
    | cons p q =>
      rw [drainUpTo]
      cases hp : decode p with
      | none => exact ⟨1, by simp [hp], rfl⟩
      | some m =>
        obtain ⟨k, hmessages, hrest⟩ := ih q
        exact ⟨k + 1, by simp [hp, hmessages], hrest⟩

/-- A queue of messages within the budget is taken whole. -/
theorem drainUpTo_some {n : ℕ} {ms : List M} (h : ms.length ≤ n) :
    drainUpTo some n ms = (⟨ms, false⟩, []) := by
  induction n generalizing ms with
  | zero =>
    obtain rfl : ms = [] := List.length_eq_zero_iff.mp (by omega)
    rfl
  | succ n ih =>
    cases ms with
    | nil => rfl
    | cons m ms =>
      rw [drainUpTo, ih (by simpa using h)]

/-- A queue of payloads that all decode is taken whole by a loop without a budget. -/
theorem drain_decodable {q : List P} {ms : List M} (h : q.map decode = ms.map some) :
    drain decode none q = (⟨ms, false⟩, []) := by
  change drainUpTo decode q.length q = _
  induction q generalizing ms with
  | nil =>
    obtain rfl : ms = [] := List.map_eq_nil_iff.mp h.symm
    rfl
  | cons p q ih =>
    obtain ⟨m, ms, rfl, hm, hms⟩ := List.map_eq_cons_iff.mp h.symm
    rw [List.length_cons, drainUpTo, ← hm, ih hms.symm]

theorem drain_messages (budget : Option ℕ) (q : List P) :
    drain some budget (drain decode budget q).1.messages =
      (⟨(drain decode budget q).1.messages, false⟩, []) := by
  apply drainUpTo_some
  cases budget with
  | none => exact le_refl _
  | some n => exact drainUpTo_length_le decode n q

end

/-- A loop with a queue for each topic `i`. A turn drains the queues and handles what it got;
`none` is the end of the loop. -/
structure Consumer (ι : Type) (M : ι → Type) (σ τ : Type) where
  budget : ι → Option ℕ
  handle : σ → τ → (∀ i, Drained (M i)) → Option σ

/-- The loop's own state and what waits in its queues. -/
structure Fed {ι : Type} (P : ι → Type) (σ : Type) where
  state : σ
  queue : ∀ i, List (P i)

inductive FedEvent {ι : Type} (P : ι → Type) (τ : Type)
  | arrive (i : ι) (p : P i)
  | turn (t : τ)

section
variable {ι : Type} [DecidableEq ι] {P M : ι → Type} {σ τ : Type}

/-- One more at the end of the queue of `i`. -/
def enqueue (i : ι) (p : P i) (q : ∀ i, List (P i)) : ∀ i, List (P i) :=
  Function.update q i (q i ++ [p])

def noneWaits : ∀ i, List (P i) := fun _ => []

/-- The messages of a queue. -/
def decodables (decode : ∀ i, P i → Option (M i)) (q : ∀ i, List (P i)) : ∀ i, List (M i) :=
  fun i => (q i).filterMap (decode i)

namespace FedEvent

def enqueued (q : ∀ i, List (P i)) : FedEvent P τ → ∀ i, List (P i)
  | arrive i p => enqueue i p q
  | turn _ => q

def sentAfter (q : ∀ i, List (P i)) (es : List (FedEvent P τ)) : ∀ i, List (P i) :=
  es.foldl enqueued q

abbrev sent (es : List (FedEvent P τ)) : ∀ i, List (P i) := sentAfter noneWaits es

def turn? : FedEvent P τ → Option τ
  | arrive _ _ => none
  | turn t => some t

def turns (es : List (FedEvent P τ)) : List τ := es.filterMap turn?

end FedEvent

open FedEvent

namespace Consumer

variable (C : Consumer ι M σ τ) (decode : ∀ i, P i → Option (M i))

def got (q : ∀ i, List (P i)) : ∀ i, Drained (M i) :=
  fun i => (drain (decode i) (C.budget i) (q i)).1

def left (q : ∀ i, List (P i)) : ∀ i, List (P i) :=
  fun i => (drain (decode i) (C.budget i) (q i)).2

def step (s : Fed P σ) : FedEvent P τ → Option (Fed P σ)
  | .arrive i p => some ⟨s.state, enqueue i p s.queue⟩
  | .turn t => (C.handle s.state t (C.got decode s.queue)).map fun st => ⟨st, C.left decode s.queue⟩

/-- The loop and its queues, from the time when it subscribes. -/
def machine : Machine (Fed P σ) (FedEvent P τ) where
  Init s := s.queue = noneWaits
  step := C.step decode

/-- The run over the messages alone: they arrive in the order in which they were sent, each at
some time, and the loop makes the same turns. -/
def AsIfDecodable (s0 : σ) (es : List (FedEvent P τ)) (s : Fed P σ) : Prop :=
  ∃ es' : List (FedEvent M τ),
    (C.machine fun _ => some).replay ⟨s0, noneWaits⟩ es' =
      some ⟨s.state, decodables decode s.queue⟩ ∧
    sent es' = decodables decode (sent es) ∧ turns es' = turns es

/-- Except where the loop is to stop, it makes its turn, and takes something from every queue in
which something waits. -/
def GoesOn (stops : σ → τ → Prop) (s : Fed P σ) : Prop :=
  ∀ t, ¬ stops s.state t → ∃ s', (C.machine decode).step s (.turn t) = some s' ∧
    ∀ i, s.queue i ≠ [] → (s'.queue i).length < (s.queue i).length

/-- The loop looks at refusals only on the topics of `strict`. -/
def Blind (strict : ι → Prop) : Prop :=
  ∀ s t d d', (∀ i, (d i).messages = (d' i).messages) →
    (∀ i, strict i → (d i).refused = (d' i).refused) → C.handle s t d = C.handle s t d'

variable {C decode}

theorem decodables_enqueue (i : ι) (p : P i) (q : ∀ i, List (P i)) (j : ι) :
    decodables decode (enqueue i p q) j =
      decodables decode q j ++ decodables decode (enqueue i p noneWaits) j := by
  unfold decodables enqueue noneWaits
  by_cases hij : j = i
  · subst hij
    simp
  · simp [hij]

theorem replay_arrivals {es : List (FedEvent P τ)} (h : turns es = []) (st : σ)
    (q : ∀ i, List (P i)) :
    (C.machine decode).replay ⟨st, q⟩ es = some ⟨st, sentAfter q es⟩ := by
  induction es generalizing q with
  | nil => rfl
  | cons e es ih =>
    cases e with
    | arrive i p => exact ih h (enqueue i p q)
    | turn t => simp [turns, turn?] at h

theorem replay_sent {es : List (FedEvent P τ)} {q : ∀ i, List (P i)} (h : turns es = [])
    (hq : sent es = q) (st : σ) :
    (C.machine decode).replay ⟨st, noneWaits⟩ es = some ⟨st, q⟩ :=
  hq ▸ replay_arrivals h st noneWaits

theorem sentAfter_arrive (i : ι) (ms : List (P i)) (q : ∀ i, List (P i)) :
    sentAfter q (ms.map (arrive (τ := τ) i)) = Function.update q i (q i ++ ms) := by
  induction ms generalizing q with
  | nil =>
    funext j
    by_cases hij : j = i
    · subst hij
      simp [sentAfter]
    · simp [sentAfter, hij]
  | cons m ms ih =>
    refine (ih (enqueue i m q)).trans ?_
    simp [enqueue]

theorem sentAfter_eq (es : List (FedEvent P τ)) (q : ∀ i, List (P i)) (i : ι) :
    sentAfter q es i = q i ++ sent es i := by
  induction es generalizing q with
  | nil => simp [sentAfter, noneWaits]
  | cons e es ih =>
    change sentAfter (enqueued q e) es i = q i ++ sentAfter (enqueued noneWaits e) es i
    rw [ih, ih (enqueued noneWaits e)]
    cases e with
    | turn t => simp [enqueued, noneWaits]
    | arrive j p =>
      by_cases hij : i = j
      · subst hij
        simp [enqueued, enqueue, noneWaits]
      · simp [enqueued, enqueue, noneWaits, hij]

theorem sent_append (es es' : List (FedEvent P τ)) (i : ι) :
    sent (es ++ es') i = sent es i ++ sent es' i := by
  rw [← sentAfter_eq]
  simp only [sentAfter, List.foldl_append]

omit [DecidableEq ι] in
theorem turns_append (es es' : List (FedEvent P τ)) : turns (es ++ es') = turns es ++ turns es' :=
  List.filterMap_append

theorem exists_arrivals_of (ms : ∀ i, List (P i)) (l : List ι) (hl : l.Nodup) :
    ∃ es : List (FedEvent P τ), turns es = [] ∧
      ∀ i, sent es i = if i ∈ l then ms i else [] := by
  induction l with
  | nil => exact ⟨[], rfl, fun i => by simp [sentAfter, noneWaits]⟩
  | cons j l ih =>
    obtain ⟨hj, hl⟩ := List.nodup_cons.mp hl
    obtain ⟨es, hturns, hsent⟩ := ih hl
    refine ⟨(ms j).map (arrive j) ++ es, ?_, fun i => ?_⟩
    · simpa [turns, turn?, List.filterMap_eq_nil_iff] using hturns
    · change (((ms j).map (arrive j) ++ es).foldl enqueued noneWaits) i = _
      rw [List.foldl_append]
      change sentAfter (sentAfter noneWaits ((ms j).map (arrive j))) es i = _
      rw [sentAfter_eq, hsent, sentAfter_arrive]
      by_cases hij : i = j
      · subst hij
        simp [hj, noneWaits]
      · simp [hij, noneWaits]

theorem exists_arrivals [Fintype ι] (ms : ∀ i, List (P i)) :
    ∃ es : List (FedEvent P τ), turns es = [] ∧ sent es = ms := by
  obtain ⟨es, hturns, hsent⟩ := exists_arrivals_of ms Finset.univ.toList (Finset.nodup_toList _)
  refine ⟨es, hturns, ?_⟩
  funext i
  simpa using hsent i

/-- While the messages of its last turn have just arrived, and no others wait, the loop over the
messages alone makes the same turn. -/
theorem step_of_got {strict : ι → Prop} (hblind : C.Blind strict) {st st' : σ} {t : τ}
    {q : ∀ i, List (P i)} (haccept : ∀ i, strict i → ∀ p ∈ q i, (decode i p).isSome)
    (h : C.handle st t (C.got decode q) = some st') :
    (C.machine fun _ => some).step ⟨st, fun i => (C.got decode q i).messages⟩ (.turn t) =
      some ⟨st', noneWaits⟩ := by
  have hgot : ∀ i, drain some (C.budget i) (C.got decode q i).messages =
      (⟨(C.got decode q i).messages, false⟩, []) := fun i => drain_messages _ _ _
  have hleft : C.left (fun _ => some) (fun i => (C.got decode q i).messages) = noneWaits := by
    funext i
    exact congrArg Prod.snd (hgot i)
  have hhandle : C.handle st t (C.got (fun _ => some) fun i => (C.got decode q i).messages) =
      some st' := by
    rw [← h]
    apply hblind
    · intro i
      exact congrArg (·.1.messages) (hgot i)
    · intro i hi
      have hrefused := (drainUpTo_accepts (decode i) ((C.budget i).getD (q i).length) (haccept i hi)).1
      exact (congrArg (·.1.refused) (hgot i)).trans hrefused.symm
  change Option.map _ _ = _
  rw [hhandle, hleft, Option.map_some]

/-- The run over the messages alone, in which each arrives right before the turn that takes
it. -/
theorem exists_lagging [Fintype ι] {strict : ι → Prop} (hblind : C.Blind strict) {s0 : σ}
    {es : List (FedEvent P τ)} {s : Fed P σ}
    (h : (C.machine decode).replay ⟨s0, noneWaits⟩ es = some s)
    (haccept : ∀ i p, .arrive i p ∈ es → strict i → (decode i p).isSome) :
    (∀ i, strict i → ∀ p ∈ s.queue i, (decode i p).isSome) ∧
      ∃ es' : List (FedEvent M τ),
        (C.machine fun _ => some).replay ⟨s0, noneWaits⟩ es' = some ⟨s.state, noneWaits⟩ ∧
        (∀ i, sent es' i ++ decodables decode s.queue i = decodables decode (sent es) i) ∧
        turns es' = turns es := by
  induction es using List.reverseRecOn generalizing s with
  | nil =>
    obtain rfl : (⟨s0, noneWaits⟩ : Fed P σ) = s := Option.some.inj h
    exact ⟨fun i _ p hp => by simp [noneWaits] at hp, [], rfl, fun i => rfl, rfl⟩
  | append_singleton es e ih =>
    obtain ⟨s1, hes, hstep⟩ := Machine.replay_snoc h
    obtain ⟨hq, es', hrun, hsent, hturns⟩ := ih hes fun i p hp => haccept i p (by simp [hp])
    cases e with
    | arrive i p =>
      obtain rfl : (⟨s1.state, enqueue i p s1.queue⟩ : Fed P σ) = s := Option.some.inj hstep
      refine ⟨fun j hj p' hp' => ?_, es', hrun, fun j => ?_, ?_⟩
      · by_cases hij : j = i
        · subst hij
          have hmem : p' ∈ s1.queue j ∨ p' = p := by simpa [enqueue] using hp'
          rcases hmem with hmem | rfl
          · exact hq j hj p' hmem
          · exact haccept j p' (by simp) hj
        · exact hq j hj p' (by simpa [enqueue, hij] using hp')
      · have hnew : sent (es ++ [.arrive i p]) = enqueue i p (sent es) := by
          simp [sentAfter, enqueued]
        rw [hnew, decodables_enqueue, decodables_enqueue (q := sent es), ← hsent j, List.append_assoc]
      · rw [turns_append, hturns]
        simp [turns, turn?]
    | turn t =>
      obtain ⟨st', hhandle, rfl⟩ := Option.map_eq_some_iff.mp hstep
      obtain ⟨arrivals, harr, hms⟩ :=
        exists_arrivals (τ := τ) (fun i => (C.got decode s1.queue i).messages)
      -- here all that the turn got arrives right before it
      have hnext := step_of_got hblind hq hhandle
      refine ⟨fun i hi => ?_, es' ++ (arrivals ++ [.turn t]), ?_, fun i => ?_, ?_⟩
      · exact (drainUpTo_accepts (decode i) ((C.budget i).getD (s1.queue i).length) (hq i hi)).2
      · rw [Machine.replay_append hrun, Machine.replay_append (replay_sent harr hms _)]
        change Option.bind _ _ = _
        rw [hnext]
        rfl
      · have hsplit := drainUpTo_decodable (decode i)
          ((C.budget i).getD (s1.queue i).length) (s1.queue i)
        have harrived : sent (es' ++ (arrivals ++ [.turn t])) i =
            sent es' i ++ (C.got decode s1.queue i).messages := by
          rw [sent_append, sent_append, hms]
          simp [sentAfter, enqueued, noneWaits]
        have hsame : sent (es ++ [.turn t]) = sent es := by simp [sentAfter, enqueued]
        rw [harrived, hsame, ← hsent i, List.append_assoc]
        exact congrArg (sent es' i ++ ·) hsplit
      · rw [turns_append, turns_append, turns_append, hturns, harr, List.nil_append]
        rfl

omit [DecidableEq ι] in
/-- Any loop may look at all refusals. -/
theorem blind_of_strict : C.Blind fun _ => True := by
  intro s t d d' hmessages hrefused
  have hd : d = d' := by
    funext i
    have hm := hmessages i
    have hr := hrefused i trivial
    cases hi : d i
    cases hi' : d' i
    simp_all
  rw [hd]

/-- A loop cannot tell the payloads that do not decode from none at all, if it does not look at
refusals, or where there are none. -/
theorem asIfDecodable [Fintype ι] {strict : ι → Prop} (hblind : C.Blind strict) {s0 : σ}
    {es : List (FedEvent P τ)} {s : Fed P σ}
    (h : (C.machine decode).replay ⟨s0, noneWaits⟩ es = some s)
    (haccept : ∀ i p, .arrive i p ∈ es → strict i → (decode i p).isSome) :
    C.AsIfDecodable decode s0 es s := by
  obtain ⟨-, es', hrun, hsent, hturns⟩ := exists_lagging hblind h haccept
  -- what still waits arrives at last
  obtain ⟨arrivals, harr, hms⟩ := exists_arrivals (τ := τ) (decodables decode s.queue)
  refine ⟨es' ++ arrivals, ?_, ?_, ?_⟩
  · rw [Machine.replay_append hrun, replay_sent harr hms]
  · funext i
    rw [sent_append, hms, hsent]
  · rw [turns_append, harr, hturns, List.append_nil]

omit [DecidableEq ι] in
/-- A turn takes something from every queue in which something waits. -/
theorem left_length_lt {i : ι} {q : ∀ i, List (P i)} (hb : C.budget i ≠ some 0) (hq : q i ≠ []) :
    (C.left decode q i).length < (q i).length := by
  apply drainUpTo_rest_lt (decode i) _ hq
  cases hbudget : C.budget i with
  | none => simpa using hq
  | some n =>
    rintro rfl
    exact hb hbudget

theorem goesOn_of_handle {stops : σ → τ → Prop} {s : Fed P σ} (hb : ∀ i, C.budget i ≠ some 0)
    (h : ∀ t, ¬ stops s.state t → (C.handle s.state t (C.got decode s.queue)).isSome) :
    C.GoesOn decode stops s := by
  intro t ht
  obtain ⟨st, hst⟩ := Option.isSome_iff_exists.mp (h t ht)
  refine ⟨⟨st, C.left decode s.queue⟩, ?_, fun i hi => left_length_lt (hb i) hi⟩
  exact congrArg (Option.map fun st => (⟨st, C.left decode s.queue⟩ : Fed P σ)) hst

end Consumer

end

end Runs
