import AutoTargeting.Control.Update
import Mathlib.Logic.Relation

namespace AutoTargeting.Control

/-- What a commander shows: its state, its target, and its history. -/
structure Standing (F : Type) where
  state : SystemState
  target : Option TargetId
  log : List (Entry F)

def FcCall.isCorrection {F : Type} : FcCall F → Bool
  | setPositionTargetLocalNed _ => true
  | _ => false

def Entry.isCorrection {F : Type} : Entry F → Bool
  | fc call _ _ => call.isCorrection
  | transition _ _ => false

/-- One move of a commander: a change of state along the table to a state in `P`, another
target, a correction where `may` allows it, or another call. -/
inductive Move {F : Type} (P : SystemState → Prop) (may : Prop) : Standing F → Standing F → Prop
  | transition (s : Standing F) {next : SystemState} :
      isTransitionAllowed s.state next = true → P next →
      Move P may s ⟨next, s.target, s.log ++ [.transition s.state next]⟩
  | aim (s : Standing F) (target : Option TargetId) : Move P may s ⟨s.state, target, s.log⟩
  | correct (s : Standing F) (call : FcCall F) (error : Option FcError) (sentAt : Instant) :
      may → s.state.Corrects → s.target.isSome →
      Move P may s ⟨s.state, s.target, s.log ++ [.fc call error sentAt]⟩
  | request (s : Standing F) {call : FcCall F} (error : Option FcError) (sentAt : Instant) :
      call.isCorrection = false →
      Move P may s ⟨s.state, s.target, s.log ++ [.fc call error sentAt]⟩

abbrev Moves {F : Type} (P : SystemState → Prop) (may : Prop) : Standing F → Standing F → Prop :=
  Relation.ReflTransGen (Move P may)

section
variable {F : Type} {P Q : SystemState → Prop} {may may' : Prop} {s s' : Standing F}

theorem Move.mono (hPQ : ∀ t, P t → Q t) (hmay : may → may') (h : Move P may s s') :
    Move Q may' s s' := by
  cases h with
  | transition hallowed hP => exact .transition s hallowed (hPQ _ hP)
  | aim target => exact .aim s target
  | correct call error sentAt hm hs ht => exact .correct s call error sentAt (hmay hm) hs ht
  | request error sentAt hcall => exact .request s error sentAt hcall

theorem Moves.mono (hPQ : ∀ t, P t → Q t) (hmay : may → may') (h : Moves P may s s') :
    Moves Q may' s s' :=
  Relation.ReflTransGen.mono (fun _ _ => Move.mono hPQ hmay) _ _ h

theorem Moves.log_grows (h : Moves P may s s') : s.log <+: s'.log := by
  induction h with
  | refl => exact List.prefix_refl _
  | tail _ hmove ih =>
    apply ih.trans
    cases hmove with
    | transition | correct | request => exact List.prefix_append _ _
    | aim => exact List.prefix_refl _

def corrections (log : List (Entry F)) : ℕ := log.countP (·.isCorrection)

theorem corrections_concat (log : List (Entry F)) (x : Entry F) :
    corrections (log ++ [x]) = corrections log + if x.isCorrection = true then 1 else 0 := by
  unfold corrections
  rw [List.countP_append, List.countP_singleton]

/-- Where no correction may go out, none does. -/
theorem Moves.corrections_eq (h : Moves P False s s') : corrections s'.log = corrections s.log := by
  induction h with
  | refl => rfl
  | tail _ hmove ih =>
    rw [← ih]
    cases hmove with
    | transition => exact corrections_concat _ _
    | aim => rfl
    | correct _ _ _ hmay => exact hmay.elim
    | @request call error sentAt hcall =>
      rw [corrections_concat, if_neg]
      · rfl
      · exact fun hcorr => absurd (hcall.symm.trans hcorr) nofun

end

def stateAfter {F : Type} (log : List (Entry F)) : SystemState :=
  log.foldl (fun s x => match x with
    | .transition _ next => next
    | .fc _ _ _ => s) .idle

/-- The history explains the state, and each correction in it was sent in a state that allows
it. -/
structure Disciplined {F : Type} (s : Standing F) : Prop where
  state_eq : s.state = stateAfter s.log
  correcting : ∀ before x, before ++ [x] <+: s.log → x.isCorrection = true →
    (stateAfter before).Corrects

section
variable {F : Type} {P : SystemState → Prop} {may : Prop} {s s' : Standing F}

theorem stateAfter_concat (log : List (Entry F)) (x : Entry F) :
    stateAfter (log ++ [x]) = match x with
      | .transition _ next => next
      | .fc _ _ _ => stateAfter log := by
  unfold stateAfter
  rw [List.foldl_append]
  rfl

/-- One more entry that explains the new state keeps the discipline. -/
theorem Disciplined.concat (h : Disciplined s) (x : Entry F)
    (hstate : s'.state = stateAfter (s.log ++ [x])) (hlog : s'.log = s.log ++ [x])
    (hx : x.isCorrection = true → s.state.Corrects) : Disciplined s' := by
  refine ⟨hlog ▸ hstate, fun before y hy hcorr => ?_⟩
  rw [hlog] at hy
  rcases List.prefix_concat_iff.mp hy with heq | hinit
  · obtain ⟨rfl, rfl⟩ : before = s.log ∧ y = x := by simpa using heq
    rw [← h.state_eq]
    exact hx hcorr
  · exact h.correcting before y hinit hcorr

theorem Disciplined.move (h : Disciplined s) (hmove : Move P may s s') : Disciplined s' := by
  cases hmove with
  | @transition next hallowed hP =>
    refine h.concat (.transition s.state next) ?_ rfl nofun
    rw [stateAfter_concat]
  | aim target => exact ⟨h.state_eq, h.correcting⟩
  | correct call error sentAt _ hs ht =>
    refine h.concat (.fc call error sentAt) ?_ rfl fun _ => hs
    rw [stateAfter_concat]
    exact h.state_eq
  | @request call error sentAt hcall =>
    refine h.concat (.fc call error sentAt) ?_ rfl fun hcorr => ?_
    · rw [stateAfter_concat]
      exact h.state_eq
    · have hnot : call.isCorrection = true := hcorr
      rw [hcall] at hnot
      cases hnot

theorem Disciplined.moves (h : Disciplined s) (hmoves : Moves P may s s') : Disciplined s' := by
  induction hmoves with
  | refl => exact h
  | tail _ hmove ih => exact ih.move hmove

theorem Moves.state_or (h : Moves P may s s') : s'.state = s.state ∨ P s'.state := by
  induction h with
  | refl => exact .inl rfl
  | tail _ hmove ih =>
    cases hmove with
    | transition _ hP => exact .inr hP
    | aim | correct | request => exact ih

end

end AutoTargeting.Control
