import AutoTargeting.VideoRecorder.Pictures

namespace AutoTargeting.VideoRecorder

open Buffers Runs
open AutoTargeting.Ring

variable {Font : Type} {o : Overlay Font} {rec : VideoRecorder.Recorder Font} {env : Environment}
  {c : CheckedConfig} {producerPid pid : ℕ}

/-- `Recorder::run`: `last` and `stats.jumps`, and what became of the frames so far. -/
structure Recording where
  cursor : Cursor
  phase : Phase

def Recording.start : Recording := ⟨.start, .waiting⟩

variable (o rec env c pid) in
/-- The answer of the ring to `acquire`. The bytes of the frame are copied while its guard is
there; the loop begins with the first frame, and with a cursor of its own. -/
def Recording.answered (r : Region) (a : Answer) (p : Recording) : Recording :=
  match p.cursor.acquire a with
  | (cursor, none) => { p with cursor }
  | (cursor, some g) =>
    ⟨if p.phase = .waiting then .start else cursor,
      rec.frame o env cursor.jumps g.view (r.deref c g) p.phase⟩

variable (o rec env c pid) in
/-- Only the answers to the recorder's process count. -/
def Recording.see (s : State) (e : Event) (p : Recording) : Recording :=
  match e, s.answer c e with
  | .consumerStep op, some answer => if op.pid = pid then p.answered o rec env c s.region answer else p
  | _, _ => p

variable (o rec env c producerPid pid) in
/-- The ring with a recorder in the process `pid`. -/
def recording : Machine (Observed State Recording) Event :=
  (ring c producerPid).observed .start (Recording.see o rec env c pid)

theorem answered_recorded (ho : o.KeepsSize) {s s' : State} {op : Op} {answer : Answer}
    {p : Recording} (hinv : Inv c producerPid s') (hshapes : Shapes c s')
    (hs : s.step c producerPid (.consumerStep op) = some s')
    (hanswer : s.answer c (.consumerStep op) = some answer)
    (h : p.phase.Recorded o rec env c s'.calls) :
    (p.answered o rec env c s.region answer).phase.Recorded o rec env c s'.calls := by
  unfold Recording.answered
  split
  case h_1 => exact h
  case h_2 cursor g hacquire =>
    obtain ⟨q, hq, hlen, hview, hdata⟩ := handed_out hinv hshapes hs hanswer (acquire_guard hacquire)
    rw [hview, hdata]
    exact frame_recorded ho h hlen hq cursor.jumps

/-- What the ring and the recorder on it keep to. -/
structure Kept (o : Overlay Font) (rec : VideoRecorder.Recorder Font) (env : Environment)
    (c : CheckedConfig) (producerPid : ℕ) (t : Observed State Recording) : Prop where
  inv : Inv c producerPid t.state
  shapes : Shapes c t.state
  recorded : t.view.phase.Recorded o rec env c t.state.calls

theorem kept_step (ho : o.KeepsSize) {t t' : Observed State Recording} {e : Event}
    (h : Kept o rec env c producerPid t) (he : Careful producerPid t.state e)
    (hs : (recording o rec env c producerPid pid).step t e = some t') :
    Kept o rec env c producerPid t' := by
  obtain ⟨s', hstep, rfl⟩ := Machine.observed_step hs
  change t.state.step c producerPid e = some s' at hstep
  have hinv := inv_step h.inv he hstep
  have hshapes := shapes_step h.inv.seen h.shapes hstep
  have hrecorded := h.recorded.mono (calls_subset hstep)
  refine ⟨hinv, hshapes, ?_⟩
  unfold Recording.see
  split
  case h_1 op answer hanswer =>
    split
    case isTrue => exact answered_recorded ho hinv hshapes hstep hanswer hrecorded
    case isFalse => exact hrecorded
  case h_2 => exact hrecorded

theorem kept_reachable (ho : o.KeepsSize) {t : Observed State Recording}
    (h : (recording o rec env c producerPid pid).ReachableBy
      (fun t e => Careful producerPid t.state e) t) : Kept o rec env c producerPid t := by
  refine h.invariant (I := Kept o rec env c producerPid) ?_ fun t e t' _ ht he hs =>
    kept_step ho ht he hs
  rintro ⟨_, _⟩ ⟨⟨alive, hup, rfl⟩, rfl⟩
  exact ⟨inv_start hup, shapes_start alive, trivial⟩

end AutoTargeting.VideoRecorder
