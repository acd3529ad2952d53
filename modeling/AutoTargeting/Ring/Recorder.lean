import AutoTargeting.Ring.FrameStream

namespace AutoTargeting.Ring

open Runs

variable {c : CheckedConfig} {producerPid pid : ℕ} {r r' : Region}

inductive ReadMode
  | sequential
  | latest
  deriving DecidableEq, Repr

/-- `Recorder::run`, until it stops: it waits for the first frame, and from then on it is in
its loop. `written` has the frames whose pixels it wrote. -/
structure Recorder where
  looping : Bool
  cursor : Cursor
  written : List ℕ
  deriving DecidableEq, Repr

namespace Recorder

def call (mode : ReadMode) (p : Recorder) : Call :=
  match mode with
  | .sequential => .nextAfter p.cursor.last
  | .latest => .latest

/-- The frame that was taken is written. The loop begins with the first one, and with a cursor
of its own. -/
def answered (_ : Region) (a : Answer) (p : Recorder) : Recorder :=
  match p.cursor.acquire a with
  | (cursor, some g) =>
    if p.looping then ⟨true, cursor, p.written ++ [g.view.frameId]⟩
    else ⟨true, .start, [g.view.frameId]⟩
  | (cursor, none) => { p with cursor }

def loop (mode : ReadMode) : Loop Recorder where
  first := ⟨false, .start, []⟩
  call := call mode
  answered := answered

/-- The recorder is the one consumer, and it drops a guard before it calls `acquire` again. -/
def Records (mode : ReadMode) (pid : ℕ) (t : Observed State Recorder) (e : Event) : Prop :=
  (loop mode).Alone pid t e ∧ (e ≠ .call pid (call mode t.view) ∨ t.state.guards = 0)

/-- What the recorder finds when it loads `write_seq`. In `Latest` mode the ring is beyond the
frame written last; in `Sequential` mode, where the loop starts over, frame 1 has left the
window. And `next_after` is not called with the last id there is. -/
def Ahead (c : CheckedConfig) (t : Observed State Recorder) : Event → Prop
  | .call _ (.nextAfter lastId) => lastId + 1 < 2 ^ 64
  | .consumerStep op =>
    match op.pc with
    | .latestSeq => ∀ id ∈ t.view.written, id < t.state.region.writeSeq
    | .nextSeq lastId _ =>
      t.view.looping = true → lastId = 0 → c.capacity < t.state.region.writeSeq
    | _ => True
  | .call _ .latest | .publish _ _ | .producerStep | .dropGuard _ | .reap _ _ _ | .reaperStep _
  | .spawn _ | .die _ => True

instance (mode : ReadMode) (pid : ℕ) (t : Observed State Recorder) (e : Event) :
    Decidable (Records mode pid t e) := inferInstanceAs (Decidable (_ ∧ _))

instance (c : CheckedConfig) (t : Observed State Recorder) (e : Event) :
    Decidable (Ahead c t e) :=
  match e with
  | .call _ (.nextAfter lastId) => inferInstanceAs (Decidable (lastId + 1 < 2 ^ 64))
  | .consumerStep ⟨_, .latestSeq⟩ =>
    inferInstanceAs (Decidable (∀ id ∈ t.view.written, id < t.state.region.writeSeq))
  | .consumerStep ⟨_, .nextSeq lastId _⟩ =>
    inferInstanceAs (Decidable
      (t.view.looping = true → lastId = 0 → c.capacity < t.state.region.writeSeq))
  | .consumerStep ⟨_, .loadRef _ _ _⟩ | .consumerStep ⟨_, .casRef _ _ _ _⟩
  | .consumerStep ⟨_, .storePid _ _⟩ | .consumerStep ⟨_, .loadId _ _⟩
  | .consumerStep ⟨_, .releaseMismatch _ _ _⟩ | .consumerStep ⟨_, .readTs _ _ _⟩
  | .consumerStep ⟨_, .readWidth _ _ _ _⟩ | .consumerStep ⟨_, .readHeight _ _ _ _ _⟩
  | .consumerStep ⟨_, .readFormat _ _ _ _ _ _⟩ => inferInstanceAs (Decidable True)
  | .call _ .latest | .publish _ _ | .producerStep | .dropGuard _ | .reap _ _ _ | .reaperStep _
  | .spawn _ | .die _ => inferInstanceAs (Decidable True)

/-- What was written is behind the cursor, unless the loop starts over. -/
structure Behind (r : Region) (p : Recorder) : Prop where
  increasing : p.written.Pairwise (· < ·)
  published : ∀ id ∈ p.written, id ≤ r.writeSeq
  cursor : ∀ id ∈ p.written, id ≤ p.cursor.last ∨ p.looping = true ∧ p.cursor.last = 0
  waiting : p.looping = false → p.written = []

theorem behind_answered {p : Recorder} (hp : Behind r p) {answer : Answer}
    (h : Sought c r p.cursor.last
      (p.cursor.last + 1 ≤ r.writeSeq ∧ ∀ id ∈ p.written, id ≤ p.cursor.last) answer) :
    Behind r (answered r answer p) := by
  rcases answer with _ | (g | _ | ⟨lastSeen, latest⟩)
  · cases h
  · obtain ⟨hid, hseq, hlast⟩ := h
    cases hloop : p.looping with
    | false =>
      simp only [answered, Cursor.acquire, hloop]
      refine ⟨List.pairwise_singleton _ _, fun id h => ?_, fun _ _ => .inr ⟨rfl, rfl⟩,
        fun h => Bool.noConfusion h⟩
      cases List.mem_singleton.mp h
      omega
    | true =>
      simp only [answered, Cursor.acquire, hloop, if_true]
      refine ⟨?_, fun id h => ?_, fun id h => .inl ?_, fun h => ?_⟩
      · refine List.pairwise_append.mpr ⟨hp.increasing, List.pairwise_singleton _ _,
          fun id h id' h' => ?_⟩
        have := hlast id h
        cases List.mem_singleton.mp h'
        omega
      · rcases List.mem_append.mp h with h | h
        · exact hp.published id h
        · cases List.mem_singleton.mp h
          omega
      · rcases List.mem_append.mp h with h | h
        · have := hlast id h
          show id ≤ g.view.frameId
          omega
        · exact (List.mem_singleton.mp h).le
      · cases h
  · exact ⟨hp.increasing, hp.published, hp.cursor, hp.waiting⟩
  · obtain ⟨rfl, rfl, hfar⟩ := h
    by_cases hretry : p.cursor.retry
    · simp only [answered, Cursor.acquire, hretry, if_true]
      exact ⟨hp.increasing, hp.published, hp.cursor, hp.waiting⟩
    · -- the cursor is at `write_seq` now
      simp only [answered, Cursor.acquire, hretry]
      exact ⟨hp.increasing, hp.published, fun id h => .inl (hp.published id h), hp.waiting⟩

theorem sequential_keeps (c : CheckedConfig) (pid : ℕ) :
    (loop .sequential).Keeps c pid (fun t e => Records .sequential pid t e ∧ Ahead c t e)
      (fun r p => Seeks p.cursor.last
        (p.cursor.last + 1 ≤ r.writeSeq ∧ ∀ id ∈ p.written, id ≤ p.cursor.last)) Behind where
  alone _ _ h := h.1.1
  first := ⟨.nil, nofun, nofun, fun _ => rfl⟩
  grows _ _ _ hgrows h :=
    ⟨h.increasing, fun id hid => (h.published id hid).trans hgrows.writeSeq, h.cursor, h.waiting⟩
  atGrows _ _ _ _ hgrows h := seeks_mono (fun hP => ⟨hP.1.trans hgrows.writeSeq, hP.2⟩) h
  enter t k hC _ := by
    obtain ⟨⟨-, rfl, -⟩, -⟩ := hC.1
    exact ⟨rfl, hC.2⟩
  goesOn t op pc hC _ hp hat h := by
    refine seeks_goesOn op.pid hat (fun n hpc hseq hnear => ⟨hseq, fun id hid => ?_⟩) h
    rcases hp.cursor id hid with hle | ⟨hloop, hlast⟩
    · exact hle
    · -- the loop starts over, but not from frame 1
      have hahead := hC.2
      simp only [Ahead, hpc] at hahead
      have := hahead hloop hlast
      omega
  answers _ op _ _ _ hp hat h := behind_answered hp (seeks_answers op.pid hat h)

/-- In `Latest` mode a call is at a slot with a frame newer than all that were written. -/
theorem latest_next {t : Observed State Recorder} {op : Op} (hahead : Ahead c t (.consumerStep op))
    (hw : Window c t.state.region)
    (hat : op.pc.NotBefore c t.state.region (t.view.written.map (· + 1))) :
    NotBeforeNext c t.state.region (t.view.written.map (· + 1))
      (op.pc.step c op.pid t.state.region).next := by
  apply consumer_notBefore op.pid _ hat
  intro hpc hseq id hid
  simp only [Ahead, hpc] at hahead
  obtain ⟨id, hmem, rfl⟩ := List.mem_map.mp hid
  calc id + 1 ≤ t.state.region.writeSeq := hahead id hmem
    _ ≤ _ := hw t.state.region.writeSeq (by omega) le_rfl

theorem increasing_answered (r : Region) {p : Recorder} (hp : p.written.Pairwise (· < ·)) {g : FrameGuard}
    (hnew : ∀ id ∈ p.written.map (· + 1), id ≤ g.view.frameId) :
    (answered r (.latest (some g)) p).written.Pairwise (· < ·) := by
  cases hloop : p.looping with
  | false =>
    simp only [answered, Cursor.acquire, hloop]
    exact List.pairwise_singleton _ _
  | true =>
    simp only [answered, Cursor.acquire, hloop, if_true]
    refine List.pairwise_append.mpr ⟨hp, List.pairwise_singleton _ _, fun id hid id' hid' => ?_⟩
    cases List.mem_singleton.mp hid'
    exact hnew (id + 1) (List.mem_map_of_mem hid)

theorem latest_keeps (c : CheckedConfig) (pid : ℕ) :
    (loop .latest).Keeps c pid (fun t e => Records .latest pid t e ∧ Ahead c t e)
      (fun r p => ConsumerPc.NotBefore c r (p.written.map (· + 1)))
      (fun _ p => p.written.Pairwise (· < ·)) where
  alone _ _ h := h.1.1
  first := .nil
  grows _ _ _ _ h := h
  atGrows _ _ _ _ hgrows h := notBefore_mono hgrows.frameId h
  enter t k hC _ := by
    obtain ⟨⟨-, rfl, -⟩, -⟩ := hC.1
    trivial
  goesOn t op pc hC hw _ hat h := by
    have hnext := latest_next hC.2 hw hat
    rw [h] at hnext
    exact hnext
  answers t op answer hC hw hp hat h := by
    have hnext := latest_next hC.2 hw hat
    rw [h] at hnext
    rcases answer with (_ | g) | _
    · exact hp
    · exact increasing_answered t.state.region hp hnext.2.2
    · cases hnext

/-- The recorder writes each frame at most once, and the frames in order, where every load of
`write_seq` finds the ring ahead of what was written. -/
theorem written_increasing (mode : ReadMode) {t : Observed State Recorder}
    (h : ((loop mode).machine c producerPid).ReachableBy
      (fun t e => Records mode pid t e ∧ Ahead c t e) t) :
    t.view.written.Pairwise (· < ·) := by
  cases mode with
  | sequential => exact ((sequential_keeps c pid).reachable h).keeps.increasing
  | latest => exact ((latest_keeps c pid).reachable h).keeps

/-- Frame 1 for the first frame; then frames 2 and 3, and the loop starts behind frame 3. -/
def recordBehind : List Event :=
  publishEvents [1, 2, 3] 9 12 ++ nextAfterEvents 1 0 1 0 ⟨1, 9, 1, 1, 1⟩ ++
    [.dropGuard ⟨1, ⟨1, ⟨1, 9, 1, 1, 1⟩⟩⟩] ++
    publishEvents [4, 5, 6] 10 12 ++ publishEvents [7, 8, 9] 11 12 ++
    [.call 1 (.nextAfter 0), .consumerStep ⟨1, .nextSeq 0 255⟩] ++
    publishEvents [1, 1, 1] 12 12 ++ nextAfterEvents 1 3 0 0 ⟨4, 12, 1, 1, 1⟩

theorem written_increasing_behind :
    ∃ t : Observed State Recorder, t.view.written = [1, 4] ∧ t.view.written.Pairwise (· < ·) := by
  have hrun : (((loop .sequential).machine tinyConfig 100).exec
      (fun t e => Records .sequential 1 t e ∧ Ahead tinyConfig t e)
      ⟨.start fun _ => true, (loop .sequential).first⟩ recordBehind).map (·.view.written) =
      some [1, 4] := by decide
  obtain ⟨t, ht, hwritten⟩ := Option.map_eq_some_iff.mp hrun
  exact ⟨t, hwritten, written_increasing .sequential (.of_exec (.init ⟨⟨_, rfl, rfl⟩, rfl⟩) ht)⟩

/-- Frame 1 for the first frame, and once more at the start of the loop. -/
def recordAgain : ReadMode → List Event
  | .sequential => publishEvents [1, 2, 3] 9 12 ++ nextAfterEvents 1 0 1 0 ⟨1, 9, 1, 1, 1⟩ ++
    [.dropGuard ⟨1, ⟨1, ⟨1, 9, 1, 1, 1⟩⟩⟩] ++ nextAfterEvents 1 0 1 0 ⟨1, 9, 1, 1, 1⟩
  | .latest => publishEvents [1, 2, 3] 9 12 ++ latestEvents 1 1 0 ⟨1, 9, 1, 1, 1⟩ ++
    [.dropGuard ⟨1, ⟨1, ⟨1, 9, 1, 1, 1⟩⟩⟩] ++ latestEvents 1 1 0 ⟨1, 9, 1, 1, 1⟩

theorem written_twice :
    ¬ ∃ mode, ∀ t, ((loop mode).machine tinyConfig 100).ReachableBy (Records mode 1) t →
      t.view.written.Pairwise (· < ·) := by
  rintro ⟨mode, hall⟩
  have hrun : (((loop mode).machine tinyConfig 100).exec (Records mode 1)
      ⟨.start fun _ => true, (loop mode).first⟩ (recordAgain mode)).map (·.view.written) =
      some [1, 1] := by cases mode <;> decide
  obtain ⟨t, ht, hwritten⟩ := Option.map_eq_some_iff.mp hrun
  have hincreasing := hall t (.of_exec (.init ⟨⟨_, rfl, rfl⟩, rfl⟩) ht)
  rw [hwritten] at hincreasing
  exact absurd hincreasing (by decide)

end Recorder

end AutoTargeting.Ring
