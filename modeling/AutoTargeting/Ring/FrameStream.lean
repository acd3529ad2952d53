import AutoTargeting.Ring.CrashRecovery
import AutoTargeting.Ring.Loop
import Mathlib.Data.List.Chain

namespace AutoTargeting.Ring

open Runs

variable {c : CheckedConfig} {producerPid pid : ℕ} {r r' : Region}

/-- What `acquire` of the detector, and of the recorder, keeps between calls: `last` and
`stats.jumps`. With `retry`, the call under way is on its second `next_after`. -/
structure Cursor where
  last : ℕ
  jumps : ℕ
  retry : Bool
  deriving DecidableEq, Repr

def Cursor.start : Cursor := ⟨0, 0, false⟩

/-- `acquire` with the answer of the ring: the cursor then, and the guard it returns. -/
def Cursor.acquire (cur : Cursor) : Answer → Cursor × Option FrameGuard
  | .next (.frame g) | .latest (some g) => (⟨g.view.frameId, cur.jumps, false⟩, some g)
  | .next .upToDate | .latest none => ({ cur with retry := false }, none)
  | .next (.tooFarBehind _ latest) =>
    -- the second time only a frame counts
    if cur.retry then ({ cur with retry := false }, none)
    else (⟨latest, cur.jumps + 1, true⟩, none)

/-- A frame that `acquire` returned: the answers `TooFarBehind` since the one before it, by
their `latest`, and the older frames that could still be taken. -/
structure Delivery where
  id : ℕ
  answers : List ℕ
  available : List ℕ
  deriving DecidableEq, Repr

/-- The frame is in its slot, and not being overwritten. -/
def Region.Available (c : CheckedConfig) (r : Region) (id : ℕ) : Prop :=
  (r.slot (id % c.capacity)).frameId = id ∧ (r.slot (id % c.capacity)).refCount ≠ writerLock

instance (c : CheckedConfig) (r : Region) (id : ℕ) : Decidable (r.Available c id) :=
  inferInstanceAs (Decidable (_ ∧ _))

def Region.older (c : CheckedConfig) (r : Region) (id : ℕ) : List ℕ :=
  (List.range' 1 (id - 1)).filter (r.Available c ·)

/-- A consumer that calls `acquire` again and again, with the frames it got. -/
structure Stream where
  cursor : Cursor
  answers : List ℕ
  log : List Delivery
  deriving DecidableEq, Repr

namespace Stream

def behind : Answer → List ℕ
  | .next (.tooFarBehind _ latest) => [latest]
  | .next (.frame _) | .next .upToDate | .latest _ => []

def answered (c : CheckedConfig) (r : Region) (a : Answer) (p : Stream) : Stream :=
  let answers := p.answers ++ behind a
  match p.cursor.acquire a with
  | (cursor, some g) =>
    ⟨cursor, [], p.log ++ [⟨g.view.frameId, answers, r.older c g.view.frameId⟩]⟩
  | (cursor, none) => ⟨cursor, answers, p.log⟩

/-- The detector, and the recorder in `Sequential` mode: their `acquire` is the same. -/
def loop (c : CheckedConfig) : Loop Stream where
  first := ⟨.start, [], []⟩
  call p := .nextAfter p.cursor.last
  answered := answered c

/-- The ids come in order, one after another where no answer was `TooFarBehind`; after an
answer the frame `latest` comes next, unless it was overwritten by then; and from `latest` on
no frame is skipped that is still there. -/
structure Follows (log : List Delivery) : Prop where
  increasing : log.Pairwise (·.id < ·.id)
  consecutive : log.IsChain fun d d' => d'.answers = [] → d'.id = d.id + 1
  jumps : ∀ d ∈ log, ∀ latest ∈ d.answers, d.id = latest ∨ latest ∉ d.available
  skips : ∀ d ∈ log, ∀ latest ∈ d.answers.getLast?, ∀ id ∈ d.available, latest ≤ id → d.id ≤ id

/-- `acquire` is not called with the last id there is. -/
def IdsLeft (t : Observed State Stream) : Event → Prop
  | .call _ _ => t.view.cursor.last + 1 < 2 ^ 64
  | .publish _ _ | .producerStep | .consumerStep _ | .dropGuard _ | .reap _ _ _ | .reaperStep _
  | .spawn _ | .die _ => True

/-- When `next_after` returns a frame, the frames it was sent to before are overwritten. -/
def Overwritten (c : CheckedConfig) (t : Observed State Stream) : Event → Prop
  | .consumerStep op =>
    match op.pc with
    | .readFormat _ _ _ _ _ _ => ∀ latest ∈ t.view.answers, ¬ t.state.region.Available c latest
    | _ => True
  | .publish _ _ | .producerStep | .call _ _ | .dropGuard _ | .reap _ _ _ | .reaperStep _
  | .spawn _ | .die _ => True

def OneStream (c : CheckedConfig) (pid : ℕ) (t : Observed State Stream) (e : Event) : Prop :=
  (loop c).Alone pid t e ∧ IdsLeft t e

instance (t : Observed State Stream) (e : Event) : Decidable (IdsLeft t e) :=
  match e with
  | .call _ _ => inferInstanceAs (Decidable (t.view.cursor.last + 1 < 2 ^ 64))
  | .publish _ _ | .producerStep | .consumerStep _ | .dropGuard _ | .reap _ _ _ | .reaperStep _
  | .spawn _ | .die _ => inferInstanceAs (Decidable True)

instance (c : CheckedConfig) (t : Observed State Stream) (e : Event) :
    Decidable (Overwritten c t e) :=
  match e with
  | .consumerStep ⟨_, .readFormat _ _ _ _ _ _⟩ =>
    inferInstanceAs (Decidable (∀ latest ∈ t.view.answers, ¬ t.state.region.Available c latest))
  | .consumerStep ⟨_, .latestSeq⟩ | .consumerStep ⟨_, .nextSeq _ _⟩
  | .consumerStep ⟨_, .loadRef _ _ _⟩ | .consumerStep ⟨_, .casRef _ _ _ _⟩
  | .consumerStep ⟨_, .storePid _ _⟩ | .consumerStep ⟨_, .loadId _ _⟩
  | .consumerStep ⟨_, .releaseMismatch _ _ _⟩ | .consumerStep ⟨_, .readTs _ _ _⟩
  | .consumerStep ⟨_, .readWidth _ _ _ _⟩ | .consumerStep ⟨_, .readHeight _ _ _ _ _⟩ =>
    inferInstanceAs (Decidable True)
  | .publish _ _ | .producerStep | .call _ _ | .dropGuard _ | .reap _ _ _ | .reaperStep _
  | .spawn _ | .die _ => inferInstanceAs (Decidable True)

instance (c : CheckedConfig) (pid : ℕ) (t : Observed State Stream) (e : Event) :
    Decidable (OneStream c pid t e) := inferInstanceAs (Decidable (_ ∧ _))

def Passed (p : Stream) : Prop := ∀ latest ∈ p.answers, latest ≤ p.cursor.last

/-- All that was delivered is behind the cursor. So are the answers, unless the cursor is a
turn behind again. -/
structure Ordered (c : CheckedConfig) (r : Region) (p : Stream) : Prop where
  behind : ∀ d ∈ p.log, d.id ≤ p.cursor.last
  answers : ∀ latest ∈ p.answers, latest ≤ r.writeSeq ∧
    (latest ≤ p.cursor.last ∨ p.cursor.last + 1 + c.capacity ≤ r.writeSeq)
  jumped : ∀ latest ∈ p.answers.getLast?, p.cursor.last ≤ latest
  last : p.answers = [] → ∀ d ∈ p.log.getLast?, d.id = p.cursor.last
  increasing : p.log.Pairwise (·.id < ·.id)
  consecutive : p.log.IsChain fun d d' => d'.answers = [] → d'.id = d.id + 1
  passed : ∀ d ∈ p.log, ∀ latest ∈ d.answers, latest < d.id
  next : ∀ d ∈ p.log, ∀ latest ∈ d.answers.getLast?, d.id = latest + 1

theorem ordered_grows {p : Stream} (hgrows : r.Grows r') (h : Ordered c r p) : Ordered c r' p := by
  refine ⟨h.behind, fun latest hl => ?_, h.jumped, h.last, h.increasing, h.consecutive, h.passed,
    h.next⟩
  have hle := hgrows.writeSeq
  obtain ⟨hseq, hcursor⟩ := h.answers latest hl
  omega

theorem ordered_upToDate {p : Stream} (hp : Ordered c r p) :
    Ordered c r (answered c r (.next .upToDate) p) := by
  simpa [answered, Cursor.acquire, behind] using
    (⟨hp.behind, hp.answers, hp.jumped, hp.last, hp.increasing, hp.consecutive, hp.passed,
      hp.next⟩ : Ordered c r { p with cursor := { p.cursor with retry := false } })

/-- `acquire` jumps to `latest`, or it has jumped in this call already. -/
theorem ordered_tooFarBehind {p : Stream} (hp : Ordered c r p)
    (hfar : p.cursor.last + 1 + c.capacity ≤ r.writeSeq) :
    Ordered c r (answered c r (.next (.tooFarBehind p.cursor.last r.writeSeq)) p) := by
  have hseq : ∀ latest ∈ p.answers ++ [r.writeSeq], latest ≤ r.writeSeq := by
    intro latest hl
    rcases List.mem_append.mp hl with hl | hl
    · exact (hp.answers latest hl).1
    · exact (List.mem_singleton.mp hl).le
  simp only [answered, Cursor.acquire, behind]
  by_cases hretry : p.cursor.retry
  · simp only [hretry, if_true]
    refine ⟨hp.behind, fun latest hl => ⟨hseq latest hl, .inr hfar⟩, fun latest hl => ?_, by simp,
      hp.increasing, hp.consecutive, hp.passed, hp.next⟩
    rw [List.getLast?_concat, Option.mem_some_iff] at hl
    show p.cursor.last ≤ latest
    omega
  · simp only [hretry]
    refine ⟨fun d hd => ?_, fun latest hl => ⟨hseq latest hl, .inl (hseq latest hl)⟩, by simp,
      by simp, hp.increasing, hp.consecutive, hp.passed, hp.next⟩
    have : d.id ≤ p.cursor.last := hp.behind d hd
    show d.id ≤ r.writeSeq
    omega

theorem ordered_frame {p : Stream} (hp : Ordered c r p) {g : FrameGuard}
    (hid : g.view.frameId = p.cursor.last + 1) (hans : p.Passed) :
    Ordered c r (answered c r (.next (.frame g)) p) := by
  simp only [answered, Cursor.acquire, behind, List.append_nil]
  have hlast : ∀ d ∈ p.log, d.id < g.view.frameId := fun d hd => by
    have := hp.behind d hd
    omega
  constructor
  case behind =>
    intro d hd
    rcases List.mem_append.mp hd with hd | hd
    · exact (hlast d hd).le
    · exact (congrArg Delivery.id (List.mem_singleton.mp hd)).le
  case answers => simp
  case jumped => simp
  case last => simp
  case increasing =>
    rw [List.pairwise_append]
    refine ⟨hp.increasing, List.pairwise_singleton _ _, fun d hd d' hd' => ?_⟩
    rw [List.mem_singleton.mp hd']
    exact hlast d hd
  case consecutive =>
    rw [List.isChain_append]
    refine ⟨hp.consecutive, List.isChain_singleton _, fun d hd d' hd' hnone => ?_⟩
    cases hd'
    have := hp.last hnone d hd
    simp only
    omega
  case passed =>
    intro d hd
    rcases List.mem_append.mp hd with hd | hd
    · exact hp.passed d hd
    · rw [List.mem_singleton.mp hd]
      intro latest hl
      have := hans latest hl
      simp only
      omega
  case next =>
    intro d hd
    rcases List.mem_append.mp hd with hd | hd
    · exact hp.next d hd
    · rw [List.mem_singleton.mp hd]
      intro latest hl
      -- the cursor is at the last answer
      have hle := hans latest (List.mem_of_getLast? hl)
      have hge := hp.jumped latest hl
      simp only
      omega

theorem ordered_answered {p : Stream} (hp : Ordered c r p) {answer : Answer}
    (h : Sought c r p.cursor.last p.Passed answer) : Ordered c r (answered c r answer p) := by
  rcases answer with _ | (g | _ | ⟨lastSeen, latest⟩)
  · cases h
  · exact ordered_frame hp h.1 h.2
  · exact ordered_upToDate hp
  · obtain ⟨rfl, rfl, hfar⟩ := h
    exact ordered_tooFarBehind hp hfar

theorem stream_keeps (c : CheckedConfig) (pid : ℕ) :
    (loop c).Keeps c pid (OneStream c pid) (fun _ p => Seeks p.cursor.last p.Passed)
      (Ordered c) where
  alone _ _ h := h.1
  first := ⟨nofun, nofun, nofun, nofun, .nil, .nil, nofun, nofun⟩
  grows _ _ _ hgrows h := ordered_grows hgrows h
  atGrows _ _ _ _ _ h := h
  enter t k hC _ := ⟨rfl, hC.2⟩
  goesOn t op _ _ _ hp hat h := by
    refine seeks_goesOn op.pid hat (fun _ _ _ hnear latest hl => ?_) h
    -- the cursor is not a turn behind, so every answer is behind it
    have := (hp.answers latest hl).2
    omega
  answers _ op _ _ _ hp hat h := ordered_answered hp (seeks_answers op.pid hat h)

variable {t : Observed State Stream}

theorem ordered_reachable
    (h : ((loop c).machine c producerPid).ReachableBy (OneStream c pid) t) :
    Ordered c t.state.region t.view :=
  ((stream_keeps c pid).reachable h).keeps

/-- No frame that an answer `TooFarBehind` named was to be had when the next one came. -/
def NoneAvailable (log : List Delivery) : Prop :=
  ∀ d ∈ log, ∀ latest ∈ d.answers, latest ∉ d.available

/-- `acquire` never delivers the frame `latest` itself: it goes on behind it. -/
theorem follows_iff {p : Stream} (hp : Ordered c r p) : Follows p.log ↔ NoneAvailable p.log := by
  constructor
  · intro h d hd latest hl
    rcases h.jumps d hd latest hl with heq | hnot
    · exact absurd heq (hp.passed d hd latest hl).ne'
    · exact hnot
  · intro h
    refine ⟨hp.increasing, hp.consecutive, fun d hd latest hl => .inr (h d hd latest hl),
      fun d hd latest hl id hid hle => ?_⟩
    have hnext := hp.next d hd latest hl
    have hne : id ≠ latest := by
      rintro rfl
      exact h d hd id (List.mem_of_getLast? hl) hid
    omega

/-- With the frames of its answers overwritten, a delivery has none available. -/
theorem noneAvailable_answered {p : Stream} {a : Answer} (h : NoneAvailable p.log)
    (hover : ∀ g, a.guard? = some g → ∀ latest ∈ p.answers, ¬ r.Available c latest) :
    NoneAvailable (answered c r a p).log := by
  have hframe : ∀ g, a.guard? = some g → behind a = [] →
      NoneAvailable (p.log ++ [⟨g.view.frameId, p.answers ++ behind a,
        r.older c g.view.frameId⟩]) := by
    intro g hg hnone d hd
    rcases List.mem_append.mp hd with hd | hd
    · exact h d hd
    · rw [List.mem_singleton.mp hd, hnone, List.append_nil]
      intro latest hl
      simp [Region.older, hover g hg latest hl]
  rcases a with (_ | g) | (g | _ | ⟨lastSeen, latest⟩)
  · exact h
  · exact hframe g rfl rfl
  · exact hframe g rfl rfl
  · exact h
  · by_cases hretry : p.cursor.retry <;> simpa [answered, Cursor.acquire, hretry] using h

/-- The program of `stream_keeps` again, where it delivers nothing while the frame of an
answer is there. -/
theorem stream_overwritten (c : CheckedConfig) (pid : ℕ) :
    (loop c).Keeps c pid (fun t e => OneStream c pid t e ∧ Overwritten c t e) (fun _ _ _ => True)
      fun _ p => NoneAvailable p.log where
  alone _ _ h := h.1.1
  first := nofun
  grows _ _ _ _ h := h
  atGrows _ _ _ _ _ _ := trivial
  enter _ _ _ _ := trivial
  goesOn _ _ _ _ _ _ _ _ := trivial
  answers t op answer hC _ h _ hnext := by
    apply noneAvailable_answered h
    intro g hg latest hl
    obtain ⟨k, a, actual, ts, width, height, hpc, -⟩ := guard_of_readFormat hnext hg
    have hover := hC.2
    simp only [Overwritten, hpc] at hover
    exact hover latest hl

/-- The stream of frames is as documented where no answer `TooFarBehind` names a frame that is
still there when the next one is delivered, and nowhere else. -/
theorem stream_follows (c : CheckedConfig) (producerPid pid : ℕ) :
    (∀ t, ((loop c).machine c producerPid).ReachableBy
        (fun t e => OneStream c pid t e ∧ Overwritten c t e) t → Follows t.view.log) ∧
    ∀ t, ((loop c).machine c producerPid).ReachableBy (OneStream c pid) t →
      (Follows t.view.log ↔ NoneAvailable t.view.log) := by
  have hiff : ∀ t, ((loop c).machine c producerPid).ReachableBy (OneStream c pid) t →
      (Follows t.view.log ↔ NoneAvailable t.view.log) := fun t h =>
    follows_iff (ordered_reachable h)
  refine ⟨fun t h => ?_, hiff⟩
  exact (hiff t (h.mono fun _ _ hC => hC.1)).mpr ((stream_overwritten c pid).reachable h).keeps

/-- Three frames into two slots, and a consumer that had none of them. -/
def tooFar : List Event :=
  publishEvents [1, 2, 3] 9 12 ++ publishEvents [4, 5, 6] 10 12 ++ publishEvents [7, 8, 9] 11 12 ++
    [.call 1 (.nextAfter 0), .consumerStep ⟨1, .nextSeq 0 255⟩,
      .call 1 (.nextAfter 3), .consumerStep ⟨1, .nextSeq 3 255⟩]

/-- Then frames 4 and 5, and the consumer gets 4. -/
def tooFarOverwritten : List Event :=
  tooFar ++ publishEvents [1, 1, 1] 12 12 ++ publishEvents [2, 2, 2] 13 12 ++
    nextAfterEvents 1 3 0 0 ⟨4, 12, 1, 1, 1⟩

/-- Then frame 4 alone: the consumer gets it, and 3 is still in its slot. -/
def tooFarAvailable : List Event :=
  tooFar ++ publishEvents [1, 1, 1] 12 12 ++ nextAfterEvents 1 3 0 0 ⟨4, 12, 1, 1, 1⟩

theorem stream_follows_overwritten :
    ∃ t : Observed State Stream, t.view.log = [⟨4, [3], []⟩] ∧ Follows t.view.log := by
  have hrun : (((loop tinyConfig).machine tinyConfig 100).exec
      (fun t e => OneStream tinyConfig 1 t e ∧ Overwritten tinyConfig t e)
      ⟨.start fun _ => true, (loop tinyConfig).first⟩ tooFarOverwritten).map (·.view.log) =
      some [⟨4, [3], []⟩] := by decide
  obtain ⟨t, ht, hlog⟩ := Option.map_eq_some_iff.mp hrun
  exact ⟨t, hlog, (stream_follows tinyConfig 100 1).1 t (.of_exec (.init ⟨⟨_, rfl, rfl⟩, rfl⟩) ht)⟩

theorem stream_skips :
    ¬ ∀ t, ((loop tinyConfig).machine tinyConfig 100).ReachableBy (OneStream tinyConfig 1) t →
      Follows t.view.log := by
  intro hall
  have hrun : (((loop tinyConfig).machine tinyConfig 100).exec (OneStream tinyConfig 1)
      ⟨.start fun _ => true, (loop tinyConfig).first⟩ tooFarAvailable).map (·.view.log) =
      some [⟨4, [3], [3]⟩] := by decide
  obtain ⟨t, ht, hlog⟩ := Option.map_eq_some_iff.mp hrun
  have hfollows := hall t (.of_exec (.init ⟨⟨_, rfl, rfl⟩, rfl⟩) ht)
  rw [hlog] at hfollows
  exact absurd (hfollows.jumps _ (List.mem_singleton_self _) 3 (List.mem_singleton_self _))
    (by decide)

end Stream

end AutoTargeting.Ring
