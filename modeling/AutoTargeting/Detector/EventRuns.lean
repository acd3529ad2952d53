import AutoTargeting.Detector.Events
import AutoTargeting.Ring.Among
import AutoTargeting.Ring.CrashRecovery
import AutoTargeting.Ring.FrameStream

namespace AutoTargeting.Detector

open Runs
open AutoTargeting.Ring

variable {F : Type} {cfg : DetectorConfig} {env : Surroundings F} {c : CheckedConfig}
  {producerPid pid : ℕ}

inductive Phase (F : Type)
  | waiting
  | refused (e : DetectorError)
  | looping (s : Looping F)
  | failed (s : Looping F)
  deriving DecidableEq

/-- `Detector::run`: `last` and `stats.jumps`, and the rest. -/
structure Detecting (F : Type) where
  cursor : Cursor
  phase : Phase F
  deriving DecidableEq

namespace Detecting

section
variable (cfg env)

/-- A frame that `acquire` returned, with the cursor behind it. The first one only says what the
frames are like; the loop has a cursor of its own. -/
def frame (cursor : Cursor) (view : FrameView) (data : List UInt8) : Phase F → Detecting F
  | .waiting =>
    match view.storageFormat, env.ready with
    | none, _ => ⟨cursor, .refused (.invalidConfig "unsupported ring format")⟩
    | some _, .error e => ⟨cursor, .refused e⟩
    | some format, .ok _ =>
      ⟨⟨view.frameId, 0, false⟩, .looping (.start view.width view.height format)⟩
  | .looping s => ⟨cursor, ((s.frame cfg env view data).map .looping).getD (.failed s)⟩
  | .refused e => ⟨cursor, .refused e⟩
  | .failed s => ⟨cursor, .failed s⟩

variable (c)

/-- The answer of the ring to `acquire`; the bytes are copied while the guard is there. -/
def answered (r : Region) (a : Answer) (p : Detecting F) : Detecting F :=
  match p.cursor.acquire a with
  | (cursor, none) => { p with cursor }
  | (cursor, some g) => frame cfg env cursor g.view (r.deref c g) p.phase

def loop : Loop (Detecting F) where
  first := ⟨.start, .waiting⟩
  call p := .nextAfter p.cursor.last
  answered := answered cfg env c

/-- The detector calls `next_after`, as long as there is a next id. -/
def Calling (producerPid pid : ℕ) (t : Observed State (Detecting F)) (e : Event) : Prop :=
  (loop cfg env c).Among producerPid pid t e ∧
    ∀ k, e = .call pid k → t.view.cursor.last + 1 < 2 ^ 64

instance (producerPid pid : ℕ) (t : Observed State (Detecting F)) (e : Event) :
    Decidable (Calling cfg env c producerPid pid t e) :=
  decidable_of_iff (Careful producerPid t.state e ∧ ∀ k ∈ e.callOf? pid,
      (k = (loop cfg env c).call t.view ∧ t.state.ops.countP (·.pid = pid) = 0) ∧
        t.view.cursor.last + 1 < 2 ^ 64) (by
    simp only [Calling, Loop.Among, Option.mem_def, Event.callOf?_eq_some]
    grind)

def machine (producerPid pid : ℕ) : Machine (Observed State (Detecting F)) Event :=
  (loop cfg env c).machineAs c producerPid pid

end

/-- The frames that the loop got, after the first one: in the order of the ring, and without a
gap where it never jumped. -/
structure InOrder (cur : Cursor) (first : Publication) (frames : List Publication) : Prop where
  ids : (first :: frames).map (·.frameId) |>.Pairwise (· < ·)
  behind : ∀ p ∈ first :: frames, p.frameId ≤ cur.last ∧ p.frameId < 2 ^ 64
  consecutive : cur.jumps = 0 → cur.last = first.frameId + frames.length ∧
    frames.map (·.frameId) = List.range' (first.frameId + 1) frames.length

/-- The detector has made of the frames in the calls of `publish` what it should. -/
def Follows (cfg : DetectorConfig) (env : Surroundings F) (c : CheckedConfig)
    (calls : List Publication) (p : Detecting F) : Prop :=
  match p.phase with
  | .waiting => True
  | .refused e => env.ready = .error e
  | .looping s => ∃ first ∈ calls, ∃ frames ⊆ calls,
      InOrder p.cursor first frames ∧ s.Tells cfg env c frames
  | .failed _ => False

theorem Follows.mono {calls calls' : List Publication} {p : Detecting F} (hsub : calls ⊆ calls')
    (h : p.Follows cfg env c calls) : p.Follows cfg env c calls' := by
  unfold Follows at *
  cases hphase : p.phase with
  | waiting => trivial
  | refused e =>
    rw [hphase] at h
    exact h
  | looping s =>
    rw [hphase] at h
    obtain ⟨first, hfirst, frames, hframes, htells⟩ := h
    exact ⟨first, hsub hfirst, frames, List.Subset.trans hframes hsub, htells⟩
  | failed s =>
    rw [hphase] at h
    exact h

variable {first : Publication} {frames : List Publication} {p : Publication} {cur cur' : Cursor}

theorem inOrder_first {id : ℕ} (hid : first.frameId = id) (hlt : id < 2 ^ 64) :
    InOrder ⟨id, 0, false⟩ first [] := by
  subst hid
  exact ⟨List.pairwise_singleton _ _, by simpa using hlt, fun _ => ⟨rfl, rfl⟩⟩

theorem InOrder.moved (h : InOrder cur first frames) (hlast : cur.last ≤ cur'.last)
    (hjumps : cur'.jumps = 0 → cur.jumps = 0 ∧ cur'.last = cur.last) :
    InOrder cur' first frames := by
  refine ⟨h.ids, fun p hp => ⟨(h.behind p hp).1.trans hlast, (h.behind p hp).2⟩, fun hzero => ?_⟩
  obtain ⟨hzero, hsame⟩ := hjumps hzero
  rw [hsame]
  exact h.consecutive hzero

theorem InOrder.frame (h : InOrder cur first frames) (hid : p.frameId = cur.last + 1)
    (hlt : p.frameId < 2 ^ 64) (hlast : cur'.last = p.frameId) (hjumps : cur'.jumps = cur.jumps) :
    InOrder cur' first (frames ++ [p]) := by
  have hbefore : ∀ q ∈ first :: frames, q.frameId < p.frameId := by
    intro q hq
    have := (h.behind q hq).1
    omega
  have hcons : first :: (frames ++ [p]) = (first :: frames) ++ [p] := rfl
  refine ⟨?_, ?_, ?_⟩
  · rw [hcons, List.map_append, List.pairwise_append]
    refine ⟨h.ids, List.pairwise_singleton _ _, ?_⟩
    intro i hi j hj
    obtain ⟨q, hq, rfl⟩ := List.mem_map.mp hi
    obtain rfl := List.mem_singleton.mp hj
    exact hbefore q hq
  · intro q hq
    rw [hcons] at hq
    rcases List.mem_append.mp hq with hq | hq
    · exact ⟨by have := hbefore q hq; omega, (h.behind q hq).2⟩
    · obtain rfl := List.mem_singleton.mp hq
      exact ⟨hlast.ge, hlt⟩
  · intro hzero
    obtain ⟨hcur, hids⟩ := h.consecutive (hjumps ▸ hzero)
    refine ⟨by rw [List.length_append, List.length_singleton]; omega, ?_⟩
    rw [List.map_append, List.length_append, List.length_singleton, hids, List.range'_concat]
    simp only [List.map_cons, List.map_nil]
    congr 2
    omega

/-- A frame that was published comes behind the cursor. -/
theorem follows_frame {calls : List Publication} {d : Detecting F} {cursor : Cursor}
    (h : d.Follows cfg env c calls) (hp : p ∈ calls) (hlen : p.data.length = c.frameSize)
    (hid : p.frameId = d.cursor.last + 1) (hlt : p.frameId < 2 ^ 64)
    (hlast : cursor.last = p.frameId) (hjumps : cursor.jumps = d.cursor.jumps) :
    (frame cfg env cursor (p.view c) p.data d.phase).Follows cfg env c calls := by
  unfold Follows at h
  cases hphase : d.phase with
  | waiting =>
    simp only [frame, Publication.storageFormat_view]
    cases hready : env.ready with
    | error e => exact hready
    | ok =>
      exact ⟨p, hp, [], List.nil_subset _, inOrder_first rfl hlt, Looping.tells_start⟩
  | refused e =>
    rw [hphase] at h
    exact h
  | failed s =>
    rw [hphase] at h
    exact h.elim
  | looping s =>
    rw [hphase] at h
    obtain ⟨first, hfirst, frames, hframes, horder, htells⟩ := h
    obtain ⟨s', hs', htells'⟩ := htells.frame hlen
    simp only [frame, hs', Option.map_some, Option.getD_some]
    refine ⟨first, hfirst, frames ++ [p], ?_, horder.frame hid hlt hlast hjumps, htells'⟩
    intro q hq
    rcases List.mem_append.mp hq with hq | hq
    · exact hframes hq
    · exact List.mem_singleton.mp hq ▸ hp

theorem follows_moved {calls : List Publication} {d : Detecting F} {cursor : Cursor}
    (h : d.Follows cfg env c calls) (hlast : d.cursor.last ≤ cursor.last)
    (hjumps : cursor.jumps = 0 → d.cursor.jumps = 0 ∧ cursor.last = d.cursor.last) :
    Follows cfg env c calls { d with cursor } := by
  unfold Follows at *
  cases hphase : d.phase with
  | looping s =>
    rw [hphase] at h
    obtain ⟨first, hfirst, frames, hframes, horder, htells⟩ := h
    exact ⟨first, hfirst, frames, hframes, horder.moved hlast hjumps, htells⟩
  | waiting | refused | failed =>
    rw [hphase] at h
    exact h

/-- What `next_after` answers is the next frame, or nothing, or that the cursor is a turn
behind. -/
theorem follows_answered {s s' : State} {op : Op} {answer : Answer} {d : Detecting F}
    (hinv : Inv c producerPid s') (hshapes : Shapes c s')
    (hs : s.step c producerPid (.consumerStep op) = some s')
    (hanswer : s.answer c (.consumerStep op) = some answer)
    (hsought : Sought c s.region d.cursor.last (d.cursor.last + 1 < 2 ^ 64) answer)
    (h : d.Follows cfg env c s'.calls) :
    (answered cfg env c s.region answer d).Follows cfg env c s'.calls := by
  rcases answer with _ | (g | _ | ⟨lastSeen, latest⟩)
  · cases hsought
  · obtain ⟨q, hq, hlen, hview, hdata⟩ := handed_out hinv hshapes hs hanswer rfl
    obtain ⟨hid, hlt⟩ := hsought
    simp only [answered, Cursor.acquire]
    rw [hview, hdata]
    have hsame : q.frameId = g.view.frameId := (congrArg FrameView.frameId hview).symm
    exact follows_frame h hq hlen (hsame.trans hid) (by omega) rfl rfl
  · exact follows_moved h le_rfl fun hzero => ⟨hzero, rfl⟩
  · obtain ⟨rfl, rfl, hfar⟩ := hsought
    simp only [answered, Cursor.acquire]
    split
    case h_1 cursor hacquire =>
      split at hacquire
      case isTrue => cases hacquire; exact follows_moved h le_rfl fun hzero => ⟨hzero, rfl⟩
      case isFalse =>
        cases hacquire
        exact follows_moved h (by dsimp only; omega) fun hzero => absurd hzero (Nat.succ_ne_zero _)
    case h_2 cursor g hacquire => split at hacquire <;> cases hacquire

theorem keepsAmong (cfg : DetectorConfig) (env : Surroundings F) (c : CheckedConfig)
    (producerPid pid : ℕ) :
    (loop cfg env c).KeepsAmong c pid (Calling cfg env c producerPid pid)
      (fun _ d => Seeks d.cursor.last (d.cursor.last + 1 < 2 ^ 64)) fun _ _ => True where
  first := trivial
  grows _ _ _ _ h := h
  atGrows _ _ _ _ _ h := h
  enter t hC _ := ⟨rfl, hC.2 _ rfl⟩
  goesOn t op pc _ _ _ hat h := by
    refine seeks_goesOn op.pid hat (fun n hpc _ _ => ?_) h
    rw [hpc] at hat
    exact hat.2
  answers _ _ _ _ _ _ _ _ := trivial

/-- What the ring and the detector on it keep to. -/
structure Kept (cfg : DetectorConfig) (env : Surroundings F) (c : CheckedConfig)
    (producerPid pid : ℕ) (t : Observed State (Detecting F)) : Prop where
  running : Loop.RunningAmong c producerPid pid
    (fun _ d => Seeks d.cursor.last (d.cursor.last + 1 < 2 ^ 64)) (fun _ _ => True) t
  shapes : Shapes c t.state
  follows : t.view.Follows cfg env c t.state.calls

theorem kept_step {t t' : Observed State (Detecting F)} {e : Event}
    (h : Kept cfg env c producerPid pid t) (he : Calling cfg env c producerPid pid t e)
    (hs : (machine cfg env c producerPid pid).step t e = some t') :
    Kept cfg env c producerPid pid t' := by
  have hrunning := Loop.runningAmong_step (keepsAmong cfg env c producerPid pid) h.running he he.1 hs
  obtain ⟨s', hstep, rfl⟩ := Machine.observed_step hs
  change t.state.step c producerPid e = some s' at hstep
  have hshapes := shapes_step h.running.inv.seen h.shapes hstep
  have hfollows := h.follows.mono (calls_subset hstep)
  refine ⟨hrunning, hshapes, ?_⟩
  cases e with
  | consumerStep op =>
    simp only [Loop.seeAs, Loop.see]
    by_cases hpid : op.pid = pid
    · rw [if_pos hpid]
      cases hanswer : t.state.answer c (.consumerStep op) with
      | none => exact hfollows
      | some answer =>
        cases step_stepped hstep with
        | consumerStep hop =>
          have hat := h.running.positions op hop hpid
          have hnext : (op.pc.step c op.pid t.state.region).next = .inr answer := by
            simp only [State.answer] at hanswer
            split at hanswer <;> cases hanswer
            assumption
          have hsought := seeks_answers op.pid hat hnext
          exact follows_answered hrunning.inv hshapes hstep hanswer hsought hfollows
    · rw [if_neg hpid]
      exact hfollows
  | publish | producerStep | call | dropGuard | reap | reaperStep | spawn | die => exact hfollows

theorem kept_reachable {t : Observed State (Detecting F)}
    (h : (machine cfg env c producerPid pid).ReachableBy (Calling cfg env c producerPid pid) t) :
    Kept cfg env c producerPid pid t := by
  refine h.invariant ?_ fun t e t' _ ht he hs => kept_step ht he hs
  rintro ⟨_, _⟩ ⟨⟨alive, hup, rfl⟩, rfl⟩
  refine ⟨⟨inv_start hup, Nat.zero_le _, fun _ hop => ?_, trivial⟩, shapes_start alive, trivial⟩
  cases hop

/-- An event shows what was inferred of a frame in these calls, and when and where it was taken. -/
structure Shows (cfg : DetectorConfig) (env : Surroundings F) (c : CheckedConfig) (p : Publication)
    (m : EventBus.DetectionsFrame F) : Prop where
  frameSeq : m.frameSeq.toNat = p.frameId
  capturedAt : m.capturedAt = EventBus.tsNsToDatetime (.ofNat p.tsNs)
  size : m.frameW.toNat = c.width ∧ m.frameH.toNat = c.height
  detections : ∃ n prepared,
    preprocessFrame ⟨p.data, c.width, c.height⟩ c.format cfg.backend = some prepared ∧
      env.infer n prepared = some m.detections

theorem shows_eventOf {q : Publication × ℕ} {m : EventBus.DetectionsFrame F}
    (h : eventOf cfg env c q = some m) (hlt : q.1.frameId < 2 ^ 64) :
    Shows cfg env c q.1 m := by
  unfold eventOf at h
  split at h
  · cases h
  · obtain ⟨detections, hinferred, rfl⟩ := Option.map_eq_some_iff.mp h
    obtain ⟨prepared, hprepared, hinfer⟩ := Option.bind_eq_some_iff.mp hinferred
    obtain ⟨-, hwidth, hheight, -⟩ := c.words_lt
    exact ⟨UInt64.toNat_ofNat_of_lt' hlt, rfl,
      ⟨UInt32.toNat_ofNat_of_lt' hwidth, UInt32.toNat_ofNat_of_lt' hheight⟩,
      q.2, prepared, hprepared, hinfer⟩

theorem InOrder.events (h : InOrder cur first frames) :
    (frames.zipIdx.filterMap (eventOf cfg env c)).Pairwise (·.frameSeq.toNat < ·.frameSeq.toNat) := by
  have hzip : frames.zipIdx.map (fun q => q.1.frameId) = frames.map (·.frameId) := by
    rw [← List.zipIdx_map_fst 0 frames, List.map_map]
    simp [Function.comp_def]
  have hids : frames.zipIdx.Pairwise fun q q' => q.1.frameId < q'.1.frameId := by
    rw [← List.pairwise_map, hzip]
    exact (List.pairwise_cons.mp h.ids).2
  have hlt : ∀ q ∈ frames.zipIdx, q.1.frameId < 2 ^ 64 := by
    intro q hq
    have hmem : q.1 ∈ frames := List.fst_mem_of_mem_zipIdx hq
    exact (h.behind q.1 (List.mem_cons_of_mem _ hmem)).2
  have hboth : frames.zipIdx.Pairwise fun q q' =>
      q.1.frameId < q'.1.frameId ∧ q'.1.frameId < 2 ^ 64 :=
    hids.imp_of_mem fun _ hq' hid => ⟨hid, hlt _ hq'⟩
  refine hboth.filterMap _ fun q q' hq m hm m' hm' => ?_
  have hm := (shows_eventOf hm (hq.1.trans hq.2)).frameSeq
  have hm' := (shows_eventOf hm' hq.2).frameSeq
  omega

theorem Follows.events {calls : List Publication} {d : Detecting F} {s : Looping F}
    (h : d.Follows cfg env c calls) (hs : d.phase = .looping s) :
    s.events.Pairwise (·.frameSeq.toNat < ·.frameSeq.toNat) ∧
      ∀ m ∈ s.events, ∃ p ∈ calls, Shows cfg env c p m := by
  unfold Follows at h
  rw [hs] at h
  obtain ⟨first, hfirst, frames, hframes, horder, htells⟩ := h
  rw [htells.events]
  refine ⟨horder.events, fun m hm => ?_⟩
  obtain ⟨q, hq, hevent⟩ := List.mem_filterMap.mp hm
  have hmem : q.1 ∈ frames := List.fst_mem_of_mem_zipIdx hq
  exact ⟨q.1, hframes hmem,
    shows_eventOf hevent (horder.behind q.1 (List.mem_cons_of_mem _ hmem)).2⟩

end Detecting

/-- Whatever the other processes do, the detector never fails in its preprocessing; its events are
those of frames that were published, in their order, with what was inferred of exactly these; and
its counts are right. -/
theorem events_of_frames {t : Observed State (Detecting F)}
    (h : (Detecting.machine cfg env c producerPid pid).ReachableBy
      (Detecting.Calling cfg env c producerPid pid) t) :
    t.view.Follows cfg env c t.state.calls ∧ ∀ s, t.view.phase = .looping s →
      s.events.Pairwise (·.frameSeq.toNat < ·.frameSeq.toNat) ∧
        ∀ m ∈ s.events, ∃ p ∈ t.state.calls, Detecting.Shows cfg env c p m := by
  have hfollows := (Detecting.kept_reachable h).follows
  exact ⟨hfollows, fun s hs => hfollows.events hs⟩

def person : EventBus.Detection ℚ := ⟨⟨0, 0, 1, 1⟩, "person", 0, 1, 0, .unixEpoch⟩

/-- The NPU is hot from the second turn on. -/
def warming : Surroundings ℚ :=
  ⟨.ok (), fun n => 0 < n, fun n _ => some (List.replicate n person), fun _ => true⟩

/-- Frame 1 is the first one, and 2 to 4 come to the loop; another process holds frame 1 for a
while. -/
def detectThree : List Event :=
  publishEvents [1, 2, 3] 9 12 ++ nextAfterEvents 1 0 1 0 ⟨1, 9, 1, 1, 1⟩ ++
    latestEvents 2 1 1 ⟨1, 9, 1, 1, 1⟩ ++ publishEvents [4, 5, 6] 10 12 ++
    nextAfterEvents 1 1 0 0 ⟨2, 10, 1, 1, 1⟩ ++ [.dropGuard ⟨1, ⟨1, ⟨1, 9, 1, 1, 1⟩⟩⟩,
      .dropGuard ⟨2, ⟨1, ⟨1, 9, 1, 1, 1⟩⟩⟩] ++ publishEvents [7, 8, 9] 11 12 ++
    nextAfterEvents 1 2 1 0 ⟨3, 11, 1, 1, 1⟩ ++ [.dropGuard ⟨1, ⟨0, ⟨2, 10, 1, 1, 1⟩⟩⟩] ++
    publishEvents [1, 1, 1] 12 12 ++ nextAfterEvents 1 3 0 0 ⟨4, 12, 1, 1, 1⟩

/-- Of the two hot turns with frames, the first is skipped. -/
def detectedThree : Looping ℚ :=
  ⟨1, 1, .rgb24, 3, 2, 2, 2, 0, 2, [EventBus.detectionsFrame 2 10 [] 1 1,
    EventBus.detectionsFrame 4 12 [person, person] 1 1]⟩

theorem events_of_frames_warming : ∃ t : Observed State (Detecting ℚ),
    t.view.phase = .looping detectedThree ∧
    ∀ m ∈ detectedThree.events, ∃ p ∈ t.state.calls,
      Detecting.Shows ⟨.mock, 2⟩ warming tinyConfig p m := by
  have hrun : ((Detecting.machine ⟨.mock, 2⟩ warming tinyConfig 100 1).exec
      (Detecting.Calling ⟨.mock, 2⟩ warming tinyConfig 100 1)
      ⟨.start fun _ => true, ⟨.start, .waiting⟩⟩ detectThree).map (·.view.phase) =
      some (.looping detectedThree) := by decide +kernel
  obtain ⟨t, ht, hphase⟩ := Option.map_eq_some_iff.mp hrun
  obtain ⟨-, hevents⟩ := events_of_frames (.of_exec (.init ⟨⟨_, rfl, rfl⟩, rfl⟩) ht)
  exact ⟨t, hphase, (hevents _ hphase).2⟩

end AutoTargeting.Detector
