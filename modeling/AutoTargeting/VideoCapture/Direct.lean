import AutoTargeting.Library.Channel
import AutoTargeting.Library.Machine
import AutoTargeting.VideoCapture.Convert
import Mathlib.Logic.Function.Basic

namespace AutoTargeting.VideoCapture

open Runs

/-- Whose a buffer is. The driver fills those that are queued, says how many bytes it used, and
leaves a filled buffer alone until it is queued again. -/
inductive Owner
  | queued
  | filled (used : ℕ)
  | thread
  deriving DecidableEq, Repr

structure V4l2DirectSource where
  width : ℕ
  height : ℕ
  format : PixelFormat
  numBuffers : ℕ
  deriving DecidableEq, Repr

namespace V4l2DirectSource

def new (width height : ℕ) : V4l2DirectSource := ⟨width, height, .mjpeg, 4⟩

def withFormat (src : V4l2DirectSource) (format : PixelFormat) : V4l2DirectSource :=
  { src with format }

def withBuffers (src : V4l2DirectSource) (n : ℕ) : V4l2DirectSource :=
  { src with numBuffers := max 2 (min n 8) }

end V4l2DirectSource

def v4l2PixFmtMjpeg : UInt32 := 0x47504a4d

def v4l2PixFmtYuyv : UInt32 := 0x56595559

def v4l2PixFmtNv12 : UInt32 := 0x3231564e

/-- RGB24 is asked for as YUYV. -/
def pixelFormatToFourcc : PixelFormat → UInt32
  | .mjpeg => v4l2PixFmtMjpeg
  | .yuyv => v4l2PixFmtYuyv
  | .nv12 => v4l2PixFmtNv12
  | .rgb24 => v4l2PixFmtYuyv

/-- The `V4l2PixFormat` that `VIDIOC_S_FMT` takes, and puts its answer into. -/
structure V4l2PixFormat where
  width : ℕ
  height : ℕ
  pixelformat : UInt32
  sizeimage : ℕ
  deriving DecidableEq, Repr

def V4l2DirectSource.asked (src : V4l2DirectSource) : V4l2PixFormat :=
  ⟨src.width, src.height, pixelFormatToFourcc src.format, 0⟩

def bufSize (answer : V4l2PixFormat) : ℕ :=
  if 0 < answer.sizeimage then answer.sizeimage else max (answer.width * answer.height * 3) 1024

/-- What the loop works with: the size is the driver's answer and the format the one that was asked
for; the buffers are mapped with these lengths. -/
structure Configured where
  width : ℕ
  height : ℕ
  format : PixelFormat
  lengths : List ℕ
  deriving DecidableEq, Repr

/-- From the answers of `VIDIOC_S_FMT` and, for each buffer, `VIDIOC_QUERYBUF`. The answered
`pixelformat` is not read. -/
def Configured.new (src : V4l2DirectSource) (answer : V4l2PixFormat) (lengths : List ℕ) :
    Configured :=
  ⟨answer.width, answer.height, src.format,
    lengths.map fun length => if 0 < length then length else bufSize answer⟩

inductive CapturePc
  | top
  | dequeue
  | copying (i len : ℕ) (copied : List UInt8)
  | requeue (i : ℕ) (data : List UInt8)
  | send (data : List UInt8)
  | ended
  deriving DecidableEq, Repr

/-- `seq` is the number of frames that were offered; a frame has its lowest 64 bits. -/
structure Capture where
  memory : ℕ → ℕ → UInt8
  owner : ℕ → Owner
  pc : CapturePc
  seq : ℕ
  stopFlag : Bool
  channel : BoundedChannel Frame

/-- A step of the driver, of the thread, with what its call answers, or of the two that hold the
source and the receiver. -/
inductive CaptureEvent
  | write (i j : ℕ) (b : UInt8)
  | fill (i used : ℕ)
  | dequeue (i : ℕ)
  | dequeueUnmapped (i : ℕ)
  | dequeueFails
  | check
  | copy
  | requeue (ok : Bool)
  | send (now : ℤ)
  | stop
  | receive
  | hangUp
  deriving DecidableEq, Repr

namespace Capture

variable (n : Configured)

def start (n : Configured) (memory : ℕ → ℕ → UInt8) (numBuffers : ℕ) : Capture :=
  ⟨memory, fun i => if i < n.lengths.length then .queued else .thread, .top, 0, false,
    .new numBuffers⟩

def step (s : Capture) : CaptureEvent → Option Capture
  | .write i j b =>
    if s.owner i = .queued then
      some { s with memory := Function.update s.memory i (Function.update (s.memory i) j b) }
    else none
  | .fill i used =>
    if s.owner i = .queued then some { s with owner := Function.update s.owner i (.filled used) }
    else none
  | .dequeue i =>
    match s.pc, s.owner i, n.lengths[i]? with
    | .dequeue, .filled used, some length =>
      some { s with owner := Function.update s.owner i .thread, pc := .copying i (min used length) [] }
    | _, _, _ => none
  | .dequeueUnmapped i =>
    match s.pc, n.lengths[i]? with
    | .dequeue, none => some { s with pc := .requeue i [] }
    | _, _ => none
  | .dequeueFails =>
    if s.pc = .dequeue then some { s with pc := if s.stopFlag = true then .ended else .top }
    else none
  | .check =>
    if s.pc = .top then some { s with pc := if s.stopFlag = true then .ended else .dequeue }
    else none
  | .copy =>
    match s.pc with
    | .copying i len copied =>
      if copied.length < len then
        some { s with pc := .copying i len (copied ++ [s.memory i copied.length]) }
      else some { s with pc := .requeue i copied }
    | _ => none
  | .requeue ok =>
    match s.pc with
    | .requeue i data =>
      if ok = true ∧ i < n.lengths.length then
        some { s with owner := Function.update s.owner i .queued, pc := .send data }
      else some { s with pc := .send data }
    | _ => none
  | .send now =>
    match s.pc with
    | .send data =>
      let frame : Frame := ⟨data, ⟨n.width, n.height, n.format, now, s.seq % 2 ^ 64⟩⟩
      match s.channel.trySend frame with
      | (channel, .closed) => some { s with channel, pc := .ended }
      | (channel, .ok) | (channel, .full) => some { s with channel, seq := s.seq + 1, pc := .top }
    | _ => none
  | .stop => some { s with stopFlag := true }
  | .receive => s.channel.recv.map fun r => { s with channel := r.2 }
  | .hangUp => some { s with channel := s.channel.hangUp }

/-- The bytes that the driver used of a buffer when it is dequeued. -/
def shot (s : Capture) : CaptureEvent → List (List UInt8)
  | .dequeue i =>
    match s.owner i, n.lengths[i]? with
    | .filled used, some length => [(List.range (min used length)).map (s.memory i)]
    | _, _ => []
  | .dequeueUnmapped _ => [[]]
  | _ => []

/-- The capture from `VIDIOC_STREAMON` on, with what the driver delivered beside it. -/
def machine (numBuffers : ℕ) : Machine (Logged Capture (List UInt8)) CaptureEvent :=
  Machine.logged ⟨fun s => ∃ memory, s = start n memory numBuffers, step n⟩ (shot n)

/-- What a frame says of the buffer that it came from. -/
def numbered (frame : Frame) : List UInt8 × ℕ := (frame.data, frame.metadata.seq)

/-- The shots with their numbers, as 64 bits have them. -/
def numberedShots (shots : List (List UInt8)) : List (List UInt8 × ℕ) :=
  shots.mapIdx fun k shot => (shot, k % 2 ^ 64)

/-- Where the thread has the last of the shots, if it has not sent it. -/
def Carrying (s : Capture) (shots : List (List UInt8)) : Prop :=
  match s.pc with
  | .top | .dequeue | .ended => True
  | .copying i len copied => s.owner i = .thread ∧ copied.length ≤ len ∧
      copied = (List.range copied.length).map (s.memory i) ∧
      shots[s.seq]? = some ((List.range len).map (s.memory i)) ∧ shots.length = s.seq + 1
  | .requeue _ data | .send data => shots[s.seq]? = some data ∧ shots.length = s.seq + 1

/-- The frames are, in their order, shots of the driver, each with its number. -/
structure Untorn (shots : List (List UInt8)) (s : Capture) : Prop where
  carries : s.channel.Carries numbered ((numberedShots shots).take s.seq)
  metadata : ∀ frame ∈ s.channel.carried, frame.metadata.width = n.width ∧
    frame.metadata.height = n.height ∧ frame.metadata.format = n.format
  carrying : s.Carrying shots
  idle : s.pc = .top ∨ s.pc = .dequeue → shots.length = s.seq
  seq : s.seq ≤ shots.length

section
variable {n : Configured} {shots : List (List UInt8)} {s s' : Capture}

theorem length_numberedShots (shots : List (List UInt8)) :
    (numberedShots shots).length = shots.length := List.length_mapIdx

theorem fst_numberedShots (shots : List (List UInt8)) :
    (numberedShots shots).map Prod.fst = shots := by
  apply List.ext_getElem?
  intro k
  rw [List.getElem?_map, numberedShots, List.getElem?_mapIdx]
  cases shots[k]? <;> rfl

theorem take_snoc (shot : List UInt8) (hseq : s.seq ≤ shots.length) :
    (numberedShots (shots ++ [shot])).take s.seq = (numberedShots shots).take s.seq := by
  rw [numberedShots, List.mapIdx_append]
  exact List.take_append_of_le_length (hseq.trans_eq (length_numberedShots shots).symm)

theorem take_succ {k : ℕ} {data : List UInt8} (h : shots[k]? = some data) :
    (numberedShots shots).take (k + 1) =
      (numberedShots shots).take k ++ [(data, k % 2 ^ 64)] := by
  have hget : (numberedShots shots)[k]? = some (data, k % 2 ^ 64) := by
    rw [numberedShots, List.getElem?_mapIdx, h]
    rfl
  rw [List.take_add_one, hget]
  rfl

/-- The numbers rise until 64 bits are full. -/
theorem numberedShots_rise (h : shots.length ≤ 2 ^ 64) :
    (numberedShots shots).Pairwise fun a b => a.2 < b.2 := by
  rw [List.pairwise_iff_getElem]
  intro i j hi hj hij
  rw [length_numberedShots] at hi hj
  simp only [numberedShots, List.getElem_mapIdx]
  rwa [Nat.mod_eq_of_lt (by omega), Nat.mod_eq_of_lt (by omega)]

theorem Untorn.dequeued (h : Untorn n shots s) (hidle : s.pc = .dequeue) (shot : List UInt8)
    {owner : ℕ → Owner} {pc : CapturePc} (hpc : pc ≠ .top ∧ pc ≠ .dequeue)
    (hcarrying : Carrying { s with owner, pc } (shots ++ [shot])) :
    Untorn n (shots ++ [shot]) { s with owner, pc } := by
  refine ⟨?_, h.metadata, hcarrying, fun hnew => (hnew.elim hpc.1 hpc.2).elim, ?_⟩
  · rw [take_snoc shot h.seq]
    exact h.carries
  · have := h.idle (.inr hidle)
    simp only [List.length_append]
    omega

theorem Untorn.between (h : Untorn n shots s) (hidle : s.pc = .top ∨ s.pc = .dequeue)
    {pc : CapturePc} (hpc : pc = .top ∨ pc = .dequeue ∨ pc = .ended) :
    Untorn n shots { s with pc } := by
  refine ⟨h.carries, h.metadata, ?_, fun _ => h.idle hidle, h.seq⟩
  unfold Carrying
  rcases hpc with hpc | hpc | hpc <;> simp only [hpc]

/-- While the driver works on other buffers, the bytes that the thread copies stay. -/
theorem Untorn.elsewhere (h : Untorn n shots s) {memory : ℕ → ℕ → UInt8} {owner : ℕ → Owner}
    (hsame : ∀ i, s.owner i = .thread → memory i = s.memory i ∧ owner i = .thread) :
    Untorn n shots { s with memory, owner } := by
  refine ⟨h.carries, h.metadata, ?_, h.idle, h.seq⟩
  have hcarrying := h.carrying
  unfold Carrying at *
  cases hpc : s.pc with
  | copying i len copied =>
    simp only [hpc] at hcarrying ⊢
    obtain ⟨howner, hrest⟩ := hcarrying
    obtain ⟨hmemory, howner'⟩ := hsame i howner
    rw [hmemory]
    exact ⟨howner', hrest⟩
  | top | dequeue | ended => trivial
  | requeue | send =>
    simp only [hpc] at hcarrying ⊢
    exact hcarrying

/-- A buffer that is queued is not the one that the thread holds. -/
theorem ne_of_queued {i i' : ℕ} (hqueued : s.owner i = .queued) (hthread : s.owner i' = .thread) :
    i' ≠ i := by
  intro heq
  rw [heq, hqueued] at hthread
  cases hthread

/-- What the driver does to a buffer that is queued. -/
theorem Untorn.driven (h : Untorn n shots s) {i : ℕ} (hqueued : s.owner i = .queued)
    (bytes : ℕ → UInt8) (owner : Owner) :
    Untorn n shots { s with
      memory := Function.update s.memory i bytes, owner := Function.update s.owner i owner } := by
  refine h.elsewhere fun i' hthread => ?_
  have hne := ne_of_queued hqueued hthread
  exact ⟨Function.update_of_ne hne _ _, (Function.update_of_ne hne _ _).trans hthread⟩

theorem Untorn.copied (h : Untorn n shots s) {i len : ℕ} {copied : List UInt8}
    (hpc : s.pc = .copying i len copied) (hs : step n s .copy = some s') :
    Untorn n shots s' := by
  have hcarrying := h.carrying
  simp only [Carrying, hpc] at hcarrying
  obtain ⟨howner, hle, hcopied, hshot, hlen⟩ := hcarrying
  simp only [step, hpc] at hs
  split at hs
  case isTrue hlt =>
    cases hs
    refine ⟨h.carries, h.metadata, ⟨howner, ?_, ?_, hshot, hlen⟩, by simp, h.seq⟩
    · rw [List.length_append, List.length_singleton]
      exact hlt
    · rw [List.length_append, List.length_singleton, List.range_succ, List.map_append, ← hcopied]
      rfl
  case isFalse hnot =>
    cases hs
    have hall : copied.length = len := by omega
    refine ⟨h.carries, h.metadata, ⟨?_, hlen⟩, by simp, h.seq⟩
    rw [hcopied, hall]
    exact hshot

/-- The buffer goes back to the driver, unless that fails. -/
theorem Untorn.requeued (h : Untorn n shots s) {i : ℕ} {data : List UInt8}
    (hpc : s.pc = .requeue i data) (owner : ℕ → Owner) :
    Untorn n shots { s with owner, pc := .send data } := by
  have hcarrying := h.carrying
  simp only [Carrying, hpc] at hcarrying
  exact ⟨h.carries, h.metadata, hcarrying, by simp, h.seq⟩

theorem Untorn.sent (h : Untorn n shots s) {data : List UInt8} (hpc : s.pc = .send data) (now : ℤ)
    (hs : step n s (.send now) = some s') : Untorn n shots s' := by
  have hcarrying := h.carrying
  simp only [Carrying, hpc] at hcarrying
  obtain ⟨hshot, hlen⟩ := hcarrying
  let frame : Frame := ⟨data, ⟨n.width, n.height, n.format, now, s.seq % 2 ^ 64⟩⟩
  have hcarries : (s.channel.trySend frame).1.Carries numbered
      ((numberedShots shots).take (s.seq + 1)) := by
    rw [take_succ hshot]
    exact h.carries.trySend frame
  have hmetadata : ∀ f ∈ (s.channel.trySend frame).1.carried, f.metadata.width = n.width ∧
      f.metadata.height = n.height ∧ f.metadata.format = n.format := by
    intro f hf
    rcases s.channel.carried_trySend frame with hsame | hmore
    · exact h.metadata f (hsame ▸ hf)
    · rw [hmore] at hf
      rcases List.mem_append.mp hf with hf | hf
      · exact h.metadata f hf
      · rw [List.mem_singleton.mp hf]
        exact ⟨rfl, rfl, rfl⟩
  simp only [step, hpc] at hs
  rcases hsent : s.channel.trySend frame with ⟨channel, sent⟩
  rw [hsent] at hs hcarries hmetadata
  cases sent with
  | closed =>
    obtain rfl := Option.some.inj hs
    obtain rfl := BoundedChannel.eq_of_trySend_closed hsent
    exact ⟨h.carries, h.metadata, trivial, by simp, h.seq⟩
  | ok | full =>
    obtain rfl := Option.some.inj hs
    exact ⟨hcarries, hmetadata, trivial, fun _ => hlen, hlen.ge⟩

theorem Untorn.received (h : Untorn n shots s) {frame : Frame} {channel : BoundedChannel Frame}
    (hrecv : s.channel.recv = some (frame, channel)) : Untorn n shots { s with channel } := by
  have hcarried := (BoundedChannel.recv_eq hrecv).1
  refine ⟨h.carries.recv hrecv, ?_, h.carrying, h.idle, h.seq⟩
  rw [hcarried]
  exact h.metadata

theorem Untorn.hangUp (h : Untorn n shots s) :
    Untorn n shots { s with channel := s.channel.hangUp } := by
  refine ⟨h.carries.hangUp, fun frame hframe => ?_, h.carrying, h.idle, h.seq⟩
  have hmem : frame ∈ s.channel.received := by
    simpa [BoundedChannel.hangUp, BoundedChannel.carried] using hframe
  exact h.metadata frame (List.mem_append_left _ hmem)

theorem untorn_dequeue (h : Untorn n shots s) {i : ℕ} (hs : step n s (.dequeue i) = some s') :
    Untorn n (shots ++ s.shot n (.dequeue i)) s' := by
  simp only [step] at hs
  split at hs
  case h_2 => cases hs
  case h_1 used length hpc howner hlength =>
    cases hs
    have hshot : s.shot n (.dequeue i) = [(List.range (min used length)).map (s.memory i)] := by
      simp only [shot, howner, hlength]
    have hlen := h.idle (.inr hpc)
    rw [hshot]
    refine h.dequeued hpc _ (by simp) ⟨Function.update_self _ _ _, Nat.zero_le _, rfl, ?_, ?_⟩
    · rw [← hlen]
      exact List.getElem?_concat_length
    · rw [List.length_append, List.length_singleton, hlen]

theorem untorn_dequeueUnmapped (h : Untorn n shots s) {i : ℕ}
    (hs : step n s (.dequeueUnmapped i) = some s') : Untorn n (shots ++ [[]]) s' := by
  simp only [step] at hs
  split at hs
  case h_2 => cases hs
  case h_1 hpc hlength =>
    cases hs
    have hlen := h.idle (.inr hpc)
    refine h.dequeued hpc [] (by simp) ⟨?_, ?_⟩
    · rw [← hlen]
      exact List.getElem?_concat_length
    · rw [List.length_append, List.length_singleton, hlen]

theorem Untorn.unshot {e : CaptureEvent} (hstill : Untorn n shots s')
    (hshot : s.shot n e = []) : Untorn n (shots ++ s.shot n e) s' := by
  rw [hshot, List.append_nil]
  exact hstill

theorem untorn_step (h : Untorn n shots s) {e : CaptureEvent} (hs : step n s e = some s') :
    Untorn n (shots ++ s.shot n e) s' := by
  cases e with
  | dequeue i => exact untorn_dequeue h hs
  | dequeueUnmapped i => exact untorn_dequeueUnmapped h hs
  | write i j b =>
    refine Untorn.unshot ?_ rfl
    simp only [step] at hs
    split at hs
    case isTrue hqueued =>
      cases hs
      have hdriven := h.driven hqueued (Function.update (s.memory i) j b) (s.owner i)
      rwa [Function.update_eq_self] at hdriven
    case isFalse => cases hs
  | fill i used =>
    refine Untorn.unshot ?_ rfl
    simp only [step] at hs
    split at hs
    case isTrue hqueued =>
      cases hs
      have hdriven := h.driven hqueued (s.memory i) (.filled used)
      rwa [Function.update_eq_self] at hdriven
    case isFalse => cases hs
  | dequeueFails | check =>
    refine Untorn.unshot ?_ rfl
    simp only [step] at hs
    split at hs
    case isTrue hpc =>
      cases hs
      refine h.between (by simp [hpc]) ?_
      split <;> simp
    case isFalse => cases hs
  | copy =>
    refine Untorn.unshot ?_ rfl
    cases hpc : s.pc with
    | copying => exact h.copied hpc hs
    | top | dequeue | requeue | send | ended => simp [step, hpc] at hs
  | requeue ok =>
    refine Untorn.unshot ?_ rfl
    cases hpc : s.pc with
    | requeue i data =>
      simp only [step, hpc] at hs
      split at hs
      all_goals
        cases hs
        exact h.requeued hpc _
    | top | dequeue | copying | send | ended => simp [step, hpc] at hs
  | send now =>
    refine Untorn.unshot ?_ rfl
    cases hpc : s.pc with
    | send data => exact h.sent hpc now hs
    | top | dequeue | copying | requeue | ended => simp [step, hpc] at hs
  | stop =>
    cases hs
    exact Untorn.unshot ⟨h.carries, h.metadata, h.carrying, h.idle, h.seq⟩ rfl
  | receive =>
    refine Untorn.unshot ?_ rfl
    obtain ⟨⟨frame, channel⟩, hrecv, rfl⟩ := Option.map_eq_some_iff.mp hs
    exact h.received hrecv
  | hangUp =>
    cases hs
    exact h.hangUp.unshot rfl

/-- Nobody changes how much the channel has room for, and only the receiver takes frames. -/
theorem channel_step {e : CaptureEvent} (hs : step n s e = some s') :
    s'.channel.capacity = s.channel.capacity ∧
      (e ≠ .receive → s'.channel.received = s.channel.received) := by
  cases e with
  | receive =>
    obtain ⟨⟨frame, channel⟩, hrecv, rfl⟩ := Option.map_eq_some_iff.mp hs
    exact ⟨(BoundedChannel.recv_eq hrecv).2.2.1, fun he => absurd rfl he⟩
  | send now =>
    cases hpc : s.pc with
    | send data =>
      have hkeeps := s.channel.trySend_keeps ⟨data, ⟨n.width, n.height, n.format, now, s.seq % 2 ^ 64⟩⟩
      simp only [step, hpc] at hs
      split at hs
      all_goals
        rename_i channel hsent
        rw [hsent] at hkeeps
        cases hs
        exact ⟨hkeeps.1, fun _ => hkeeps.2⟩
    | top | dequeue | copying | requeue | ended => simp [step, hpc] at hs
  | stop | hangUp =>
    cases hs
    exact ⟨rfl, fun _ => rfl⟩
  | copy =>
    simp only [step] at hs
    split at hs
    case h_1 => split at hs <;> cases hs <;> exact ⟨rfl, fun _ => rfl⟩
    case h_2 => cases hs
  | requeue ok =>
    simp only [step] at hs
    split at hs
    case h_1 => split at hs <;> cases hs <;> exact ⟨rfl, fun _ => rfl⟩
    case h_2 => cases hs
  | write | fill | dequeue | dequeueUnmapped | dequeueFails | check =>
    simp only [step] at hs
    split at hs <;> cases hs
    exact ⟨rfl, fun _ => rfl⟩

theorem untorn_reachable {numBuffers : ℕ} {t : Logged Capture (List UInt8)}
    (h : (machine n numBuffers).Reachable t) :
    Untorn n t.log t.state ∧ t.state.channel.capacity = numBuffers := by
  refine h.invariant (I := fun t => Untorn n t.log t.state ∧ t.state.channel.capacity = numBuffers)
    ?_ fun t e t' _ ht _ hs => ?_
  · rintro ⟨_, _⟩ ⟨⟨memory, rfl⟩, rfl⟩
    exact ⟨⟨BoundedChannel.carries_new _ _,
      by simp [start, BoundedChannel.new, BoundedChannel.carried],
      trivial, fun _ => rfl, le_rfl⟩, rfl⟩
  · obtain ⟨s', hstep, rfl⟩ := Machine.logged_step hs
    exact ⟨untorn_step ht.1 hstep, (channel_step hstep).1.trans ht.2⟩

/-- What a finished frame does to a channel that the receiver still has. -/
theorem channel_send {now : ℤ} (hs : step n s (.send now) = some s')
    (hopen : s.channel.closed = false) :
    (s.channel.waiting.length < s.channel.capacity →
      ∃ frame, s'.channel = { s.channel with waiting := s.channel.waiting ++ [frame] }) ∧
    (s.channel.capacity ≤ s.channel.waiting.length → s'.channel = s.channel) := by
  simp only [step] at hs
  split at hs
  case h_2 => cases hs
  case h_1 data hpc =>
    have hsent := BoundedChannel.trySend_open hopen
      (⟨data, ⟨n.width, n.height, n.format, now, s.seq % 2 ^ 64⟩⟩ : Frame)
    have hchannel : s'.channel = (s.channel.trySend
        (⟨data, ⟨n.width, n.height, n.format, now, s.seq % 2 ^ 64⟩⟩ : Frame)).1 := by
      split at hs
      all_goals
        rename_i channel hsend
        cases hs
        rw [hsend]
    rw [hchannel, hsent]
    constructor
    · intro hroom
      rw [if_pos hroom]
      exact ⟨_, rfl⟩
    · intro hfull
      rw [if_neg (Nat.not_lt.mpr hfull)]

/-- Whatever the driver writes in the meantime, a frame that the receiver gets is one that the
driver had finished when it was dequeued, with its number, the driver's size and the format that was
asked for; the numbers rise as long as they fit, at most `num_buffers` frames wait, and a full
channel keeps what it has. -/
theorem frames_untorn {src : V4l2DirectSource} {answer : V4l2PixFormat} {lengths : List ℕ}
    {t : Logged Capture (List UInt8)}
    (h : (machine (.new src answer lengths) src.numBuffers).Reachable t) :
    (t.state.channel.carried.map numbered).Sublist (numberedShots t.log) ∧
    (∀ frame ∈ t.state.channel.carried, frame.metadata.width = answer.width ∧
      frame.metadata.height = answer.height ∧ frame.metadata.format = src.format) ∧
    (t.log.length ≤ 2 ^ 64 →
      t.state.channel.carried.Pairwise (·.metadata.seq < ·.metadata.seq)) ∧
    t.state.channel.waiting.length ≤ src.numBuffers ∧
    ∀ now s', t.state.step (.new src answer lengths) (.send now) = some s' →
      t.state.channel.closed = false →
      (t.state.channel.waiting.length < src.numBuffers →
        ∃ frame, s'.channel =
          { t.state.channel with waiting := t.state.channel.waiting ++ [frame] }) ∧
      (t.state.channel.waiting.length = src.numBuffers → s'.channel = t.state.channel) := by
  obtain ⟨huntorn, hcapacity⟩ := untorn_reachable h
  have hsublist := huntorn.carries.sublist.trans (List.take_sublist _ _)
  have hbounded := huntorn.carries.bounded
  rw [hcapacity] at hbounded
  refine ⟨hsublist, huntorn.metadata, fun hlen => ?_, hbounded, fun now s' hs hopen => ?_⟩
  · have hrise := (numberedShots_rise hlen).sublist hsublist
    rw [List.pairwise_map] at hrise
    exact hrise
  · obtain ⟨hroom, hfull⟩ := channel_send hs hopen
    rw [hcapacity] at hroom hfull
    exact ⟨hroom, fun hlen => hfull hlen.ge⟩

end

/-- Two buffers of two bytes, for one pixel. -/
def onePixel : V4l2DirectSource := (V4l2DirectSource.new 1 1).withFormat .yuyv |>.withBuffers 2

/-- The driver has a picture in a buffer, and the thread copies it and returns the buffer. -/
def onePixelShot (i : ℕ) (a b : UInt8) : List CaptureEvent :=
  [.write i 0 a, .write i 1 b, .fill i 2, .check, .dequeue i, .copy, .copy, .copy, .requeue true]

/-- While the first picture is copied, the driver writes the second; then it writes over the first,
whose frame still shows what it was. Two frames wait when the third comes, which is lost. -/
theorem frames_untorn_twice :
    ∃ t, (machine (.new onePixel ⟨1, 1, v4l2PixFmtYuyv, 2⟩ [0, 2]) 2).Reachable t ∧
      t.state.channel.waiting.map numbered = [([1, 2], 0), ([3, 4], 1)] ∧
      t.state.memory 0 0 = 9 ∧
      (t.state.channel.carried.map numbered).Sublist (numberedShots t.log) ∧
      ∀ s', t.state.step (.new onePixel ⟨1, 1, v4l2PixFmtYuyv, 2⟩ [0, 2]) (.send 7) = some s' →
        s'.channel = t.state.channel := by
  let events : List CaptureEvent :=
    [.write 0 0 1, .write 0 1 2, .fill 0 2, .check, .dequeue 0, .copy, .write 1 0 3, .write 1 1 4,
      .fill 1 2, .copy, .copy, .requeue true, .write 0 0 9, .send 5, .check, .dequeue 1, .copy,
      .copy, .copy, .requeue true, .send 6] ++ onePixelShot 0 9 9
  have hrun : ((machine (.new onePixel ⟨1, 1, v4l2PixFmtYuyv, 2⟩ [0, 2]) 2).exec Machine.Anything
      ⟨start (.new onePixel ⟨1, 1, v4l2PixFmtYuyv, 2⟩ [0, 2]) (fun _ _ => 0) 2, []⟩ events).map
        (fun t => (t.state.channel.waiting.map numbered, t.state.memory 0 0,
          t.state.channel.closed)) = some ([([1, 2], 0), ([3, 4], 1)], 9, false) := by
    decide +kernel
  obtain ⟨t, ht, hout⟩ := Option.map_eq_some_iff.mp hrun
  have hreach : (machine (.new onePixel ⟨1, 1, v4l2PixFmtYuyv, 2⟩ [0, 2]) 2).Reachable t :=
    .of_exec (.init ⟨⟨_, rfl⟩, rfl⟩) ht
  simp only [Prod.mk.injEq] at hout
  obtain ⟨hwaiting, hmemory, hopen⟩ := hout
  have hfull : t.state.channel.waiting.length = 2 := by
    rw [← List.length_map numbered, hwaiting]
    rfl
  obtain ⟨hsublist, -, -, -, hsend⟩ := frames_untorn hreach
  exact ⟨t, hreach, hwaiting, hmemory, hsublist, fun s' hs => (hsend 7 s' hs hopen).2 hfull⟩

end Capture

end AutoTargeting.VideoCapture
