import AutoTargeting.Ipc.TransportStep

namespace AutoTargeting.Ipc

def FrameShm.Holds (shm : FrameShm) (m : Memory) (index : ℕ) (data : List UInt8) : Prop :=
  ∀ j, (h : j < data.length) → m shm.segment (shm.offset index + j) = data[j]

theorem FrameShm.Holds.congr {shm : FrameShm} {m m' : Memory} {index : ℕ} {data : List UInt8}
    (h : shm.Holds m index data) (hm : m' shm.segment = m shm.segment) :
    shm.Holds m' index data := by
  intro j hj
  rw [hm]
  exact h j hj

/-- The byte at `o` of a segment lies in one buffer only. -/
theorem offset_div {shm : FrameShm} {index o : ℕ} (hlo : shm.offset index ≤ o)
    (hhi : o < shm.offset index + shm.frameSize) : o / shm.frameSize = index := by
  unfold FrameShm.offset at hlo hhi
  apply Nat.div_eq_of_lt_le hlo
  rw [Nat.succ_mul]
  exact hhi

theorem write_other {shm : FrameShm} {m : Memory} {index segment : ℕ} {data : List UInt8}
    (h : segment ≠ shm.segment) : shm.write m index data segment = m segment := by
  unfold FrameShm.write
  exact Function.update_of_ne h _ _

theorem write_inside {shm : FrameShm} {m : Memory} {index j : ℕ} {data : List UInt8}
    (hj : j < data.length) :
    shm.write m index data shm.segment (shm.offset index + j) = data[j] := by
  unfold FrameShm.write
  rw [Function.update_self, if_pos ⟨by omega, by omega⟩, Nat.add_sub_cancel_left,
    List.getD_eq_getElem?_getD, List.getElem?_eq_getElem hj]
  rfl

theorem write_outside {shm : FrameShm} {m : Memory} {index o : ℕ} {data : List UInt8}
    (h : ¬ (shm.offset index ≤ o ∧ o < shm.offset index + data.length)) :
    shm.write m index data shm.segment o = m shm.segment o := by
  unfold FrameShm.write
  rw [Function.update_self, if_neg h]

theorem write_holds (shm : FrameShm) (m : Memory) (index : ℕ) (data : List UInt8) :
    shm.Holds (shm.write m index data) index data := fun _ hj => write_inside hj

/-- A frame that fits leaves the frames of the other buffers alone. -/
theorem holds_write_ne {shm : FrameShm} {m : Memory} {index i : ℕ} {data frame : List UInt8}
    (hholds : shm.Holds m i frame) (hi : i ≠ index) (hframe : frame.length ≤ shm.frameSize)
    (hfit : data.length ≤ shm.frameSize) : shm.Holds (shm.write m index data) i frame := by
  intro j hj
  rw [write_outside]
  · exact hholds j hj
  rintro ⟨hlo, hhi⟩
  have hown : (shm.offset i + j) / shm.frameSize = i := offset_div (by omega) (by omega)
  have hother : (shm.offset i + j) / shm.frameSize = index := offset_div hlo (by omega)
  exact hi (hown.symm.trans hother)

/-- A frame that begins like the one in the buffer, as far as both go, leaves it. -/
theorem holds_write_compatible {shm : FrameShm} {m : Memory} {index : ℕ}
    {data frame : List UInt8} (hholds : shm.Holds m index frame)
    (hsame : frame <+: data ∨ data <+: frame) :
    shm.Holds (shm.write m index data) index frame := by
  intro j hj
  by_cases hdata : j < data.length
  · rw [write_inside hdata]
    rcases hsame with hlonger | hshorter
    · exact (hlonger.getElem hj).symm
    · exact hshorter.getElem hdata
  · rw [write_outside (by omega)]
    exact hholds j hj

theorem writeFrame_eq {shm : FrameShm} {m m' : Memory} {index : ℕ} {data : List UInt8}
    (h : shm.writeFrame m index data = some m') :
    index < shm.buffers ∧ data.length ≤ shm.frameSize ∧ m' = shm.write m index data := by
  unfold FrameShm.writeFrame at h
  by_cases hindex : shm.buffers ≤ index
  · rw [if_pos hindex] at h
    cases h
  rw [if_neg hindex] at h
  by_cases hsize : shm.frameSize < data.length
  · rw [if_pos hsize] at h
    cases h
  rw [if_neg hsize] at h
  have hm : shm.write m index data = m' := Option.some.inj h
  exact ⟨by omega, by omega, hm.symm⟩

/-- Reading a buffer gives the frame that it holds, and what lies behind it. -/
theorem holds_read {shm : FrameShm} {m : Memory} {index : ℕ} {data : List UInt8}
    (hholds : shm.Holds m index data) (hindex : index < shm.buffers)
    (hfit : data.length ≤ shm.frameSize) :
    ∃ bytes, (⟨shm.segment, shm.buffers, shm.frameSize⟩ : FrameSource).readFrame m index
      shm.frameSize = some bytes ∧ data <+: bytes := by
  unfold FrameSource.readFrame
  rw [if_neg (by exact Nat.not_le.mpr hindex), if_neg (by exact Nat.lt_irrefl _)]
  refine ⟨_, rfl, List.prefix_iff_getElem.mpr ⟨?_, ?_⟩⟩
  · rw [List.length_map, List.length_range]
    exact hfit
  · intro j hj
    rw [List.getElem_map, List.getElem_range]
    exact (hholds j hj).symm

/-- What a queued request says about its client, and about the memory. -/
def RequestOk (transport : Option FrameShm) (m : Memory) : Request → Prop
  | .init ann => ∀ a ∈ ann, ∃ shm ∈ transport, a = shm.announcement
  | .infer (.base64 text) frame => transport = none ∧ text = base64Encode frame
  | .infer (.buffer index) frame => ∃ shm ∈ transport,
      index < shm.buffers ∧ frame.length ≤ shm.frameSize ∧ shm.Holds m index frame
  | .shutdown => True

/-- A request stands as long as the frame in its buffer stays. -/
theorem RequestOk.congr {transport : Option FrameShm} {m m' : Memory} {r : Request}
    (h : RequestOk transport m r)
    (hm : ∀ shm ∈ transport, ∀ index frame, r = .infer (.buffer index) frame →
      frame.length ≤ shm.frameSize → shm.Holds m index frame → shm.Holds m' index frame) :
    RequestOk transport m' r := by
  cases r with
  | init ann => exact h
  | shutdown => trivial
  | infer ref frame =>
    cases ref with
    | base64 text => exact h
    | buffer index =>
      obtain ⟨shm, hshm, hindex, hfit, hholds⟩ := h
      exact ⟨shm, hshm, hindex, hfit, hm shm hshm index frame rfl hfit hholds⟩

/-- In step, the backend gets the frame of the request. -/
theorem RequestOk.frameData {b : Bridge} {transport : Option FrameShm} {m : Memory}
    {ref : FrameRef} {frame : List UInt8} (h : RequestOk transport m (.infer ref frame))
    (hb : b.Agrees transport) : frame <+: b.frameData m ref := by
  cases ref with
  | base64 text =>
    obtain ⟨htransport, htext⟩ := h
    rw [htransport] at hb
    have hsource : b.source = none := hb
    have hdata : b.frameData m (.base64 text) = base64Decode text := by
      unfold Bridge.frameData
      simp only [hsource, Option.bind_none]
    have hframe : b.frameData m (.base64 text) = frame := by
      rw [hdata, htext, base64_round_trip]
    exact hframe.symm ▸ List.prefix_rfl
  | buffer index =>
    obtain ⟨shm, hshm, hindex, hfit, hholds⟩ := h
    rw [Option.mem_def.mp hshm] at hb
    obtain ⟨hsource, hsize⟩ := hb
    obtain ⟨bytes, hread, hbytes⟩ := holds_read hholds hindex hfit
    have hdata : b.frameData m (.buffer index) = bytes := by
      unfold Bridge.frameData
      rw [hsource, hsize]
      dsimp only [Option.bind]
      rw [hread]
    rw [hdata]
    exact hbytes

/-- An init that finds what it needs leaves both sides in step. -/
theorem onInit_agrees {b : Bridge} {files : Files} {transport : Option FrameShm} {m : Memory}
    {ann : Option Announcement} {loaded opened : Bool} (hr : RequestOk transport m (.init ann))
    (hgeometry : ∀ shm ∈ transport, 0 < shm.buffers ∧ 0 < shm.frameSize)
    (h : b.InStep files transport ann loaded opened) :
    (b.onInit files ann loaded opened).Agrees transport := by
  unfold Bridge.InStep at h
  cases loaded with
  | false => exact h
  | true =>
    rw [if_pos rfl] at h
    cases ann with
    | none =>
      cases transport with
      | none => exact h
      | some shm => exact absurd h id
    | some a =>
      obtain ⟨shm, hshm, ha⟩ := hr a rfl
      rw [Option.mem_def.mp hshm] at h ⊢
      obtain ⟨hopened, hpath, hfile⟩ := h
      obtain ⟨hbuffers, hsize⟩ := hgeometry shm hshm
      rw [ha] at hpath hfile
      have hopen : b.openSource files shm.announcement opened =
          { b with source := some ⟨shm.segment, shm.buffers, shm.frameSize⟩ } := by
        unfold Bridge.openSource
        rw [if_neg (show ¬ (shm.announcement.buffers = 0 ∨ shm.announcement.size = 0) by
          rintro (h0 | h0)
          · exact Nat.ne_of_gt hbuffers h0
          · exact Nat.ne_of_gt hsize h0), if_pos hopened, hfile]
        exact if_neg (Nat.lt_irrefl _)
      rw [ha]
      unfold Bridge.onInit
      dsimp only
      rw [if_neg (by decide), if_neg hpath, hopen]
      exact ⟨rfl, rfl⟩

end AutoTargeting.Ipc
