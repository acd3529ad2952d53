import AutoTargeting.EventBus.Delivery
import AutoTargeting.VideoCapture.Replay

namespace AutoTargeting.VideoCapture

open EventBus (DateTime Rfc3339 unaryTimes writeU32 writeU64)
open Json

/-- What a replay must give back of a frame: not when it was made, and as which. -/
def Frame.picture (frame : Frame) : List UInt8 × ℕ × ℕ × PixelFormat :=
  (frame.data, frame.metadata.width, frame.metadata.height, frame.metadata.format)

/-- The frames whose `append` succeeds. -/
def appended (calls : List (Frame × WriteOutcome)) : List Frame :=
  calls.filterMap fun call =>
    match call.2 with
    | .done => some call.1
    | .failed .. => none

/-- A recording and its directory after these calls of `append`. -/
def appendAll (recording : Recording) (dir : Dir) (calls : List (Frame × WriteOutcome)) :
    Recording × Dir :=
  calls.foldl (fun t call => (t.1.append t.2 call.1 call.2).2) (recording, dir)

/-- A directory, whatever was in it, with a finalized recording. -/
def recordedDir (rfc : Rfc3339) (recording : Recording) (dir : Dir)
    (calls : List (Frame × WriteOutcome)) : Dir :=
  let t := appendAll recording dir calls
  (t.1.finalize rfc t.2 .done).2

/-- The directory opens, and its replay without looping shows the frames again. -/
def Replays (rfc : Rfc3339) (dir : Dir) (frames : List Frame) : Prop :=
  ∀ explain clock, ∃ source, ReplaySource.openDir rfc explain dir = .ok source ∧
    ∀ passes, ((source.withLoop false).start dir clock (passes + 1)).map Frame.picture =
      frames.map Frame.picture

/-- Frames that are what the metadata of the recording says of all of them. -/
structure Recordable (width height fps : UInt32) (frames : List Frame) : Prop where
  alike : ∀ frame ∈ frames, frame.metadata.width = width.toNat ∧
    frame.metadata.height = height.toNat ∧ frame.metadata.format = .rgb24
  few : frames.length < 2 ^ 64
  rate : fps ≠ 0 ∨ frames = []

/-- The padding does not hide a number. -/
theorem value_leftpad (n : ℕ) :
    Nat.ofDigitChars 10 ((Nat.toDigits 10 n).leftpad 6 '0') 0 = n := by
  rw [List.leftpad, Nat.ofDigitChars_append, Nat.ofDigitChars_replicate_zero, Nat.mul_zero,
    Nat.ofDigitChars_ten_toDigits]

theorem frameName_injective : Function.Injective frameName := by
  intro a b h
  unfold frameName at h
  rw [← String.toList_inj] at h
  simp only [String.toList_append, String.toList_ofList, List.append_cancel_left_eq,
    List.append_cancel_right_eq] at h
  have hvalue := congrArg (Nat.ofDigitChars 10 · 0) h
  simp only [value_leftpad] at hvalue
  exact UInt64.toNat_inj.mp hvalue

theorem frameName_ne_metaName (seq : UInt64) : frameName seq ≠ metaName := by
  intro h
  have hhead := congrArg (fun s : String => s.toList.head?) h
  simp [frameName, metaName] at hhead

theorem ofNat_toNat_of_lt {n : ℕ} (h : n < 2 ^ 64) : (UInt64.ofNat n).toNat = n := by
  rw [UInt64.toNat_ofNat', Nat.mod_eq_of_lt h]

theorem frameName_ne {i n : ℕ} (hi : i < n) (hn : n < 2 ^ 64) :
    frameName (UInt64.ofNat i) ≠ frameName (UInt64.ofNat n) := by
  intro h
  have hsame := congrArg UInt64.toNat (frameName_injective h)
  rw [ofNat_toNat_of_lt (hi.trans hn), ofNat_toNat_of_lt hn] at hsame
  omega

theorem write_other (dir : Dir) {name other : String} (data : Bytes) (outcome : WriteOutcome)
    (hne : other ≠ name) : (dir.write name data outcome).2 other = dir other := by
  cases outcome <;> exact Function.update_of_ne hne _ _

/-- A recording with these frames in it, and the files in the directory. -/
structure Recorded (first : RecordingMeta) (frames : List Frame) (t : Recording × Dir) : Prop where
  recordingMeta : t.1.recordingMeta = { first with frameCount := UInt64.ofNat frames.length }
  nextSeq : t.1.nextSeq = UInt64.ofNat frames.length
  files : frames.length < 2 ^ 64 → ∀ i (h : i < frames.length),
    t.2 (frameName (UInt64.ofNat i)) = some frames[i].data

section
variable {first : RecordingMeta} {frames : List Frame} {t : Recording × Dir}

/-- A write that fails may leave something in the next file, and in no other. -/
theorem Recorded.append_failed (h : Recorded first frames t) (frame : Frame) (error : String)
    (left : Option Bytes) :
    Recorded first frames (t.1.append t.2 frame (.failed error left)).2 where
  recordingMeta := h.recordingMeta
  nextSeq := h.nextSeq
  files := by
    intro hfew i hi
    have hother := write_other t.2 frame.data (.failed error left) (frameName_ne hi hfew)
    rw [← h.nextSeq] at hother
    exact hother.trans (h.files hfew i hi)

theorem Recorded.append_done (h : Recorded first frames t) (frame : Frame) :
    Recorded first (frames ++ [frame]) (t.1.append t.2 frame .done).2 where
  recordingMeta := by
    change { t.1.recordingMeta with frameCount := t.1.nextSeq + 1 } = _
    rw [h.recordingMeta, h.nextSeq, List.length_append, List.length_singleton, UInt64.ofNat_add]
    rfl
  nextSeq := by
    change t.1.nextSeq + 1 = _
    rw [h.nextSeq, List.length_append, List.length_singleton, UInt64.ofNat_add]
    rfl
  files := by
    intro hfew i hi
    rw [List.length_append, List.length_singleton] at hfew hi
    change Function.update t.2 (frameName t.1.nextSeq) (some frame.data) _ = _
    rw [h.nextSeq]
    rcases Nat.lt_succ_iff_lt_or_eq.mp hi with hold | rfl
    · rw [Function.update_of_ne (frameName_ne hold (by omega)), h.files (by omega) i hold,
        List.getElem_append_left hold]
    · rw [Function.update_self, List.getElem_append_right le_rfl]
      simp

theorem recorded_appendAll (recording : Recording) (dir : Dir) (calls : List (Frame × WriteOutcome))
    (hnew : recording.nextSeq = 0) (hcount : recording.recordingMeta.frameCount = 0) :
    Recorded recording.recordingMeta (appended calls) (appendAll recording dir calls) := by
  induction calls using List.reverseRecOn with
  | nil =>
    refine ⟨?_, hnew, fun _ i hi => absurd hi (Nat.not_lt_zero i)⟩
    change recording.recordingMeta = { recording.recordingMeta with frameCount := 0 }
    rw [← hcount]
  | append_singleton calls call ih =>
    obtain ⟨frame, outcome⟩ := call
    rw [appendAll, List.foldl_append, appended, List.filterMap_append]
    cases outcome with
    | done => exact ih.append_done frame
    | failed error left =>
      simp only [List.filterMap_cons, List.filterMap_nil, List.append_nil]
      exact ih.append_failed frame error left

end

theorem deserialize_serialize (rfc : Rfc3339) (m : RecordingMeta) :
    (parse (renderStructPretty (m.serialize rfc))).bind (RecordingMeta.deserialize rfc) =
      some m := by
  have hwell : ∀ f ∈ m.serialize rfc, f.2.WellFormed := by
    simp [RecordingMeta.serialize, writeU32, writeU64]
  rw [parse_renderStructPretty hwell]
  simp [RecordingMeta.serialize, readStruct, writeU32, writeU64, maxLevels,
    RecordingMeta.deserialize, Value.fields, Value.required, Value.under, Value.text]

section
variable {source : ReplaySource} {dir : Dir} {clock : ℕ → ℤ}

theorem length_pass_le (source : ReplaySource) (dir : Dir) (clock : ℕ → ℤ) (remaining seq : ℕ) :
    (source.pass dir clock remaining seq).1.length ≤ remaining := by
  induction remaining generalizing seq with
  | zero => exact le_rfl
  | succ remaining ih =>
    rw [ReplaySource.pass]
    split
    · exact Nat.zero_le _
    · exact Nat.succ_le_succ (ih (seq + 1))

theorem pass_eq (source : ReplaySource) (clock : ℕ → ℤ) (datas : List Bytes) (seq : ℕ)
    (h : ∀ i (hi : i < datas.length), dir (frameName (UInt64.ofNat (seq + i))) = some datas[i]) :
    (source.pass dir clock datas.length seq).2 = true ∧
      (source.pass dir clock datas.length seq).1.map Frame.picture = datas.map fun data =>
        (data, source.recordingMeta.width.toNat, source.recordingMeta.height.toNat,
          source.format) := by
  induction datas generalizing seq with
  | nil => exact ⟨rfl, rfl⟩
  | cons data datas ih =>
    have hfirst := h 0 (Nat.succ_pos _)
    have hrest := ih (seq + 1) (by
      intro i hi
      have hseq : seq + 1 + i = seq + (i + 1) := by omega
      rw [hseq]
      exact h (i + 1) (Nat.succ_lt_succ hi))
    rw [Nat.add_zero] at hfirst
    rw [List.length_cons, ReplaySource.pass, hfirst]
    refine ⟨hrest.1, ?_⟩
    simp only [List.getElem_cons_zero, List.map_cons, hrest.2]
    rfl

theorem playback_once (source : ReplaySource) (dir : Dir) (clock : ℕ → ℤ) (passes : ℕ) :
    (source.withLoop false).playback dir clock (passes + 1) =
      ((source.withLoop false).pass dir clock source.recordingMeta.frameCount.toNat 0).1 := by
  rw [ReplaySource.playback]
  simp [ReplaySource.withLoop]

theorem start_recorded {first : RecordingMeta} {frames : List Frame} {t : Recording × Dir}
    (clock : ℕ → ℤ) (passes : ℕ) (h : Recorded first frames t) (hformat : first.format = "rgb24")
    (hsource : source.recordingMeta = t.1.recordingMeta)
    (hdir : ∀ seq, dir (frameName seq) = t.2 (frameName seq)) :
    (first.fps = 0 → (source.withLoop false).start dir clock (passes + 1) = []) ∧
      (2 ^ 64 ≤ frames.length →
        ((source.withLoop false).start dir clock (passes + 1)).length < frames.length) ∧
      (first.fps ≠ 0 → frames.length < 2 ^ 64 →
        ((source.withLoop false).start dir clock (passes + 1)).map Frame.picture =
          frames.map fun frame =>
            (frame.data, first.width.toNat, first.height.toNat, PixelFormat.rgb24)) := by
  have hcount : source.recordingMeta.frameCount.toNat = frames.length % 2 ^ 64 := by
    rw [hsource, h.recordingMeta, UInt64.toNat_ofNat']
  have hmeta := hsource.trans h.recordingMeta
  have hfps : (source.withLoop false).recordingMeta.fps = first.fps := by
    rw [ReplaySource.withLoop, hmeta]
  refine ⟨fun hzero => ?_, fun hmany => ?_, fun hrate hfew => ?_⟩
  · rw [ReplaySource.start, hfps, if_pos hzero]
  · have hlt : frames.length % 2 ^ 64 < frames.length :=
      (Nat.mod_lt _ (by norm_num)).trans_le hmany
    rw [ReplaySource.start]
    split
    · exact Nat.zero_lt_of_lt hlt
    · rw [playback_once, hcount]
      exact (length_pass_le _ _ _ _ _).trans_lt hlt
  · have hfiles : ∀ i (hi : i < (frames.map (·.data)).length),
        dir (frameName (UInt64.ofNat (0 + i))) = some (frames.map (·.data))[i] := by
      intro i hi
      rw [List.length_map] at hi
      rw [Nat.zero_add, hdir, h.files hfew i hi, List.getElem_map]
    have hpass := (pass_eq (source.withLoop false) clock _ 0 hfiles).2
    have hrgb : (source.withLoop false).format = .rgb24 := by
      rw [ReplaySource.format, ReplaySource.withLoop, hmeta, hformat]
      simp
    rw [List.length_map] at hpass
    rw [ReplaySource.start, hfps, if_neg hrate, playback_once, hcount, Nat.mod_eq_of_lt hfew, hpass,
      hrgb, List.map_map, ReplaySource.withLoop, hmeta]
    rfl

/-- What the directory of a finalized recording gives back. -/
theorem replays_finalized_iff (rfc : Rfc3339) {first : RecordingMeta} {frames : List Frame}
    {t : Recording × Dir} (h : Recorded first frames t) (hformat : first.format = "rgb24") :
    Replays rfc (t.1.finalize rfc t.2 .done).2 frames ↔
      Recordable first.width first.height first.fps frames := by
  have hdir : (t.1.finalize rfc t.2 .done).2 =
      Function.update t.2 metaName (some (renderStructPretty (t.1.recordingMeta.serialize rfc))) :=
    rfl
  rw [hdir]
  generalize hfinal : Function.update t.2 metaName
    (some (renderStructPretty (t.1.recordingMeta.serialize rfc))) = final
  have hmeta : final metaName = some (renderStructPretty (t.1.recordingMeta.serialize rfc)) := by
    rw [← hfinal, Function.update_self]
  have hfiles : ∀ seq, final (frameName seq) = t.2 (frameName seq) := by
    intro seq
    rw [← hfinal, Function.update_of_ne (frameName_ne_metaName seq)]
  have hopen : ∀ explain, ReplaySource.openDir rfc explain final =
      .ok ⟨t.1.recordingMeta, true, false⟩ := by
    intro explain
    simp only [ReplaySource.openDir, hmeta, deserialize_serialize]
  have hsource : ReplaySource.recordingMeta ⟨t.1.recordingMeta, true, false⟩ =
      t.1.recordingMeta := rfl
  have hstart := fun clock passes => start_recorded clock passes h hformat hsource hfiles
  constructor
  · intro hreplays
    obtain ⟨source, hsource, hshown⟩ := hreplays (fun _ => "") fun _ => 0
    rw [hopen] at hsource
    cases hsource
    have hshown := hshown 0
    obtain ⟨hzero, hmany, hsame⟩ := hstart (fun _ => 0) 0
    have hfew : frames.length < 2 ^ 64 := by
      by_contra hlong
      have hlt := hmany (not_lt.mp hlong)
      have hlength := congrArg List.length hshown
      rw [List.length_map, List.length_map] at hlength
      omega
    by_cases hrate : first.fps = 0
    · rw [hzero hrate, List.map_nil] at hshown
      have hnone : frames = [] := List.map_eq_nil_iff.mp hshown.symm
      subst hnone
      exact ⟨nofun, hfew, .inr rfl⟩
    · rw [hsame hrate hfew, List.map_inj_left] at hshown
      refine ⟨fun frame hframe => ?_, hfew, .inl hrate⟩
      have hpicture := hshown frame hframe
      simp only [Frame.picture, Prod.mk.injEq, true_and] at hpicture
      exact ⟨hpicture.1.symm, hpicture.2.1.symm, hpicture.2.2.symm⟩
  · rintro ⟨halike, hfew, hrate⟩ explain clock
    refine ⟨_, hopen explain, fun passes => ?_⟩
    obtain ⟨hzero, -, hsame⟩ := hstart clock passes
    by_cases hfps : first.fps = 0
    · rw [hzero hfps, hrate.resolve_left (not_not.mpr hfps), List.map_nil]
    · rw [hsame hfps hfew, List.map_inj_left]
      intro frame hframe
      obtain ⟨hwidth, hheight, hpixels⟩ := halike frame hframe
      rw [Frame.picture, hwidth, hheight, hpixels]

end

/-- A replay shows the frames again exactly where they are RGB24 frames of the recording's size, and
its rate is not 0. -/
theorem replays_iff (rfc : Rfc3339) (width height fps : UInt32) (now : DateTime)
    (recording : Recording) (hcreate : Recording.create (.ok ()) width height fps now = .ok recording)
    (dir : Dir) (calls : List (Frame × WriteOutcome)) :
    Replays rfc (recordedDir rfc recording dir calls) (appended calls) ↔
      Recordable width height fps (appended calls) := by
  cases hcreate
  exact replays_finalized_iff rfc (recorded_appendAll _ dir calls rfl rfl) rfl

def epoch : DateTime := .unixEpoch

/-- The epoch as chrono writes it; how other times are written does not matter to it. -/
def epochTimes : Rfc3339 where
  format t := if t = epoch then "1970-01-01T00:00:00Z" else unaryTimes.format t
  parse s := if s = "1970-01-01T00:00:00Z" then some epoch else unaryTimes.parse s
  parse_format t := by
    by_cases ht : t = epoch
    · rw [if_pos ht, if_pos rfl, ht]
    · have hother : unaryTimes.format t ≠ "1970-01-01T00:00:00Z" := by
        intro h
        have hone : '1' ∈ (unaryTimes.format t).toList := by
          rw [h]
          decide
        rw [unaryTimes, String.toList_ofList] at hone
        exact absurd (List.eq_of_mem_replicate hone) (by decide)
      rw [if_neg ht, if_neg hother, unaryTimes.parse_format]

/-- A recording of 2 × 2 pixels at 30 frames a second. -/
def smallRecording : Recording := ⟨⟨2, 2, 30, "rgb24", 0, epoch⟩, 0⟩

def blackFrame (format : PixelFormat) (length : ℕ) : Frame :=
  ⟨List.replicate length 0, ⟨2, 2, format, 0, 0⟩⟩

def shadedFrame (shade : UInt8) : Frame := ⟨List.replicate 12 shade, ⟨2, 2, .rgb24, 0, 0⟩⟩

/-- What an earlier recording left behind. -/
def leftovers : Dir := fun name =>
  if name = frameName 0 ∨ name = frameName 5 ∨ name = metaName then some [7] else none

/-- The second of three frames cannot be written. -/
def shadedCalls : List (Frame × WriteOutcome) :=
  [(shadedFrame 10, .done), (shadedFrame 20, .failed "full" (some [1])), (shadedFrame 30, .done)]

theorem replays_iff_small :
    Replays epochTimes (recordedDir epochTimes smallRecording leftovers shadedCalls)
      [shadedFrame 10, shadedFrame 30] := by
  have hrecordable : Recordable 2 2 30 (appended shadedCalls) :=
    ⟨by decide, by decide, .inl (by decide)⟩
  exact (replays_iff epochTimes 2 2 30 epoch smallRecording rfl leftovers shadedCalls).mpr
    hrecordable

/-- An NV12 frame comes back as an RGB24 frame. -/
theorem nv12_relabelled : ¬ ∀ (rfc : Rfc3339) (width height fps : UInt32) (now : DateTime)
    (recording : Recording), Recording.create (.ok ()) width height fps now = .ok recording →
    ∀ (dir : Dir) (calls : List (Frame × WriteOutcome)),
      Replays rfc (recordedDir rfc recording dir calls) (appended calls) := by
  intro h
  have hreplays := h epochTimes 2 2 30 epoch smallRecording rfl (fun _ => none)
    [(blackFrame .nv12 6, .done)]
  have hrecordable := (replays_finalized_iff epochTimes
    (recorded_appendAll smallRecording _ [(blackFrame .nv12 6, .done)] rfl rfl) rfl).mp hreplays
  have hformat := (hrecordable.alike _ List.mem_cons_self).2.2
  cases hformat

end AutoTargeting.VideoCapture
