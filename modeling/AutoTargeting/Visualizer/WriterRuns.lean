import AutoTargeting.EventBus.Delivery
import AutoTargeting.VideoCapture.ReplayLaws
import AutoTargeting.Visualizer.FrameWriter

namespace AutoTargeting.Visualizer

open EventBus (Detection JsonFloat ZeroOrNan floatValue)
open Json
open VideoCapture (Dir WriteOutcome)

variable {F : Type} [JsonFloat F] (codec : Codec F) (n : ℕ)

omit [JsonFloat F] in
/-- The inset rectangles have sides wherever they are drawn. -/
theorem drawThickRect_isSome (hrect : ∀ img r color, (codec.drawHollowRect img r color).isSome)
    (img : RgbImage) (rect : Rect) (color : Color) (thickness : ℕ) :
    (drawThickRect codec img rect color thickness).isSome := by
  unfold drawThickRect
  generalize List.range thickness = insets
  induction insets generalizing img with
  | nil => rfl
  | cons i insets ih =>
    simp only [List.foldlM_cons]
    by_cases hroom : 0 < Int32.ofNat rect.width - 2 * Int32.ofNat i ∧
        0 < Int32.ofNat rect.height - 2 * Int32.ofNat i
    · have hside {x : Int32} (hx : 0 < x) : x.toNatClampNeg ≠ 0 := by
        have hint : 0 < x.toInt := Int32.lt_iff_toInt_lt.mp hx
        rw [← Int32.toNat_toInt]
        omega
      rw [if_pos hroom, Rect.ofSize, if_neg (not_or.mpr ⟨hside hroom.1, hside hroom.2⟩)]
      obtain ⟨drawn, hdrawn⟩ := Option.isSome_iff_exists.mp (hrect img
        ⟨rect.left + Int32.ofNat i, rect.top + Int32.ofNat i,
          (Int32.ofNat rect.width - 2 * Int32.ofNat i).toNatClampNeg,
          (Int32.ofNat rect.height - 2 * Int32.ofNat i).toNatClampNeg⟩ color)
      rw [Option.bind_some, hdrawn]
      exact ih drawn
    · rw [if_neg hroom]
      exact ih img

omit [JsonFloat F] in
/-- Without a font, and where the drawing itself does not panic, only a box with an empty side
is a reason to. -/
theorem drawDetection_eq_none_iff (hfont : codec.font = none)
    (hrect : ∀ img r color, (codec.drawHollowRect img r color).isSome) (img : RgbImage)
    (d : Detection F) :
    drawDetection codec img d = none ↔ d.bbox.width = 0 ∨ d.bbox.height = 0 := by
  have hside (x : UInt32) : x.toNat = 0 ↔ x = 0 := by
    rw [← UInt32.toNat_inj]
    rfl
  unfold drawDetection Rect.ofSize
  simp only [hside, hfont]
  by_cases hempty : d.bbox.width = 0 ∨ d.bbox.height = 0
  · rw [if_pos hempty]
    exact iff_of_true rfl hempty
  · rw [if_neg hempty]
    obtain ⟨drawn, hdrawn⟩ := Option.isSome_iff_exists.mp (drawThickRect_isSome codec hrect img
      ⟨d.bbox.x.toInt32, d.bbox.y.toInt32, d.bbox.width.toNat, d.bbox.height.toNat⟩ boxColor
      thickness)
    refine iff_of_false (fun hnone => ?_) hempty
    rw [Option.bind_eq_bind, Option.bind_some, hdrawn] at hnone
    cases hnone

omit [JsonFloat F] in
theorem annotate_eq_none_iff (hfont : codec.font = none)
    (hrect : ∀ img r color, (codec.drawHollowRect img r color).isSome)
    (frame : VideoCapture.Frame) (ds : List (Detection F)) :
    annotate codec frame ds = none ↔ (∃ img, frameToRgbImage frame = .ok img) ∧
      ∃ d ∈ ds, d.bbox.width = 0 ∨ d.bbox.height = 0 := by
  have hdraw (img : RgbImage) : ds.foldlM (drawDetection codec) img = none ↔
      ∃ d ∈ ds, d.bbox.width = 0 ∨ d.bbox.height = 0 := by
    induction ds generalizing img with
    | nil => simp
    | cons d ds ih =>
      rw [List.foldlM_cons, List.exists_mem_cons_iff]
      cases hd : drawDetection codec img d with
      | none => exact iff_of_true rfl (.inl ((drawDetection_eq_none_iff codec hfont hrect _ _).mp hd))
      | some drawn =>
        have hsome : ¬ (d.bbox.width = 0 ∨ d.bbox.height = 0) := by
          rw [← drawDetection_eq_none_iff codec hfont hrect img d, hd]
          exact Option.some_ne_none drawn
        rw [or_iff_right hsome]
        exact ih drawn
  unfold annotate
  cases frameToRgbImage frame with
  | error e => simp
  | ok img =>
    simp only [Option.map_eq_none_iff, hdraw]
    simp

def saveAll (dir : Dir) (calls : List (SaveCall F)) : FrameWriter × Dir :=
  calls.foldl (fun t c => (t.1.save codec t.2 c).2) (FrameWriter.new n, dir)

/-- The JPEG of the `k`th call, if it gets into a file: every `n`th does, if nothing fails. -/
def savedImage (c : SaveCall F) (k : ℕ) : Option Bytes :=
  if k % max n 1 = 0 then
    match annotate codec c.frame c.detections with
    | some (.ok annotated) =>
      match codec.encodeJpeg annotated, c.written with
      | .ok jpeg, .done => some jpeg
      | _, _ => none
    | _ => none
  else none

/-- What the `k`th call appends to the log. -/
def loggedRecord (c : SaveCall F) (k : ℕ) : Option (Doc × Appended) :=
  (savedImage codec n c k).bind fun _ =>
    match c.appended with
    | .done => some (detectionRecord c.frame c.timestamp c.detections, .whole)
    | .openFailed _ => none
    | .torn _ bytes => some (detectionRecord c.frame c.timestamp c.detections, .torn bytes)

def savedImages (calls : List (SaveCall F)) : List Bytes :=
  (calls.zipIdx 1).filterMap fun p => savedImage codec n p.1 p.2

def loggedRecords (calls : List (SaveCall F)) : List (Doc × Appended) :=
  (calls.zipIdx 1).filterMap fun p => loggedRecord codec n p.1 p.2

omit [JsonFloat F] in
theorem imageName_injective : Function.Injective imageName := by
  intro a b h
  unfold imageName at h
  rw [← String.toList_inj] at h
  simp only [String.toList_append, String.toList_ofList, List.append_cancel_left_eq,
    List.append_cancel_right_eq] at h
  have hvalue := congrArg (Nat.ofDigitChars 10 · 0) h
  simpa only [VideoCapture.value_leftpad] using hvalue

theorem imageName_ne_jsonlName (seq : ℕ) : imageName seq ≠ jsonlName := by
  intro h
  have hhead := congrArg (fun s : String => s.toList.head?) h
  simp [imageName, jsonlName] at hhead

theorem append_other (dir : Dir) {name other : String} (d : Doc) (outcome : AppendOutcome)
    (hne : other ≠ name) : (append dir name d outcome).2 other = dir other := by
  cases outcome with
  | done => exact Function.update_of_ne hne _ _
  | openFailed => rfl
  | torn => exact Function.update_of_ne hne _ _

theorem append_self (dir : Dir) (name : String) (d : Doc) (outcome : AppendOutcome) :
    ((append dir name d outcome).2 name).getD [] = (dir name).getD [] ++
      match outcome with
      | .done => appendedBytes (d, .whole)
      | .openFailed _ => []
      | .torn _ bytes => appendedBytes (d, .torn bytes) := by
  cases outcome <;> simp [append]

structure SavedBy (t : FrameWriter × Dir) (image : Option Bytes) (record : Option (Doc × Appended))
    (t' : FrameWriter × Dir) : Prop where
  saveEveryN : t'.1.saveEveryN = t.1.saveEveryN
  frameCounter : t'.1.frameCounter = t.1.frameCounter + 1
  savedCounter : t'.1.savedCounter = t.1.savedCounter + image.toList.length
  image : ∀ jpeg ∈ image, t'.2 (imageName (t.1.savedCounter + 1)) = some jpeg
  others : ∀ k ≤ t.1.savedCounter, t'.2 (imageName k) = t.2 (imageName k)
  log : (t'.2 jsonlName).getD [] = (t.2 jsonlName).getD [] ++ logText record.toList

theorem imageName_ne {k m : ℕ} (h : k ≤ m) : imageName k ≠ imageName (m + 1) := fun hsame => by
  have hk := imageName_injective hsame
  omega

theorem SavedBy.nothing (t : FrameWriter × Dir) :
    SavedBy t none none ({ t.1 with frameCounter := t.1.frameCounter + 1 }, t.2) where
  saveEveryN := rfl
  frameCounter := rfl
  savedCounter := rfl
  image := by simp
  others _ _ := rfl
  log := by simp [logText]

theorem SavedBy.unwritten (t : FrameWriter × Dir) (jpeg : Bytes) (error : String)
    (left : Option Bytes) :
    SavedBy t none none ({ t.1 with frameCounter := t.1.frameCounter + 1 },
      (t.2.write (imageName (t.1.savedCounter + 1)) jpeg (.failed error left)).2) where
  saveEveryN := rfl
  frameCounter := rfl
  savedCounter := rfl
  image := by simp
  others := by
    intro k hk
    exact VideoCapture.write_other t.2 jpeg (.failed error left) (imageName_ne hk)
  log := by
    have hother := VideoCapture.write_other t.2 jpeg (.failed error left)
      (imageName_ne_jsonlName (t.1.savedCounter + 1)).symm
    simp only [hother]
    simp [logText]

variable {n}

theorem SavedBy.written (t : FrameWriter × Dir) (jpeg : Bytes) (d : Doc) (outcome : AppendOutcome) :
    SavedBy t (some jpeg)
      (match outcome with
        | .done => some (d, .whole)
        | .openFailed _ => none
        | .torn _ bytes => some (d, .torn bytes))
      ({ t.1 with frameCounter := t.1.frameCounter + 1, savedCounter := t.1.savedCounter + 1 },
        (append (t.2.write (imageName (t.1.savedCounter + 1)) jpeg .done).2 jsonlName d outcome).2) where
  saveEveryN := rfl
  frameCounter := rfl
  savedCounter := rfl
  image := by
    intro image himage
    obtain rfl := Option.some.inj himage
    have hother := append_other (t.2.write (imageName (t.1.savedCounter + 1)) jpeg .done).2 d outcome
      (imageName_ne_jsonlName (t.1.savedCounter + 1))
    simp only [hother]
    exact Function.update_self _ _ _
  others := by
    intro k hk
    have hother := append_other (t.2.write (imageName (t.1.savedCounter + 1)) jpeg .done).2 d outcome
      (imageName_ne_jsonlName k)
    simp only [hother]
    exact VideoCapture.write_other t.2 jpeg .done (imageName_ne hk)
  log := by
    have hother := VideoCapture.write_other t.2 jpeg .done
      (imageName_ne_jsonlName (t.1.savedCounter + 1)).symm
    have hself := append_self (t.2.write (imageName (t.1.savedCounter + 1)) jpeg .done).2 jsonlName d
      outcome
    rw [hother] at hself
    simp only [hself]
    cases outcome <;> simp [logText]

theorem save_spec {t : FrameWriter × Dir} (hn : t.1.saveEveryN = max n 1)
    (hframe : t.1.frameCounter + 1 < 2 ^ 64) (hsaved : t.1.savedCounter + 1 < 2 ^ 64)
    (c : SaveCall F) :
    SavedBy t (savedImage codec n c (t.1.frameCounter + 1))
      (loggedRecord codec n c (t.1.frameCounter + 1)) (t.1.save codec t.2 c).2 := by
  obtain ⟨⟨_, count, saved⟩, dir⟩ := t
  obtain rfl := hn
  unfold FrameWriter.save loggedRecord savedImage FrameWriter.shouldSave
  simp only [Nat.mod_eq_of_lt hframe, Nat.mod_eq_of_lt hsaved]
  by_cases hcadence : (count + 1) % max n 1 = 0
  · simp only [hcadence, reduceIte, decide_true, Bool.not_true, Bool.false_eq_true]
    cases annotate codec c.frame c.detections with
    | none => exact .nothing _
    | some drawn =>
      cases drawn with
      | error e => exact .nothing _
      | ok annotated =>
        simp only
        cases codec.encodeJpeg annotated with
        | error e => exact .nothing _
        | ok jpeg =>
          cases c.written with
          | failed error left => exact .unwritten _ jpeg error left
          | done =>
            have hdone := SavedBy.written (⟨max n 1, count, saved⟩, dir) jpeg
              (detectionRecord c.frame c.timestamp c.detections) c.appended
            cases happended : c.appended with
            | done =>
              rw [happended] at hdone
              exact hdone
            | openFailed error =>
              rw [happended] at hdone
              exact hdone
            | torn error bytes =>
              rw [happended] at hdone
              exact hdone
  · simp only [hcadence, reduceIte, decide_false, Bool.not_false, Option.bind_none]
    exact .nothing _

/-- What `calls` make of a new writer and its directory. -/
structure Output (dir : Dir) (calls : List (SaveCall F)) (t : FrameWriter × Dir) : Prop where
  saveEveryN : t.1.saveEveryN = max n 1
  frameCounter : t.1.frameCounter = calls.length
  savedCounter : t.1.savedCounter = (savedImages codec n calls).length
  images : ∀ i < (savedImages codec n calls).length,
    t.2 (imageName (i + 1)) = (savedImages codec n calls)[i]?
  log : (t.2 jsonlName).getD [] =
    (dir jsonlName).getD [] ++ logText (loggedRecords codec n calls)

omit [JsonFloat F] in
theorem savedImages_snoc (calls : List (SaveCall F)) (c : SaveCall F) :
    savedImages codec n (calls ++ [c]) =
      savedImages codec n calls ++ (savedImage codec n c (calls.length + 1)).toList := by
  rw [savedImages, List.zipIdx_append, List.filterMap_append, Nat.add_comm 1]
  cases hsaved : savedImage codec n c (calls.length + 1) <;> simp [savedImages, hsaved]

theorem loggedRecords_snoc (calls : List (SaveCall F)) (c : SaveCall F) :
    loggedRecords codec n (calls ++ [c]) =
      loggedRecords codec n calls ++ (loggedRecord codec n c (calls.length + 1)).toList := by
  rw [loggedRecords, List.zipIdx_append, List.filterMap_append, Nat.add_comm 1]
  cases hlogged : loggedRecord codec n c (calls.length + 1) <;> simp [loggedRecords, hlogged]

omit [JsonFloat F] in
theorem length_savedImages_le (calls : List (SaveCall F)) :
    (savedImages codec n calls).length ≤ calls.length :=
  (List.length_filterMap_le _ _).trans_eq List.length_zipIdx

theorem output_step {dir : Dir} {calls : List (SaveCall F)} {t : FrameWriter × Dir}
    (h : Output codec (n := n) dir calls t) (hlen : calls.length + 1 < 2 ^ 64) (c : SaveCall F) :
    Output codec (n := n) dir (calls ++ [c]) (t.1.save codec t.2 c).2 := by
  have hle := length_savedImages_le (n := n) codec calls
  have hspec := save_spec codec h.saveEveryN (by rw [h.frameCounter]; exact hlen)
    (by rw [h.savedCounter]; omega) c
  rw [h.frameCounter] at hspec
  refine ⟨hspec.saveEveryN.trans h.saveEveryN, ?_, ?_, fun i hi => ?_, ?_⟩
  · rw [hspec.frameCounter, h.frameCounter, List.length_append, List.length_singleton]
  · rw [hspec.savedCounter, h.savedCounter, savedImages_snoc, List.length_append]
  · rw [savedImages_snoc] at hi ⊢
    by_cases hold : i < (savedImages codec n calls).length
    · rw [List.getElem?_append_left hold, hspec.others _ (h.savedCounter ▸ hold), h.images i hold]
    · cases hsaved : savedImage codec n c (calls.length + 1) with
      | none =>
        rw [hsaved, Option.toList_none, List.append_nil] at hi
        exact absurd hi hold
      | some jpeg =>
        rw [hsaved, Option.toList_some, List.length_append, List.length_singleton] at hi
        obtain rfl : i = t.1.savedCounter := by
          rw [h.savedCounter]
          omega
        rw [hspec.image jpeg hsaved, h.savedCounter]
        simp
  · rw [hspec.log, h.log, loggedRecords_snoc, List.append_assoc]
    simp [logText]

theorem output_saveAll (dir : Dir) {calls : List (SaveCall F)} (hlen : calls.length < 2 ^ 64) :
    Output codec (n := n) dir calls (saveAll codec n dir calls) := by
  induction calls using List.reverseRecOn with
  | nil => exact ⟨rfl, rfl, rfl, fun i hi => absurd hi (Nat.not_lt_zero i), (List.append_nil _).symm⟩
  | append_singleton calls c ih =>
    rw [List.length_append, List.length_singleton] at hlen
    rw [saveAll, List.foldl_append]
    exact output_step codec (ih (by omega)) hlen c

section
variable (limit : ℕ)

def detectionValue (d : Detection F) : Value :=
  .object [("class", .string d.className), ("class_id", .number (.ofInt d.classId.toNat)),
    ("confidence", floatValue d.confidence),
    ("bbox", .array [.number (.ofInt d.bbox.x.toNat), .number (.ofInt d.bbox.y.toNat),
      .number (.ofInt d.bbox.width.toNat), .number (.ofInt d.bbox.height.toNat)])]

/-- What a reader finds on the line of a call. -/
def recordValue (c : SaveCall F) : Value :=
  .object [("frame_seq", .number (.ofInt c.frame.metadata.seq)), ("timestamp", .string c.timestamp),
    ("width", .number (.ofInt c.frame.metadata.width)),
    ("height", .number (.ofInt c.frame.metadata.height)),
    ("n", .number (.ofInt c.detections.length)),
    ("detections", .array (c.detections.map detectionValue))]

theorem read_detectionJson (d : Detection F) :
    (detectionJson d).read (limit + 2) = some (detectionValue d) := by
  simp [detectionJson, detectionValue, readStruct, EventBus.writeU32, Doc.read, readItems]

theorem readItems_detectionJson (ds : List (Detection F)) :
    readItems (limit + 2) (ds.map detectionJson) = some (ds.map detectionValue) := by
  induction ds with
  | nil => rfl
  | cons d ds ih =>
    rw [List.map_cons, readItems, read_detectionJson, ih]
    rfl

theorem wellFormed_detectionJson (d : Detection F) : (detectionJson d).WellFormed := by
  simp [detectionJson, EventBus.writeU32]

theorem parse_detectionRecord (c : SaveCall F) :
    parse (detectionRecord c.frame c.timestamp c.detections).render = some (recordValue c) := by
  have hwf : (detectionRecord c.frame c.timestamp c.detections).WellFormed := by
    simp [detectionRecord, wellFormed_detectionJson]
  have harray : (Doc.array (c.detections.map detectionJson)).read 126 =
      some (.array (c.detections.map detectionValue)) := by
    rw [Doc.read, readItems_detectionJson 123]
    rfl
  rw [parse_render hwf, detectionRecord, show maxLevels = 126 + 1 from rfl, read_struct]
  simp [readStruct, harray, recordValue]

end

theorem oneLine_detectionJson (d : Detection F) : (detectionJson d).OneLine := by
  have hconfidence : (EventBus.writeFloat d.confidence).OneLine := by
    unfold EventBus.writeFloat
    split <;> simp
  simp [detectionJson, hconfidence, EventBus.writeU32]

theorem oneLine_detectionRecord (c : SaveCall F) :
    (detectionRecord c.frame c.timestamp c.detections).OneLine := by
  simp [detectionRecord, oneLine_detectionJson]

theorem mem_loggedRecords {calls : List (SaveCall F)} {e : Doc × Appended}
    (h : e ∈ loggedRecords codec n calls) :
    ∃ c ∈ calls, e.1 = detectionRecord c.frame c.timestamp c.detections := by
  obtain ⟨⟨c, k⟩, hc, hlogged⟩ := List.mem_filterMap.mp h
  obtain ⟨jpeg, -, hrecord⟩ := Option.bind_eq_some_iff.mp hlogged
  refine ⟨c, List.fst_mem_of_mem_zipIdx hc, ?_⟩
  split at hrecord
  · exact congrArg Prod.fst (Option.some.inj hrecord).symm
  · cases hrecord
  · exact congrArg Prod.fst (Option.some.inj hrecord).symm

theorem mem_intact {es : List (Doc × Appended)} {clean : Bool} {d : Doc} (h : d ∈ intact clean es) :
    (d, .whole) ∈ es := by
  induction es generalizing clean with
  | nil => cases clean <;> cases h
  | cons e es ih =>
    obtain ⟨d', appended⟩ := e
    cases appended with
    | torn bytes =>
      rw [intact] at h
      exact List.mem_cons_of_mem _ (ih h)
    | whole =>
      cases clean with
      | false => exact List.mem_cons_of_mem _ (ih h)
      | true =>
        rcases List.mem_cons.mp h with rfl | h
        · exact List.mem_cons_self
        · exact List.mem_cons_of_mem _ (ih h)

/-- After any calls, whatever failed or panicked in them: the images that were written are numbered
in their order, and the old lines of the log are followed by lines among which, in their order, are
all records but those that a torn write spoiled, two at most for each; a reader gets back from its
line what a record was made of. -/
theorem directory_after_saves (dir : Dir) {calls : List (SaveCall F)}
    (hlen : calls.length < 2 ^ 64) :
    let t := saveAll codec n dir calls
    let old := splitLines ((dir jsonlName).getD [])
    let records := loggedRecords codec n calls
    let clean := decide (old.2 = [])
    t.1.savedCounter = (savedImages codec n calls).length ∧
      (∀ i < t.1.savedCounter, t.2 (imageName (i + 1)) = (savedImages codec n calls)[i]?) ∧
      ∃ lines, (splitLines ((t.2 jsonlName).getD [])).1 = old.1 ++ lines ∧
        ((intact clean records).map Doc.render).Sublist lines ∧
        records.length ≤
          (intact clean records).length + 2 * tornCount records + (if clean then 0 else 1) ∧
        ∀ d ∈ intact clean records, ∃ c ∈ calls,
          d = detectionRecord c.frame c.timestamp c.detections ∧
            parse d.render = some (recordValue c) := by
  have hout := output_saveAll codec (n := n) dir hlen
  refine ⟨hout.savedCounter, fun i hi => hout.images i (hout.savedCounter ▸ hi),
    (splitLines ((splitLines ((dir jsonlName).getD [])).2 ++
      logText (loggedRecords codec n calls))).1, ?_, ?_, length_le_intact _ _, fun d hd => ?_⟩
  · rw [hout.log, splitLines_append]
  · apply intact_sublist
    · intro e he
      obtain ⟨c, -, hrecord⟩ := mem_loggedRecords codec he
      rw [hrecord]
      exact oneLine_detectionRecord c
    · exact splitLines_rest _
    · exact of_decide_eq_true
  · obtain ⟨c, hc, hrecord⟩ := mem_loggedRecords codec (mem_intact hd)
    obtain rfl : d = detectionRecord c.frame c.timestamp c.detections := hrecord
    exact ⟨c, hc, rfl, parse_detectionRecord c⟩

/-- A codec that draws nothing. -/
def plainCodec : Codec ZeroOrNan where
  font := none
  formatConfidence _ := "0.00"
  drawHollowRect img _ _ := some img
  drawFilledRect img _ _ := some img
  drawText img _ _ _ _ _ := some img
  encodeJpeg img := .ok img.data

def redFrame (seq : ℕ) : VideoCapture.Frame := ⟨[200, 0, 0], 1, 1, .rgb24, 0, seq⟩

def foundBox (width : UInt32) : Detection ZeroOrNan :=
  ⟨⟨0, 0, width, 1⟩, "car", 2, .zero, 1, .unixEpoch⟩

/-- The first call panics in its drawing, and the line of the second is torn. -/
def tornCalls : List (SaveCall ZeroOrNan) :=
  [⟨redFrame 1, [foundBox 0], "t1", .done, .done⟩,
    ⟨redFrame 2, [foundBox 1], "t2", .done, .torn "full" 5⟩,
    ⟨redFrame 3, [foundBox 1], "t3", .done, .done⟩,
    ⟨redFrame 4, [foundBox 1, foundBox 1], "t4", .done, .done⟩]

theorem directory_after_saves_torn :
    let t := saveAll plainCodec 1 (fun _ => none) tornCalls
    annotate plainCodec (redFrame 1) [foundBox 0] = none ∧ t.2 (imageName 3) = some [200, 0, 0] ∧
      (detectionRecord (redFrame 4) "t4" [foundBox 1, foundBox 1]).render ∈
        (splitLines ((t.2 jsonlName).getD [])).1 := by
  intro t
  have hlen : tornCalls.length < 2 ^ 64 := by decide
  obtain ⟨hcount, himages, lines, hlines, hsub, -, -⟩ :=
    directory_after_saves plainCodec (n := 1) (fun _ => none) hlen
  have hpanics : annotate plainCodec (redFrame 1) [foundBox 0] = none := by
    rw [annotate_eq_none_iff plainCodec rfl (fun _ _ _ => rfl)]
    exact ⟨⟨_, rfl⟩, foundBox 0, List.mem_singleton_self _, .inl rfl⟩
  refine ⟨hpanics, himages 2 (by rw [hcount]; decide), ?_⟩
  rw [hlines]
  exact List.mem_append_right _ (hsub.subset (List.mem_map_of_mem (List.mem_singleton_self _)))

end AutoTargeting.Visualizer
