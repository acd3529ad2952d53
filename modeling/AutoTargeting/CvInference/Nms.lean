import AutoTargeting.CvInference.Iou
import Mathlib.Data.List.Sort

namespace AutoTargeting

section
variable {D B F S : Type*} [LinearOrder F] [LT S] [DecidableLT S]

/-- What `std::sort` promises for a comparison by confidence, descending. -/
structure RknnBridge.StdSort (confidence : D → F) where
  sort : List D → List D
  perm : ∀ detections, (sort detections).Perm detections
  sorted : ∀ detections, (sort detections).Pairwise fun a b => confidence b ≤ confidence a

namespace CvInference

/-- One turn of the inner loop, for `d` and a later detection. -/
def suppressIf (overlaps : D → D → Bool) (d : D) (suppressed : List Bool) (row : D × ℕ) :
    List Bool :=
  -- already suppressed by an earlier one
  if suppressed.getD row.2 false then suppressed
  else if overlaps d row.1 then suppressed.set row.2 true
  else suppressed

def suppressLater (overlaps : D → D → Bool) (detections : List D) (i : ℕ) (d : D)
    (suppressed : List Bool) : List Bool :=
  ((detections.drop (i + 1)).zipIdx (i + 1)).foldl (suppressIf overlaps d) suppressed

/-- One turn of the outer loop, on `keep` and `suppressed`. -/
def keepUnlessSuppressed (overlaps : D → D → Bool) (detections : List D)
    (s : List D × List Bool) (row : D × ℕ) : List D × List Bool :=
  let (keep, suppressed) := s
  let (d, i) := row
  if suppressed.getD i false then s
  else (keep ++ [d], suppressLater overlaps detections i d suppressed)

/-- Both loops over sorted detections. -/
def suppressionLoop (overlaps : D → D → Bool) (detections : List D) : List D :=
  (detections.zipIdx.foldl (keepUnlessSuppressed overlaps detections)
    ([], List.replicate detections.length false)).1

variable (confidence : D → F) (bbox : D → B) (iou : B → B → S) (iouThreshold : S)

def exceeds (a b : D) : Bool := iouThreshold < iou (bbox a) (bbox b)

/-- `non_max_suppression` of nms.rs; the sort is stable. -/
def nonMaxSuppression (detections : List D) : List D :=
  if detections.isEmpty then detections
  else
    suppressionLoop (exceeds bbox iou iouThreshold)
      (detections.insertionSort fun a b => confidence b ≤ confidence a)

end CvInference

def RknnBridge.nonMaxSuppression {confidence : D → F} (std : StdSort confidence) (bbox : D → B)
    (iou : B → B → S) (iouThreshold : S) (detections : List D) : List D :=
  if detections.isEmpty then detections
  else
    CvInference.suppressionLoop (CvInference.exceeds bbox iou iouThreshold) (std.sort detections)

end

namespace CvInference

section
variable {D : Type*} {overlaps : D → D → Bool} {detections : List D}

@[simp] theorem suppressIf_length (d : D) (suppressed : List Bool) (row : D × ℕ) :
    (suppressIf overlaps d suppressed row).length = suppressed.length := by
  unfold suppressIf
  split
  · rfl
  · split
    · exact List.length_set
    · rfl

theorem foldl_suppressIf_length (d : D) (rows : List (D × ℕ)) (suppressed : List Bool) :
    (rows.foldl (suppressIf overlaps d) suppressed).length = suppressed.length := by
  induction rows generalizing suppressed with
  | nil => rfl
  | cons row rows ih => rw [List.foldl_cons, ih, suppressIf_length]

/-- A turn sets the flag of its detection if the boxes overlap, and no other. -/
theorem suppressIf_getD {d : D} {suppressed : List Bool} {row : D × ℕ} (j : ℕ)
    (hrow : row.2 < suppressed.length) :
    (suppressIf overlaps d suppressed row).getD j false =
      (suppressed.getD j false || decide (row.2 = j) && overlaps d row.1) := by
  unfold suppressIf
  by_cases hj : row.2 = j
  · subst hj
    split
    case isTrue hset => rw [hset, Bool.true_or]
    case isFalse hunset =>
      rw [Bool.eq_false_iff.mpr hunset]
      split
      case isTrue hover => simp [hrow, hover]
      case isFalse hover => rw [Bool.eq_false_iff.mpr hover, Bool.and_false, Bool.or_false,
        Bool.eq_false_iff.mpr hunset]
  · split
    · simp [hj]
    · split <;> simp [hj]

theorem foldl_suppressIf_getD {d : D} (j : ℕ) (rows : List (D × ℕ)) (suppressed : List Bool)
    (hrows : ∀ row ∈ rows, row.2 < suppressed.length) :
    (rows.foldl (suppressIf overlaps d) suppressed).getD j false =
      (suppressed.getD j false || rows.any fun row => decide (row.2 = j) && overlaps d row.1) := by
  induction rows generalizing suppressed with
  | nil => simp
  | cons row rows ih =>
    rw [List.foldl_cons, ih, suppressIf_getD j (hrows row List.mem_cons_self), List.any_cons,
      Bool.or_assoc]
    intro r hr
    rw [suppressIf_length]
    exact hrows r (List.mem_cons_of_mem _ hr)

theorem suppressLater_getD {i j : ℕ} {d e : D} {suppressed : List Bool} (hij : i < j)
    (hlen : suppressed.length = detections.length) (he : detections[j]? = some e) :
    (suppressLater overlaps detections i d suppressed).getD j false =
      (suppressed.getD j false || overlaps d e) := by
  -- the inner loop sees every later detection with its own index, and so sets each flag at most once
  have hmem : ∀ row ∈ (detections.drop (i + 1)).zipIdx (i + 1), detections[row.2]? = some row.1 := by
    rintro ⟨x, k⟩ hrow
    obtain ⟨hk, hx⟩ := List.mk_mem_zipIdx_iff_le_and_getElem?_sub.mp hrow
    rwa [List.getElem?_drop, Nat.add_sub_cancel' hk] at hx
  have hlater : (e, j) ∈ (detections.drop (i + 1)).zipIdx (i + 1) := by
    rw [List.mk_mem_zipIdx_iff_le_and_getElem?_sub, List.getElem?_drop, Nat.add_sub_cancel' hij]
    exact ⟨hij, he⟩
  have hany : (((detections.drop (i + 1)).zipIdx (i + 1)).any fun row =>
      decide (row.2 = j) && overlaps d row.1) = overlaps d e := by
    rw [Bool.eq_iff_iff, List.any_eq_true]
    constructor
    · rintro ⟨⟨x, k⟩, hrow, hboth⟩
      obtain ⟨hkj, hover⟩ := (Bool.and_eq_true _ _).mp hboth
      obtain rfl : k = j := of_decide_eq_true hkj
      obtain rfl : e = x := Option.some.inj (he.symm.trans (hmem _ hrow))
      exact hover
    · intro hover
      exact ⟨(e, j), hlater, by simpa using hover⟩
  rw [suppressLater, foldl_suppressIf_getD, hany]
  intro row hrow
  rw [hlen]
  exact (List.getElem?_eq_some_iff.mp (hmem row hrow)).1

/-- After the first entries: those that stay, and the flags of the others. -/
structure Flagged (overlaps : D → D → Bool) (detections done : List D)
    (s : List D × List Bool) : Prop where
  keep : s.1 = Greedy.keep overlaps done
  length : s.2.length = detections.length
  flags : ∀ j e, done.length ≤ j → detections[j]? = some e →
    s.2.getD j false = s.1.any (overlaps · e)

theorem Flagged.turn {done rest : List D} {d : D} {s : List D × List Bool}
    (hs : Flagged overlaps detections done s) (hsplit : done ++ d :: rest = detections) :
    Flagged overlaps detections (done ++ [d])
      (keepUnlessSuppressed overlaps detections s (d, done.length)) := by
  have hd : detections[done.length]? = some d := by
    rw [← hsplit, List.getElem?_append_right (le_refl _), Nat.sub_self, List.getElem?_cons_zero]
  have hflag := hs.flags done.length d (le_refl _) hd
  unfold keepUnlessSuppressed
  dsimp only
  rw [hflag]
  split
  -- `d` was suppressed: the flags stay as they are
  case isTrue hgone =>
    refine ⟨?_, hs.length, fun j e hj he => hs.flags j e ?_ he⟩
    · rw [Greedy.keep_append, Greedy.join, ← hs.keep, if_pos hgone]
    · rw [List.length_append] at hj
      omega
  -- `d` is kept: its own overlaps are added to the flags
  case isFalse hstays =>
    refine ⟨?_, ?_, fun j e hj he => ?_⟩
    · rw [Greedy.keep_append, Greedy.join, ← hs.keep, if_neg hstays]
    · rw [suppressLater, foldl_suppressIf_length, hs.length]
    · rw [List.length_append, List.length_singleton] at hj
      rw [suppressLater_getD (by omega) hs.length he, hs.flags j e (by omega) he]
      simp

theorem suppressionLoop_eq (overlaps : D → D → Bool) (detections : List D) :
    suppressionLoop overlaps detections = Greedy.keep overlaps detections := by
  -- by induction on what is still to come, with `Flagged` as the invariant
  have hloop : ∀ (rest done : List D) (s : List D × List Bool), done ++ rest = detections →
      Flagged overlaps detections done s →
      ((rest.zipIdx done.length).foldl (keepUnlessSuppressed overlaps detections) s).1 =
        Greedy.keep overlaps detections := by
    intro rest
    induction rest with
    | nil =>
      intro done s hsplit hs
      rw [← hsplit, List.append_nil]
      exact hs.keep
    | cons d rest ih =>
      intro done s hsplit hs
      have hnext := ih (done ++ [d]) _ (by simpa using hsplit) (hs.turn hsplit)
      rw [List.length_append, List.length_singleton] at hnext
      exact hnext
  apply hloop detections [] _ (List.nil_append _)
  refine ⟨rfl, List.length_replicate, fun j e _ he => ?_⟩
  obtain ⟨hj, -⟩ := List.getElem?_eq_some_iff.mp he
  simp [hj]

end

section
variable {D B F S : Type*} [LinearOrder F] [LT S] [DecidableLT S] {confidence : D → F} {bbox : D → B}
  {iou : B → B → S} {iouThreshold : S} {detections : List D}

/-- What the suppression promises: the rest is a part of the input, sorted by confidence, without
two detections that overlap, and what was removed overlaps with one that is kept and has at least
its confidence. -/
structure SuppressedFrom (confidence : D → F) (bbox : D → B) (iou : B → B → S) (iouThreshold : S)
    (kept detections : List D) : Prop where
  sorted : kept.Pairwise fun a b => confidence b ≤ confidence a
  apart : kept.Pairwise fun a b =>
    ¬ iouThreshold < iou (bbox a) (bbox b) ∧ ¬ iouThreshold < iou (bbox b) (bbox a)
  removed : ∃ removed, (kept ++ removed).Perm detections ∧
    ∀ d ∈ removed, ∃ k ∈ kept, iouThreshold < iou (bbox k) (bbox d) ∧ confidence d ≤ confidence k

abbrev sortByConfidence (confidence : D → F) (detections : List D) : List D :=
  detections.insertionSort fun a b => confidence b ≤ confidence a

theorem sortByConfidence_sorted (confidence : D → F) (detections : List D) :
    (sortByConfidence confidence detections).Pairwise fun a b => confidence b ≤ confidence a := by
  have : Std.Total fun a b : D => confidence b ≤ confidence a :=
    ⟨fun a b => le_total (confidence b) (confidence a)⟩
  have : IsTrans D fun a b => confidence b ≤ confidence a := ⟨fun _ _ _ hab hbc => hbc.trans hab⟩
  exact List.pairwise_insertionSort _ detections

/-- A sort by distinct confidences has one result. -/
theorem sorted_unique {l l' : List D} (hperm : l.Perm l')
    (h : l.Pairwise fun a b => confidence b ≤ confidence a)
    (h' : l'.Pairwise fun a b => confidence b ≤ confidence a)
    (hdistinct : (l.map confidence).Nodup) : l = l' := by
  apply hperm.eq_of_pairwise ?_ h h'
  intro a b ha hb hba hab
  exact List.inj_on_of_nodup_map hdistinct ha (hperm.mem_iff.mpr hb) (le_antisymm hab hba)

theorem nonMaxSuppression_eq : nonMaxSuppression confidence bbox iou iouThreshold detections =
    Greedy.keep (exceeds bbox iou iouThreshold) (sortByConfidence confidence detections) := by
  cases detections with
  | nil => rfl
  | cons d ds => exact suppressionLoop_eq _ _

theorem nonMaxSuppression_cpp_eq (std : RknnBridge.StdSort confidence) :
    RknnBridge.nonMaxSuppression std bbox iou iouThreshold detections =
      Greedy.keep (exceeds bbox iou iouThreshold) (std.sort detections) := by
  cases detections with
  | nil =>
    rw [List.perm_nil.mp (std.perm [])]
    rfl
  | cons d ds => exact suppressionLoop_eq _ _

theorem suppressedFrom (hsymm : ∀ a b, iou a b = iou b a) :
    SuppressedFrom confidence bbox iou iouThreshold
      (nonMaxSuppression confidence bbox iou iouThreshold detections) detections := by
  rw [nonMaxSuppression_eq]
  have hselected : Greedy.Selected (exceeds bbox iou iouThreshold) _ _ _ :=
    Greedy.keep_selected (sortByConfidence_sorted confidence detections)
  obtain ⟨hsorted, hapart, removed, hperm, hremoved⟩ := hselected
  refine ⟨hsorted, hapart.imp fun {a b} hab => ?_, removed,
    hperm.trans (List.perm_insertionSort _ _), fun d hd => ?_⟩
  · have hlow : ¬ iouThreshold < iou (bbox a) (bbox b) := of_decide_eq_false hab
    exact ⟨hlow, hsymm (bbox a) (bbox b) ▸ hlow⟩
  · obtain ⟨k, hk, hover, hle⟩ := hremoved d hd
    exact ⟨k, hk, of_decide_eq_true hover, hle⟩

/-- What the suppression leaves, it leaves alone. -/
theorem nonMaxSuppression_idem (hkept : SuppressedFrom confidence bbox iou iouThreshold
      (nonMaxSuppression confidence bbox iou iouThreshold detections) detections) :
    nonMaxSuppression confidence bbox iou iouThreshold
        (nonMaxSuppression confidence bbox iou iouThreshold detections) =
      nonMaxSuppression confidence bbox iou iouThreshold detections := by
  generalize nonMaxSuppression confidence bbox iou iouThreshold detections = kept at hkept ⊢
  rw [nonMaxSuppression_eq, sortByConfidence, hkept.sorted.insertionSort_eq]
  exact Greedy.keep_eq_self (hkept.apart.imp fun hab => decide_eq_false hab.1)

/-- With distinct confidences the order of the input makes no difference, nor does the sort. -/
theorem nonMaxSuppression_unique (hdistinct : (detections.map confidence).Nodup)
    {sorted : List D} (hperm : sorted.Perm detections)
    (hsorted : sorted.Pairwise fun a b => confidence b ≤ confidence a) :
    Greedy.keep (exceeds bbox iou iouThreshold) sorted =
      nonMaxSuppression confidence bbox iou iouThreshold detections := by
  rw [nonMaxSuppression_eq, sorted_unique (hperm.trans (List.perm_insertionSort _ _).symm) hsorted
    (sortByConfidence_sorted confidence detections)]
  exact (hperm.map confidence).nodup_iff.mpr hdistinct

/-- Whatever symmetric overlap the boxes have, `non_max_suppression` keeps what it promises, does
nothing more a second time, and does not depend on the order or on the sort where all confidences
are distinct. -/
theorem nonMaxSuppression_spec (confidence : D → F) (bbox : D → B) (iou : B → B → S)
    (hsymm : ∀ a b, iou a b = iou b a) (iouThreshold : S) (detections : List D) :
    SuppressedFrom confidence bbox iou iouThreshold
        (nonMaxSuppression confidence bbox iou iouThreshold detections) detections ∧
      nonMaxSuppression confidence bbox iou iouThreshold
          (nonMaxSuppression confidence bbox iou iouThreshold detections) =
        nonMaxSuppression confidence bbox iou iouThreshold detections ∧
      ((detections.map confidence).Nodup →
        (∀ shuffled, shuffled.Perm detections →
          nonMaxSuppression confidence bbox iou iouThreshold shuffled =
            nonMaxSuppression confidence bbox iou iouThreshold detections) ∧
        ∀ std : RknnBridge.StdSort confidence,
          RknnBridge.nonMaxSuppression std bbox iou iouThreshold detections =
            nonMaxSuppression confidence bbox iou iouThreshold detections) := by
  have hkept : SuppressedFrom confidence bbox iou iouThreshold
      (nonMaxSuppression confidence bbox iou iouThreshold detections) detections :=
    suppressedFrom hsymm
  refine ⟨hkept, nonMaxSuppression_idem hkept, fun hdistinct => ⟨fun shuffled hperm => ?_,
    fun std => ?_⟩⟩
  · rw [nonMaxSuppression_eq]
    exact nonMaxSuppression_unique hdistinct ((List.perm_insertionSort _ _).trans hperm)
      (sortByConfidence_sorted confidence shuffled)
  · rw [nonMaxSuppression_cpp_eq]
    exact nonMaxSuppression_unique hdistinct (std.perm detections) (std.sorted detections)

end

/-- Two detections that overlap, and one apart from them. -/
def threeDetections : List Yolo.Detection :=
  [⟨⟨105, 105, 50, 50⟩, "person", 0, 7 / 10, 1, 0⟩, ⟨⟨100, 100, 50, 50⟩, "person", 0, 9 / 10, 1, 0⟩,
    ⟨⟨500, 500, 50, 50⟩, "person", 0, 8 / 10, 1, 0⟩]

example : (nonMaxSuppression Yolo.Detection.confidence Yolo.Detection.bbox (Tracker.iou id)
    (9 / 20) threeDetections).map (·.confidence) = [9 / 10, 8 / 10] := by decide +kernel

theorem nonMaxSuppression_spec_three :
    SuppressedFrom Yolo.Detection.confidence Yolo.Detection.bbox (Tracker.iou id) (9 / 20)
      (nonMaxSuppression Yolo.Detection.confidence Yolo.Detection.bbox (Tracker.iou id) (9 / 20)
        threeDetections) threeDetections ∧
    ∀ std : RknnBridge.StdSort Yolo.Detection.confidence,
      RknnBridge.nonMaxSuppression std Yolo.Detection.bbox (Tracker.iou id) (9 / 20)
          threeDetections =
        nonMaxSuppression Yolo.Detection.confidence Yolo.Detection.bbox (Tracker.iou id) (9 / 20)
          threeDetections := by
  have hspec := nonMaxSuppression_spec Yolo.Detection.confidence Yolo.Detection.bbox
    (Tracker.iou id) (iou_comm id) (9 / 20) threeDetections
  exact ⟨hspec.1, (hspec.2.2 (by decide +kernel)).2⟩

end CvInference

end AutoTargeting
