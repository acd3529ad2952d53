import AutoTargeting.Yolo.ClassScan
import AutoTargeting.Yolo.RknnInfer

namespace AutoTargeting.Yolo

open Binary RunningMax

namespace RknnBackend

/-- The `float` output of the model, once its shape has passed the check before the scan. -/
structure Output where
  rows : UInt32
  anchors : UInt32
  floats : List UInt32
  size : floats.length = rows.toNat * anchors.toNat
  parsed : ¬ (rows < 5 ∨ anchors = 0)

namespace Output

def nc (o : Output) : UInt32 := o.rows - 4

/-- `sigmoid(f[(4 + c) * anchors + a])`, the index in 32 bits. -/
def score (sigmoid : UInt32 → UInt32) (o : Output) (c a : UInt32) : UInt32 :=
  sigmoid (o.floats.getD ((4 + c) * o.anchors + a).toNat 0)

def bestClass (sigmoid : UInt32 → UInt32) (o : Output) (a : UInt32) : Leader UInt32 UInt32 :=
  (List.range o.nc.toNat).foldl
    (fun b c => b.pick f32Less (UInt32.ofNat c) (o.score sigmoid (UInt32.ofNat c) a))
    ⟨f32NegInfinity, 0⟩

variable {sigmoid : UInt32 → UInt32} {o : Output} {c a : UInt32}

theorem rows_eq (o : Output) : o.rows.toNat = 4 + o.nc.toNat := by
  have hrows : (4 : UInt32) ≤ o.rows := by
    have hfive : ¬ o.rows < 5 := fun h => o.parsed (.inl h)
    rw [UInt32.lt_iff_toNat_lt] at hfive
    rw [UInt32.le_iff_toNat_le]
    change ¬ o.rows.toNat < 5 at hfive
    change 4 ≤ o.rows.toNat
    omega
  have hsub := UInt32.toNat_sub_of_le _ _ hrows
  have hle := UInt32.le_iff_toNat_le.mp hrows
  change o.rows.toNat = 4 + (o.rows - 4).toNat
  rw [hsub]
  exact (Nat.add_sub_cancel' hle).symm

theorem entry_lt (hc : c < o.nc) (ha : a < o.anchors) :
    (4 + c.toNat) * o.anchors.toNat + a.toNat < o.floats.length := by
  have hc : c.toNat < o.nc.toNat := UInt32.lt_iff_toNat_lt.mp hc
  have ha : a.toNat < o.anchors.toNat := UInt32.lt_iff_toNat_lt.mp ha
  have hrow : (4 + c.toNat + 1) * o.anchors.toNat ≤ (4 + o.nc.toNat) * o.anchors.toNat :=
    Nat.mul_le_mul_right _ (by omega)
  rw [Nat.succ_mul] at hrow
  rw [o.size, o.rows_eq]
  omega

theorem index_eq (o : Output) (c a : UInt32) : ((4 + c) * o.anchors + a).toNat =
    ((4 + c.toNat) * o.anchors.toNat + a.toNat) % 2 ^ 32 := by
  rw [UInt32.toNat_add, UInt32.toNat_mul, UInt32.toNat_add, Nat.mod_add_mod, Nat.add_mod,
    Nat.mod_mul_mod, ← Nat.add_mod]
  rfl

/-- Where the tensor's entries can be counted in 32 bits, it is the one that is meant. -/
theorem score_eq (hc : c < o.nc) (ha : a < o.anchors) (hsize : o.floats.length ≤ 2 ^ 32) :
    o.score sigmoid c a =
      sigmoid (o.floats.getD ((4 + c.toNat) * o.anchors.toNat + a.toNat) 0) := by
  rw [score, index_eq, Nat.mod_eq_of_lt ((entry_lt hc ha).trans_le hsize)]

end Output

end RknnBackend

/-- The scores after the sigmoid are those of the matrix. -/
structure SameScores (sigmoid : UInt32 → UInt32) (o : RknnBackend.Output) (m : ScoreMatrix) :
    Prop where
  classes : o.nc = m.numClasses
  anchors : o.anchors.toNat = m.numAnchors
  scores : ∀ c < m.numClasses.toNat, ∀ a < m.numAnchors,
    o.score sigmoid (.ofNat c) (.ofNat a) = m.score c a

variable {sigmoid : UInt32 → UInt32} {o : RknnBackend.Output} {m : ScoreMatrix}

theorem SameScores.of_entries (hclasses : o.nc = m.numClasses)
    (hanchors : o.anchors.toNat = m.numAnchors) (hsize : o.floats.length ≤ 2 ^ 32)
    (hentries : ∀ c < m.numClasses.toNat, ∀ a < m.numAnchors,
      sigmoid (o.floats.getD ((4 + c) * m.numAnchors + a) 0) = m.score c a) :
    SameScores sigmoid o m := by
  refine ⟨hclasses, hanchors, fun c hc a ha => ?_⟩
  have hc' : (UInt32.ofNat c).toNat = c := toNat_ofNat_of_lt hc
  have ha' : (UInt32.ofNat a).toNat = a := toNat_ofNat_of_lt (hanchors.symm ▸ ha)
  have hclass : UInt32.ofNat c < o.nc := by rwa [UInt32.lt_iff_toNat_lt, hc', hclasses]
  have hanchor : UInt32.ofNat a < o.anchors := by rwa [UInt32.lt_iff_toNat_lt, ha', hanchors]
  rw [RknnBackend.Output.score_eq hclass hanchor hsize, hc', ha', hanchors, hentries c hc a ha]

/-- Two outputs of which one is the other after the sigmoid, class scores alone. -/
theorem SameScores.of_output {output : List UInt32} {numClasses : UInt32} {numAnchors : ℕ}
    (hlen : output.length = (4 + numClasses.toNat) * numAnchors) (hclasses : o.nc = numClasses)
    (hanchors : o.anchors.toNat = numAnchors) (hsize : o.floats.length ≤ 2 ^ 32)
    (hentries : ∀ i < output.length, 4 * numAnchors ≤ i →
      sigmoid (o.floats.getD i 0) = output.getD i 0) :
    SameScores sigmoid o (.ofOutput output numClasses numAnchors hlen) := by
  apply SameScores.of_entries hclasses hanchors hsize
  intro c (hc : c < numClasses.toNat) a (ha : a < numAnchors)
  change sigmoid (o.floats.getD ((4 + c) * numAnchors + a) 0) = _
  have hrow : 4 * numAnchors ≤ (4 + c) * numAnchors + a := by
    rw [Nat.add_mul]
    omega
  have hnext : (4 + c + 1) * numAnchors ≤ (4 + numClasses.toNat) * numAnchors :=
    Nat.mul_le_mul_right _ (Nat.add_lt_add_left hc 4)
  rw [Nat.succ_mul] at hnext
  rw [ScoreMatrix.score_ofOutput]
  exact hentries _ (by omega) hrow

theorem bestClass_eq_anchorScan (h : SameScores sigmoid o m) {a : ℕ} (ha : a < m.numAnchors) :
    o.bestClass sigmoid (.ofNat a) = m.anchorScan a := by
  rw [RknnBackend.Output.bestClass, ScoreMatrix.anchorScan, scan, h.classes]
  apply List.foldl_ext
  intro b c hc
  rw [h.scores c (List.mem_range.mp hc) a ha]

/-- The scan by rows leaves for each anchor the greatest score and the first class that has it,
which is what the scan by anchors finds where its scores are the same. -/
theorem class_scan_agrees (m : ScoreMatrix) (hclasses : 1 ≤ m.numClasses)
    (hnan : ∀ s ∈ m.classRows, f32IsNaN s = false) :
    ∃ st, m.classScan = some st ∧
      st.bestScore.length = m.numAnchors ∧ st.bestId.length = m.numAnchors ∧
      ∀ a < m.numAnchors,
        (∃ id : UInt32, FirstMax f32Value (fun c => m.score c a) m.numClasses.toNat id.toNat ∧
          st.bestScore[a]? = some (m.score id.toNat a) ∧ st.bestId[a]? = some id) ∧
        ∀ (sigmoid : UInt32 → UInt32) (o : RknnBackend.Output), SameScores sigmoid o m →
          st.bestScore[a]? = some (o.bestClass sigmoid (.ofNat a)).value ∧
            st.bestId[a]? = some (o.bestClass sigmoid (.ofNat a)).label := by
  refine ⟨_, m.classScan_eq, BestArrays.length_bestScore _ _, BestArrays.length_bestId _ _,
    fun a ha => ?_⟩
  rw [BestArrays.getElem?_bestScore _ ha, BestArrays.getElem?_bestId _ ha]
  constructor
  · obtain ⟨id, hfirst, hscan⟩ := ScoreMatrix.anchorScan_firstMax hclasses hnan ha
    rw [hscan]
    exact ⟨id, hfirst, rfl, rfl⟩
  · intro sigmoid o h
    rw [bestClass_eq_anchorScan h ha]
    exact ⟨rfl, rfl⟩

/-- At the second anchor the second class is the better one; at the first they are alike. -/
def twoByTwo : ScoreMatrix :=
  .ofOutput (List.replicate 8 0x3F000000 ++ [0x3F000000, 0, 0x3F000000, 0x3F800000]) 2 2 rfl

/-- The logits are 0 and infinities. -/
def twoByTwoLogits : RknnBackend.Output where
  rows := 6
  anchors := 2
  floats := List.replicate 8 0 ++ [0, 0xFF800000, 0, 0x7F800000]
  size := rfl
  parsed := by decide

/-- The sigmoid of 0 and of the infinities. -/
def sigmoidAtEnds (x : UInt32) : UInt32 :=
  if x = 0 then 0x3F000000 else if x = 0x7F800000 then 0x3F800000 else 0

theorem class_scan_agrees_twoByTwo : ∃ st, twoByTwo.classScan = some st ∧
    (∃ id : UInt32, FirstMax f32Value (fun c => twoByTwo.score c 1) 2 id.toNat ∧
      st.bestScore[1]? = some (twoByTwo.score id.toNat 1) ∧ st.bestId[1]? = some id) ∧
    st.bestScore[1]? = some (twoByTwoLogits.bestClass sigmoidAtEnds 1).value ∧
    st.bestId[1]? = some (twoByTwoLogits.bestClass sigmoidAtEnds 1).label := by
  have hsame : SameScores sigmoidAtEnds twoByTwoLogits twoByTwo :=
    .of_output rfl rfl rfl (by decide) (by decide)
  have hnumbers : twoByTwo.classRows.all (fun s => !f32IsNaN s) = true := by decide
  have hnan : ∀ s ∈ twoByTwo.classRows, f32IsNaN s = false := by
    intro s hs
    simpa using List.all_eq_true.mp hnumbers s hs
  obtain ⟨st, hscan, -, -, hst⟩ := class_scan_agrees twoByTwo (by decide) hnan
  obtain ⟨hfirst, hrknn⟩ := hst 1 (by decide)
  exact ⟨st, hscan, hfirst, hrknn sigmoidAtEnds twoByTwoLogits hsame⟩

end AutoTargeting.Yolo
