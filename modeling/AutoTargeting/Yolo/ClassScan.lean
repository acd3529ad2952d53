import AutoTargeting.Library.BinaryOrder
import AutoTargeting.Library.Buffers
import AutoTargeting.Library.RunningMax
import AutoTargeting.Yolo.Postprocess
import Mathlib.Data.List.GetD

namespace AutoTargeting.Yolo

open Binary RunningMax

-- The class scan of `postprocess` on the `f32` words themselves, row after row over two arrays. A
-- `none` is a panic.

/-- `class_rows`: the scores of one class after those of another. -/
structure ScoreMatrix where
  numClasses : UInt32
  numAnchors : ℕ
  classRows : List UInt32
  size : classRows.length = numClasses.toNat * numAnchors

/-- `&output[4 * num_anchors..rows * num_anchors]`, of an output of the length that is asserted. -/
def ScoreMatrix.ofOutput (output : List UInt32) (numClasses : UInt32) (numAnchors : ℕ)
    (hlen : output.length = (4 + numClasses.toNat) * numAnchors) : ScoreMatrix where
  numClasses := numClasses
  numAnchors := numAnchors
  classRows := output.drop (4 * numAnchors)
  size := by rw [List.length_drop, hlen, Nat.add_mul, Nat.add_sub_cancel_left]

structure BestArrays where
  bestScore : List UInt32
  bestId : List UInt32
  deriving DecidableEq

/-- An anchor before the first class. -/
def noClass : Leader UInt32 UInt32 := ⟨f32NegInfinity, 0⟩

/-- The score `s` of class `c` at anchor `a`. -/
def visit (c : UInt32) (st : BestArrays) : UInt32 × ℕ → Option BestArrays
  | (s, a) => do
    let best ← st.bestScore[a]?
    if f32Less best s then
      return ⟨← Buffers.setAt a s st.bestScore, ← Buffers.setAt a c st.bestId⟩
    else
      return st

namespace ScoreMatrix

variable (m : ScoreMatrix)

/-- `&class_rows[c * num_anchors..(c + 1) * num_anchors]`. -/
def row (c : ℕ) : Option (List UInt32) :=
  if (c + 1) * m.numAnchors ≤ m.classRows.length then
    some ((m.classRows.drop (c * m.numAnchors)).take m.numAnchors)
  else none

/-- One turn of the outer loop. -/
def scanRow (st : BestArrays) (c : ℕ) : Option BestArrays := do
  let row ← m.row c
  row.zipIdx.foldlM (visit (UInt32.ofNat c)) st

/-- `best_score` and `best_id` after the scan. -/
def classScan : Option BestArrays :=
  (List.range m.numClasses.toNat).foldlM m.scanRow
    ⟨List.replicate m.numAnchors f32NegInfinity, List.replicate m.numAnchors 0⟩

def score (c a : ℕ) : UInt32 := m.classRows.getD (c * m.numAnchors + a) 0

/-- The classes of one anchor, one after the other. -/
def anchorScan (a : ℕ) : Leader UInt32 UInt32 :=
  scan f32Less noClass UInt32.ofNat (fun c => m.score c a) m.numClasses.toNat

end ScoreMatrix

/-- A number below another one of 32 bits is cast without loss. -/
theorem toNat_ofNat_of_lt {n : UInt32} {c : ℕ} (hc : c < n.toNat) : (UInt32.ofNat c).toNat = c :=
  UInt32.toNat_ofNat_of_lt' (hc.trans n.toNat_lt)

def BestArrays.ofAnchors (n : ℕ) (best : ℕ → Leader UInt32 UInt32) : BestArrays :=
  ⟨(List.range n).map fun a => (best a).value, (List.range n).map fun a => (best a).label⟩

theorem ofAnchors_update (n a : ℕ) (best : ℕ → Leader UInt32 UInt32) (b : Leader UInt32 UInt32) :
    BestArrays.ofAnchors n (Function.update best a b) =
      ⟨(List.range n).map (Function.update (fun i => (best i).value) a b.value),
        (List.range n).map (Function.update (fun i => (best i).label) a b.label)⟩ := by
  have hvalue := Function.comp_update Leader.value best a b
  have hlabel := Function.comp_update Leader.label best a b
  exact congrArg₂ (fun f g => BestArrays.mk ((List.range n).map f) ((List.range n).map g))
    hvalue hlabel

theorem ofAnchors_congr {n : ℕ} {best best' : ℕ → Leader UInt32 UInt32}
    (h : ∀ a < n, best a = best' a) :
    BestArrays.ofAnchors n best = BestArrays.ofAnchors n best' := by
  have hvalue : (List.range n).map (fun a => (best a).value) =
      (List.range n).map fun a => (best' a).value :=
    List.map_congr_left fun a ha => congrArg Leader.value (h a (List.mem_range.mp ha))
  have hlabel : (List.range n).map (fun a => (best a).label) =
      (List.range n).map fun a => (best' a).label :=
    List.map_congr_left fun a ha => congrArg Leader.label (h a (List.mem_range.mp ha))
  rw [BestArrays.ofAnchors, hvalue, hlabel]
  rfl

namespace BestArrays

variable (n : ℕ) (best : ℕ → Leader UInt32 UInt32)

@[simp] theorem length_bestScore : (ofAnchors n best).bestScore.length = n := by
  simp [ofAnchors]

@[simp] theorem length_bestId : (ofAnchors n best).bestId.length = n := by
  simp [ofAnchors]

variable {n} {a : ℕ}

@[simp] theorem getElem?_bestScore (ha : a < n) :
    (ofAnchors n best).bestScore[a]? = some (best a).value := by
  rw [ofAnchors, List.getElem?_map, List.getElem?_range ha, Option.map_some]

@[simp] theorem getElem?_bestId (ha : a < n) :
    (ofAnchors n best).bestId[a]? = some (best a).label := by
  rw [ofAnchors, List.getElem?_map, List.getElem?_range ha, Option.map_some]

end BestArrays

/-- One step of the inner loop is one step of the anchor's own scan. -/
theorem visit_ofAnchors {n a : ℕ} (c s : UInt32) (ha : a < n) (best : ℕ → Leader UInt32 UInt32) :
    visit c (.ofAnchors n best) (s, a) =
      some (.ofAnchors n (Function.update best a ((best a).pick f32Less c s))) := by
  simp only [visit, BestArrays.getElem?_bestScore best ha, Option.bind_eq_bind, Option.bind_some]
  by_cases hless : f32Less (best a).value s = true
  · rw [if_pos hless, Leader.pick, if_pos hless, ofAnchors_update, BestArrays.ofAnchors]
    dsimp only
    rw [Buffers.setAt_map_range ha, Option.bind_some, Buffers.setAt_map_range ha]
    rfl
  · rw [if_neg hless, Leader.pick, if_neg hless, Function.update_eq_self]
    rfl

namespace ScoreMatrix

variable {m : ScoreMatrix}

theorem score_ofOutput {output : List UInt32} {numClasses : UInt32} {numAnchors : ℕ}
    (hlen : output.length = (4 + numClasses.toNat) * numAnchors) (c a : ℕ) :
    (ofOutput output numClasses numAnchors hlen).score c a =
      output.getD ((4 + c) * numAnchors + a) 0 := by
  rw [score, ofOutput, List.getD_eq_getElem?_getD, List.getD_eq_getElem?_getD,
    List.getElem?_drop, Nat.add_mul, Nat.add_assoc]

theorem row_end {c : ℕ} (hc : c < m.numClasses.toNat) :
    c * m.numAnchors + m.numAnchors ≤ m.classRows.length := by
  rw [m.size, ← Nat.succ_mul]
  exact Nat.mul_le_mul_right _ hc

theorem row_eq {c : ℕ} (hc : c < m.numClasses.toNat) :
    m.row c = some ((List.range m.numAnchors).map (m.score c)) := by
  have hend := row_end hc
  rw [row, if_pos (by rwa [Nat.succ_mul])]
  refine congrArg some (List.ext_getElem? fun a => ?_)
  by_cases ha : a < m.numAnchors
  · rw [List.getElem?_take_of_lt ha, List.getElem?_drop, List.getElem?_map,
      List.getElem?_range ha, Option.map_some, score, List.getD_eq_getElem?_getD,
      List.getElem?_eq_getElem (by omega), Option.getD_some]
  · rw [List.getElem?_eq_none, List.getElem?_eq_none]
    · simpa using ha
    · rw [List.length_take]
      omega

theorem scanRow_ofAnchors {c : ℕ} (hc : c < m.numClasses.toNat)
    (best : ℕ → Leader UInt32 UInt32) :
    m.scanRow (.ofAnchors m.numAnchors best) c =
      some (.ofAnchors m.numAnchors fun a =>
        (best a).pick f32Less (UInt32.ofNat c) (m.score c a)) := by
  have hlen : ((List.range m.numAnchors).map (m.score c)).length ≤ m.numAnchors := by simp
  rw [scanRow, row_eq hc, Option.bind_eq_bind, Option.bind_some,
    Buffers.foldlM_zipIdx (f := fun b s => b.pick f32Less (UInt32.ofNat c) s)
      (fun b s a ha => visit_ofAnchors (UInt32.ofNat c) s ha b) hlen]
  refine congrArg some (ofAnchors_congr fun a ha => ?_)
  rw [List.getElem?_map, List.getElem?_range ha]
  rfl

/-- After `n` rows every anchor has seen its first `n` classes. -/
theorem scanRows (n : ℕ) (hn : n ≤ m.numClasses.toNat) :
    (List.range n).foldlM m.scanRow
        ⟨List.replicate m.numAnchors f32NegInfinity, List.replicate m.numAnchors 0⟩ =
      some (.ofAnchors m.numAnchors fun a =>
        scan f32Less noClass UInt32.ofNat (fun c => m.score c a) n) := by
  induction n with
  | zero =>
    rw [BestArrays.ofAnchors]
    simp only [scan, List.range_zero, List.foldl_nil, List.map_const', List.length_range]
    rfl
  | succ n ih =>
    rw [List.range_succ, List.foldlM_append, ih (by omega), Option.bind_eq_bind, Option.bind_some,
      List.foldlM_cons, scanRow_ofAnchors hn]
    simp only [scan_succ]
    rfl

/-- The scan by rows does not panic, and leaves for each anchor what a scan of the anchor does. -/
theorem classScan_eq (m : ScoreMatrix) :
    m.classScan = some (.ofAnchors m.numAnchors m.anchorScan) := scanRows _ le_rfl

/-- Two zeros, of which the first is kept; an anchor without a score; a greater score. -/
example : (ScoreMatrix.mk 2 3 [0x80000000, 0xFF800000, 0, 0, 0xFF800000, 0x3F800000] rfl).classScan =
    some ⟨[0x80000000, 0xFF800000, 0x3F800000], [0, 0, 1]⟩ := by decide +kernel

theorem score_mem {c a : ℕ} (hc : c < m.numClasses.toNat) (ha : a < m.numAnchors) :
    m.score c a ∈ m.classRows := by
  have hend := row_end hc
  rw [score, List.getD_eq_getElem _ _ (by omega)]
  exact List.getElem_mem _

/-- Of scores without a NaN the scan takes the first maximum. Where all are minus infinity, the
start is the score of class 0. -/
theorem anchorScan_firstMax (hclasses : 1 ≤ m.numClasses)
    (hnan : ∀ s ∈ m.classRows, f32IsNaN s = false) {a : ℕ} (ha : a < m.numAnchors) :
    ∃ id : UInt32, FirstMax f32Value (fun c => m.score c a) m.numClasses.toNat id.toNat ∧
      m.anchorScan a = ⟨m.score id.toNat a, id⟩ := by
  have hpos : 0 < m.numClasses.toNat := UInt32.le_iff_toNat_le.mp hclasses
  have hscore : ∀ c < m.numClasses.toNat, f32IsNaN (m.score c a) = false :=
    fun c hc => hnan _ (score_mem hc ha)
  have hless : ∀ c < m.numClasses.toNat, ∀ d < m.numClasses.toNat,
      f32Less (m.score c a) (m.score d a) = true ↔
        f32Value (m.score c a) < f32Value (m.score d a) :=
    fun c hc d hd => f32Less_iff (hscore c hc) (hscore d hd)
  have hstart : f32Less noClass.value (m.score 0 a) = false →
      noClass = ⟨m.score 0 a, UInt32.ofNat 0⟩ := by
    intro h
    rw [eq_f32NegInfinity (hscore 0 hpos) h]
    rfl
  obtain ⟨c, hfirst, hscan⟩ := scan_firstMax hpos hless hstart
  have hc : (UInt32.ofNat c).toNat = c := toNat_ofNat_of_lt hfirst.lt
  refine ⟨UInt32.ofNat c, ?_, ?_⟩
  · rwa [hc]
  · rwa [hc]

end ScoreMatrix

end AutoTargeting.Yolo
