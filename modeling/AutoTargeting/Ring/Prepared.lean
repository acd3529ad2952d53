import AutoTargeting.Ring.Directory
import AutoTargeting.Ring.LayoutSafety
import Mathlib.Data.List.GetD

namespace AutoTargeting.Ring

open Bytes Runs

/-- The widths of the words of `BufferHeader`, with its padding. -/
def headerWidths : List ℕ := [4, 2, 2, 4, 4, 4, 4, 4, 4, 8, 8, 8, 4, 4]

/-- Which of them the stores of `write_header_init` change. -/
def headerOrder : List ℕ := [1, 3, 4, 5, 6, 7, 9, 10, 11, 12, 0]

namespace CreateCall

variable (c : CreateCall) {k : ℕ} {memory memory' : List UInt8}

/-- The words of the header after `k` stores. -/
def headerValues (k : ℕ) : List ℕ :=
  ((headerOrder.zip (c.headerWrites.map (·.2.2))).take k).foldl (fun values w => values.set w.1 w.2)
    (List.replicate headerWidths.length 0)

theorem headerWrites_eq : c.headerWrites =
    (headerOrder.zip (c.headerWrites.map (·.2.2))).map fun w =>
      ((headerWidths.take w.1).sum, headerWidths.getD w.1 0, w.2) := rfl

theorem headerWrites_fit : ∀ w ∈ headerOrder.zip (c.headerWrites.map (·.2.2)),
    ∃ hi : w.1 < headerWidths.length, w.2 < 256 ^ headerWidths[w.1] := by
  obtain ⟨hcap, hwidth, hheight, hformat, hsize⟩ := c.config.words_lt
  have hcreated : c.createdNs.toNat < 256 ^ 8 := c.createdNs.toNat_lt
  have hpid : c.pid.toNat < 256 ^ 4 := c.pid.toNat_lt
  simp only [headerOrder, headerWrites, List.map_cons, List.map_nil, List.zip_cons_cons,
    List.zip_nil_right, List.forall_mem_cons, List.not_mem_nil, false_imp_iff, implies_true,
    and_true]
  exact ⟨⟨by decide, by decide⟩, ⟨by decide, hcap⟩, ⟨by decide, hwidth⟩, ⟨by decide, hheight⟩,
    ⟨by decide, hformat⟩, ⟨by decide, hsize⟩, ⟨by decide, by decide⟩, ⟨by decide, by decide⟩,
    ⟨by decide, hcreated⟩, ⟨by decide, hpid⟩, ⟨by decide, by decide⟩⟩

/-- Stores at the places of words, one after the other. -/
theorem foldl_store (writes : List (ℕ × ℕ)) (rest : List UInt8) {values : List ℕ}
    (hvalues : Fit headerWidths values)
    (hfit : ∀ w ∈ writes, ∃ hi : w.1 < headerWidths.length, w.2 < 256 ^ headerWidths[w.1]) :
    Fit headerWidths (writes.foldl (fun values w => values.set w.1 w.2) values) ∧
    (writes.map fun w => ((headerWidths.take w.1).sum, headerWidths.getD w.1 0, w.2)).foldl
        (fun memory w => store memory w.1 w.2.1 w.2.2) (layOut headerWidths values ++ rest) =
      layOut headerWidths (writes.foldl (fun values w => values.set w.1 w.2) values) ++ rest := by
  induction writes generalizing values with
  | nil => exact ⟨hvalues, rfl⟩
  | cons w writes ih =>
    obtain ⟨⟨hi, hw⟩, hwrites⟩ := List.forall_mem_cons.mp hfit
    have hstore : store (layOut headerWidths values ++ rest) (headerWidths.take w.1).sum
        headerWidths[w.1] w.2 = layOut headerWidths (values.set w.1 w.2) ++ rest :=
      store_layOut hvalues hi
    rw [← List.getD_eq_getElem headerWidths 0 hi] at hstore
    simp only [List.map_cons, List.foldl_cons, hstore]
    exact ih (hvalues.set fun _ => hw) hwrites

theorem len_eq : c.len = headerWidths.sum + (c.len - 64) := by
  have : headerWidths.sum = 64 := rfl
  have : 64 ≤ c.len := by
    simp only [len, segmentSize, dataAreaOffset, sizeOfBufferHeader]
    omega
  omega

theorem fit_headerValues (k : ℕ) : Fit headerWidths (c.headerValues k) :=
  (foldl_store _ [] (fit_zero _) fun w hw => c.headerWrites_fit w (List.mem_of_mem_take hw)).1

theorem prepared_eq (k : ℕ) : c.prepared k =
    layOut headerWidths (c.headerValues k) ++ List.replicate (c.len - 64) 0 := by
  have hfold := (foldl_store _ (List.replicate (c.len - 64) 0) (fit_zero _) fun w hw =>
    c.headerWrites_fit w (List.mem_of_mem_take (i := k) hw)).2
  rw [layOut_zero, ← List.replicate_add, ← c.len_eq, List.map_take, ← c.headerWrites_eq] at hfold
  exact hfold

theorem length_prepared (k : ℕ) : (c.prepared k).length = c.len := by
  rw [prepared_eq, List.length_append, length_layOut (c.fit_headerValues k), List.length_replicate,
    ← c.len_eq]

theorem word_prepared (k : ℕ) {i : ℕ} (hi : i < headerWidths.length) :
    word (c.prepared k) (headerWidths.take i).sum headerWidths[i] = (c.headerValues k).getD i 0 := by
  rw [prepared_eq]
  exact word_layOut (c.fit_headerValues k) hi

/-- The magic is stored last. -/
theorem magic_prepared (hk : k < 11) : word (c.prepared k) 0 4 = 0 := by
  refine (c.word_prepared k (i := 0) (by decide)).trans ?_
  interval_cases k <;> rfl

theorem headerValues_full : c.headerValues 11 = [magic, layoutVersion, 0, c.config.capacity,
    c.config.width, c.config.height, c.config.format.code, c.config.frameSize, 0, 0, 0,
    c.createdNs.toNat, c.pid.toNat, 0] := rfl

/-- All the stores together make the segment that `init_raw` makes. -/
theorem prepared_full : c.prepared 11 =
    initSegment c.config c.createdNs.toNat c.pid.toNat := by
  rw [prepared_eq, headerValues_full]
  simp only [initSegment, headerInit, layOut, headerWidths, len, sizeOfBufferHeader,
    List.append_assoc, List.append_nil]

/-- An object whose header is not complete. -/
def Half (memory : List UInt8) : Prop := memory = [] ∨ ∃ k < 11, memory = c.prepared k

/-- A segment with its header. -/
def Whole (memory : List UInt8) : Prop :=
  memory.length = c.len ∧ memory.take 32 = (c.prepared 11).take 32

variable {c}

theorem Half.magic (h : c.Half memory) : word memory 0 4 = 0 := by
  rcases h with rfl | ⟨k, hk, rfl⟩
  · rfl
  · exact c.magic_prepared hk

theorem Whole.word (h : c.Whole memory) {i : ℕ} (hi : i < headerWidths.length)
    (hle : (headerWidths.take i).sum + headerWidths[i] ≤ 32) :
    word memory (headerWidths.take i).sum headerWidths[i] = (c.headerValues 11).getD i 0 :=
  (word_eq_of_take h.2 hle).trans (c.word_prepared 11 hi)

theorem Whole.magic (h : c.Whole memory) : Bytes.word memory 0 4 = Ring.magic := by
  have := h.word (i := 0) (by decide) (by decide)
  rwa [headerValues_full, List.getD_cons_zero] at this

theorem Whole.version (h : c.Whole memory) : Bytes.word memory 4 2 = layoutVersion := by
  have := h.word (i := 1) (by decide) (by decide)
  rwa [headerValues_full] at this

theorem Whole.capacity (h : c.Whole memory) : Bytes.word memory 8 4 = c.config.capacity := by
  have := h.word (i := 3) (by decide) (by decide)
  rwa [headerValues_full] at this

theorem Whole.frameSize (h : c.Whole memory) : Bytes.word memory 24 4 = c.config.frameSize := by
  have := h.word (i := 7) (by decide) (by decide)
  rwa [headerValues_full] at this

theorem Half.not_whole (h : c.Half memory) : ¬ c.Whole memory := by
  intro hwhole
  have := h.magic.symm.trans hwhole.magic
  exact absurd this (by decide)

theorem whole_prepared (c : CreateCall) : c.Whole (c.prepared 11) := ⟨c.length_prepared 11, rfl⟩

theorem Whole.use (h : c.Whole memory) (hlen : memory'.length = memory.length)
    (htake : memory'.take 32 = memory.take 32) : c.Whole memory' :=
  ⟨hlen.trans h.1, htake.trans h.2⟩

theorem Whole.attachRaw (h : c.Whole memory) :
    attachRaw memory = .ok (RegionView.init c.config) := by
  have hcap := c.config.capacity_bounds
  have hsize := h.frameSize
  have hlong : sizeOfBufferHeader ≤ segmentSize c.config.capacity c.config.frameSize := by
    unfold segmentSize dataAreaOffset
    omega
  have hrange : ¬ (c.config.capacity = 0 ∨ 4096 < c.config.capacity) := by omega
  unfold Ring.attachRaw
  simp [hlong, BufferHeader.read, h.magic, h.version, h.capacity, hsize, hrange, h.1, len,
    RegionView.init]

end CreateCall

end AutoTargeting.Ring
