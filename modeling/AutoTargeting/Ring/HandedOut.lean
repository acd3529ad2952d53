import AutoTargeting.Ring.FrameStream
import AutoTargeting.Ring.Geometry

namespace AutoTargeting.Ring

open Runs

variable {c : CheckedConfig} {producerPid : ℕ} {s s' : State}

def StorageFormat.fromCode (code : ℕ) : Option StorageFormat :=
  if code = formatNv12 then some .nv12 else if code = formatRgb24 then some .rgb24 else none

@[simp] theorem StorageFormat.fromCode_code (f : StorageFormat) : fromCode f.code = some f := by
  cases f <;> rfl

def FrameView.storageFormat (v : FrameView) : Option StorageFormat := StorageFormat.fromCode v.format

/-- The view of a guard on the frame of a `publish`. -/
def Publication.view (c : CheckedConfig) (p : Publication) : FrameView :=
  ⟨p.frameId, p.tsNs, c.width, c.height, c.format.code⟩

@[simp] theorem Publication.storageFormat_view (p : Publication) :
    (p.view c).storageFormat = some c.format := StorageFormat.fromCode_code _

/-- A call that has returned stays returned. -/
theorem calls_subset {e : Event} (hs : s.step c producerPid e = some s') : s.calls ⊆ s'.calls := by
  cases step_stepped hs with
  | refused => exact List.Subset.refl _
  | @publish data tsNs hup hidle hlen =>
    simp only [State.calls, hidle, ProducerPc.returning]
    exact List.Subset.refl _
  | producerStep => exact List.subset_append_left _ _
  | call | consumerStep | dropGuard | reap | reaperStep | spawn | die =>
    obtain ⟨hproducer, hpublished⟩ := step_keeps_producer hs (by simp) (by simp)
    rw [State.calls, State.calls, hproducer, hpublished]
    exact List.Subset.refl _

theorem acquire_guard {cur cursor : Cursor} {a : Answer} {g : FrameGuard}
    (h : cur.acquire a = (cursor, some g)) : a.guard? = some g := by
  rcases a with (_ | g') | (g' | _ | ⟨lastSeen, latest⟩)
  · cases h
  · cases h
    rfl
  · cases h
    rfl
  · cases h
  · simp only [Cursor.acquire] at h
    split at h <;> cases h

/-- The frame behind a guard that is handed out is one that `publish` was called with, as it was
then. -/
theorem handed_out {op : Op} {answer : Answer} {g : FrameGuard} (hinv : Inv c producerPid s')
    (hshapes : Shapes c s') (hs : s.step c producerPid (.consumerStep op) = some s')
    (hanswer : s.answer c (.consumerStep op) = some answer) (hg : answer.guard? = some g) :
    ∃ p ∈ s'.calls, p.data.length = c.frameSize ∧ g.view = p.view c ∧
      s.region.deref c g = p.data := by
  have hnext : (op.pc.step c op.pid s.region).next = .inr answer := by
    simp only [State.answer] at hanswer
    split at hanswer
    case h_1 a ha =>
      cases hanswer
      exact ha
    case h_2 => cases hanswer
  have hsame := (step_sameFrames hs (by simp)).data
  cases step_stepped hs with
  | consumerStep hop =>
    have hmem : (⟨op.pid, g⟩ : Hold) ∈
        (s.afterConsumer op (op.pc.step c op.pid s.region)).guards := by
      simp [State.afterConsumer, hnext, hg]
    obtain ⟨p, hp, hid, hts, hdata⟩ := hinv.guard_call hmem
    have hshape := hshapes.guards _ hmem
    simp only [FrameView.shape, CheckedConfig.shape, Prod.mk.injEq] at hshape
    refine ⟨p, hp, frames_sized hinv.frames p hp, ?_, ?_⟩
    · calc g.view = ⟨g.view.frameId, g.view.tsNs, g.view.width, g.view.height, g.view.format⟩ := rfl
        _ = p.view c := by
          rw [← hid, ← hts, hshape.1, hshape.2.1, hshape.2.2]
          rfl
    · rw [← hdata, Region.deref, Region.deref, hsame]

end AutoTargeting.Ring
