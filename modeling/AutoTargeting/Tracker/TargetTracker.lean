import AutoTargeting.Tracker.Kalman
import AutoTargeting.Tracker.Sightings

namespace AutoTargeting.Tracker

open Control (BoundingBox)
open Runs
open Yolo (Detection asU32)

structure ActiveTrack where
  id : TargetId
  kalman : KalmanFilter2D ℚ
  lastBbox : BoundingBox
  confidence : ℚ
  lastSeen : ℤ
  missedFrames : ℕ
  confirmationCount : ℕ
  deriving DecidableEq

structure TargetTracker where
  maxTargetAgeMs : ℕ
  maxMissedFrames : ℕ
  lockConfirmationFrames : ℕ
  matchIouThreshold : ℚ
  active : Option ActiveTrack

/-- `Iterator::max_by` on the overlaps: of equal ones the last. -/
def maxByIou : List (Detection × ℚ) → Option (Detection × ℚ)
  | [] => none
  | p :: ps => some (ps.foldl (fun best p => if p.2 < best.2 then best else p) p)

namespace ActiveTrack

/-- The detection that an update takes for the target. -/
def best (fl : ℚ → ℚ) (threshold : ℚ) (detections : List Detection) (t : ActiveTrack) :
    Option Detection :=
  (maxByIou ((detections.map fun d => (d, iou fl d.bbox t.lastBbox)).filter fun p =>
    decide (threshold < p.2))).map (·.1)

def hit (fl : ℚ → ℚ) (lockConfirmationFrames : ℕ) (d : Detection) (now : ℤ) (t : ActiveTrack) :
    ActiveTrack :=
  { t with
    kalman := t.kalman.updateFromBbox fl d.bbox (fl (1 / 30))
    lastBbox := d.bbox
    confidence := d.confidence
    lastSeen := now
    missedFrames := 0
    confirmationCount :=
      -- a miss does not reset the count
      if t.confirmationCount < lockConfirmationFrames then t.confirmationCount + 1
      else t.confirmationCount }

/-- The branch without a match: the box goes where the filter predicts it. -/
def miss (fl : ℚ → ℚ) (t : ActiveTrack) : ActiveTrack :=
  let kalman := t.kalman.predict fl (fl (1 / 30))
  let cx := asU32 (max kalman.position.1 0)
  let cy := asU32 (max kalman.position.2 0)
  { t with
    kalman
    missedFrames := wrapU32 (t.missedFrames + 1)
    lastBbox := { t.lastBbox with
      x := cx - t.lastBbox.width / 2
      y := cy - t.lastBbox.height / 2 } }

end ActiveTrack

namespace TargetTracker

def new (maxTargetAgeMs maxMissedFrames lockConfirmationFrames : ℕ) (matchIouThreshold : ℚ) :
    TargetTracker :=
  ⟨maxTargetAgeMs, maxMissedFrames, lockConfirmationFrames, matchIouThreshold, none⟩

/-- `acquire`; the id comes from a counter of the program. -/
def acquire (fl : ℚ → ℚ) (detection : Detection) (id : TargetId) (now : ℤ) (s : TargetTracker) :
    TargetTracker :=
  let (cx, cy) := center fl detection.bbox
  { s with
    active := some
      { id
        kalman := .new cx cy
        lastBbox := detection.bbox
        confidence := detection.confidence
        lastSeen := now
        missedFrames := 0
        confirmationCount := 1 } }

def update (fl : ℚ → ℚ) (detections : List Detection) (now : ℤ) (s : TargetTracker) :
    TargetTracker :=
  match s.active with
  | none => s
  | some t =>
    { s with
      active := some <| match t.best fl s.matchIouThreshold detections with
        | some d => t.hit fl s.lockConfirmationFrames d now
        | none => t.miss fl }

def isLocked (s : TargetTracker) : Bool :=
  (s.active.map fun t => decide (s.lockConfirmationFrames ≤ t.confirmationCount)).getD false

def clear (s : TargetTracker) : TargetTracker := { s with active := none }

inductive Call
  | acquire (detection : Detection) (id : TargetId) (now : ℤ)
  | update (detections : List Detection) (now : ℤ)
  | clear

def Call.step (fl : ℚ → ℚ) (s : TargetTracker) : Call → TargetTracker
  | acquire detection id now => s.acquire fl detection id now
  | update detections now => s.update fl detections now
  | clear => s.clear

/-- The detection that an update matches to the target. -/
def Call.matched? (fl : ℚ → ℚ) (s : TargetTracker) : Call → Option Detection
  | update detections _ => s.active.bind (·.best fl s.matchIouThreshold detections)
  | acquire .. | clear => none

/-- The sightings of the target after a call. -/
def Call.see (fl : ℚ → ℚ) (s : TargetTracker) (call : Call) (seen : Sightings) : Sightings :=
  match call with
  | acquire detection _ _ => [some detection]
  | update _ _ => seen ++ [call.matched? fl s]
  | clear => []

/-- Any calls of a new tracker, with the sightings of its target. -/
def sighting (fl : ℚ → ℚ) : Machine (Observed TargetTracker Sightings) Call :=
  Machine.observed
    { Init := fun s => ∃ maxTargetAgeMs maxMissedFrames lockConfirmationFrames matchIouThreshold,
        s = new maxTargetAgeMs maxMissedFrames lockConfirmationFrames matchIouThreshold
      step := fun s call => some (call.step fl s) }
    [] (Call.see fl)

end TargetTracker

end AutoTargeting.Tracker
