import AutoTargeting.Tracker.Hungarian
import AutoTargeting.Library.Keyed
import AutoTargeting.Yolo.Postprocess

namespace AutoTargeting.Tracker

open Control (BoundingBox)
open Yolo (Detection)

/-- A `u32` result, which wraps around in the release build. -/
def wrapU32 (n : ℕ) : ℕ := n % 2 ^ 32

def saturatingSucc (n : ℕ) : ℕ := min (n + 1) (2 ^ 32 - 1)

/-- `BoundingBox::iou`; `fl` is what `f32` makes of a result. -/
def iou (fl : ℚ → ℚ) (a b : BoundingBox) : ℚ :=
  let x1 := max a.x b.x
  let y1 := max a.y b.y
  let x2 := min (wrapU32 (a.x + a.width)) (wrapU32 (b.x + b.width))
  let y2 := min (wrapU32 (a.y + a.height)) (wrapU32 (b.y + b.height))
  if x2 ≤ x1 ∨ y2 ≤ y1 then 0
  else
    let intersection := fl (fl (x2 - x1 : ℕ) * fl (y2 - y1 : ℕ))
    let areas := wrapU32 (wrapU32 (a.width * a.height) + wrapU32 (b.width * b.height))
    let union := fl (fl areas - intersection)
    if union ≤ 0 then 0 else fl (intersection / union)

abbrev TargetId := ℕ

/-- A track; times are nanoseconds of the wall clock. -/
structure Track where
  id : TargetId
  lastBbox : BoundingBox
  confidence : ℚ
  lastSeen : ℤ
  missedFrames : ℕ
  confirmationCount : ℕ
  deriving DecidableEq

namespace Track

def new (id : TargetId) (detection : Detection) (now : ℤ) : Track where
  id
  lastBbox := detection.bbox
  confidence := detection.confidence
  lastSeen := now
  missedFrames := 0
  confirmationCount := 1

def updateWithDetection (detection : Detection) (now : ℤ) (t : Track) : Track :=
  { t with
    lastBbox := detection.bbox
    confidence := detection.confidence
    lastSeen := now
    missedFrames := 0
    confirmationCount := saturatingSucc t.confirmationCount }

def predictOnly (t : Track) : Track := { t with missedFrames := saturatingSucc t.missedFrames }

/-- `age_ms` of `remove_lost_tracks`. -/
def ageMs (t : Track) (now : ℤ) : ℕ := ((now - t.lastSeen).tdiv 1000000).toNat

@[simp] theorem new_id (id : TargetId) (d : Detection) (now : ℤ) : (new id d now).id = id := rfl

@[simp] theorem updateWithDetection_id (d : Detection) (now : ℤ) (t : Track) :
    (t.updateWithDetection d now).id = t.id := rfl

@[simp] theorem predictOnly_id (t : Track) : t.predictOnly.id = t.id := rfl

end Track

abbrev Tracks := Keyed Track.id

structure MultiTargetTracker where
  tracks : Tracks
  maxTargetAgeMs : ℕ
  maxMissedFrames : ℕ
  matchIouThreshold : ℚ
  nextId : TargetId
  autoCreateTracks : Bool
  maxTracks : ℕ

/-- What an `update` finds outside: the order of the map, and the clock at each place that reads
it. -/
structure Env where
  order : List Track → List Track
  perm : ∀ tracks, (order tracks).Perm tracks
  matchedAt : TargetId → ℤ
  createdAt : ℕ → ℤ
  checkedAt : TargetId → ℤ

/-- What became of the detections of an `update`, by their places in the list: the track that one
is matched to, the new track of one, and `track_count` when one is rejected. -/
structure Report where
  matched : List (TargetId × ℕ)
  created : List (ℕ × TargetId)
  rejected : List (ℕ × ℕ)
  deriving DecidableEq

/-- The costs of the pairs of a track and a detection. -/
def costMatrix (fl : ℚ → ℚ) (tracks : List Track) (detections : List Detection) : List (List ℚ) :=
  tracks.map fun t => detections.map fun d => fl (1 - iou fl t.lastBbox d.bbox)

structure Matching where
  tracks : Tracks
  matched : List (TargetId × ℕ)

/-- One turn of the loop that applies the assignment, and `none` where an index is out of
bounds. -/
def matchRow (fl : ℚ → ℚ) (threshold : ℚ) (matchedAt : TargetId → ℤ) (trackIds : List TargetId)
    (detections : List Detection) (costs : List (List ℚ)) (acc : Matching) (row : Option ℕ × ℕ) :
    Option Matching :=
  match row.1 with
  | none => some acc
  | some j => do
    let costsOfRow ← costs[row.2]?
    let cost ← costsOfRow[j]?
    if threshold ≤ fl (1 - cost) then
      let tid ← trackIds[row.2]?
      let detection ← detections[j]?
      if acc.tracks.contains tid then
        let tracks := acc.tracks.modify tid (.updateWithDetection detection (matchedAt tid))
          (Track.updateWithDetection_id detection (matchedAt tid))
        some ⟨tracks, acc.matched ++ [(tid, j)]⟩
      else some acc
    else some acc

namespace MultiTargetTracker

def new (maxTargetAgeMs maxMissedFrames : ℕ) (matchIouThreshold : ℚ) (autoCreate : Bool)
    (maxTracks : ℕ) : MultiTargetTracker where
  tracks := .empty
  maxTargetAgeMs
  maxMissedFrames
  matchIouThreshold
  nextId := 1
  autoCreateTracks := autoCreate
  maxTracks := max maxTracks 1

/-- `create_track`; the next id is a `u64`. -/
def createTrack (s : MultiTargetTracker) (detection : Detection) (now : ℤ) :
    MultiTargetTracker × TargetId :=
  ({ s with
    tracks := s.tracks.insert (.new s.nextId detection now)
    nextId := (s.nextId + 1) % 2 ^ 64 }, s.nextId)

def createFor (createdAt : ℕ → ℤ) (skip : List ℕ) (acc : MultiTargetTracker × Report)
    (row : Detection × ℕ) : MultiTargetTracker × Report :=
  let (s, report) := acc
  let (detection, j) := row
  if j ∈ skip then acc
  else if s.maxTracks ≤ s.tracks.size then
    (s, { report with rejected := report.rejected ++ [(j, s.tracks.size)] })
  else
    let (s, id) := s.createTrack detection (createdAt j)
    (s, { report with created := report.created ++ [(j, id)] })

/-- The loop over all detections, with those that are matched left out. -/
def createTracks (s : MultiTargetTracker) (createdAt : ℕ → ℤ) (matched : List (TargetId × ℕ))
    (detections : List Detection) : MultiTargetTracker × Report :=
  detections.zipIdx.foldl (createFor createdAt (matched.map (·.2))) (s, ⟨matched, [], []⟩)

def removeLostTracks (s : MultiTargetTracker) (checkedAt : TargetId → ℤ) : MultiTargetTracker :=
  { s with
    tracks := s.tracks.retain fun t =>
      !(s.maxMissedFrames < t.missedFrames || s.maxTargetAgeMs < t.ageMs (checkedAt t.id)) }

/-- The loop that ages the tracks that are not matched. -/
def ageUnmatched (trackIds matchedTracks : List TargetId) (tracks : Tracks) : Tracks :=
  trackIds.foldl
    (fun tracks tid =>
      if tid ∈ matchedTracks then tracks else tracks.modify tid .predictOnly Track.predictOnly_id)
    tracks

/-- `update`, and `none` where it does not return. -/
def update (fl : ℚ → ℚ) (s : MultiTargetTracker) (detections : List Detection) (env : Env) :
    Option (MultiTargetTracker × Report) :=
  if s.tracks.entries = [] then
    some (if s.autoCreateTracks then s.createTracks env.createdAt [] detections
      else (s, ⟨[], [], []⟩))
  else if detections = [] then
    let aged := s.tracks.mapValues .predictOnly Track.predictOnly_id
    some ({ s with tracks := aged }.removeLostTracks env.checkedAt, ⟨[], [], []⟩)
  else do
    let rows := env.order s.tracks.entries
    let trackIds := rows.map Track.id
    let costs := costMatrix fl rows detections
    let assignment ← solve costs
    let matching ← assignment.zipIdx.foldlM
      (matchRow fl s.matchIouThreshold env.matchedAt trackIds detections costs) ⟨s.tracks, []⟩
    let aged := ageUnmatched trackIds (matching.matched.map (·.1)) matching.tracks
    let s := { s with tracks := aged }
    let (s, report) :=
      if s.autoCreateTracks then s.createTracks env.createdAt matching.matched detections
      else (s, ⟨matching.matched, [], []⟩)
    some (s.removeLostTracks env.checkedAt, report)

def removeTrack (s : MultiTargetTracker) (id : TargetId) : MultiTargetTracker :=
  { s with tracks := s.tracks.erase id }

def clear (s : MultiTargetTracker) : MultiTargetTracker := { s with tracks := .empty }

end MultiTargetTracker

end AutoTargeting.Tracker
