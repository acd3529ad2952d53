import AutoTargeting.EventBus.RoundTrip

namespace AutoTargeting.EventBus

open Json

variable {F G : Type} [Float32 F] [JsonFloat G] (rfc : Rfc3339)

/-- The position of a sample is finite if the flight controller's is, and without one it is
zero. -/
theorem finite_position (pos : Option (GlobalPosition F G)) :
    (JsonFloat.isFinite (pos.elim JsonFloat.zero (·.altAgl) : F) = true ∧
      JsonFloat.isFinite (pos.elim JsonFloat.zero (·.lat) : G) = true ∧
      JsonFloat.isFinite (pos.elim JsonFloat.zero (·.lon) : G) = true) ↔
    ∀ p ∈ pos, JsonFloat.isFinite p.lat = true ∧ JsonFloat.isFinite p.lon = true ∧
      JsonFloat.isFinite p.altAgl = true := by
  cases pos with
  | none => simp [JsonFloat.zero_finite]
  | some p => simp; tauto

theorem telemetry_delivered_iff (t : TelemetrySample F G) :
    Message.recv rfc ((Message.telemetry t).publish rfc) (.telemetry t) = some (.telemetry t) ↔
      JsonFloat.isFinite t.rollDeg = true ∧ JsonFloat.isFinite t.pitchDeg = true ∧
        JsonFloat.isFinite t.yawDeg = true ∧ JsonFloat.isFinite t.altM = true ∧
        JsonFloat.isFinite t.latDeg = true ∧ JsonFloat.isFinite t.lonDeg = true ∧
        JsonFloat.isFinite t.batteryV = true := by
  refine (map_eq_some_of_injective (fun _ _ h => Message.telemetry.inj h) _ _).trans ?_
  simp only [Message.publish]
  rw [fromSlice_toVec (TelemetrySample.wellFormed _)]
  exact TelemetrySample.received_iff 126 _

/-- Exactly the messages that are built from finite floats reach their subscribers, as they were
sent but for the microseconds of their times. -/
theorem delivered_iff (s : Source F G) :
    Message.recv rfc (s.message.publish rfc) s.message = some s.message.truncated ↔ s.Finite := by
  cases s with
  | detector frameId tsNs result w h =>
    refine (map_eq_some_of_injective (fun _ _ h => Message.detections.inj h) _ _).trans ?_
    simp only [Source.message, Message.publish]
    rw [fromSlice_toVec (DetectionsFrame.wellFormed rfc _)]
    exact DetectionsFrame.received_iff rfc 123 _
  | fcTelemetry now att pos mode =>
    refine (telemetry_delivered_iff rfc (telemetrySample now att pos mode)).trans ?_
    have hpos := finite_position pos
    have hzero : JsonFloat.isFinite (JsonFloat.zero : F) = true := JsonFloat.zero_finite
    simp only [telemetrySample, Source.Finite, ← hpos, hzero]
    tauto
  | fcEdge edge now =>
    refine (map_eq_some_of_injective (fun _ _ h => Message.fcEvent.inj h) _ _).trans ?_
    simp only [Source.message, Message.publish]
    rw [fromSlice_toVec (FcEvent.wellFormed _)]
    obtain ⟨hread, hmap⟩ := fcDetail_kept 125 edge
    exact iff_of_true (FcEvent.received 126 (EventBus.fcEvent edge now) hread hmap) trivial
  | tracker frameSeq detections t =>
    refine (map_eq_some_of_injective (fun _ _ h => Message.track.inj h) _ _).trans ?_
    simp only [Source.message, Message.publish]
    rw [fromSlice_toVec (TrackMsg.wellFormed _)]
    exact TrackMsg.received_iff 125 _
  | console c id =>
    refine (map_eq_some_of_injective (fun _ _ h => Message.command.inj h) _ _).trans ?_
    simp only [Source.message, Message.publish]
    rw [fromSlice_toVec (CommandMsg.wellFormed _)]
    obtain ⟨hread, hmap⟩ := commandMsg_args 125 c id
    exact iff_of_true (CommandMsg.received 126 (commandMsg id c) hread hmap) trivial

/-- Two of the floats. -/
inductive ZeroOrNan
  | zero
  | nan
  deriving DecidableEq, Repr

instance : Float32 ZeroOrNan where
  isFinite x := x = .zero
  zero := .zero
  write _ := ⟨[48, 46, 48], by decide⟩
  read n := if n.token = [48, 46, 48] then some .zero else none
  zero_finite := by decide
  read_write x h := by
    cases x with
    | zero => rfl
    | nan => simp at h
  toDegrees x := x
  partialCmp x y := if x = .zero ∧ y = .zero then some .eq else none

/-- A format for times that does not matter to a sample: as many digits as nanoseconds. -/
def unaryTimes : Rfc3339 where
  format t := String.ofList (List.replicate (t.nanos + 8334601228800 * 10 ^ 9).toNat '0')
  parse s :=
    let nanos : ℤ := s.length - 8334601228800 * 10 ^ 9
    if h : -8334601228800 * 10 ^ 9 ≤ nanos ∧ nanos < 8210266876800 * 10 ^ 9 then
      some ⟨nanos, h.1, h.2⟩
    else none
  parse_format t := by
    have hmin := t.min_le
    have hmax := t.lt_max
    have hlen : ((t.nanos + 8334601228800 * 10 ^ 9).toNat : ℤ) - 8334601228800 * 10 ^ 9 =
        t.nanos := by omega
    simp only [String.length_ofList, List.length_replicate, hlen]
    exact dif_pos ⟨hmin, hmax⟩

/-- A flight controller reports a roll that is not a number. -/
theorem sample_lost :
    ¬ ∀ (F G : Type) [Float32 F] [JsonFloat G] (rfc : Rfc3339) (s : Source F G),
      Message.recv rfc (s.message.publish rfc) s.message = some s.message.truncated := by
  intro hall
  have hsample := hall ZeroOrNan ZeroOrNan unaryTimes
    (.fcTelemetry 0 ⟨.nan, .zero, .zero⟩ none .unknown)
  have hfinite := (telemetry_delivered_iff unaryTimes _).mp hsample
  exact absurd hfinite.1 (by decide)

end AutoTargeting.EventBus
