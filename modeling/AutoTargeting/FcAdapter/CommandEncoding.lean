import AutoTargeting.FcAdapter.MavlinkCore
import AutoTargeting.Library.BinaryWords

namespace AutoTargeting.FcAdapter

open Binary
open Control (FcCall FcError FlightMode RoiTarget)

-- The floating-point numbers are kept as their bits.

def one : UInt32 := 0x3F800000

/-- The values of `MavCmd` that the adapter sends. -/
inductive MavCmd
  | doSetRoiLocation
  | doSetRoiNone
  | doSetMode
  | componentArmDisarm
  deriving DecidableEq, Repr

structure CommandLongData where
  targetSystem : UInt8
  targetComponent : UInt8
  command : MavCmd
  confirmation : UInt8
  param1 : UInt32
  param2 : UInt32
  param3 : UInt32
  param4 : UInt32
  param5 : UInt32
  param6 : UInt32
  param7 : UInt32
  deriving DecidableEq, Repr

def CommandLongData.params (data : CommandLongData) : Vector UInt32 7 :=
  #v[data.param1, data.param2, data.param3, data.param4, data.param5, data.param6, data.param7]

/-- `connected` tells whether there is a vehicle. -/
structure MavlinkCore where
  config : MavlinkCoreConfig
  connected : Bool
  deriving DecidableEq, Repr

namespace MavlinkCore
variable (core : MavlinkCore)

def sendCommandLong (command : MavCmd) (params : Vector UInt32 7) :
    Except FcError CommandLongData :=
  if core.connected = false then
    .error (.connection "not connected — call connect() first")
  else .ok
    { targetSystem := core.config.targetSystemId
      targetComponent := core.config.targetComponentId
      command := command
      confirmation := 0
      param1 := params[0]
      param2 := params[1]
      param3 := params[2]
      param4 := params[3]
      param5 := params[4]
      param6 := params[5]
      param7 := params[6] }

/-- The command and the parameters of `set_roi`: both kinds of a location are the same command. -/
def roiCommand : RoiTarget UInt32 → MavCmd × Vector UInt32 7
  | .globalLatLng lat lon alt =>
    (.doSetRoiLocation, #v[0, 0, 0, 0, f64AsF32 lat, f64AsF32 lon, alt])
  | .localNed north east down => (.doSetRoiLocation, #v[0, 0, 0, 0, north, east, down])
  | .none => (.doSetRoiNone, #v[0, 0, 0, 0, 0, 0, 0])

def setRoi (roi : RoiTarget UInt32) : Except FcError CommandLongData :=
  core.sendCommandLong (roiCommand roi).1 (roiCommand roi).2

def customMode : FlightMode → Except FcError UInt32
  | .manual => .ok 0
  | .stabilize => .ok 2
  | .loiter => .ok 12
  | .guided => .ok 15
  | .rtl => .ok 11
  | .auto => .ok 10
  | other => .error (.unsupportedMode other)

def setMode (mode : FlightMode) : Except FcError CommandLongData := do
  let custom ← customMode mode
  core.sendCommandLong .doSetMode #v[one, u32AsF32 custom, 0, 0, 0, 0, 0]

def arm : Except FcError CommandLongData :=
  core.sendCommandLong .componentArmDisarm #v[one, 0, 0, 0, 0, 0, 0]

def disarm : Except FcError CommandLongData :=
  core.sendCommandLong .componentArmDisarm #v[0, 0, 0, 0, 0, 0, 0]

/-- The COMMAND_LONG of a call, if it is one of those that send one. -/
def commandLong : FcCall UInt32 → Option (Except FcError CommandLongData)
  | .setRoi roi => some (core.setRoi roi)
  | .setMode mode => some (core.setMode mode)
  | .arm => some core.arm
  | .disarm => some core.disarm
  | .connect | .disconnect | .setPositionTargetLocalNed _ => none

end MavlinkCore

example : MavlinkCore.setMode ⟨.default, true⟩ .guided =
    .ok ⟨1, 1, .doSetMode, 0, one, 0x41700000, 0, 0, 0, 0, 0⟩ := by decide +kernel

section
variable {core : MavlinkCore} {call call' : FcCall UInt32} {data data' : CommandLongData}

def CommandLongData.Same (data data' : CommandLongData) : Prop :=
  data.command = data'.command ∧ data.params = data'.params

/-- Are the coordinates of a target `f32`s? -/
def Representable : FcCall UInt32 → Prop
  | .setRoi (.globalLatLng lat lon _) => F32Representable lat ∧ F32Representable lon
  | _ => True

/-- A position in degrees, and an offset in metres with the same three numbers. -/
inductive SameNumbers : FcCall UInt32 → FcCall UInt32 → Prop
  | mk (lat lon alt) : SameNumbers (.setRoi (.globalLatLng lat lon alt))
      (.setRoi (.localNed (f64AsF32 lat) (f64AsF32 lon) alt))

inductive Encodes : FcCall UInt32 → MavCmd → Vector UInt32 7 → Prop
  | setRoi (roi) : Encodes (.setRoi roi) (MavlinkCore.roiCommand roi).1
      (MavlinkCore.roiCommand roi).2
  | setMode {mode custom} (h : MavlinkCore.customMode mode = .ok custom) :
      Encodes (.setMode mode) .doSetMode #v[one, u32AsF32 custom, 0, 0, 0, 0, 0]
  | arm : Encodes .arm .componentArmDisarm #v[one, 0, 0, 0, 0, 0, 0]
  | disarm : Encodes .disarm .componentArmDisarm #v[0, 0, 0, 0, 0, 0, 0]

theorem sendCommandLong_eq_ok {command : MavCmd} {params : Vector UInt32 7}
    (h : core.sendCommandLong command params = .ok data) :
    data.command = command ∧ data.params = params := by
  unfold MavlinkCore.sendCommandLong at h
  split at h
  · cases h
  · obtain rfl := Except.ok.inj h
    apply And.intro rfl
    ext i hi
    interval_cases i <;> rfl

theorem encodes_of_commandLong (h : core.commandLong call = some (.ok data)) :
    Encodes call data.command data.params := by
  cases call with
  | setRoi roi =>
    obtain ⟨hcommand, hparams⟩ := sendCommandLong_eq_ok (Option.some.inj h)
    rw [hcommand, hparams]
    exact .setRoi roi
  | setMode mode =>
    have hset := Option.some.inj h
    unfold MavlinkCore.setMode at hset
    cases hcustom : MavlinkCore.customMode mode with
    | error e =>
      rw [hcustom] at hset
      cases hset
    | ok custom =>
      rw [hcustom] at hset
      obtain ⟨hcommand, hparams⟩ := sendCommandLong_eq_ok hset
      rw [hcommand, hparams]
      exact .setMode hcustom
  | arm =>
    obtain ⟨hcommand, hparams⟩ := sendCommandLong_eq_ok (Option.some.inj h)
    rw [hcommand, hparams]
    exact .arm
  | disarm =>
    obtain ⟨hcommand, hparams⟩ := sendCommandLong_eq_ok (Option.some.inj h)
    rw [hcommand, hparams]
    exact .disarm
  | connect => cases h
  | disconnect => cases h
  | setPositionTargetLocalNed target => cases h

theorem customMode_lt {mode : FlightMode} {custom : UInt32}
    (h : MavlinkCore.customMode mode = .ok custom) : custom.toNat < 2 ^ 24 := by
  cases mode <;> cases h <;> decide

theorem customMode_inj {mode mode' : FlightMode} {custom : UInt32}
    (h : MavlinkCore.customMode mode = .ok custom)
    (h' : MavlinkCore.customMode mode' = .ok custom) : mode = mode' := by
  cases mode <;> cases h <;> cases mode' <;> first | rfl | cases h'

theorem roiCommand_inj {roi roi' : RoiTarget UInt32}
    (hr : Representable (.setRoi roi)) (hr' : Representable (.setRoi roi'))
    (h : MavlinkCore.roiCommand roi = MavlinkCore.roiCommand roi') :
    roi = roi' ∨ SameNumbers (.setRoi roi) (.setRoi roi') ∨
      SameNumbers (.setRoi roi') (.setRoi roi) := by
  have hcommand := congrArg Prod.fst h
  have hparam : ∀ (i : ℕ) (hi : i < 7), (MavlinkCore.roiCommand roi).2[i] =
      (MavlinkCore.roiCommand roi').2[i] := by
    intro i hi
    rw [h]
  have hx := hparam 4 (by decide)
  have hy := hparam 5 (by decide)
  have hz := hparam 6 (by decide)
  cases roi with
  | globalLatLng lat lon alt =>
    cases roi' with
    | globalLatLng lat' lon' alt' =>
      left
      obtain rfl : lat = lat' := f64AsF32_inj hr.1 hr'.1 hx
      obtain rfl : lon = lon' := f64AsF32_inj hr.2 hr'.2 hy
      obtain rfl : alt = alt' := hz
      rfl
    | localNed north east down =>
      right; left
      obtain rfl : f64AsF32 lat = north := hx
      obtain rfl : f64AsF32 lon = east := hy
      obtain rfl : alt = down := hz
      exact .mk lat lon alt
    | none => cases hcommand
  | localNed north east down =>
    cases roi' with
    | globalLatLng lat lon alt =>
      right; right
      obtain rfl : north = f64AsF32 lat := hx
      obtain rfl : east = f64AsF32 lon := hy
      obtain rfl : down = alt := hz
      exact .mk lat lon down
    | localNed north' east' down' =>
      left
      obtain rfl : north = north' := hx
      obtain rfl : east = east' := hy
      obtain rfl : down = down' := hz
      rfl
    | none => cases hcommand
  | none =>
    cases roi' with
    | globalLatLng lat lon alt => cases hcommand
    | localNed north east down => cases hcommand
    | none => exact .inl rfl

/-- Only the two kinds of a location are not kept apart. -/
theorem Encodes.eq_or_sameNumbers {command command' : MavCmd} {params params' : Vector UInt32 7}
    (h : Encodes call command params) (h' : Encodes call' command' params')
    (hr : Representable call) (hr' : Representable call')
    (hcommand : command = command') (hparams : params = params') :
    call = call' ∨ SameNumbers call call' ∨ SameNumbers call' call := by
  have hfirst : params[0] = params'[0] := by rw [hparams]
  have hsecond : params[1] = params'[1] := by rw [hparams]
  cases h with
  | setRoi roi =>
    cases h' with
    | setRoi roi' =>
      rcases roiCommand_inj hr hr' (Prod.ext hcommand hparams) with rfl | hsame
      · exact .inl rfl
      · exact .inr hsame
    | setMode => cases roi <;> cases hcommand
    | arm => cases roi <;> cases hcommand
    | disarm => cases roi <;> cases hcommand
  | setMode hcustom =>
    cases h' with
    | setRoi roi => cases roi <;> cases hcommand
    | setMode hcustom' =>
      obtain rfl := u32AsF32_inj (customMode_lt hcustom) (customMode_lt hcustom') hsecond
      rw [customMode_inj hcustom hcustom']
      exact .inl rfl
    | arm => cases hcommand
    | disarm => cases hcommand
  | arm =>
    cases h' with
    | setRoi roi => cases roi <;> cases hcommand
    | setMode => cases hcommand
    | arm => exact .inl rfl
    | disarm => exact absurd hfirst (by decide)
  | disarm =>
    cases h' with
    | setRoi roi => cases roi <;> cases hcommand
    | setMode => cases hcommand
    | arm => exact absurd hfirst (by decide)
    | disarm => exact .inl rfl

theorem SameNumbers.same (hsame : SameNumbers call call')
    (h : core.commandLong call = some (.ok data))
    (h' : core.commandLong call' = some (.ok data')) : data.Same data' := by
  cases hsame with
  | mk lat lon alt =>
    have heq := Option.some.inj (h.symm.trans h')
    rw [Except.ok.inj heq]
    exact ⟨rfl, rfl⟩

theorem SameNumbers.ne (hsame : SameNumbers call call') : call ≠ call' := by
  rintro rfl
  cases hsame

/-- Where one target can be sent, every target can. -/
theorem setRoi_isOk {roi : RoiTarget UInt32} (h : core.commandLong (.setRoi roi) = some (.ok data))
    (roi' : RoiTarget UInt32) : ∃ data', core.commandLong (.setRoi roi') = some (.ok data') := by
  have hsend := Option.some.inj h
  rw [MavlinkCore.setRoi, MavlinkCore.sendCommandLong] at hsend
  split at hsend
  case isTrue => cases hsend
  case isFalse hconnected =>
    rw [MavlinkCore.commandLong, MavlinkCore.setRoi, MavlinkCore.sendCommandLong,
      if_neg hconnected]
    exact ⟨_, rfl⟩

/-- The position whose numbers are an offset's. -/
theorem exists_sameNumbers {north east : UInt32} (hn : binary32.isNaN north.toNat = false)
    (he : binary32.isNaN east.toNat = false) (down : UInt32) :
    ∃ lat lon, F32Representable lat ∧ F32Representable lon ∧
      SameNumbers (.setRoi (.globalLatLng lat lon down)) (.setRoi (.localNed north east down)) := by
  refine ⟨f32AsF64 north, f32AsF64 east, ⟨north, hn, rfl⟩, ⟨east, he, rfl⟩, ?_⟩
  have hsame := SameNumbers.mk (f32AsF64 north) (f32AsF64 east) down
  rwa [f64AsF32_f32AsF64 hn, f64AsF32_f32AsF64 he] at hsame

/-- Two calls are kept apart unless one is a position in degrees and the other an offset in metres
with the same three numbers. Every offset of numbers has such a position. -/
theorem unambiguous_iff (h : core.commandLong call = some (.ok data))
    (h' : core.commandLong call' = some (.ok data'))
    (hr : Representable call) (hr' : Representable call') :
    ((data.Same data' → call = call') ↔ ¬ SameNumbers call call' ∧ ¬ SameNumbers call' call) ∧
      ∀ north east down, call = .setRoi (.localNed north east down) →
        ((∀ lat lon alt position, F32Representable lat → F32Representable lon →
            core.commandLong (.setRoi (.globalLatLng lat lon alt)) = some (.ok position) →
            ¬ data.Same position) ↔
          binary32.isNaN north.toNat ∨ binary32.isNaN east.toNat) := by
  constructor
  · constructor
    · intro hkept
      constructor
      · intro hsame
        exact hsame.ne (hkept (hsame.same h h'))
      · intro hsame
        obtain ⟨hcommand, hparams⟩ := hsame.same h' h
        exact hsame.ne (hkept ⟨hcommand.symm, hparams.symm⟩).symm
    · rintro ⟨hnot, hnot'⟩ ⟨hcommand, hparams⟩
      have hcases := (encodes_of_commandLong h).eq_or_sameNumbers (encodes_of_commandLong h')
        hr hr' hcommand hparams
      rcases hcases with heq | hsame | hsame
      · exact heq
      · exact absurd hsame hnot
      · exact absurd hsame hnot'
  · rintro north east down rfl
    constructor
    · intro hnever
      by_contra hnumbers
      rw [not_or, Bool.not_eq_true, Bool.not_eq_true] at hnumbers
      obtain ⟨lat, lon, hlat, hlon, hsame⟩ := exists_sameNumbers hnumbers.1 hnumbers.2 down
      obtain ⟨position, hposition⟩ := setRoi_isOk h (.globalLatLng lat lon down)
      obtain ⟨hcommand, hparams⟩ := hsame.same hposition h
      exact hnever lat lon down position hlat hlon hposition ⟨hcommand.symm, hparams.symm⟩
    · rintro hnan lat lon alt position hlat hlon hposition ⟨hcommand, hparams⟩
      have hcases := (encodes_of_commandLong h).eq_or_sameNumbers
        (encodes_of_commandLong hposition) hr ⟨hlat, hlon⟩ hcommand hparams
      -- a representable coordinate is a number
      rcases hcases with heq | hsame | hsame
      · cases heq
      · cases hsame
      · cases hsame
        rw [not_nan_f64AsF32 hlat, not_nan_f64AsF32 hlon] at hnan
        simp at hnan

end

/-- 10 m to the north and 20 m to the east. -/
def sampleOffset : FcCall UInt32 := .setRoi (.localNed 0x41200000 0x41A00000 0)

theorem unambiguous_iff_offset : ∃ data data',
    MavlinkCore.commandLong ⟨.default, true⟩ sampleOffset = some (.ok data) ∧
      MavlinkCore.commandLong ⟨.default, true⟩ .arm = some (.ok data') ∧
      ((data.Same data' → sampleOffset = .arm) ↔
        ¬ SameNumbers sampleOffset .arm ∧ ¬ SameNumbers .arm sampleOffset) := by
  obtain ⟨data, hdata⟩ : ∃ data,
      MavlinkCore.commandLong ⟨.default, true⟩ sampleOffset = some (.ok data) := ⟨_, rfl⟩
  obtain ⟨data', hdata'⟩ : ∃ data,
      MavlinkCore.commandLong ⟨.default, true⟩ .arm = some (.ok data) := ⟨_, rfl⟩
  exact ⟨data, data', hdata, hdata', (unambiguous_iff hdata hdata' trivial trivial).1⟩

/-- 10° of latitude and 20° of longitude. -/
def samplePosition : FcCall UInt32 :=
  .setRoi (.globalLatLng 0x4024000000000000 0x4034000000000000 0)

theorem representable_position : Representable samplePosition :=
  ⟨⟨0x41200000, by decide, by decide +kernel⟩, ⟨0x41A00000, by decide, by decide +kernel⟩⟩

theorem offset_misread : ¬ ∀ (core : MavlinkCore) (call call' : FcCall UInt32)
    (data data' : CommandLongData), core.commandLong call = some (.ok data) →
    core.commandLong call' = some (.ok data') → Representable call → Representable call' →
    data.Same data' → call = call' := by
  intro h
  have hsame : SameNumbers samplePosition sampleOffset := by
    have hmk := SameNumbers.mk 0x4024000000000000 0x4034000000000000 0
    have hnorth : f64AsF32 0x4024000000000000 = 0x41200000 := by decide +kernel
    have heast : f64AsF32 0x4034000000000000 = 0x41A00000 := by decide +kernel
    rwa [hnorth, heast] at hmk
  obtain ⟨data, hdata⟩ : ∃ data,
      MavlinkCore.commandLong ⟨.default, true⟩ samplePosition = some (.ok data) := ⟨_, rfl⟩
  obtain ⟨data', hdata'⟩ : ∃ data,
      MavlinkCore.commandLong ⟨.default, true⟩ sampleOffset = some (.ok data) := ⟨_, rfl⟩
  exact hsame.ne (h _ _ _ _ _ hdata hdata' representable_position trivial
    (hsame.same hdata hdata'))

end AutoTargeting.FcAdapter
