import AutoTargeting.EventBus.Dispatch
import AutoTargeting.Library.BinaryWords

namespace AutoTargeting.EventBus

open Json Control Binary

/-- The calls that an adapter got, each with the error that it answered. -/
abbrev CallLog (F : Type) := List (FcCall F × Option FcError)

/-- What an adapter would answer. -/
abbrev Answers (F : Type) := CallLog F → FcCall F → Option FcError

section
variable {F : Type} (G : Type) [ArgFloat F G] (answers : Answers F)

/-- A call of the adapter, whose error becomes the dispatcher's. -/
def callAdapter (call : FcCall F) : ExceptT BridgeError (StateM (CallLog F)) Unit := fun log =>
  (match answers log call with
    | none => .ok ()
    | some e => .error (.fc e), log ++ [(call, answers log call)])

/-- `FcBridge::dispatch`, with its calls. -/
def dispatchTo (cmd : CommandMsg) : ExceptT BridgeError (StateM (CallLog F)) Unit :=
  if cmd.target ≠ "fc" then
    throw (.badCommand ("target '" ++ cmd.target ++ "' != 'fc'"))
  else
    match cmd.cmd with
    | "set_roi" =>
      if (get cmd.args "none").bind asBool = some true then callAdapter answers (.setRoi .none)
      else do
        let lat : G ← number F cmd.args "lat"
        let lon : G ← number F cmd.args "lon"
        let alt : G := ((get cmd.args "alt").bind (asF64 F)).getD (ArgFloat.zero F)
        callAdapter answers (.setRoi (.globalLatLng (ArgFloat.toBits F lat)
          (ArgFloat.toBits F lon) (ArgFloat.toF32 alt)))
    | "set_pos_ned" | "set_position_target_local_ned" => do
      let north : G ← number F cmd.args "north"
      let east : G ← number F cmd.args "east"
      let down : G ← number F cmd.args "down"
      let yaw : G ← number F cmd.args "yaw"
      callAdapter answers (.setPositionTargetLocalNed ⟨ArgFloat.toF32 north, ArgFloat.toF32 east,
        ArgFloat.toF32 down, ArgFloat.toF32 yaw⟩)
    | "set_mode" =>
      match (get cmd.args "mode").bind asStr with
      | none => throw (need "mode")
      | some name =>
        let name := name.map Char.toLower
        match flightModeOf name with
        | some mode => callAdapter answers (.setMode mode)
        | none => throw (.badCommand ("mode '" ++ name ++ "'"))
    | "arm" => callAdapter answers .arm
    | "disarm" => callAdapter answers .disarm
    | other => throw (.badCommand ("cmd '" ++ other ++ "'"))

/-- What a decision makes of the log: an error leaves it, and a call is the adapter's. -/
def carryOut (log : CallLog F) :
    Except BridgeError (FcCall F) → Except BridgeError Unit × CallLog F
  | .error e => (.error e, log)
  | .ok call => (callAdapter answers call).run log

variable {answers} {log : CallLog F}

theorem run_bind {α : Type} {x : Except BridgeError α}
    {run : α → ExceptT BridgeError (StateM (CallLog F)) Unit}
    {decide : α → Except BridgeError (FcCall F)}
    (h : ∀ a, (run a).run log = carryOut answers log (decide a)) :
    (do let a ← x; run a : ExceptT BridgeError (StateM (CallLog F)) Unit).run log =
      carryOut answers log (do let a ← x; decide a) := by
  cases x with
  | error e => rfl
  | ok a => exact h a

/-- Everything is decided before the call, and after it nothing is done. -/
theorem dispatchTo_eq (cmd : CommandMsg) : (dispatchTo G answers cmd).run log =
    carryOut answers log (dispatch F G cmd) := by
  unfold dispatchTo dispatch
  split
  · rfl
  · generalize cmd.cmd = name
    split
    case h_1 =>
      dsimp only
      split
      · rfl
      · exact run_bind fun lat => run_bind fun lon => rfl
    case h_2 =>
      exact run_bind fun north => run_bind fun east => run_bind fun down => run_bind fun yaw => rfl
    case h_3 =>
      exact run_bind fun north => run_bind fun east => run_bind fun down => run_bind fun yaw => rfl
    case h_4 =>
      generalize (get cmd.args "mode").bind asStr = mode
      cases mode with
      | none => rfl
      | some name =>
        dsimp only
        cases flightModeOf (name.map Char.toLower) with
        | none => rfl
        | some mode => rfl
    case h_5 => rfl
    case h_6 => rfl
    case h_7 =>
      simp only [carryOut]
      rfl

end

/-- What the parser makes of a numeral that is no integer of 64 bits, as `-0` is none. -/
class FloatReader where
  read : Numeral → FiniteF64

section
variable [FloatReader]

def numberAsF64 (n : Numeral) : FiniteF64 :=
  match n.toInt? with
  | some k =>
    if h : -2 ^ 63 ≤ k ∧ k < 2 ^ 64 then .ofRat k (abs_nearest_intCast_lt h) else FloatReader.read n
  | none => FloatReader.read n

instance : ArgFloat UInt32 FiniteF64 where
  asF64 := numberAsF64
  toBits := FiniteF64.bits
  toF32 x := f64AsF32 x.bits
  zero := ⟨0, by decide +kernel⟩

def numberValue (n : Numeral) : ℚ :=
  match n.toInt? with
  | some k => if -2 ^ 63 ≤ k ∧ k < 2 ^ 64 then k else (FloatReader.read n).value
  | none => (FloatReader.read n).value

theorem value_numberAsF64 (n : Numeral) : (numberAsF64 n).value = binary64.nearest (numberValue n) := by
  unfold numberAsF64 numberValue
  cases n.toInt? with
  | none => exact (FiniteF64.nearest_value _).symm
  | some k =>
    dsimp only
    split
    · exact FiniteF64.value_ofRat _
    · exact (FiniteF64.nearest_value _).symm

inductive Passed
  | f32 (bits : UInt32)
  | f64 (bits : UInt64)
  deriving DecidableEq

def Passed.Rounds (q : ℚ) : Passed → Prop
  | f32 bits => binary32.decode bits.toNat = some (binary32.nearest q)
  | f64 bits => binary64.decode bits.toNat = some (binary64.nearest q)

/-- The numbers of a call, by the names of the arguments that they are from. -/
def numbers : FcCall UInt32 → List (String × Passed)
  | .setRoi (.globalLatLng lat lon alt) => [("lat", .f64 lat), ("lon", .f64 lon), ("alt", .f32 alt)]
  | .setRoi (.localNed north east down) =>
    [("north", .f32 north), ("east", .f32 east), ("down", .f32 down)]
  | .setPositionTargetLocalNed target =>
    [("north", .f32 target.north), ("east", .f32 target.east), ("down", .f32 target.down),
      ("yaw", .f32 target.yaw)]
  | _ => []

def Missing (args : Value) (name : String) : Prop :=
  get args name = none ∨ get args name = some .null

/-- A number is its argument rounded; only an altitude may be missing, and is 0 then. -/
def FromArgs (args : Value) (p : String × Passed) : Prop :=
  (∃ n, get args p.1 = some (.number n) ∧ p.2.Rounds (numberValue n)) ∨
    p.1 = "alt" ∧ Missing args "alt" ∧ p.2 = .f32 0

/-- What a run of the dispatcher shall be: `calls` are the calls it makes. -/
structure Dispatched (cmd : CommandMsg) (result : Except BridgeError Unit)
    (calls : CallLog UInt32) : Prop where
  atMostOne : calls.length ≤ 1
  ok_one : result = .ok () → calls.length = 1
  error_none : ∀ e, result = .error e → (∀ c ∈ calls, c.2 = none) → calls = []
  numbers_fromArgs : ∀ c ∈ calls, ∀ p ∈ numbers c.1, FromArgs cmd.args p

/-- Is the value small enough for an `f32`, and the same when it is rounded to an `f64` first? -/
def Narrows (n : Numeral) : Prop :=
  |numberValue n| < 2 ^ 128 - 2 ^ 103 ∧
    binary32.nearest (binary64.nearest (numberValue n)) = binary32.nearest (numberValue n)

/-- A command whose numbers, if it has all that it needs, fit where they go. -/
structure ArgsFit (cmd : CommandMsg) : Prop where
  roi : cmd.target = "fc" → cmd.cmd = "set_roi" →
    (get cmd.args "none").bind asBool ≠ some true →
    (∃ lat, get cmd.args "lat" = some (.number lat)) →
    (∃ lon, get cmd.args "lon" = some (.number lon)) →
    Missing cmd.args "alt" ∨ ∃ alt, get cmd.args "alt" = some (.number alt) ∧ Narrows alt
  posNed : cmd.target = "fc" →
    cmd.cmd = "set_pos_ned" ∨ cmd.cmd = "set_position_target_local_ned" →
    ∀ north east down yaw, get cmd.args "north" = some (.number north) →
      get cmd.args "east" = some (.number east) → get cmd.args "down" = some (.number down) →
      get cmd.args "yaw" = some (.number yaw) →
      Narrows north ∧ Narrows east ∧ Narrows down ∧ Narrows yaw

theorem rounds_f32_iff (n : Numeral) :
    (Passed.f32 (f64AsF32 (numberAsF64 n).bits)).Rounds (numberValue n) ↔ Narrows n := by
  have hdecode := decode_f64AsF32 (numberAsF64 n).decode_bits
  rw [value_numberAsF64] at hdecode
  show binary32.decode _ = _ ↔ _
  rw [hdecode, Narrows, ← abs_nearest_binary32_lt_iff]
  constructor
  · intro h
    split at h
    case isTrue hlt =>
      rw [Option.some.inj h] at hlt
      exact ⟨hlt, Option.some.inj h⟩
    case isFalse => cases h
  · rintro ⟨hlt, heq⟩
    rw [heq, if_pos hlt]

theorem rounds_f64 (n : Numeral) : (Passed.f64 (numberAsF64 n).bits).Rounds (numberValue n) := by
  show binary64.decode _ = _
  rw [FiniteF64.decode_bits, value_numberAsF64]

variable {args : Value} {name : String} {n : Numeral} {cmd : CommandMsg}

theorem bind_asF64_eq_none (h : ∀ n, get args name ≠ some (.number n)) :
    (get args name).bind (asF64 UInt32) = (none : Option FiniteF64) := by
  cases hget : get args name with
  | none => rfl
  | some v =>
    cases v with
    | number n => exact absurd hget (h n)
    | null => rfl
    | bool b => rfl
    | string s => rfl
    | array items => rfl
    | object fields => rfl

theorem number_eq (h : get args name = some (.number n)) :
    number UInt32 args name = .ok (numberAsF64 n) := by
  rw [number, h]
  rfl

theorem of_number_eq_ok {x : FiniteF64} (h : number UInt32 args name = .ok x) :
    ∃ n, get args name = some (.number n) ∧ x = numberAsF64 n := by
  by_cases hnumber : ∃ n, get args name = some (.number n)
  · obtain ⟨n, hn⟩ := hnumber
    rw [number_eq hn] at h
    exact ⟨n, hn, (Except.ok.inj h).symm⟩
  · rw [number, bind_asF64_eq_none (not_exists.mp hnumber)] at h
    cases h

omit [FloatReader] in
theorem number_inj {m : Numeral} (h : get args name = some (.number n))
    (h' : get args name = some (.number m)) : n = m := by
  have hsame := Option.some.inj (h.symm.trans h')
  injection hsame

omit [FloatReader] in
theorem not_missing (h : get args name = some (.number n)) : ¬ Missing args name := by
  rintro (hnone | hnull)
  · cases h.symm.trans hnone
  · cases h.symm.trans hnull

/-- A number is handed on as it should be where it fits. -/
theorem fromArgs_f32_iff (h : get args name = some (.number n)) :
    FromArgs args (name, .f32 (f64AsF32 (numberAsF64 n).bits)) ↔ Narrows n := by
  rw [← rounds_f32_iff]
  constructor
  · rintro (⟨m, hm, hround⟩ | ⟨hname, hmissing, -⟩)
    · rw [← number_inj h hm] at hround
      exact hround
    · obtain rfl : name = "alt" := hname
      exact absurd hmissing (not_missing h)
  · intro hround
    exact .inl ⟨n, h, hround⟩

theorem fromArgs_f64 (h : get args name = some (.number n)) :
    FromArgs args (name, .f64 (numberAsF64 n).bits) := .inl ⟨n, h, rounds_f64 n⟩

/-- The altitude is 0 where it is missing, but also where it is no number. -/
theorem fromArgs_alt_iff (args : Value) :
    FromArgs args ("alt", .f32 (ArgFloat.toF32
      (((get args "alt").bind (asF64 UInt32)).getD (ArgFloat.zero UInt32 : FiniteF64)))) ↔
      Missing args "alt" ∨ ∃ alt, get args "alt" = some (.number alt) ∧ Narrows alt := by
  by_cases hnumber : ∃ n, get args "alt" = some (.number n)
  · obtain ⟨n, hn⟩ := hnumber
    have hbind : (get args "alt").bind (asF64 UInt32) = some (numberAsF64 n) := by
      rw [hn]
      rfl
    rw [hbind]
    show FromArgs args ("alt", .f32 (f64AsF32 (numberAsF64 n).bits)) ↔ _
    rw [fromArgs_f32_iff hn]
    constructor
    · intro hnarrows
      exact .inr ⟨n, hn, hnarrows⟩
    · rintro (hmissing | ⟨m, hm, hnarrows⟩)
      · exact absurd hmissing (not_missing hn)
      · rwa [number_inj hn hm]
  · have hzero : ArgFloat.toF32 (ArgFloat.zero UInt32 : FiniteF64) = (0 : UInt32) := by
      show f64AsF32 0 = 0
      decide +kernel
    rw [bind_asF64_eq_none (not_exists.mp hnumber), Option.getD_none, hzero]
    constructor
    · rintro (⟨n, hn, -⟩ | ⟨-, hmissing, -⟩)
      · exact absurd ⟨n, hn⟩ hnumber
      · exact .inl hmissing
    · rintro (hmissing | ⟨n, hn, -⟩)
      · exact .inr ⟨rfl, hmissing, rfl⟩
      · exact absurd ⟨n, hn⟩ hnumber

theorem argsFit_of_ne (hroi : cmd.cmd ≠ "set_roi") (hned : cmd.cmd ≠ "set_pos_ned")
    (hlocal : cmd.cmd ≠ "set_position_target_local_ned") : ArgsFit cmd where
  roi _ h := absurd h hroi
  posNed _ h := by
    rcases h with h | h
    · exact absurd h hned
    · exact absurd h hlocal

theorem posNed_iff (htarget : cmd.target = "fc")
    (hcmd : cmd.cmd = "set_pos_ned" ∨ cmd.cmd = "set_position_target_local_ned")
    {north east down yaw : Numeral} (hnorth : get cmd.args "north" = some (.number north))
    (heast : get cmd.args "east" = some (.number east))
    (hdown : get cmd.args "down" = some (.number down))
    (hyaw : get cmd.args "yaw" = some (.number yaw)) :
    (∀ p ∈ numbers (.setPositionTargetLocalNed ⟨f64AsF32 (numberAsF64 north).bits,
        f64AsF32 (numberAsF64 east).bits, f64AsF32 (numberAsF64 down).bits,
        f64AsF32 (numberAsF64 yaw).bits⟩), FromArgs cmd.args p) ↔ ArgsFit cmd := by
  simp only [numbers, List.forall_mem_cons, fromArgs_f32_iff hnorth, fromArgs_f32_iff heast,
    fromArgs_f32_iff hdown, fromArgs_f32_iff hyaw]
  constructor
  · rintro ⟨hn, he, hd, hy, -⟩
    constructor
    · intro _ hroi
      rcases hcmd with h | h
      · exact absurd (hroi.symm.trans h) (by decide)
      · exact absurd (hroi.symm.trans h) (by decide)
    · intro _ _ north' east' down' yaw' hnorth' heast' hdown' hyaw'
      rw [← number_inj hnorth hnorth', ← number_inj heast heast', ← number_inj hdown hdown',
        ← number_inj hyaw hyaw']
      exact ⟨hn, he, hd, hy⟩
  · intro hfit
    obtain ⟨hn, he, hd, hy⟩ := hfit.posNed htarget hcmd _ _ _ _ hnorth heast hdown hyaw
    exact ⟨hn, he, hd, hy, fun p hp => absurd hp List.not_mem_nil⟩

theorem roi_iff (htarget : cmd.target = "fc") (hcmd : cmd.cmd = "set_roi")
    (hnone : (get cmd.args "none").bind asBool ≠ some true)
    {lat lon : Numeral} (hlat : get cmd.args "lat" = some (.number lat))
    (hlon : get cmd.args "lon" = some (.number lon)) :
    (∀ p ∈ numbers (.setRoi (.globalLatLng (numberAsF64 lat).bits (numberAsF64 lon).bits
        (ArgFloat.toF32 (((get cmd.args "alt").bind (asF64 UInt32)).getD
          (ArgFloat.zero UInt32 : FiniteF64))))), FromArgs cmd.args p) ↔ ArgsFit cmd := by
  simp only [numbers, List.forall_mem_cons, fromArgs_alt_iff]
  constructor
  · rintro ⟨-, -, halt, -⟩
    constructor
    · intro _ _ _ _ _
      exact halt
    · rintro _ (h | h)
      · exact absurd (hcmd.symm.trans h) (by decide)
      · exact absurd (hcmd.symm.trans h) (by decide)
  · intro hfit
    have halt := hfit.roi htarget hcmd hnone ⟨lat, hlat⟩ ⟨lon, hlon⟩
    exact ⟨fromArgs_f64 hlat, fromArgs_f64 hlon, halt, fun p hp => absurd hp List.not_mem_nil⟩

omit [FloatReader] in
theorem bind_eq_ok {α β : Type} {x : Except BridgeError α} {f : α → Except BridgeError β} {b : β}
    (h : (do let a ← x; f a) = .ok b) : ∃ a, x = .ok a ∧ f a = .ok b := by
  cases x with
  | error e => cases h
  | ok a => exact ⟨a, rfl, h⟩

/-- What is decided for a command that is not refused. -/
inductive Decided (cmd : CommandMsg) : FcCall UInt32 → Prop
  | roiNone (hcmd : cmd.cmd = "set_roi")
      (hnone : (get cmd.args "none").bind asBool = some true) : Decided cmd (.setRoi .none)
  | roi {lat lon : Numeral} (hcmd : cmd.cmd = "set_roi")
      (hnone : (get cmd.args "none").bind asBool ≠ some true)
      (hlat : get cmd.args "lat" = some (.number lat))
      (hlon : get cmd.args "lon" = some (.number lon)) :
      Decided cmd (.setRoi (.globalLatLng (numberAsF64 lat).bits (numberAsF64 lon).bits
        (ArgFloat.toF32 (((get cmd.args "alt").bind (asF64 UInt32)).getD
          (ArgFloat.zero UInt32 : FiniteF64)))))
  | posNed {north east down yaw : Numeral}
      (hcmd : cmd.cmd = "set_pos_ned" ∨ cmd.cmd = "set_position_target_local_ned")
      (hnorth : get cmd.args "north" = some (.number north))
      (heast : get cmd.args "east" = some (.number east))
      (hdown : get cmd.args "down" = some (.number down))
      (hyaw : get cmd.args "yaw" = some (.number yaw)) :
      Decided cmd (.setPositionTargetLocalNed ⟨f64AsF32 (numberAsF64 north).bits,
        f64AsF32 (numberAsF64 east).bits, f64AsF32 (numberAsF64 down).bits,
        f64AsF32 (numberAsF64 yaw).bits⟩)
  | other {call} (hnumbers : numbers call = []) (hroi : cmd.cmd ≠ "set_roi")
      (hned : cmd.cmd ≠ "set_pos_ned") (hlocal : cmd.cmd ≠ "set_position_target_local_ned") :
      Decided cmd call

theorem decided_posNed {call : FcCall UInt32}
    (hcmd : cmd.cmd = "set_pos_ned" ∨ cmd.cmd = "set_position_target_local_ned")
    (h : (do
      let north : FiniteF64 ← number UInt32 cmd.args "north"
      let east : FiniteF64 ← number UInt32 cmd.args "east"
      let down : FiniteF64 ← number UInt32 cmd.args "down"
      let yaw : FiniteF64 ← number UInt32 cmd.args "yaw"
      .ok (.setPositionTargetLocalNed ⟨ArgFloat.toF32 north, ArgFloat.toF32 east,
        ArgFloat.toF32 down, ArgFloat.toF32 yaw⟩) : Except BridgeError (FcCall UInt32)) =
      .ok call) : Decided cmd call := by
  obtain ⟨north, hnorth, h⟩ := bind_eq_ok h
  obtain ⟨east, heast, h⟩ := bind_eq_ok h
  obtain ⟨down, hdown, h⟩ := bind_eq_ok h
  obtain ⟨yaw, hyaw, h⟩ := bind_eq_ok h
  obtain rfl := Except.ok.inj h
  obtain ⟨n, hn, rfl⟩ := of_number_eq_ok hnorth
  obtain ⟨e, he, rfl⟩ := of_number_eq_ok heast
  obtain ⟨d, hd, rfl⟩ := of_number_eq_ok hdown
  obtain ⟨y, hy, rfl⟩ := of_number_eq_ok hyaw
  exact .posNed hcmd hn he hd hy

theorem dispatch_decided {call : FcCall UInt32} (h : dispatch UInt32 FiniteF64 cmd = .ok call) :
    cmd.target = "fc" ∧ Decided cmd call := by
  unfold dispatch at h
  split at h
  case isTrue => cases h
  case isFalse htarget =>
    refine ⟨not_not.mp htarget, ?_⟩
    split at h
    case h_1 hcmd =>
      split at h
      case isTrue hnone =>
        obtain rfl := Except.ok.inj h
        exact .roiNone hcmd hnone
      case isFalse hnone =>
        obtain ⟨lat, hlat, h⟩ := bind_eq_ok h
        obtain ⟨lon, hlon, h⟩ := bind_eq_ok h
        obtain rfl := Except.ok.inj h
        obtain ⟨n, hn, rfl⟩ := of_number_eq_ok hlat
        obtain ⟨m, hm, rfl⟩ := of_number_eq_ok hlon
        exact .roi hcmd hnone hn hm
    case h_2 hcmd => exact decided_posNed (.inl hcmd) h
    case h_3 hcmd => exact decided_posNed (.inr hcmd) h
    case h_4 hcmd =>
      apply Decided.other _ (by rw [hcmd]; decide) (by rw [hcmd]; decide) (by rw [hcmd]; decide)
      split at h
      · cases h
      · dsimp only at h
        split at h
        · obtain rfl := Except.ok.inj h
          rfl
        · cases h
    case h_5 hcmd =>
      obtain rfl := Except.ok.inj h
      exact .other rfl (by rw [hcmd]; decide) (by rw [hcmd]; decide) (by rw [hcmd]; decide)
    case h_6 hcmd =>
      obtain rfl := Except.ok.inj h
      exact .other rfl (by rw [hcmd]; decide) (by rw [hcmd]; decide) (by rw [hcmd]; decide)
    case h_7 => cases h

/-- The numbers of a call are as they should be exactly where the arguments fit. -/
theorem numbers_iff {call : FcCall UInt32} (h : dispatch UInt32 FiniteF64 cmd = .ok call) :
    (∀ p ∈ numbers call, FromArgs cmd.args p) ↔ ArgsFit cmd := by
  obtain ⟨htarget, hdecided⟩ := dispatch_decided h
  cases hdecided with
  | roiNone hcmd hnone =>
    apply iff_of_true
    · intro p hp
      exact absurd hp List.not_mem_nil
    · constructor
      · intro _ _ hnot
        exact absurd hnone hnot
      · rintro _ (hned | hned)
        · exact absurd (hcmd.symm.trans hned) (by decide)
        · exact absurd (hcmd.symm.trans hned) (by decide)
  | roi hcmd hnone hlat hlon => exact roi_iff htarget hcmd hnone hlat hlon
  | posNed hcmd hnorth heast hdown hyaw => exact posNed_iff htarget hcmd hnorth heast hdown hyaw
  | other hnumbers hroi hned hlocal =>
    apply iff_of_true _ (argsFit_of_ne hroi hned hlocal)
    intro p hp
    rw [hnumbers] at hp
    exact absurd hp List.not_mem_nil

/-- What is refused has an argument missing, if it is a command with numbers. -/
theorem argsFit_of_error {e : BridgeError} (h : dispatch UInt32 FiniteF64 cmd = .error e) :
    ArgsFit cmd where
  roi htarget hcmd hnone := by
    rintro ⟨lat, hlat⟩ ⟨lon, hlon⟩
    rw [dispatch, if_neg (not_not.mpr htarget), hcmd] at h
    simp only [if_neg hnone, number_eq hlat, number_eq hlon] at h
    cases h
  posNed htarget hcmd := by
    intro north east down yaw hnorth heast hdown hyaw
    rw [dispatch, if_neg (not_not.mpr htarget)] at h
    rcases hcmd with hcmd | hcmd
    · rw [hcmd] at h
      simp only [number_eq hnorth, number_eq heast, number_eq hdown, number_eq hyaw] at h
      cases h
    · rw [hcmd] at h
      simp only [number_eq hnorth, number_eq heast, number_eq hdown, number_eq hyaw] at h
      cases h

variable {answers : Answers UInt32} {log calls : CallLog UInt32} {result : Except BridgeError Unit}

/-- The calls of a run are the one that is decided, or none. -/
theorem dispatch_of_run (hrun : (dispatchTo FiniteF64 answers cmd).run log = (result, log ++ calls)) :
    (∃ e, dispatch UInt32 FiniteF64 cmd = .error e ∧ result = .error e ∧ calls = []) ∨
      ∃ call, dispatch UInt32 FiniteF64 cmd = .ok call ∧ calls = [(call, answers log call)] ∧
        (result = .ok () ↔ answers log call = none) := by
  rw [dispatchTo_eq] at hrun
  cases hdispatch : dispatch UInt32 FiniteF64 cmd with
  | error e =>
    rw [hdispatch] at hrun
    obtain ⟨hresult, hcalls⟩ := Prod.mk.inj hrun
    exact .inl ⟨e, rfl, hresult.symm, List.append_right_eq_self.mp hcalls.symm⟩
  | ok call =>
    rw [hdispatch] at hrun
    obtain ⟨hresult, hcalls⟩ := Prod.mk.inj hrun
    refine .inr ⟨call, rfl, (List.append_cancel_left hcalls).symm, ?_⟩
    rw [← hresult]
    cases answers log call with
    | none => exact iff_of_true rfl rfl
    | some e => exact iff_of_false (fun h => by cases h) (fun h => by cases h)

theorem argsFit_of_dispatched
    (hrun : (dispatchTo FiniteF64 answers cmd).run log = (result, log ++ calls))
    (h : Dispatched cmd result calls) : ArgsFit cmd := by
  rcases dispatch_of_run hrun with ⟨e, hdispatch, -⟩ | ⟨call, hdispatch, hcalls, -⟩
  · exact argsFit_of_error hdispatch
  · rw [← numbers_iff hdispatch]
    apply h.numbers_fromArgs (call, answers log call)
    rw [hcalls]
    exact List.mem_singleton.mpr rfl

theorem dispatched_of_argsFit
    (hrun : (dispatchTo FiniteF64 answers cmd).run log = (result, log ++ calls))
    (h : ArgsFit cmd) : Dispatched cmd result calls := by
  rcases dispatch_of_run hrun with ⟨e, -, hresult, hcalls⟩ | ⟨call, hdispatch, hcalls, hresult⟩
  · subst hcalls
    constructor
    · exact Nat.zero_le _
    · intro hok
      cases hok.symm.trans hresult
    · intro _ _ _
      rfl
    · intro c hc
      exact absurd hc List.not_mem_nil
  · subst hcalls
    constructor
    · exact le_rfl
    · intro _
      rfl
    · intro e herror hanswers
      have hok := hresult.mpr (hanswers _ (List.mem_singleton.mpr rfl))
      cases hok.symm.trans herror
    · intro c hc
      rw [List.mem_singleton.mp hc]
      exact (numbers_iff hdispatch).mpr h

/-- A command makes one call at most, which decides its result, and its numbers are finite and
rounded from their arguments exactly where these fit. -/
theorem dispatched_iff (answers : Answers UInt32) (cmd : CommandMsg) (log : CallLog UInt32) :
    ∃ result calls, (dispatchTo FiniteF64 answers cmd).run log = (result, log ++ calls) ∧
      (Dispatched cmd result calls ↔ ArgsFit cmd) := by
  obtain ⟨result, calls, hrun⟩ : ∃ result calls,
      (dispatchTo FiniteF64 answers cmd).run log = (result, log ++ calls) := by
    rw [dispatchTo_eq]
    cases dispatch UInt32 FiniteF64 cmd with
    | error e =>
      refine ⟨.error e, [], ?_⟩
      rw [List.append_nil]
      rfl
    | ok call => exact ⟨_, _, rfl⟩
  exact ⟨result, calls, hrun, argsFit_of_dispatched hrun, dispatched_of_argsFit hrun⟩

end

/-- The nearest `f64` to a numeral, which this parser wants finite; a zero keeps its sign. -/
@[reducible] def nearestReader : FloatReader where
  read n :=
    let q := (Strtod.scan n.token).getD 0
    if binary64.nearest q = 0 ∧ n.token.head? = some 45 then ⟨0x8000000000000000, by decide +kernel⟩
    else if h : |binary64.nearest q| < 2 ^ binary64.top then .ofRat q h
    else ⟨0, by decide +kernel⟩

/-- `-0` -/
example : (@numberAsF64 nearestReader ⟨[45, 48], by decide⟩).bits = 0x8000000000000000 := by decide +kernel

theorem value_nearestReader {n : Numeral}
    (h : |binary64.nearest ((Strtod.scan n.token).getD 0)| < 2 ^ binary64.top) :
    (nearestReader.read n).value = binary64.nearest ((Strtod.scan n.token).getD 0) := by
  by_cases hzero : binary64.nearest ((Strtod.scan n.token).getD 0) = 0 ∧ n.token.head? = some 45
  · have hread : nearestReader.read n = ⟨0x8000000000000000, by decide +kernel⟩ := if_pos hzero
    rw [hread, hzero.1]
    decide +kernel
  · have hread : nearestReader.read n = .ofRat _ h := (if_neg hzero).trans (dif_pos h)
    rw [hread, FiniteF64.value_ofRat]

def largeNumeral : Numeral := ⟨[49, 101, 51, 57], by decide⟩

def farCommand : CommandMsg :=
  ⟨1, "fc", "set_pos_ned", .object [("north", .number largeNumeral), ("east", .number (.ofInt 0)),
    ("down", .number (.ofInt 0)), ("yaw", .number (.ofInt 0))], "console", 1⟩

theorem not_narrows_large : ¬ @Narrows nearestReader largeNumeral := by
  have hscan : (Strtod.scan largeNumeral.token).getD 0 = 10 ^ 39 := by decide +kernel
  have hfinite : |binary64.nearest (10 ^ 39)| < 2 ^ binary64.top := by decide +kernel
  have hint : largeNumeral.toInt? = none := by decide
  have hexact : @numberValue nearestReader largeNumeral = binary64.nearest (10 ^ 39) := by
    have hvalue := value_nearestReader (n := largeNumeral) (by rwa [hscan])
    rw [hscan] at hvalue
    unfold numberValue
    rw [hint]
    exact hvalue
  intro h
  unfold Narrows at h
  rw [hexact] at h
  exact absurd h.1 (by decide +kernel)

/-- The adapter is sent an infinity. -/
theorem infinite_north : ¬ ∀ [FloatReader] (answers : Answers UInt32) (cmd : CommandMsg)
    (log : CallLog UInt32), ∃ result calls,
      (dispatchTo FiniteF64 answers cmd).run log = (result, log ++ calls) ∧
        Dispatched cmd result calls := by
  intro h
  let _ := nearestReader
  obtain ⟨result, calls, hrun, hdispatched⟩ := h (fun _ _ => none) farCommand []
  have hfit := argsFit_of_dispatched hrun hdispatched
  exact not_narrows_large (hfit.posNed rfl (.inl rfl) _ _ _ _ rfl rfl rfl rfl).1

end AutoTargeting.EventBus
