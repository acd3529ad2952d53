import AutoTargeting.EventBus.Messages
import AutoTargeting.Control.FcLink

namespace AutoTargeting.EventBus

open Json Control

/-- What the dispatcher does with the numbers among its arguments: `as_f64`, and `as f32`. -/
class ArgFloat (F G : Type) where
  asF64 : Numeral → G
  toBits : G → UInt64
  toF32 : G → F
  zero : G

/-- `Value::get`; the index operator gives null where it gives `none`. -/
def get (args : Value) (key : String) : Option Value :=
  match args with
  | .object fs => (fs.find? fun f => f.1 = key).map (·.2)
  | _ => none

def asBool (v : Value) : Option Bool := v.flag

def asStr (v : Value) : Option String := v.text

inductive BridgeError
  | badCommand (text : String)
  | fc (e : FcError)
  deriving DecidableEq, Repr

/-- `FcBridge::need`. -/
def need (field : String) : BridgeError := .badCommand ("missing arg '" ++ field ++ "'")

def flightModeOf (name : String) : Option FlightMode :=
  match name with
  | "manual" => some .manual
  | "stabilize" | "stabilised" => some .stabilize
  | "althold" | "alt_hold" => some .altHold
  | "loiter" => some .loiter
  | "guided" => some .guided
  | "rtl" | "return" => some .rtl
  | "auto" => some .auto
  | _ => none

def asF64 (F : Type) {G : Type} [ArgFloat F G] : Value → Option G
  | .number n => some (ArgFloat.asF64 F n)
  | _ => none

/-- A number that a command needs. -/
def number (F : Type) {G : Type} [ArgFloat F G] (args : Value) (key : String) :
    Except BridgeError G :=
  match (get args key).bind (asF64 F) with
  | some x => .ok x
  | none => .error (need key)

/-- The call of the adapter that `dispatch` makes for a command, or its error before any call. -/
def dispatch (F G : Type) [ArgFloat F G] (cmd : CommandMsg) : Except BridgeError (FcCall F) :=
  if cmd.target ≠ "fc" then
    .error (.badCommand ("target '" ++ cmd.target ++ "' != 'fc'"))
  else
    match cmd.cmd with
    | "set_roi" =>
      if (get cmd.args "none").bind asBool = some true then .ok (.setRoi .none)
      else do
        let lat : G ← number F cmd.args "lat"
        let lon : G ← number F cmd.args "lon"
        let alt : G := ((get cmd.args "alt").bind (asF64 F)).getD (ArgFloat.zero F)
        .ok (.setRoi (.globalLatLng (ArgFloat.toBits F lat) (ArgFloat.toBits F lon)
          (ArgFloat.toF32 alt)))
    | "set_pos_ned" | "set_position_target_local_ned" => do
      let north : G ← number F cmd.args "north"
      let east : G ← number F cmd.args "east"
      let down : G ← number F cmd.args "down"
      let yaw : G ← number F cmd.args "yaw"
      .ok (.setPositionTargetLocalNed ⟨ArgFloat.toF32 north, ArgFloat.toF32 east,
        ArgFloat.toF32 down, ArgFloat.toF32 yaw⟩)
    | "set_mode" =>
      match (get cmd.args "mode").bind asStr with
      | none => .error (need "mode")
      | some name =>
        let name := name.map Char.toLower
        match flightModeOf name with
        | some mode => .ok (.setMode mode)
        | none => .error (.badCommand ("mode '" ++ name ++ "'"))
    | "arm" => .ok .arm
    | "disarm" => .ok .disarm
    | other => .error (.badCommand ("cmd '" ++ other ++ "'"))

/-- `BridgeStats`, and the calls that reached the adapter with its answers. -/
structure Commands (F : Type) where
  handled : ℕ
  errors : ℕ
  calls : List (FcCall F × Option FcError)
  deriving DecidableEq, Repr

/-- One command of the loop; `answer` is what the adapter would say to a call. -/
def Commands.handle {F : Type} (G : Type) [ArgFloat F G] (s : Commands F)
    (cmd : CommandMsg × Option FcError) : Commands F :=
  match dispatch F G cmd.1 with
  | .error _ => { s with errors := s.errors + 1 }
  | .ok call =>
    { handled := if cmd.2 = none then s.handled + 1 else s.handled
      errors := if cmd.2 = none then s.errors else s.errors + 1
      calls := s.calls ++ [(call, cmd.2)] }

end AutoTargeting.EventBus
