import AutoTargeting.Cli.Lines
import AutoTargeting.EventBus.Publishers

namespace AutoTargeting.Cli

open EventBus Json

/-- `str::parse` of an `f64`, of which nothing is assumed. -/
class ParseF64 (G : Type) where
  parse : String → Option G

inductive Request (G : Type)
  | help
  | status
  | tracks
  | telemetry
  | statuses
  | send (c : ConsoleCommand G)
  | refuse (text : String)
  | quit
  | blank
  | unknown (name : String)

section
variable (G : Type) [JsonFloat G] [ParseF64 G]

/-- The arguments of `set-roi`. -/
def roiRequest (rest : List String) : Request G :=
  match rest with
  | lat :: lon :: more =>
    match (ParseF64.parse lat : Option G), (ParseF64.parse lon : Option G) with
    | some lat, some lon =>
      .send (.setRoi lat lon ((more.head?.bind ParseF64.parse).getD JsonFloat.zero))
    | _, _ => .refuse "[!] lat/lon должны быть числами"
  | _ => .refuse "usage: set-roi <lat> <lon> [alt]"

def request (line : String) : Request G :=
  match splitWhitespace line with
  | [] => .blank
  | cmd :: rest =>
    match cmd with
    | "help" | "h" | "?" => .help
    | "status" | "st" => .status
    | "tracks" => .tracks
    | "telemetry" | "tele" => .telemetry
    | "statuses" => .statuses
    | "arm" => .send .arm
    | "disarm" => .send .disarm
    | "mode" | "set-mode" =>
      match rest with
      | [] => .refuse "usage: mode <guided|rtl|loiter|auto|manual|stabilize>"
      | m :: _ => .send (.mode m)
    | "set-roi" => roiRequest G rest
    | "abort" => .send .abort
    | "quit" | "exit" | "q" => .quit
    | other => .unknown other

/-- The command that a line sends, if it sends one. -/
def command (line : String) : Option (ConsoleCommand G) :=
  match request G line with
  | .send c => some c
  | _ => none

end

/-- The counters of the console, `NEXT_ID` among them. -/
structure BusConsole where
  nextId : UInt64
  commandsSent : ℕ
  closed : Bool
  deriving DecidableEq, Repr

namespace BusConsole

def start : BusConsole := ⟨1, 0, false⟩

/-- What comes of `send_fc_command`: a publication that fails may have reached the bus. -/
inductive SendOutcome
  | sent
  | failed (published : Bool)
  deriving DecidableEq, Repr

def SendOutcome.published : SendOutcome → Bool
  | sent => true
  | failed published => published

/-- Commands are counted, but for `abort`. -/
def counts {G : Type} : ConsoleCommand G → Bool
  | .abort => false
  | _ => true

/-- `send_fc_command` and what follows it, with the message that is on the bus then. -/
def send {G : Type} [JsonFloat G] (s : BusConsole) (c : ConsoleCommand G) (outcome : SendOutcome) :
    BusConsole × Option CommandMsg :=
  ({ s with
      nextId := s.nextId + 1
      commandsSent := if outcome = .sent ∧ counts c then s.commandsSent + 1 else s.commandsSent },
    if outcome.published then some (commandMsg s.nextId c) else none)

/-- One line of `run_repl`, and `none` behind its end. -/
def onLine (G : Type) [JsonFloat G] [ParseF64 G] (s : BusConsole) (line : String)
    (outcome : SendOutcome) : Option (BusConsole × Option CommandMsg) :=
  if s.closed then none
  else
    match request G line with
    | .send c => some (s.send c outcome)
    | .quit => some ({ s with closed := true }, none)
    | _ => some (s, none)

end BusConsole

end AutoTargeting.Cli
