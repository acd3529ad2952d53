import AutoTargeting.Library.Machine
import Mathlib.Logic.Function.Basic
import Mathlib.Data.Nat.Notation

namespace AutoTargeting.Ota

open Runs

structure Path where
  dir : List String
  name : List Char
  deriving DecidableEq, Repr

namespace Path

/-- The last part without its extension: up to the last dot, unless that is its first character. -/
def fileStem (p : Path) : List Char :=
  match p.name.reverse.dropWhile (· ≠ '.') with
  | [] | ['.'] => p.name
  | _ :: stem => if p.name = ['.', '.'] then p.name else stem.reverse

def withExtension (p : Path) (extension : List Char) : Path :=
  { p with name := p.fileStem ++ '.' :: extension }

end Path

structure File where
  content : List UInt8
  mode : ℕ
  deriving DecidableEq, Repr

abbrev Fs := Path → Option File

inductive OtaError
  | http (message : String)
  | checksumMismatch (expected actual : String)
  | io (message : String)
  deriving DecidableEq, Repr

structure UpdateInfo where
  checksumSha256 : String
  deriving DecidableEq, Repr

structure OtaConfig where
  binaryPath : Path
  backupPath : Path
  deriving DecidableEq, Repr

def OtaConfig.tempPath (cfg : OtaConfig) : Path := cfg.binaryPath.withExtension ['n', 'e', 'w']

/-- `sha256_hex`: a sum in 64 bits, as 16 digits of base 16. -/
def sha256Hex (data : List UInt8) : String :=
  let hash : UInt64 := data.foldl (fun hash byte => hash * 31 + byte.toUInt64) 0
  String.ofList ((Nat.toDigits 16 hash.toNat).leftpad 16 '0')

/-- Where `download_and_install` is: before its operation of this name, or at its end. -/
inductive Phase
  | download
  | checkExists
  | copy
  | create
  | writeAll
  | syncAll
  | metadata
  | setPermissions
  | rename
  | returned (result : Except OtaError Unit)
  | dead
  deriving DecidableEq, Repr

/-- `body` is what was downloaded. -/
structure OtaState where
  fs : Fs
  phase : Phase
  body : List UInt8

/-- What comes of one operation. One that fails, or in which the process dies, leaves anything in
the file that it writes; a rename is done or it is not. -/
inductive Outcome
  | response (body : Except String (List UInt8))
  | done
  | failed (error : String) (left : Option File)
  | died (left : Option File)
  deriving DecidableEq, Repr

namespace OtaState

/-- The file that the operation of a phase writes. -/
def written (cfg : OtaConfig) : Phase → Option Path
  | .copy => some cfg.backupPath
  | .create | .writeAll | .setPermissions => some cfg.tempPath
  | _ => none

/-- The files after an operation that did not complete. -/
def leave (cfg : OtaConfig) (s : OtaState) (left : Option File) : Fs :=
  match written cfg s.phase with
  | some path => Function.update s.fs path left
  | none => s.fs

def onResponse (info : UpdateInfo) (s : OtaState) : Except String (List UInt8) → OtaState
  | .error e => { s with phase := .returned (.error (.http e)) }
  | .ok body =>
    if sha256Hex body ≠ info.checksumSha256 then
      { s with
        body := body
        phase := .returned (.error (.checksumMismatch info.checksumSha256 (sha256Hex body))) }
    else { s with body := body, phase := .checkExists }

/-- An operation that completes; `newMode` is the mode of a file that `create` makes. -/
def complete (cfg : OtaConfig) (newMode : ℕ) (s : OtaState) : Option OtaState :=
  match s.phase with
  | .checkExists =>
    some { s with phase := if (s.fs cfg.binaryPath).isSome then .copy else .create }
  | .copy => (s.fs cfg.binaryPath).map fun file =>
    { s with fs := Function.update s.fs cfg.backupPath (some file), phase := .create }
  | .create =>
    let mode := ((s.fs cfg.tempPath).map (·.mode)).getD newMode
    some { s with fs := Function.update s.fs cfg.tempPath (some ⟨[], mode⟩), phase := .writeAll }
  | .writeAll => (s.fs cfg.tempPath).map fun file =>
    { s with
      fs := Function.update s.fs cfg.tempPath (some { file with content := file.content ++ s.body })
      phase := .syncAll }
  | .syncAll => some { s with phase := .metadata }
  | .metadata => some { s with phase := .setPermissions }
  | .setPermissions => (s.fs cfg.tempPath).map fun file =>
    { s with
      fs := Function.update s.fs cfg.tempPath (some { file with mode := 0o755 })
      phase := .rename }
  | .rename => (s.fs cfg.tempPath).map fun file =>
    { s with
      fs := Function.update (Function.update s.fs cfg.tempPath none) cfg.binaryPath (some file)
      phase := .returned (.ok ()) }
  | .download | .returned _ | .dead => none

/-- An operation that fails ends the call with its error; `exists` has no error to return. -/
def fail (cfg : OtaConfig) (s : OtaState) (error : String) (left : Option File) :
    Option OtaState :=
  match s.phase with
  | .checkExists => some { s with phase := .create }
  | .copy | .create | .writeAll | .syncAll | .metadata | .setPermissions | .rename =>
    some { s with fs := s.leave cfg left, phase := .returned (.error (.io error)) }
  | .download | .returned _ | .dead => none

def die (cfg : OtaConfig) (s : OtaState) (left : Option File) : Option OtaState :=
  match s.phase with
  | .returned _ | .dead => none
  | _ => some { s with fs := s.leave cfg left, phase := .dead }

/-- `download_and_install`, operation by operation. -/
def step (cfg : OtaConfig) (info : UpdateInfo) (newMode : ℕ) (s : OtaState) :
    Outcome → Option OtaState
  | .response body => if s.phase = .download then some (s.onResponse info body) else none
  | .done => s.complete cfg newMode
  | .failed error left => s.fail cfg error left
  | .died left => s.die cfg left

end OtaState

/-- The runs of one call on these files. -/
def installing (cfg : OtaConfig) (info : UpdateInfo) (newMode : ℕ) (before : Fs) :
    Machine OtaState Outcome where
  Init s := s = ⟨before, .download, []⟩
  step := OtaState.step cfg info newMode

end AutoTargeting.Ota
