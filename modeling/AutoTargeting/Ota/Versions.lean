import AutoTargeting.Library.DecimalOrder
import AutoTargeting.Ota.Install

namespace AutoTargeting.Ota

open DecimalOrder

structure ServedUpdate extends UpdateInfo where
  version : String
  binaryUrl : String
  releaseNotes : Option String
  deriving DecidableEq, Repr

/-- The whole of `OtaConfig`, except the interval, which nothing reads. -/
structure ClientConfig extends OtaConfig where
  serverUrl : String
  currentVersion : String
  enabled : Bool
  deriving DecidableEq, Repr

/-- An answer to `GET /version`: its status as a number and as a text, and its body read as
`UpdateInfo`. -/
structure VersionResponse where
  status : ℕ
  statusText : String
  json : Except String ServedUpdate

def VersionResponse.isSuccess (resp : VersionResponse) : Bool :=
  decide (200 ≤ resp.status ∧ resp.status < 300)

inductive CheckError
  | http (message : String)
  | versionCheck (message : String)
  | install (error : OtaError)
  deriving DecidableEq, Repr

namespace ClientConfig

/-- The strings are compared by their characters, which is the order of their UTF-8. -/
def checkForUpdate (config : ClientConfig) (get : String → Except String VersionResponse) :
    Except CheckError (Option ServedUpdate) :=
  if ¬ config.enabled then .ok none
  else
    match get (config.serverUrl ++ "/version") with
    | .error e => .error (.http e)
    | .ok resp =>
      if ¬ resp.isSuccess then .error (.versionCheck ("HTTP " ++ resp.statusText))
      else
        match resp.json with
        | .error e => .error (.versionCheck e)
        | .ok info => if info.version > config.currentVersion then .ok (some info) else .ok none

/-- The result, and what was given to `download_and_install`. -/
def checkAndUpdate (config : ClientConfig) (get : String → Except String VersionResponse)
    (downloadAndInstall : ServedUpdate → Except OtaError Unit) :
    Except CheckError Bool × Option ServedUpdate :=
  match config.checkForUpdate get with
  | .error e => (.error e, none)
  | .ok none => (.ok false, none)
  | .ok (some info) =>
    match downloadAndInstall info with
    | .error e => (.error (.install e), some info)
    | .ok () => (.ok true, some info)

end ClientConfig

structure Version where
  major : ℕ
  minor : ℕ
  patch : ℕ
  deriving DecidableEq, Repr

namespace Version

def text (v : Version) : String :=
  toString v.major ++ "." ++ toString v.minor ++ "." ++ toString v.patch

/-- The order of the first components that differ. -/
def Before (a b : Version) : Prop :=
  a.major < b.major ∨ a.major = b.major ∧
    (a.minor < b.minor ∨ a.minor = b.minor ∧ a.patch < b.patch)

instance (a b : Version) : Decidable (a.Before b) := inferInstanceAs (Decidable (_ ∨ _ ∧ _))

/-- The first components that differ agree with their decimals. -/
def InTextOrder (a b : Version) : Prop :=
  if a.major ≠ b.major then Agrees a.major b.major
  else if a.minor ≠ b.minor then Agrees a.minor b.minor
  else a.patch ≠ b.patch → Agrees a.patch b.patch

instance (a b : Version) : Decidable (a.InTextOrder b) := by
  unfold InTextOrder
  infer_instance

end Version

/-- The server answers with `info`. -/
def Answers (config : ClientConfig) (get : String → Except String VersionResponse)
    (info : ServedUpdate) : Prop :=
  ∃ resp, get (config.serverUrl ++ "/version") = .ok resp ∧ resp.isSuccess = true ∧
    resp.json = .ok info

/-- A newer version is found and installed, and no other. -/
structure TakesNewer (config : ClientConfig) (get : String → Except String VersionResponse)
    (info : ServedUpdate) (current server : Version) : Prop where
  found : config.checkForUpdate get = .ok (some info) ↔ current.Before server
  installed : ∀ downloadAndInstall,
    (config.checkAndUpdate get downloadAndInstall).2 = some info ↔ current.Before server
  nothingElse : ∀ downloadAndInstall installed,
    (config.checkAndUpdate get downloadAndInstall).2 = some installed → installed = info

section
variable {a b : Version} {config : ClientConfig} {get : String → Except String VersionResponse}
  {info : ServedUpdate}

theorem toList_text (v : Version) :
    v.text.toList = digits v.major ++ '.' :: (digits v.minor ++ '.' :: (digits v.patch ++ [])) := by
  simp [Version.text, digits]

theorem ends_dot (s : List Char) : Ends ('.' :: s) := by
  rintro c hc
  cases hc
  decide

theorem ends_nil : Ends [] := nofun

theorem append_lt_append_iff {p s t : List Char} : p ++ s < p ++ t ↔ s < t := by
  induction p with
  | nil => rfl
  | cons c p ih => rw [List.cons_append, List.cons_append, List.cons_lt_cons_self, ih]

/-- Up to the first difference the texts are the same. -/
theorem text_lt_iff : a.text < b.text ↔ a ≠ b ∧ (a.Before b ↔ a.InTextOrder b) := by
  rw [String.lt_iff, toList_text, toList_text]
  obtain ⟨major, minor, patch⟩ := a
  obtain ⟨major', minor', patch'⟩ := b
  unfold Version.Before Version.InTextOrder
  dsimp only
  by_cases hmajor : major = major'
  · subst hmajor
    rw [append_lt_append_iff, List.cons_lt_cons_self]
    by_cases hminor : minor = minor'
    · subst hminor
      rw [append_lt_append_iff, List.cons_lt_cons_self]
      by_cases hpatch : patch = patch'
      · subst hpatch
        simp
      · rw [digits_lt_iff hpatch ends_nil ends_nil]
        simp [hpatch]
    · rw [digits_lt_iff hminor (ends_dot _) (ends_dot _)]
      simp [hminor]
  · rw [digits_lt_iff hmajor (ends_dot _) (ends_dot _)]
    simp [hmajor]

theorem text_agrees_iff : (a.text < b.text ↔ a.Before b) ↔ a.InTextOrder b := by
  by_cases hsame : a = b
  · subst hsame
    simp [Version.Before, Version.InTextOrder]
  · rw [text_lt_iff]
    by_cases hbefore : a.Before b <;> simp [hsame, hbefore]

theorem checkForUpdate_answered (henabled : config.enabled = true)
    (hanswers : Answers config get info) :
    config.checkForUpdate get =
      if config.currentVersion < info.version then .ok (some info) else .ok none := by
  obtain ⟨resp, hget, hsuccess, hjson⟩ := hanswers
  simp [ClientConfig.checkForUpdate, henabled, hget, hsuccess, hjson]

theorem checkAndUpdate_answered (henabled : config.enabled = true)
    (hanswers : Answers config get info)
    (downloadAndInstall : ServedUpdate → Except OtaError Unit) :
    (config.checkAndUpdate get downloadAndInstall).2 =
      if config.currentVersion < info.version then some info else none := by
  rw [ClientConfig.checkAndUpdate, checkForUpdate_answered henabled hanswers]
  by_cases hless : config.currentVersion < info.version
  · simp only [if_pos hless]
    cases downloadAndInstall info <;> rfl
  · simp only [if_neg hless]

end

/-- Newer versions are taken, and no others, exactly where the versions are in the order of their
texts. -/
theorem takesNewer_iff (config : ClientConfig) (get : String → Except String VersionResponse)
    (info : ServedUpdate) (current server : Version) (henabled : config.enabled = true)
    (hcurrent : config.currentVersion = current.text) (hserver : info.version = server.text)
    (hanswers : Answers config get info) :
    TakesNewer config get info current server ↔ current.InTextOrder server := by
  have hcheck := checkForUpdate_answered henabled hanswers
  have hupdate := checkAndUpdate_answered henabled hanswers
  rw [hcurrent, hserver] at hcheck
  simp only [hcurrent, hserver] at hupdate
  have hfound : config.checkForUpdate get = .ok (some info) ↔ current.text < server.text := by
    rw [hcheck]
    split <;> simp [*]
  have hinstalled : ∀ downloadAndInstall,
      (config.checkAndUpdate get downloadAndInstall).2 = some info ↔ current.text < server.text := by
    intro downloadAndInstall
    rw [hupdate]
    split <;> simp [*]
  rw [← text_agrees_iff]
  constructor
  · intro h
    rw [← hfound, h.found]
  · intro h
    refine ⟨hfound.trans h, fun install => (hinstalled install).trans h, ?_⟩
    intro downloadAndInstall installed heq
    rw [hupdate] at heq
    split at heq
    · exact (Option.some.inj heq).symm
    · cases heq

/-- A client, and a server that always answers with this. -/
def clientAt (current : Version) : ClientConfig where
  binaryPath := ⟨["opt", "auto-targeting", "bin"], ['a', 't']⟩
  backupPath := ⟨["opt", "auto-targeting", "previous"], ['a', 't']⟩
  serverUrl := "http://localhost:9090"
  currentVersion := current.text
  enabled := true

def updateTo (server : Version) : ServedUpdate where
  checksumSha256 := "0000000000000000"
  version := server.text
  binaryUrl := "http://localhost:9090/binary"
  releaseNotes := none

def answering (info : ServedUpdate) (_ : String) : Except String VersionResponse :=
  .ok ⟨200, "200 OK", .ok info⟩

theorem answers_answering (config : ClientConfig) (info : ServedUpdate) :
    Answers config (answering info) info := ⟨_, rfl, rfl, rfl⟩

theorem takesNewer_iff_patch :
    TakesNewer (clientAt ⟨0, 1, 8⟩) (answering (updateTo ⟨0, 1, 9⟩)) (updateTo ⟨0, 1, 9⟩)
      ⟨0, 1, 8⟩ ⟨0, 1, 9⟩ ↔ Version.InTextOrder ⟨0, 1, 8⟩ ⟨0, 1, 9⟩ :=
  takesNewer_iff _ _ _ _ _ rfl rfl rfl (answers_answering _ _)

/-- 0.1.10 is taken for older than 0.1.9. -/
theorem ten_missed : ¬ ∀ config get info current server, config.enabled = true →
    config.currentVersion = Version.text current → info.version = Version.text server →
    Answers config get info → TakesNewer config get info current server := by
  intro h
  have hnewer := (h (clientAt ⟨0, 1, 9⟩) (answering (updateTo ⟨0, 1, 10⟩)) (updateTo ⟨0, 1, 10⟩)
    ⟨0, 1, 9⟩ ⟨0, 1, 10⟩ rfl rfl rfl (answers_answering _ _)).found.mpr (by decide)
  have hcheck := checkForUpdate_answered rfl
    (answers_answering (clientAt ⟨0, 1, 9⟩) (updateTo ⟨0, 1, 10⟩))
  have hless : ¬ (clientAt ⟨0, 1, 9⟩).currentVersion < (updateTo ⟨0, 1, 10⟩).version := by
    change ¬ Version.text ⟨0, 1, 9⟩ < Version.text ⟨0, 1, 10⟩
    rw [text_lt_iff]
    decide
  rw [hcheck, if_neg hless] at hnewer
  cases hnewer

end AutoTargeting.Ota
