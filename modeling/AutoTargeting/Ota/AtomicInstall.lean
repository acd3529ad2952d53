import AutoTargeting.Ota.Install

namespace AutoTargeting.Ota

open Runs

/-- The three files of an installation are different. -/
structure OtaConfig.Distinct (cfg : OtaConfig) : Prop where
  binary_backup : cfg.binaryPath ≠ cfg.backupPath
  binary_temp : cfg.binaryPath ≠ cfg.tempPath
  backup_temp : cfg.backupPath ≠ cfg.tempPath

/-- What must hold at every point of a call that found the files `before`. -/
structure AtomicInstall (cfg : OtaConfig) (info : UpdateInfo) (before : Fs) (s : OtaState) :
    Prop where
  whole : s.fs cfg.binaryPath = before cfg.binaryPath ∨
    sha256Hex s.body = info.checksumSha256 ∧
      (s.fs cfg.binaryPath).map (·.content) = some s.body
  unchanged : ∀ e, s.phase = .returned (.error e) → s.fs cfg.binaryPath = before cfg.binaryPath
  backedUp : s.phase = .returned (.ok ()) → ∀ old, before cfg.binaryPath = some old →
    s.fs cfg.backupPath = some old

namespace Phase

def verified : Phase → Bool
  | .download | .returned (.error _) | .dead => false
  | _ => true

def pastBackup : Phase → Bool
  | .create | .writeAll | .syncAll | .metadata | .setPermissions | .rename | .returned (.ok _) =>
    true
  | _ => false

/-- The new binary is in the temporary file. -/
def staged : Phase → Bool
  | .syncAll | .metadata | .setPermissions | .rename => true
  | _ => false

end Phase

structure Installing (cfg : OtaConfig) (info : UpdateInfo) (before : Fs) (s : OtaState) : Prop where
  old : s.phase ≠ .returned (.ok ()) → s.fs cfg.binaryPath = before cfg.binaryPath
  verified : s.phase.verified = true → sha256Hex s.body = info.checksumSha256
  empty : s.phase = .writeAll → (s.fs cfg.tempPath).map (·.content) = some []
  staged : s.phase.staged = true → (s.fs cfg.tempPath).map (·.content) = some s.body
  new : s.phase = .returned (.ok ()) → (s.fs cfg.binaryPath).map (·.content) = some s.body

variable {cfg : OtaConfig} {info : UpdateInfo} {newMode : ℕ} {before : Fs} {s s' : OtaState}
  {outcome : Outcome}

/-- What an operation leaves behind is never the binary. -/
theorem leave_binary (hdistinct : cfg.Distinct) (left : Option File) :
    s.leave cfg left cfg.binaryPath = s.fs cfg.binaryPath := by
  unfold OtaState.leave OtaState.written
  cases s.phase with
  | copy => exact Function.update_of_ne hdistinct.binary_backup _ _
  | create => exact Function.update_of_ne hdistinct.binary_temp _ _
  | writeAll => exact Function.update_of_ne hdistinct.binary_temp _ _
  | setPermissions => exact Function.update_of_ne hdistinct.binary_temp _ _
  | _ => rfl

/-- After an end without an installation, only the old binary matters. -/
theorem Installing.ended {phase : Phase} {fs : Fs}
    (hphase : phase = .dead ∨ ∃ e, phase = .returned (.error e))
    (hbinary : fs cfg.binaryPath = before cfg.binaryPath) (body : List UInt8) :
    Installing cfg info before ⟨fs, phase, body⟩ := by
  rcases hphase with rfl | ⟨e, rfl⟩ <;>
    exact ⟨fun _ => hbinary, nofun, nofun, nofun, nofun⟩

/-- What one operation did: it ended the call without an installation, or the call goes on. -/
inductive Stepped (cfg : OtaConfig) (info : UpdateInfo) (newMode : ℕ) (s : OtaState) :
    Outcome → OtaState → Prop
  | ended {outcome : Outcome} {phase : Phase} (left : Option File) (body : List UInt8)
    (hbefore : s.phase ≠ .returned (.ok ()))
    (hphase : phase = .dead ∨ ∃ e, phase = .returned (.error e)) :
    Stepped cfg info newMode s outcome ⟨s.leave cfg left, phase, body⟩
  | downloaded (body : List UInt8) (hphase : s.phase = .download)
    (hmatch : sha256Hex body = info.checksumSha256) :
    Stepped cfg info newMode s (.response (.ok body)) ⟨s.fs, .checkExists, body⟩
  | unanswered (error : String) (left : Option File) (hphase : s.phase = .checkExists) :
    Stepped cfg info newMode s (.failed error left) { s with phase := .create }
  | completed (s' : OtaState) (hcomplete : s.complete cfg newMode = some s') :
    Stepped cfg info newMode s .done s'

theorem step_stepped (hstep : (installing cfg info newMode before).step s outcome = some s') :
    Stepped cfg info newMode s outcome s' := by
  cases outcome with
  | response body =>
    simp only [installing, OtaState.step] at hstep
    split at hstep
    case isTrue hphase =>
      cases hstep
      -- nothing is written yet
      have hleave : s.leave cfg none = s.fs := by
        unfold OtaState.leave
        rw [hphase]
        rfl
      have hended : ∀ (outcome : Outcome) (e : OtaError) (body : List UInt8),
          Stepped cfg info newMode s outcome ⟨s.fs, .returned (.error e), body⟩ := by
        intro outcome e body
        rw [← hleave]
        exact .ended none body (by simp [hphase]) (.inr ⟨e, rfl⟩)
      unfold OtaState.onResponse
      split
      · exact hended _ _ _
      · split
        case isTrue => exact hended _ _ _
        case isFalse hmatch => exact .downloaded _ hphase (not_not.mp hmatch)
    case isFalse => cases hstep
  | done => exact .completed s' hstep
  | failed error left =>
    simp only [installing, OtaState.step, OtaState.fail] at hstep
    split at hstep
    case h_1 hphase =>
      cases hstep
      exact .unanswered error left hphase
    case h_9 => cases hstep
    case h_10 => cases hstep
    case h_11 => cases hstep
    all_goals
      rename_i hphase
      cases hstep
      exact .ended left _ (by simp [hphase]) (.inr ⟨_, rfl⟩)
  | died left =>
    simp only [installing, OtaState.step, OtaState.die] at hstep
    split at hstep
    case h_1 => cases hstep
    case h_2 => cases hstep
    case h_3 hreturned _ =>
      cases hstep
      exact .ended left _ (hreturned _) (.inl rfl)

theorem Installing.complete (h : Installing cfg info before s) (hdistinct : cfg.Distinct)
    (hstep : s.complete cfg newMode = some s') : Installing cfg info before s' := by
  have hverified : s.phase.verified = true → sha256Hex s.body = info.checksumSha256 := h.verified
  unfold OtaState.complete at hstep
  split at hstep
  case h_1 hphase =>
    cases hstep
    -- `exists`
    refine ⟨fun _ => h.old (by simp [hphase]), fun _ => hverified (by simp [hphase, Phase.verified]),
      ?_, ?_, ?_⟩ <;> (dsimp only; split <;> nofun)
  case h_2 hphase =>
    -- the copy writes the backup
    obtain ⟨file, hfile, rfl⟩ := Option.map_eq_some_iff.mp hstep
    refine ⟨fun _ => ?_, fun _ => hverified (by simp [hphase, Phase.verified]), nofun, nofun, nofun⟩
    dsimp only
    rw [Function.update_of_ne hdistinct.binary_backup]
    exact h.old (by simp [hphase])
  case h_3 hphase =>
    -- `create` empties the temporary file, if there is one
    cases hstep
    refine ⟨fun _ => ?_, fun _ => hverified (by simp [hphase, Phase.verified]), fun _ => ?_, nofun,
      nofun⟩
    · dsimp only
      rw [Function.update_of_ne hdistinct.binary_temp]
      exact h.old (by simp [hphase])
    · simp
  case h_4 hphase =>
    obtain ⟨file, hfile, rfl⟩ := Option.map_eq_some_iff.mp hstep
    refine ⟨fun _ => ?_, fun _ => hverified (by simp [hphase, Phase.verified]), nofun, fun _ => ?_,
      nofun⟩
    · dsimp only
      rw [Function.update_of_ne hdistinct.binary_temp]
      exact h.old (by simp [hphase])
    · have hempty := h.empty hphase
      rw [hfile] at hempty
      simp at hempty
      simp [hempty]
  case h_5 hphase =>
    cases hstep
    exact ⟨fun _ => h.old (by simp [hphase]), fun _ => hverified (by simp [hphase, Phase.verified]),
      nofun, fun _ => h.staged (by simp [hphase, Phase.staged]), nofun⟩
  case h_6 hphase =>
    cases hstep
    exact ⟨fun _ => h.old (by simp [hphase]), fun _ => hverified (by simp [hphase, Phase.verified]),
      nofun, fun _ => h.staged (by simp [hphase, Phase.staged]), nofun⟩
  case h_7 hphase =>
    obtain ⟨file, hfile, rfl⟩ := Option.map_eq_some_iff.mp hstep
    refine ⟨fun _ => ?_, fun _ => hverified (by simp [hphase, Phase.verified]), nofun, fun _ => ?_,
      nofun⟩
    · dsimp only
      rw [Function.update_of_ne hdistinct.binary_temp]
      exact h.old (by simp [hphase])
    · have hstaged := h.staged (by simp [hphase, Phase.staged])
      rw [hfile] at hstaged
      simpa using hstaged
  case h_8 hphase =>
    -- the rename: the binary is what was staged
    obtain ⟨file, hfile, rfl⟩ := Option.map_eq_some_iff.mp hstep
    refine ⟨fun hno => absurd rfl hno, fun _ => hverified (by simp [hphase, Phase.verified]), nofun,
      nofun, fun _ => ?_⟩
    have hstaged := h.staged (by simp [hphase, Phase.staged])
    rw [hfile] at hstaged
    simpa using hstaged
  case h_9 => cases hstep
  case h_10 => cases hstep
  case h_11 => cases hstep

theorem Installing.step (h : Installing cfg info before s) (hdistinct : cfg.Distinct)
    (hstep : (installing cfg info newMode before).step s outcome = some s') :
    Installing cfg info before s' := by
  cases step_stepped hstep with
  | ended left body hbefore hphase =>
    exact .ended hphase ((leave_binary hdistinct left).trans (h.old hbefore)) body
  | downloaded body hphase hmatch =>
    exact ⟨fun _ => h.old (by simp [hphase]), fun _ => hmatch, nofun, nofun, nofun⟩
  | unanswered error left hphase =>
    exact ⟨fun _ => h.old (by simp [hphase]), fun _ => h.verified (by simp [hphase, Phase.verified]),
      nofun, nofun, nofun⟩
  | completed _ hcomplete => exact h.complete hdistinct hcomplete

theorem installing_invariant {C : OtaState → Outcome → Prop} (hdistinct : cfg.Distinct)
    (h : (installing cfg info newMode before).ReachableBy C s) : Installing cfg info before s := by
  apply h.invariant
  · rintro _ rfl
    exact ⟨fun _ => rfl, nofun, nofun, nofun, nofun⟩
  · intro s outcome s' _ hs _ hstep
    exact hs.step hdistinct hstep

theorem leave_backup (hdistinct : cfg.Distinct) (hphase : s.phase ≠ .copy) (left : Option File) :
    s.leave cfg left cfg.backupPath = s.fs cfg.backupPath := by
  unfold OtaState.leave OtaState.written
  cases hs : s.phase with
  | copy => exact absurd hs hphase
  | create => exact Function.update_of_ne hdistinct.backup_temp _ _
  | writeAll => exact Function.update_of_ne hdistinct.backup_temp _ _
  | setPermissions => exact Function.update_of_ne hdistinct.backup_temp _ _
  | _ => rfl

theorem complete_backup (hdistinct : cfg.Distinct) (hphase : s.phase ≠ .copy)
    (hcomplete : s.complete cfg newMode = some s') :
    s'.fs cfg.backupPath = s.fs cfg.backupPath := by
  unfold OtaState.complete at hcomplete
  cases hs : s.phase with
  | copy => exact absurd hs hphase
  | checkExists | create | syncAll | metadata =>
    simp only [hs, Option.some.injEq] at hcomplete
    rw [← hcomplete]
    try exact Function.update_of_ne hdistinct.backup_temp _ _
  | writeAll | setPermissions =>
    simp only [hs] at hcomplete
    obtain ⟨file, hfile, rfl⟩ := Option.map_eq_some_iff.mp hcomplete
    exact Function.update_of_ne hdistinct.backup_temp _ _
  | rename =>
    simp only [hs] at hcomplete
    obtain ⟨file, hfile, rfl⟩ := Option.map_eq_some_iff.mp hcomplete
    dsimp only
    rw [Function.update_of_ne hdistinct.binary_backup.symm,
      Function.update_of_ne hdistinct.backup_temp]
  | download | returned _ | dead => simp [hs] at hcomplete

/-- Only the copy writes the backup. -/
theorem step_backup (hdistinct : cfg.Distinct) (hphase : s.phase ≠ .copy)
    (hstep : (installing cfg info newMode before).step s outcome = some s') :
    s'.fs cfg.backupPath = s.fs cfg.backupPath := by
  cases step_stepped hstep with
  | ended left => exact leave_backup hdistinct hphase left
  | downloaded => rfl
  | unanswered => rfl
  | completed _ hcomplete => exact complete_backup hdistinct hphase hcomplete

/-- How an operation that completes gets to the copy, or past the backup. -/
theorem complete_pastBackup (hcomplete : s.complete cfg newMode = some s') :
    (s'.phase = .copy → s.phase = .checkExists) ∧
    (s'.phase.pastBackup = true → s.phase.pastBackup = true ∨
      (s.phase = .copy ∧ s'.fs cfg.backupPath = s.fs cfg.binaryPath) ∨
      (s.phase = .checkExists ∧ s.fs cfg.binaryPath = none)) := by
  unfold OtaState.complete at hcomplete
  cases hs : s.phase with
  | checkExists =>
    simp only [hs, Option.some.injEq] at hcomplete
    refine ⟨fun _ => rfl, fun hpast => ?_⟩
    rw [← hcomplete] at hpast
    cases hbinary : s.fs cfg.binaryPath with
    | none => exact .inr (.inr ⟨rfl, rfl⟩)
    | some file => simp [hbinary, Phase.pastBackup] at hpast
  | copy =>
    simp only [hs] at hcomplete
    obtain ⟨file, hfile, rfl⟩ := Option.map_eq_some_iff.mp hcomplete
    exact ⟨nofun, fun _ => .inr (.inl ⟨rfl, by simp [hfile]⟩)⟩
  | create | syncAll | metadata =>
    simp only [hs, Option.some.injEq] at hcomplete
    rw [← hcomplete]
    exact ⟨nofun, fun _ => .inl rfl⟩
  | writeAll | setPermissions | rename =>
    simp only [hs] at hcomplete
    obtain ⟨file, hfile, rfl⟩ := Option.map_eq_some_iff.mp hcomplete
    exact ⟨nofun, fun _ => .inl rfl⟩
  | download | returned _ | dead => simp [hs] at hcomplete

/-- How a call gets past the backup: by the copy, or where `exists` does not see a binary. -/
theorem step_pastBackup (hstep : (installing cfg info newMode before).step s outcome = some s')
    (hpast : s'.phase.pastBackup = true) : s.phase.pastBackup = true ∨
      (s.phase = .copy ∧ s'.fs cfg.backupPath = s.fs cfg.binaryPath) ∨
      (s.phase = .checkExists ∧ (s.fs cfg.binaryPath = none ∨
        ∃ error left, outcome = .failed error left)) := by
  cases step_stepped hstep with
  | ended left body hbefore hphase => rcases hphase with rfl | ⟨e, rfl⟩ <;> cases hpast
  | downloaded => cases hpast
  | unanswered error left hphase => exact .inr (.inr ⟨hphase, .inr ⟨error, left, rfl⟩⟩)
  | completed _ hcomplete =>
    rcases (complete_pastBackup hcomplete).2 hpast with hbefore | hcopied | ⟨hexists, hnone⟩
    · exact .inl hbefore
    · exact .inr (.inl hcopied)
    · exact .inr (.inr ⟨hexists, .inl hnone⟩)

/-- The query behind `exists` does not fail. -/
def ExistsAnswers (s : OtaState) (outcome : Outcome) : Prop :=
  s.phase = .checkExists → ∀ error left, outcome ≠ .failed error left

/-- It always fails. -/
def ExistsFails (s : OtaState) (outcome : Outcome) : Prop :=
  s.phase = .checkExists → ∃ error left, outcome = .failed error left

/-- Where `exists` answers, an old binary is in the backup before anything else is written. -/
theorem backup_of_answer (hdistinct : cfg.Distinct)
    (h : (installing cfg info newMode before).ReachableBy ExistsAnswers s) :
    s.phase.pastBackup = true → ∀ old, before cfg.binaryPath = some old →
      s.fs cfg.backupPath = some old := by
  refine h.invariant (I := fun s => s.phase.pastBackup = true → ∀ old,
    before cfg.binaryPath = some old → s.fs cfg.backupPath = some old) ?_ ?_
  · rintro _ rfl
    nofun
  · intro s outcome s' hreach hs hanswers hstep hpast old hold
    have hbinary : s.phase = .copy ∨ s.phase = .checkExists →
        s.fs cfg.binaryPath = some old := by
      intro hphase
      rw [← hold]
      apply (installing_invariant hdistinct hreach).old
      rcases hphase with hphase | hphase <;> simp [hphase]
    rcases step_pastBackup hstep hpast with hbefore | ⟨hcopy, hcopied⟩ | ⟨hexists, hnone⟩
    · rw [step_backup hdistinct _ hstep]
      · exact hs hbefore old hold
      · intro hcopy
        rw [hcopy] at hbefore
        cases hbefore
    · exact hcopied.trans (hbinary (.inl hcopy))
    · rcases hnone with hnone | ⟨error, left, hfailed⟩
      · rw [hbinary (.inr hexists)] at hnone
        cases hnone
      · exact absurd hfailed (hanswers hexists error left)

/-- Where the query fails, no step begins the copy. -/
theorem step_not_copy (hfails : ExistsFails s outcome)
    (hstep : (installing cfg info newMode before).step s outcome = some s') :
    s'.phase ≠ .copy := by
  cases step_stepped hstep with
  | ended left body hbefore hphase => rcases hphase with rfl | ⟨e, rfl⟩ <;> nofun
  | downloaded => nofun
  | unanswered => nofun
  | completed _ hcomplete =>
    intro hcopy
    obtain ⟨_, _, hfailed⟩ := hfails ((complete_pastBackup hcomplete).1 hcopy)
    cases hfailed

/-- Where the query fails, the backup is never written. -/
theorem backup_of_failure (hdistinct : cfg.Distinct)
    (h : (installing cfg info newMode before).ReachableBy ExistsFails s) :
    s.fs cfg.backupPath = before cfg.backupPath := by
  have hno : s.phase ≠ .copy ∧ s.fs cfg.backupPath = before cfg.backupPath := by
    refine h.invariant (I := fun s => s.phase ≠ .copy ∧
      s.fs cfg.backupPath = before cfg.backupPath) ?_ ?_
    · rintro _ rfl
      exact ⟨nofun, rfl⟩
    · intro s outcome s' _ hs hfails hstep
      exact ⟨step_not_copy hfails hstep, (step_backup hdistinct hs.1 hstep).trans hs.2⟩
  exact hno.2

/-- At every point of every call the binary is whole, an error leaves it alone, and where the
query behind `exists` does not fail, an installation has a backup. Where it fails, an installation
has one only if the old binary was there already. -/
theorem install_atomic_when (cfg : OtaConfig) (info : UpdateInfo) (newMode : ℕ) (before : Fs)
    (hdistinct : cfg.Distinct) :
    (∀ s, (installing cfg info newMode before).ReachableBy ExistsAnswers s →
      AtomicInstall cfg info before s) ∧
    (∀ s, (installing cfg info newMode before).ReachableBy ExistsFails s →
      (AtomicInstall cfg info before s ↔ (s.phase = .returned (.ok ()) →
        ∀ old, before cfg.binaryPath = some old → before cfg.backupPath = some old))) := by
  have hwhole : ∀ {C : OtaState → Outcome → Prop} s,
      (installing cfg info newMode before).ReachableBy C s →
      (s.phase = .returned (.ok ()) → ∀ old, before cfg.binaryPath = some old →
        s.fs cfg.backupPath = some old) → AtomicInstall cfg info before s := by
    intro C s hs hbackup
    have hinv := installing_invariant hdistinct hs
    refine ⟨?_, fun e he => hinv.old (by simp [he]), hbackup⟩
    by_cases hok : s.phase = .returned (.ok ())
    · exact .inr ⟨hinv.verified (by simp [hok, Phase.verified]), hinv.new hok⟩
    · exact .inl (hinv.old hok)
  refine ⟨fun s hs => ?_, fun s hs => ?_⟩
  · apply hwhole s hs
    intro hok
    exact backup_of_answer hdistinct hs (by simp [hok, Phase.pastBackup])
  · have hbackup := backup_of_failure hdistinct hs
    constructor
    · intro hatomic
      rw [← hbackup]
      exact hatomic.backedUp
    · intro hold
      apply hwhole s hs
      rw [hbackup]
      exact hold

def boardConfig : OtaConfig := ⟨⟨[], ['a', 't']⟩, ⟨["previous"], ['a', 't']⟩⟩

theorem boardConfig_distinct : boardConfig.Distinct :=
  ⟨by decide, by decide, by decide⟩

/-- A board with a binary and no backup yet. -/
def boardFs : Fs := fun path => if path = boardConfig.binaryPath then some ⟨[1], 0o755⟩ else none

theorem existsAnswers_done (s : OtaState) : ExistsAnswers s .done := fun _ _ _ => nofun

/-- On the board everything succeeds, and the old binary is in the backup. -/
theorem install_atomic_on_board : ∃ s, s.phase = .returned (.ok ()) ∧
    s.fs boardConfig.backupPath = some ⟨[1], 0o755⟩ ∧
    AtomicInstall boardConfig ⟨sha256Hex [2]⟩ boardFs s := by
  have hchecked : (installing boardConfig ⟨sha256Hex [2]⟩ 0o644 boardFs).ReachableBy ExistsAnswers
      ⟨boardFs, .checkExists, [2]⟩ := by
    refine .step (.init rfl) (e := .response (.ok [2])) (fun _ _ _ => nofun) ?_
    simp [installing, OtaState.step, OtaState.onResponse]
  have hinstalled : ∃ s, (installing boardConfig ⟨sha256Hex [2]⟩ 0o644 boardFs).ReachableBy
      ExistsAnswers s ∧ s.phase = .returned (.ok ()) ∧
      s.fs boardConfig.backupPath = some ⟨[1], 0o755⟩ := by
    refine ⟨_, .step (.step (.step (.step (.step (.step (.step (.step hchecked
      (existsAnswers_done _) rfl) (existsAnswers_done _) rfl) (existsAnswers_done _) rfl)
      (existsAnswers_done _) rfl) (existsAnswers_done _) rfl) (existsAnswers_done _) rfl)
      (existsAnswers_done _) rfl) (existsAnswers_done _) rfl, rfl, rfl⟩
  obtain ⟨s, hs, hok, hbackup⟩ := hinstalled
  exact ⟨s, hok, hbackup,
    (install_atomic_when boardConfig _ 0o644 boardFs boardConfig_distinct).1 s hs⟩

/-- The query behind `exists` fails, and everything after it succeeds. -/
theorem install_without_backup :
    ¬ ∀ (cfg : OtaConfig) (info : UpdateInfo) (newMode : ℕ) (before : Fs), cfg.Distinct →
      ∀ s, (installing cfg info newMode before).Reachable s → AtomicInstall cfg info before s := by
  intro hall
  have hchecked : (installing boardConfig ⟨sha256Hex [2]⟩ 0o644 boardFs).Reachable
      ⟨boardFs, .checkExists, [2]⟩ := by
    refine .step (.init rfl) (e := .response (.ok [2])) trivial ?_
    simp [installing, OtaState.step, OtaState.onResponse]
  have hcreate : (installing boardConfig ⟨sha256Hex [2]⟩ 0o644 boardFs).Reachable
      ⟨boardFs, .create, [2]⟩ := .step hchecked (e := .failed "Input/output error" none) trivial rfl
  have hinstalled : ∃ s, (installing boardConfig ⟨sha256Hex [2]⟩ 0o644 boardFs).Reachable s ∧
      s.phase = .returned (.ok ()) ∧ s.fs boardConfig.backupPath = none := by
    refine ⟨_, .step (e := .done) (.step (e := .done) (.step (e := .done) (.step (e := .done)
      (.step (e := .done) (.step (e := .done) hcreate trivial rfl) trivial rfl) trivial rfl)
      trivial rfl) trivial rfl) trivial rfl, rfl, rfl⟩
  obtain ⟨s, hs, hok, hnone⟩ := hinstalled
  have hbackup := (hall _ _ _ _ boardConfig_distinct s hs).backedUp hok ⟨[1], 0o755⟩ rfl
  rw [hnone] at hbackup
  cases hbackup

end AutoTargeting.Ota
