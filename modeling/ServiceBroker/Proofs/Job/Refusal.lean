import ServiceBroker.Proofs.Job.Commands
import ServiceBroker.Proofs.Upgrade.Precedence
import ServiceBroker.Proofs.Workspace.Edits

/-! Jobs that are refused, as there is no way from the version that wrote the state to the default
one. Such a job asks nothing but the record. It fails with the workspace that it would have begun
with. -/

namespace ServiceBroker

/-- What can be in the way of a job that walks, and the error that it is refused with: the state
does not say which version wrote it, or it is older than the default version and upgrades are off
or have no path. -/
inductive Obstacle (settings : UpgradeSettings) (workspace : Workspace) : BrokerError → Prop where
  | noState (h : workspace.stateVersion = .error .noState) :
      Obstacle settings workspace (.workspace .noState)
  | invalidState {reason : String} (h : workspace.stateVersion = .error (.invalidState reason)) :
      Obstacle settings workspace (.workspace (.invalidState reason))
  | versionMismatch {current : Version} (h : workspace.stateVersion = .ok current)
      (older : current < settings.defaultVersion) (off : settings.enabled = false) :
      Obstacle settings workspace
        (.job (.versionMismatch current.text settings.defaultVersion.text))
  | noUpgradePath {current : Version} (h : workspace.stateVersion = .ok current)
      (older : current < settings.defaultVersion) (on : settings.enabled = true)
      (path : settings.path = []) : Obstacle settings workspace (.job .noUpgradePath)

namespace Workspace

variable {settings : UpgradeSettings} {workspace other : Workspace} {e : BrokerError}

theorem stepsAhead_congr (h : workspace.state = other.state) :
    workspace.stepsAhead settings = other.stepsAhead settings := by
  rw [stepsAhead, stepsAhead, stateVersion_congr h]

/-- The version of a state cannot be read as there is none, or as it is none that the tool writes.
-/
theorem stateVersion_error {e : WorkspaceError} (h : workspace.stateVersion = .error e) :
    e = .noState ∨ ∃ reason, e = .invalidState reason := by
  rcases cases_of_bind_eq_error h with hState | ⟨found, -, hVersion⟩
  · unfold toolState ToolState.parse at hState
    split at hState
    · cases hState
      exact .inl rfl
    · obtain ⟨_, -, rfl⟩ := exists_of_mapError_eq_error hState
      exact .inr ⟨_, rfl⟩
  · obtain ⟨_, -, rfl⟩ := exists_of_mapError_eq_error hVersion
    exact .inr ⟨_, rfl⟩

/-- There is no way to the default version exactly if one of these is in the way. -/
theorem stepsAhead_eq_error_iff :
    workspace.stepsAhead settings = .error e ↔ Obstacle settings workspace e := by
  constructor
  · intro h
    unfold stepsAhead at h
    split at h
    · next cause hVersion =>
        cases h
        rcases stateVersion_error hVersion with rfl | ⟨reason, rfl⟩
        · exact .noState hVersion
        · exact .invalidState hVersion
    · next current hVersion =>
        obtain ⟨cause, hCause, rfl⟩ := exists_of_mapError_eq_error h
        rcases UpgradeSettings.stepsFrom_eq_error_iff.mp hCause with
          ⟨older, ⟨off, rfl⟩ | ⟨on, path, rfl⟩⟩
        · exact .versionMismatch hVersion older off
        · exact .noUpgradePath hVersion older on path
  · intro obstacle
    cases obstacle with
    | noState h | invalidState h => rw [stepsAhead, h]
    | versionMismatch h older off =>
        have hCause := UpgradeSettings.stepsFrom_eq_error_iff.mpr ⟨older, .inl ⟨off, rfl⟩⟩
        simp only [stepsAhead, h, hCause]
        rfl
    | noUpgradePath h older on path =>
        have hCause := UpgradeSettings.stepsFrom_eq_error_iff.mpr ⟨older, .inr ⟨on, path, rfl⟩⟩
        simp only [stepsAhead, h, hCause]
        rfl

end Workspace

namespace Job

variable {settings : UpgradeSettings} {id : String} {job : Job} {loaded workspace : Workspace}
  {record : Record} {log : List (Exchange jobInterface)} {result : JobResult} {e : BrokerError}

/-- How a job fails that is refused with an error. -/
def refusal (loaded : Workspace) (e : BrokerError) (job : Job) : JobFailure :=
  match job.prepare loaded with
  | .ok prepared => { error := e, workspace := some prepared }
  | .error failed => { error := .workspace failed }

namespace Body

variable {β : Type} {next : Unit → Body β}

/-- Work that walks first comes to nothing if there is no way. -/
theorem run_upgradeState_bind (refused : workspace.stepsAhead settings = .error e) :
    (upgradeState settings >>= next).run.run workspace = .done (.error e, workspace) := by
  unfold Workspace.stepsAhead at refused
  change ((orFail workspace.stateVersion >>= fun current =>
    orFail (settings.stepsFrom current) >>= walk) >>= next).run.run workspace = _
  split at refused
  · next cause hVersion =>
      cases refused
      rw [hVersion]
      rfl
  · next current hVersion =>
      obtain ⟨cause, hCause, rfl⟩ := exists_of_mapError_eq_error refused
      rw [hVersion]
      change ((orFail (settings.stepsFrom current) >>= walk) >>= next).run.run workspace = _
      rw [hCause]
      rfl

end Body

/-- All that a job does which is refused. -/
theorem workOn_of_obstacle (walks : job.walks = true) (obstacle : Obstacle settings loaded e) :
    job.workOn settings loaded = .done (.error (job.refusal loaded e)) := by
  unfold workOn refusal
  cases hPrepare : job.prepare loaded with
  | error failed => rfl
  | ok prepared =>
      have hRefused : prepared.stepsAhead settings = .error e := by
        rw [Workspace.stepsAhead_congr (state_of_prepare hPrepare)]
        exact Workspace.stepsAhead_eq_error_iff.mpr obstacle
      simp only [Body.body_eq_afterWalk settings walks, Body.run_upgradeState_bind hRefused]
      rfl

/-- A job that is refused has asked nothing but the record. -/
theorem eq_of_obstacle (passes : (job.run settings id).Passes log (.done result))
    (first : log.head? = some (.reading id record))
    (hLoaded : Workspace.ofBytes record.workspace = .ok loaded) (walks : job.walks = true)
    (obstacle : Obstacle settings loaded e) :
    log = [.reading id record] ∧ result = .error (job.refusal loaded e) := by
  obtain ⟨later, rfl⟩ := List.head?_eq_some_iff.mp first
  have hWork := workOn_of_passes hLoaded passes
  rw [workOn_of_obstacle walks obstacle] at hWork
  obtain ⟨rfl, hDone⟩ := Program.done_passes_iff.mp hWork
  cases hDone
  exact ⟨rfl, rfl⟩

/-- Unless the job is a removal, it would have begun with the workspace as it was loaded. -/
theorem refusal_of_retains (retains : job.operation ≠ .deprovision) (loaded : Workspace)
    (e : BrokerError) : job.refusal loaded e = { error := e, workspace := some loaded } := by
  cases job with
  | deprovision vars => exact (retains rfl).elim
  | provision | update vars | upgrade vars | importResources resources => rfl

/-- A removal would have begun with the declared inputs as its configuration. If a module or an
instance is missing, it has failed before. -/
theorem refusal_deprovision (vars : Params) (loaded : Workspace) (e : BrokerError) :
    (∃ failed, loaded.restrict vars = .error failed ∧
        (Job.deprovision vars).refusal loaded e = { error := .workspace failed }) ∨
      ∃ names first others, loaded.inputs = .ok names ∧ loaded.instances = first :: others ∧
        (Job.deprovision vars).refusal loaded e =
          { error := e
            workspace := some { loaded with
              instances :=
                { first with
                  configuration := names.map fun name => (name, (vars.get? name).getD .null) } ::
                    others } } := by
  have hPrepare : (Job.deprovision vars).prepare loaded = loaded.restrict vars := rfl
  rw [refusal, hPrepare]
  cases hRestricted : loaded.restrict vars with
  | error failed => exact .inl ⟨failed, rfl, rfl⟩
  | ok restricted =>
      obtain ⟨names, first, others, hNames, hInstances, rfl⟩ :=
        Workspace.exists_of_restrict hRestricted
      exact .inr ⟨names, first, others, hNames, hInstances, rfl⟩

end Job

end ServiceBroker
