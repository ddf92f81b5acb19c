import ServiceBroker.Proofs.Broker.Move
import ServiceBroker.Proofs.Job.Ending
import ServiceBroker.Proofs.Upgrade.Path

/-! Jobs whose tool follows a script. The script may be another one at every run, so a run may fail
wherever it likes; a run that writes a state writes its version into it. A job that fails on its way
to the default version has got as far as some version on the way and has left the state of that
version; a job that succeeds has run the default version last. -/

namespace ServiceBroker

/-- The tool follows some script. -/
def recording : ToolBehavior := fun run answer =>
  ∃ (script : ScriptedTool) (reason : Option String), answer = script.conclude run reason

/-- The version of an application that was completed. -/
def Exchange.applied? : Exchange jobInterface → Option Version
  | ⟨.tool run, .ok _⟩ => if run.command = .apply then some run.version else none
  | _ => none

/-- The versions that were applied, in order; applications that failed or were cancelled do not
count. -/
def appliedVersions (log : List (Exchange jobInterface)) : List Version :=
  log.filterMap Exchange.applied?

/-- The state after some versions were applied is that of the last one. -/
inductive Stamped (before : Bytes) : List Version → Bytes → Prop where
  | untouched : Stamped before [] before
  | written (passed : List Version) (version : Version) (outputs : Params) :
      Stamped before (passed ++ [version]) (ToolState.document version outputs)

variable {α : Type} {settings : UpgradeSettings} {workspace reached : Workspace}
  {version current : Version} {command : Command} {resources : List ExistingResource}
  {log : List (Exchange jobInterface)}

@[simp]
theorem appliedVersions_append (before after : List (Exchange jobInterface)) :
    appliedVersions (before ++ after) = appliedVersions before ++ appliedVersions after :=
  List.filterMap_append

theorem Stamped.cons {before after : Bytes} {outputs : Params} {passed : List Version}
    (h : Stamped (ToolState.document version outputs) passed after) :
    Stamped before (version :: passed) after := by
  cases h with
  | untouched => exact .written [] version outputs
  | written passed last outputs => exact .written (version :: passed) last outputs

/-- Where nothing was applied the state is what it was. -/
theorem Stamped.eq_of_nil {before after : Bytes} (h : Stamped before [] after) : after = before := by
  generalize hNone : ([] : List Version) = passed at h
  cases h with
  | untouched => rfl
  | written passed version outputs => simp at hNone

/-- The version of a workspace is that of its state. -/
theorem Workspace.stateVersion_congr {first second : Workspace} (h : first.state = second.state) :
    first.stateVersion = second.stateVersion := by
  rw [Workspace.stateVersion, Workspace.stateVersion, Workspace.toolState, Workspace.toolState, h]

/-- A run of a scripted tool fails or leaves what the script says. -/
theorem Exchange.Allowed.cases {run : ToolRun} {answer : Except BrokerError ToolReport}
    (h : Exchange.Allowed recording ⟨.tool run, answer⟩) :
    (∃ e, answer = .error e) ∨ ∃ script : ScriptedTool, answer = .ok (script.report run) := by
  rcases h with rfl | ⟨script, reason, rfl⟩
  · exact .inl ⟨_, rfl⟩
  · cases reason with
    | none => exact .inr ⟨script, rfl⟩
    | some reason => exact .inl ⟨_, rfl⟩

namespace Job.Body

/-- What a run of the tool has left that was completed. -/
theorem exists_report_of_ends {output : String}
    (ends : Ends (runTool version command resources) workspace log (.ok output) reached)
    (allowed : ∀ exchange ∈ log, exchange.Allowed recording) :
    ∃ (run : ToolRun) (script : ScriptedTool), run.command = command ∧ run.version = version ∧
      log = [⟨.tool run, (.ok (script.report run) : Except BrokerError ToolReport)⟩] ∧
      reached = ranTool workspace (script.report run) := by
  obtain ⟨report, rfl, -, rfl⟩ := exists_report_of_runTool ends
  rcases (allowed _ (List.mem_singleton_self _)).cases with ⟨e, hAnswer⟩ | ⟨script, hAnswer⟩
  · cases hAnswer
  · cases hAnswer
    exact ⟨_, script, rfl, rfl, rfl, rfl⟩

/-- An application that was completed. -/
theorem ends_apply_ok {output : String}
    (ends : Ends (runTool version .apply resources) workspace log (.ok output) reached)
    (allowed : ∀ exchange ∈ log, exchange.Allowed recording) :
    appliedVersions log = [version] ∧
      ∃ outputs, reached.state = ToolState.document version outputs := by
  obtain ⟨run, script, hCommand, rfl, rfl, rfl⟩ := exists_report_of_ends ends allowed
  refine ⟨?_, script.outputs, ?_⟩
  · simp [appliedVersions, Exchange.applied?, hCommand]
  · simp [ranTool, ScriptedTool.report, hCommand]

/-- A run of the tool that was not completed. -/
theorem ends_runTool_error {e : BrokerError}
    (ends : Ends (runTool version command resources) workspace log (.error e) reached) :
    appliedVersions log = [] ∧ reached = workspace := by
  obtain ⟨answer, rfl, h⟩ := ends_runTool_iff.mp ends
  cases answer with
  | error e => exact ⟨rfl, h.2⟩
  | ok report => cases h.1

/-- A walk gets as far as some version on the way. -/
theorem ends_walk {versions : List Version} {outcome : Except BrokerError Unit}
    (ends : Ends (walk versions) workspace log outcome reached)
    (allowed : ∀ exchange ∈ log, exchange.Allowed recording) :
    ∃ rest, versions = appliedVersions log ++ rest ∧
      Stamped workspace.state (appliedVersions log) reached.state ∧
      (outcome = .ok () → rest = []) := by
  induction versions generalizing workspace log with
  | nil =>
      obtain ⟨rfl, rfl, rfl⟩ := ends_pure_iff.mp ends
      exact ⟨[], rfl, .untouched, fun _ => rfl⟩
  | cons version versions ih =>
      rcases ends_bind_iff.mp ends with
        ⟨e, hFirst, rfl⟩ | ⟨before, after, output, between, rfl, hFirst, hRest⟩
      · obtain ⟨hLog, rfl⟩ := ends_runTool_error hFirst
        rw [hLog]
        exact ⟨version :: versions, rfl, .untouched, by rintro ⟨⟩⟩
      · have allowedFirst exchange (h : exchange ∈ before) := allowed exchange (by simp [h])
        have allowedRest exchange (h : exchange ∈ after) := allowed exchange (by simp [h])
        obtain ⟨hLog, outputs, hState⟩ := ends_apply_ok hFirst allowedFirst
        obtain ⟨rest, hVersions, hStamped, hDone⟩ := ih hRest allowedRest
        rw [hState] at hStamped
        rw [appliedVersions_append, hLog]
        exact ⟨rest, by rw [hVersions]; rfl, hStamped.cons, hDone⟩

/-- The walk to the default version begins where the state is. -/
theorem ends_upgradeState_iff {outcome : Except BrokerError Unit}
    (enabled : settings.enabled = true) (path : settings.path ≠ []) :
    Ends (upgradeState settings) workspace log outcome reached ↔
      (∃ e, workspace.stateVersion = .error e ∧ log = [] ∧ outcome = .error (e : BrokerError) ∧
          reached = workspace) ∨
        ∃ current, workspace.stateVersion = .ok current ∧
          Ends (walk (settings.ahead current)) workspace log outcome reached := by
  change Ends (orFail workspace.stateVersion >>= fun current =>
    orFail (settings.stepsFrom current) >>= walk) workspace log outcome reached ↔ _
  rw [ends_orFail_bind_iff]
  refine or_congr_right (exists_congr fun current => and_congr_right fun _ => ?_)
  rw [settings.stepsFrom_eq_ahead enabled path current, ends_orFail_bind_iff]
  simp

/-- A change of the configuration leaves the state alone. -/
theorem state_of_configure {vars : Params} (h : workspace.configure vars = .ok reached) :
    reached.state = workspace.state := by
  unfold Workspace.configure at h
  split at h
  · cases h
  · cases h
    rfl

/-- Sets variables and applies a version. -/
def reapply (version : Version) (vars : Params) : Body Unit := do
  change (·.configure vars)
  let _ ← runTool version .apply

/-- The version was applied, or the state is what it was. -/
theorem ends_reapply {vars : Params} {outcome : Except BrokerError Unit}
    (ends : Ends (reapply version vars) workspace log outcome reached)
    (allowed : ∀ exchange ∈ log, exchange.Allowed recording) :
    (outcome = .ok () ∧ appliedVersions log = [version]) ∨
      ∃ e, outcome = .error e ∧ appliedVersions log = [] ∧ reached.state = workspace.state := by
  rcases ends_bind_iff.mp ends with
    ⟨e, hChange, rfl⟩ | ⟨changed, last, _, configured, rfl, hChange, hLast⟩
  · obtain ⟨rfl, ⟨-, hOutcome⟩ | ⟨_, -, -, rfl⟩⟩ := ends_change_iff.mp hChange
    · cases hOutcome
    · exact .inr ⟨e, rfl, rfl, rfl⟩
  · obtain ⟨rfl, ⟨hConfigured, -⟩ | ⟨_, -, hOutcome, -⟩⟩ := ends_change_iff.mp hChange
    · rcases ends_bind_iff.mp hLast with
        ⟨e, hApply, rfl⟩ | ⟨applied, ended, _, final, rfl, hApply, hEnd⟩
      · obtain ⟨hLog, rfl⟩ := ends_runTool_error hApply
        exact .inr ⟨e, rfl, hLog, state_of_configure hConfigured⟩
      · obtain ⟨rfl, rfl, rfl⟩ := ends_pure_iff.mp hEnd
        obtain ⟨hLog, -⟩ := ends_apply_ok hApply fun exchange h => allowed exchange (by simp [h])
        exact .inl ⟨rfl, by simpa using hLog⟩
    · cases hOutcome

/-- An update, or an upgrade, brings the state to the default version and applies that one. -/
theorem body_update (settings : UpgradeSettings) (vars : Params) :
    Job.body settings (.update vars) =
      (upgradeState settings >>= fun _ => reapply settings.defaultVersion vars) :=
  rfl

theorem body_upgrade (settings : UpgradeSettings) (vars : Params) :
    Job.body settings (.upgrade vars) = Job.body settings (.update vars) :=
  rfl

/-- An update has either done nothing, or got as far as some version on the way, or applied the
default version after all that lay ahead. -/
theorem ends_update {vars : Params} {outcome : Except BrokerError Unit}
    (ends : Ends (Job.body settings (.update vars)) workspace log outcome reached)
    (allowed : ∀ exchange ∈ log, exchange.Allowed recording)
    (enabled : settings.enabled = true) (path : settings.path ≠ []) :
    (∃ e, workspace.stateVersion = .error e ∧ appliedVersions log = [] ∧
        outcome = .error (e : BrokerError) ∧ reached = workspace) ∨
      ∃ current, workspace.stateVersion = .ok current ∧
        ((outcome = .ok () ∧
            appliedVersions log = settings.ahead current ++ [settings.defaultVersion]) ∨
          ∃ e rest, outcome = .error e ∧ settings.ahead current = appliedVersions log ++ rest ∧
            Stamped workspace.state (appliedVersions log) reached.state) := by
  rw [body_update] at ends
  rcases ends_bind_iff.mp ends with
    ⟨e, hWalk, rfl⟩ | ⟨walked, last, _, between, rfl, hWalk, hLast⟩
  · rcases (ends_upgradeState_iff enabled path).mp hWalk with
      ⟨e, hVersion, rfl, hOutcome, rfl⟩ | ⟨current, hVersion, hWalk⟩
    · exact .inl ⟨e, hVersion, rfl, congrArg _ (Except.error.inj hOutcome), rfl⟩
    · obtain ⟨rest, hAhead, hStamped, -⟩ := ends_walk hWalk allowed
      exact .inr ⟨current, hVersion, .inr ⟨e, rest, rfl, hAhead, hStamped⟩⟩
  · rcases (ends_upgradeState_iff enabled path).mp hWalk with
      ⟨e, -, -, hOutcome, -⟩ | ⟨current, hVersion, hWalk⟩
    · cases hOutcome
    · have allowedWalk exchange (h : exchange ∈ walked) := allowed exchange (by simp [h])
      have allowedLast exchange (h : exchange ∈ last) := allowed exchange (by simp [h])
      obtain ⟨rest, hAhead, hStamped, hDone⟩ := ends_walk hWalk allowedWalk
      obtain rfl := hDone rfl
      rw [List.append_nil] at hAhead
      refine .inr ⟨current, hVersion, ?_⟩
      rw [appliedVersions_append, hAhead]
      rcases ends_reapply hLast allowedLast with ⟨rfl, hLog⟩ | ⟨e, rfl, hLog, hState⟩
      · exact .inl ⟨rfl, by rw [hLog]⟩
      · rw [hLog, hState, List.append_nil]
        exact .inr ⟨e, [], rfl, by simp, hStamped⟩

end Job.Body

end ServiceBroker
