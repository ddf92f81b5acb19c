import ServiceBroker.Proofs.Job.Course
import ServiceBroker.Proofs.Workspace.Inputs

/-! What the tool is shown by a removal. The workspace is narrowed to the declared inputs before
anything is run, and then nothing of it changes but its state, however long the way to the default
version is. -/

namespace ServiceBroker

/-- The other workspace differs in its state at most. -/
def Workspace.Restated (workspace other : Workspace) : Prop :=
  other = { workspace with state := other.state }

theorem Workspace.Restated.refl (workspace : Workspace) : workspace.Restated workspace :=
  rfl

theorem Workspace.Restated.trans {first second third : Workspace} (left : first.Restated second)
    (right : second.Restated third) : first.Restated third := by
  rw [Restated] at left right
  rw [Restated, right, left]

namespace Job

namespace Body

variable {α β : Type} {settings : UpgradeSettings}

/-- However it is answered, the work leaves the workspace that it begins with and shows the tool no
other, up to the state. -/
def Steady (work : Body α) : Prop :=
  ∀ (workspace reached : Workspace) (log : List (Exchange jobInterface))
    (outcome : Except BrokerError α), work.Ends workspace log outcome reached →
      workspace.Restated reached ∧
        ∀ run answer, (⟨.tool run, answer⟩ : Exchange jobInterface) ∈ log →
          workspace.Restated run.workspace

namespace Steady

theorem pure (value : α) : Steady (Pure.pure value : Body α) := by
  intro workspace reached log outcome ends
  obtain ⟨rfl, rfl, rfl⟩ := ends_pure_iff.mp ends
  exact ⟨.refl _, by simp⟩

theorem bind {first : Body α} {next : α → Body β} (hFirst : Steady first)
    (hNext : ∀ value, Steady (next value)) : Steady (first >>= next) := by
  intro workspace reached log outcome ends
  rcases ends_bind_iff.mp ends with
    ⟨e, hFailed, rfl⟩ | ⟨before, after, value, between, rfl, hEnded, hRest⟩
  · exact hFirst _ _ _ _ hFailed
  · obtain ⟨hBetween, hBefore⟩ := hFirst _ _ _ _ hEnded
    obtain ⟨hReached, hAfter⟩ := hNext value _ _ _ _ hRest
    refine ⟨hBetween.trans hReached, fun run answer member => ?_⟩
    rcases List.mem_append.mp member with hMember | hMember
    · exact hBefore run answer hMember
    · exact hBetween.trans (hAfter run answer hMember)

theorem get_bind {next : Workspace → Body β} (hNext : ∀ workspace, Steady (next workspace)) :
    Steady (get >>= next) :=
  fun workspace reached log outcome ends => hNext workspace workspace reached log outcome ends

theorem orFail_bind {ε : Type} [Coe ε BrokerError] {result : Except ε α} {next : α → Body β}
    (hNext : ∀ value, Steady (next value)) : Steady (orFail result >>= next) := by
  intro workspace reached log outcome ends
  rcases ends_orFail_bind_iff.mp ends with ⟨e, -, rfl, rfl, rfl⟩ | ⟨value, -, later⟩
  · exact ⟨.refl _, by simp⟩
  · exact hNext value _ _ _ _ later

theorem runTool (version : Version) (command : Command) (resources : List ExistingResource) :
    Steady (Job.runTool version command resources) := by
  intro workspace reached log outcome ends
  obtain ⟨answer, rfl, hAnswer⟩ := ends_runTool_iff.mp ends
  refine ⟨?_, fun run other member => ?_⟩
  · cases answer with
    | error e =>
        obtain ⟨-, rfl⟩ := hAnswer
        exact .refl _
    | ok report =>
        obtain ⟨-, rfl⟩ := hAnswer
        rfl
  · cases List.mem_singleton.mp member
    exact .refl _

theorem walk (versions : List Version) : Steady (Job.walk versions) := by
  induction versions with
  | nil => exact pure ()
  | cons version versions ih => exact (runTool version .apply []).bind fun _ => ih

theorem upgradeState (settings : UpgradeSettings) : Steady (Job.upgradeState settings) :=
  get_bind fun _ => orFail_bind fun _ => orFail_bind walk

theorem removal (settings : UpgradeSettings) (vars : Params) :
    Steady ((deprovision vars).body settings) :=
  (upgradeState settings).bind fun _ => (runTool _ _ _).bind fun _ => pure ()

end Steady

end Body

variable {settings : UpgradeSettings} {id : String} {vars : Params} {record : Record}
  {loaded : Workspace} {log : List (Exchange jobInterface)} {rest : JobProgram JobResult}
  {run : ToolRun}

/-- The workspace is the loaded one, but for its state and for the configuration of its first
instance: that gives each input variable of the first module its value in `vars`, or `null`, and
nothing else. -/
def Narrowed (loaded : Workspace) (vars : Params) (workspace : Workspace) : Prop :=
  ∃ main modules first others names, loaded.modules = main :: modules ∧
    loaded.instances = first :: others ∧ Module.Inputs main names ∧
    workspace = { loaded with
      instances :=
        { first with
          configuration := names.map fun name => (name, (vars.get? name).getD .null) } :: others
      state := workspace.state }

theorem narrowed_of_restrict {restricted workspace : Workspace}
    (h : loaded.restrict vars = .ok restricted) (restated : restricted.Restated workspace) :
    Narrowed loaded vars workspace := by
  obtain ⟨names, first, others, hNames, hInstances, rfl⟩ := Workspace.exists_of_restrict h
  obtain ⟨main, modules, hModules, inputs⟩ := Workspace.exists_of_inputs hNames
  exact ⟨main, modules, first, others, names, hModules, hInstances, inputs, restated⟩

/-- A removal that has ended has shown the tool the narrowed workspace. -/
theorem Ended.narrowed {result : JobResult}
    (ended : Ended settings (.deprovision vars) record log result)
    (hLoaded : Workspace.ofBytes record.workspace = .ok loaded)
    {answer : Except BrokerError ToolReport}
    (member : (⟨.tool run, answer⟩ : Exchange jobInterface) ∈ log) :
    Narrowed loaded vars run.workspace := by
  cases ended with
  | unreadable | unprepared => cases member
  | worked h hPrepare work =>
      cases hLoaded.symm.trans h
      exact narrowed_of_restrict hPrepare
        ((Body.Steady.removal settings vars _ _ _ _ work).2 run answer member)

/-- So has one that is still at work. -/
theorem narrowed_of_mem (hLoaded : Workspace.ofBytes record.workspace = .ok loaded)
    (passes : ((deprovision vars).run settings id).Passes (.reading id record :: log) rest)
    {answer : Except BrokerError ToolReport}
    (member : (⟨.tool run, answer⟩ : Exchange jobInterface) ∈ log) :
    Narrowed loaded vars run.workspace := by
  obtain ⟨later, result, -, ended⟩ := exists_ended_of_passes passes
  exact ended.narrowed hLoaded (List.mem_append_left later member)

/-- And so does one that waits for the tool. -/
theorem narrowed_of_asks {next : Except BrokerError ToolReport → JobProgram JobResult}
    (hLoaded : Workspace.ofBytes record.workspace = .ok loaded)
    (passes : ((deprovision vars).run settings id).Passes (.reading id record :: log)
      (.ask (I := jobInterface) (.tool run) next)) :
    Narrowed loaded vars run.workspace :=
  (ended_of_asks hLoaded passes (.job .cancelled)).narrowed hLoaded List.mem_concat_self

/-- Without a module or an instance a removal ends once it has read the record, and returns no
workspace. -/
theorem exists_failed_removal (vars : Params)
    (h : loaded.modules = [] ∨ loaded.instances = []) :
    ∃ e : WorkspaceError, ∀ {id : String} {record : Record} {log : List (Exchange jobInterface)}
      {rest : JobProgram JobResult}, Workspace.ofBytes record.workspace = .ok loaded →
        ((deprovision vars).run settings id).Passes (.reading id record :: log) rest →
        log = [] ∧ rest = .done (.error { error := .workspace e }) := by
  obtain ⟨e, hRestrict⟩ := Workspace.exists_error_of_restrict vars h
  refine ⟨e, fun {id record log rest} hLoaded passes => ?_⟩
  have hWork := workOn_of_passes hLoaded passes
  have hPrepare : (deprovision vars).prepare loaded = .error e := hRestrict
  simp only [workOn, hPrepare] at hWork
  exact Program.done_passes_iff.mp hWork

end Job

end ServiceBroker
