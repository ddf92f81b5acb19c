import ServiceBroker.Proofs.Job.Course
import ServiceBroker.Proofs.Job.Keeping

/-! How an import goes. It asks for at most four runs of the tool, each at the default version: it
imports, has the state shown, plans, and applies. Between showing and planning it adopts what was
shown, and it applies only if the guard lets the plan pass. -/

namespace ServiceBroker

/-- The exchange in which a run of the tool is completed. -/
def Exchange.completing (run : ToolRun) (report : ToolReport) : Exchange jobInterface :=
  ⟨.tool run, (.ok report : Except BrokerError ToolReport)⟩

/-- What is made of a definition that was shown, with the parameters of a workspace. -/
def Workspace.definitionOf (workspace : Workspace) (shown : ToolReport) : String :=
  String.ofList (workspace.parameterization.apply shown.output.toList).1

/-- The values that a definition gives up when it gets the parameters of a workspace. -/
def Workspace.valuesOf (workspace : Workspace) (shown : ToolReport) : Params :=
  (workspace.parameterization.apply shown.output.toList).2

/-- A module with one of its definitions replaced. -/
def Module.define (m : Module) (name text : String) : Module :=
  { m with definitions := m.definitions.put name text }

/-- An instance with some variables merged into its configuration. -/
def ModuleInstance.configure (i : ModuleInstance) (vars : Params) : ModuleInstance :=
  { i with configuration := i.configuration.merge vars }

namespace Job

open Body

section

variable (settings : UpgradeSettings)

/-- A run of the tool at the default version. -/
def runOf (command : Command) (workspace : Workspace) (resources : List ExistingResource := []) :
    ToolRun :=
  { command, version := settings.defaultVersion, workspace, resources }

variable (resources : List ExistingResource) (loaded : Workspace)

/-- The workspace after the resources were imported and the state was shown, with the definition
that was shown adopted: its values have joined the configuration, and it is the main definition. -/
def Adopted (imported shown : ToolReport) (edited : Workspace) : Prop :=
  ∃ configured, (ranTool (ranTool loaded imported) shown).configure (loaded.valuesOf shown) =
    .ok configured ∧ configured.setMain (loaded.definitionOf shown) = .ok edited

/-- What an import has completed when it has been shown the state. -/
def shownLog (imported shown : ToolReport) : List (Exchange jobInterface) :=
  [.completing (runOf settings .importResources loaded resources) imported,
    .completing (runOf settings .showState (ranTool loaded imported)) shown]

/-- What an import has completed when it asks for a run of the tool. -/
inductive Reaches : List (Exchange jobInterface) → ToolRun → Prop where
  | importing : Reaches [] (runOf settings .importResources loaded resources)
  | showing (imported : ToolReport) :
      Reaches [.completing (runOf settings .importResources loaded resources) imported]
        (runOf settings .showState (ranTool loaded imported))
  | planning {imported shown : ToolReport} {edited : Workspace}
      (adopted : Adopted loaded imported shown edited) :
      Reaches (shownLog settings resources loaded imported shown) (runOf settings .plan edited)
  | applying {imported shown plan : ToolReport} {edited : Workspace}
      (adopted : Adopted loaded imported shown edited)
      (allowed : DeletionGuard.check plan.output = .ok ()) :
      Reaches
        (shownLog settings resources loaded imported shown ++
          [.completing (runOf settings .plan edited) plan])
        (runOf settings .apply (ranTool edited plan))

/-- How an import ends all of whose runs of the tool were completed. -/
inductive Concludes :
    List (Exchange jobInterface) → Except BrokerError Unit → Workspace → Prop where
  | unconfigured {imported shown : ToolReport} {e : WorkspaceError}
      (h : (ranTool (ranTool loaded imported) shown).configure (loaded.valuesOf shown) = .error e) :
      Concludes (shownLog settings resources loaded imported shown) (.error e)
        (ranTool (ranTool loaded imported) shown)
  | undefined {imported shown : ToolReport} {configured : Workspace} {e : WorkspaceError}
      (hConfigured : (ranTool (ranTool loaded imported) shown).configure (loaded.valuesOf shown) =
        .ok configured)
      (h : configured.setMain (loaded.definitionOf shown) = .error e) :
      Concludes (shownLog settings resources loaded imported shown) (.error e) configured
  | blocked {imported shown plan : ToolReport} {edited : Workspace} {e : JobError}
      (adopted : Adopted loaded imported shown edited)
      (blocked : DeletionGuard.check plan.output = .error e) :
      Concludes
        (shownLog settings resources loaded imported shown ++
          [.completing (runOf settings .plan edited) plan])
        (.error e) (ranTool edited plan)
  | applied {imported shown plan applied : ToolReport} {edited : Workspace}
      (adopted : Adopted loaded imported shown edited)
      (allowed : DeletionGuard.check plan.output = .ok ()) :
      Concludes
        (shownLog settings resources loaded imported shown ++
          [.completing (runOf settings .plan edited) plan,
            .completing (runOf settings .apply (ranTool edited plan)) applied])
        (.ok ()) (ranTool (ranTool edited plan) applied)

end

namespace Body

variable {settings : UpgradeSettings} {resources : List ExistingResource}
  {loaded workspace edited reached : Workspace} {log : List (Exchange jobInterface)}
  {outcome : Except BrokerError Unit}

/-- The first run of some work fails, or the work goes on with its output. -/
theorem ends_runTool_bind_iff {command : Command} {version : Version} {next : String → Body Unit} :
    Ends (runTool version command resources >>= next) workspace log outcome reached ↔
      (∃ e, log = [.failing { command, version, workspace, resources } e] ∧ outcome = .error e ∧
        reached = workspace) ∨
      ∃ report later,
        log = .completing { command, version, workspace, resources } report :: later ∧
        (next report.output).Ends (ranTool workspace report) later outcome reached := by
  rw [ends_bind_iff]
  constructor
  · rintro (⟨e, hFailed, rfl⟩ | ⟨before, later, output, between, rfl, hRun, hNext⟩)
    · obtain ⟨answer, rfl, hAnswer⟩ := ends_runTool_iff.mp hFailed
      cases answer with
      | error e =>
          cases hAnswer.1
          exact .inl ⟨e, rfl, rfl, hAnswer.2⟩
      | ok report => cases hAnswer.1
    · obtain ⟨report, rfl, rfl, rfl⟩ := exists_report_of_runTool hRun
      exact .inr ⟨report, later, rfl, hNext⟩
  · rintro (⟨e, rfl, rfl, rfl⟩ | ⟨report, later, rfl, hNext⟩)
    · exact .inl ⟨e, ends_runTool_iff.mpr ⟨_, rfl, rfl, rfl⟩, rfl⟩
    · exact .inr ⟨[_], later, _, _, rfl, ends_runTool_iff.mpr ⟨_, rfl, rfl, rfl⟩, hNext⟩

/-- A change is made before the work goes on, or it fails. -/
theorem ends_change_bind_iff {edit : Workspace → Except WorkspaceError Workspace}
    {next : Unit → Body Unit} :
    Ends (change edit >>= next) workspace log outcome reached ↔
      (∃ e, edit workspace = .error e ∧ log = [] ∧ outcome = .error (e : BrokerError) ∧
        reached = workspace) ∨
      ∃ edited, edit workspace = .ok edited ∧ (next ()).Ends edited log outcome reached := by
  rw [ends_bind_iff]
  constructor
  · rintro (⟨e, hFailed, rfl⟩ | ⟨before, later, value, between, rfl, hChange, hNext⟩)
    · obtain ⟨rfl, ⟨-, hOutcome⟩ | ⟨cause, hEdit, hOutcome, rfl⟩⟩ := ends_change_iff.mp hFailed
      · cases hOutcome
      · cases hOutcome
        exact .inl ⟨cause, hEdit, rfl, rfl, rfl⟩
    · obtain ⟨rfl, hEdit⟩ := ends_change_ok_iff.mp hChange
      exact .inr ⟨between, hEdit, hNext⟩
  · rintro (⟨e, hEdit, rfl, rfl, rfl⟩ | ⟨edited, hEdit, hNext⟩)
    · exact .inl ⟨_, ends_change_iff.mpr ⟨rfl, .inr ⟨e, hEdit, rfl, rfl⟩⟩, rfl⟩
    · exact .inr ⟨[], log, (), edited, rfl, ends_change_ok_iff.mpr ⟨rfl, hEdit⟩, hNext⟩

/-- An import stops at one of its runs, or concludes. -/
theorem ends_takeOver (ends : Ends (takeOver settings resources) loaded log outcome reached) :
    (∃ before run e, Reaches settings resources loaded before run ∧
        log = before ++ [.failing run e] ∧ outcome = .error e ∧ reached = run.workspace) ∨
      Concludes settings resources loaded log outcome reached := by
  rw [takeOver_eq] at ends
  rcases ends_runTool_bind_iff.mp ends with ⟨e, rfl, rfl, rfl⟩ | ⟨imported, later, rfl, hShow⟩
  · exact .inl ⟨[], _, e, .importing, rfl, rfl, rfl⟩
  rcases ends_runTool_bind_iff.mp hShow with ⟨e, rfl, rfl, rfl⟩ | ⟨shown, later, rfl, hAdopt⟩
  · exact .inl ⟨_, _, e, .showing imported, rfl, rfl, rfl⟩
  rw [ends_get_bind_iff, parameterization_ranTool, parameterization_ranTool, adopt,
    ← Workspace.definitionOf, ← Workspace.valuesOf] at hAdopt
  rcases ends_change_bind_iff.mp hAdopt with
    ⟨e, hConfigure, rfl, rfl, rfl⟩ | ⟨configured, hConfigure, hDefine⟩
  · exact .inr (.unconfigured hConfigure)
  rcases ends_change_bind_iff.mp hDefine with ⟨e, hMain, rfl, rfl, rfl⟩ | ⟨edited, hMain, hPlan⟩
  · exact .inr (.undefined hConfigure hMain)
  have adopted : Adopted loaded imported shown edited := ⟨configured, hConfigure, hMain⟩
  rcases ends_runTool_bind_iff.mp hPlan with ⟨e, rfl, rfl, rfl⟩ | ⟨plan, later, rfl, hGuard⟩
  · exact .inl ⟨_, _, e, .planning adopted, rfl, rfl, rfl⟩
  rcases ends_orFail_bind_iff.mp hGuard with ⟨e, hBlocked, rfl, rfl, rfl⟩ | ⟨_, hAllowed, hApply⟩
  · exact .inr (.blocked adopted hBlocked)
  rcases ends_runTool_bind_iff.mp hApply with ⟨e, rfl, rfl, rfl⟩ | ⟨applied, later, rfl, hDone⟩
  · exact .inl ⟨_, _, e, .applying adopted hAllowed, rfl, rfl, rfl⟩
  · obtain ⟨rfl, rfl, rfl⟩ := ends_pure_iff.mp hDone
    exact .inr (.applied adopted hAllowed)

/-- An import that was shown the state adopts it. -/
theorem ends_takeOver_of_adopt {imported shown : ToolReport}
    (ends : Ends
      (adopt settings.defaultVersion (loaded.definitionOf shown) (loaded.valuesOf shown))
      (ranTool (ranTool loaded imported) shown) log outcome reached) :
    Ends (takeOver settings resources) loaded
      (shownLog settings resources loaded imported shown ++ log) outcome reached := by
  rw [takeOver_eq]
  refine ends_runTool_bind_iff.mpr (.inr ⟨imported, _, rfl,
    ends_runTool_bind_iff.mpr (.inr ⟨shown, log, rfl, ?_⟩)⟩)
  rw [ends_get_bind_iff, parameterization_ranTool, parameterization_ranTool,
    ← Workspace.definitionOf, ← Workspace.valuesOf]
  exact ends

/-- An import can come to each of these conclusions. -/
theorem ends_takeOver_of_concludes
    (concludes : Concludes settings resources loaded log outcome reached) :
    Ends (takeOver settings resources) loaded log outcome reached := by
  have hAdopted {imported shown : ToolReport} {edited : Workspace}
      {later : List (Exchange jobInterface)} (adopted : Adopted loaded imported shown edited)
      (ends : Ends (runTool settings.defaultVersion .plan >>= fun plan =>
        orFail (DeletionGuard.check plan) >>= fun _ =>
          runTool settings.defaultVersion .apply >>= fun _ => pure ()) edited later outcome
        reached) :
      Ends (takeOver settings resources) loaded
        (shownLog settings resources loaded imported shown ++ later) outcome reached := by
    obtain ⟨configured, hConfigure, hMain⟩ := adopted
    exact ends_takeOver_of_adopt (ends_change_bind_iff.mpr (.inr ⟨_, hConfigure,
      ends_change_bind_iff.mpr (.inr ⟨_, hMain, ends⟩)⟩))
  cases concludes with
  | unconfigured h =>
      rw [← List.append_nil (shownLog ..)]
      exact ends_takeOver_of_adopt (ends_change_bind_iff.mpr (.inl ⟨_, h, rfl, rfl, rfl⟩))
  | undefined hConfigured h =>
      rw [← List.append_nil (shownLog ..)]
      exact ends_takeOver_of_adopt (ends_change_bind_iff.mpr (.inr ⟨_, hConfigured,
        ends_change_bind_iff.mpr (.inl ⟨_, h, rfl, rfl, rfl⟩)⟩))
  | blocked adopted blocked =>
      exact hAdopted adopted (ends_runTool_bind_iff.mpr (.inr ⟨_, [], rfl,
        ends_orFail_bind_iff.mpr (.inl ⟨_, blocked, rfl, rfl, rfl⟩)⟩))
  | applied adopted allowed =>
      exact hAdopted adopted (ends_runTool_bind_iff.mpr (.inr ⟨_, _, rfl,
        ends_orFail_bind_iff.mpr (.inr ⟨_, allowed, ends_runTool_bind_iff.mpr (.inr ⟨_, [], rfl,
          ends_pure_iff.mpr ⟨rfl, rfl, rfl⟩⟩)⟩)⟩))

end Body

variable {settings : UpgradeSettings} {resources : List ExistingResource} {id : String}
  {record : Record} {loaded edited : Workspace} {log before : List (Exchange jobInterface)}
  {imported shown : ToolReport} {run : ToolRun} {result : JobResult}

/-- The workspace that is planned. -/
theorem adopted_iff : Adopted loaded imported shown edited ↔
    ∃ first modules head instances, loaded.modules = first :: modules ∧
      loaded.instances = head :: instances ∧
      edited = { ranTool (ranTool loaded imported) shown with
        modules := first.define Workspace.mainDefinition (loaded.definitionOf shown) :: modules
        instances := head.configure (loaded.valuesOf shown) :: instances } := by
  constructor
  · rintro ⟨configured, hConfigure, hMain⟩
    unfold Workspace.configure at hConfigure
    split at hConfigure
    · cases hConfigure
    · next head instances hInstances =>
        cases hConfigure
        unfold Workspace.setMain at hMain
        split at hMain
        · cases hMain
        · next first modules hModules =>
            cases hMain
            exact ⟨first, modules, head, instances, hModules, hInstances, rfl⟩
  · rintro ⟨first, modules, head, instances, hModules, hInstances, rfl⟩
    have hConfigured : (ranTool (ranTool loaded imported) shown).instances = head :: instances :=
      hInstances
    have hDefined : (ranTool (ranTool loaded imported) shown).modules = first :: modules := hModules
    refine ⟨{ ranTool (ranTool loaded imported) shown with
      instances := head.configure (loaded.valuesOf shown) :: instances }, ?_, ?_⟩
    · rw [Workspace.configure, hConfigured]
      rfl
    · rw [Workspace.setMain, hDefined]
      rfl

/-- All runs of an import that concludes were completed. -/
theorem Concludes.completed {outcome : Except BrokerError Unit}
    (concludes : Concludes settings resources loaded log outcome edited) :
    ∀ exchange ∈ log, exchange.Completed := by
  cases concludes <;> simp [shownLog, Exchange.completing, Exchange.Completed]

/-- How an import ends that has loaded a workspace. -/
theorem Ended.takeOver (ended : Ended settings (.importResources resources) record log result)
    (hLoaded : Workspace.ofBytes record.workspace = .ok loaded) :
    (∃ before run e, Reaches settings resources loaded before run ∧
        log = before ++ [.failing run e] ∧
        result = .error { error := e, workspace := some run.workspace }) ∨
      ∃ outcome reached, Concludes settings resources loaded log outcome reached ∧
        result = resultOf (outcome, reached) := by
  cases ended with
  | unreadable h => cases hLoaded.symm.trans h
  | unprepared h unprepared => cases unprepared
  | worked h hPrepare work =>
      cases hLoaded.symm.trans h
      cases hPrepare
      rcases Body.ends_takeOver work with ⟨before, run, e, reaches, hLog, rfl, rfl⟩ | concludes
      · exact .inl ⟨before, run, e, reaches, hLog, rfl⟩
      · exact .inr ⟨_, _, concludes, rfl⟩

/-- Whenever an import asks for a run of the tool it has reached that run. -/
theorem reaches_of_asks {next : Except BrokerError ToolReport → JobProgram JobResult}
    (hLoaded : Workspace.ofBytes record.workspace = .ok loaded)
    (passes : ((Job.importResources resources).run settings id).Passes (.reading id record :: before)
      (.ask (I := jobInterface) (.tool run) next)) :
    Reaches settings resources loaded before run := by
  rcases (ended_of_asks hLoaded passes (.job .cancelled)).takeOver hLoaded with
    ⟨passed, other, e, reaches, hLog, -⟩ | ⟨outcome, reached, concludes, -⟩
  · obtain ⟨rfl, hLast⟩ := List.append_inj' hLog rfl
    cases hLast
    exact reaches
  · exact (not_completed_failing run _ (concludes.completed _ List.mem_concat_self)).elim

/-- How an import stands that has loaded a workspace: it asks for a run of the tool, one has
failed, or it has concluded. -/
theorem takeOver_cases {rest : JobProgram JobResult}
    (hLoaded : Workspace.ofBytes record.workspace = .ok loaded)
    (passes : ((Job.importResources resources).run settings id).Passes (.reading id record :: log)
      rest) :
    (∃ run next, rest = .ask (I := jobInterface) (.tool run) next ∧
        Reaches settings resources loaded log run) ∨
      (∃ before run e, Reaches settings resources loaded before run ∧
        log = before ++ [.failing run e] ∧
        rest = .done (.error { error := e, workspace := some run.workspace })) ∨
      ∃ outcome reached, Concludes settings resources loaded log outcome reached ∧
        rest = .done (resultOf (outcome, reached)) := by
  cases rest with
  | ask request next =>
      have hKind := ((workOn_of_passes hLoaded passes).asks (workOn_asks ..)).2
      cases request with
      | store call | now => exact hKind.1.elim
      | tool run => exact .inl ⟨run, next, rfl, reaches_of_asks hLoaded passes⟩
  | done result =>
      rcases (ended_of_passes passes).takeOver hLoaded with
        ⟨before, run, e, reaches, hLog, rfl⟩ | ⟨outcome, reached, concludes, rfl⟩
      · exact .inr (.inl ⟨before, run, e, reaches, hLog, rfl⟩)
      · exact .inr (.inr ⟨outcome, reached, concludes, rfl⟩)

end Job

/-- A plan is blocked for the resources that it deletes. -/
theorem DeletionGuard.eq_of_check {plan : String} {e : JobError} (h : check plan = .error e) :
    e = .deletionBlocked (blocked plan.toList) := by
  unfold check at h
  split at h
  · cases h
  · cases h
    rfl

end ServiceBroker
