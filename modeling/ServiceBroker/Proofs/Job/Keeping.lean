import ServiceBroker.Proofs.Upgrade.Walk
import ServiceBroker.Proofs.Workspace.Edits

/-! What a job keeps of the workspace that it works on. A job changes a workspace by edits and by
the states that the tool writes; the values that it brings into a configuration are its variables,
or, if it imports resources, those that the definition of these gave up. So what can be said of
these values and of those in the configurations before can be said of the configurations after,
however the job ends. -/

namespace ServiceBroker

/-- The values that a definition gives up when the tool shows it. -/
def Exchange.captured : Exchange jobInterface → Params
  | ⟨.tool run, .ok report⟩ =>
    if run.command = .showState then
      (run.workspace.parameterization.apply report.output.toList).2
    else []
  | _ => []

theorem Exchange.captured_shown {run : ToolRun} (h : run.command = .showState)
    (report : ToolReport) :
    Exchange.captured ⟨.tool run, (.ok report : Except BrokerError ToolReport)⟩ =
      (run.workspace.parameterization.apply report.output.toList).2 :=
  if_pos h

open Decoder in
/-- A literal stands for a value that names nothing twice. -/
theorem Parameterization.distinct_literalValue (literal : List Char) :
    (literalValue literal).Distinct := by
  have hJson (text : List Char) : (literalValue.jsonOr text).Distinct := by
    unfold literalValue.jsonOr
    split
    · next value hValue => exact (yields_json.decode hValue).2
    · exact Json.distinct_of_isAtom trivial
  unfold literalValue
  split
  · split
    · exact Json.distinct_of_isAtom trivial
    · exact hJson _
  · exact hJson _

theorem Parameterization.distinct_apply (scheme : Parameterization) (text : List Char) :
    ∀ field ∈ (scheme.apply text).2, field.2.Distinct := by
  intro field hField
  simp only [apply, replace] at hField
  obtain ⟨replaced, hReplaced, hGiven⟩ :=
    List.mem_filterMap.mp (Fields.mem_of_mem_ofPairs hField)
  obtain ⟨line, -, rfl⟩ := List.mem_map.mp hReplaced
  unfold replaceLine at hGiven
  split at hGiven
  · split at hGiven
    · cases hGiven
      exact distinct_literalValue _
    · cases hGiven
  · cases hGiven

theorem Exchange.captured_of_ne {run : ToolRun} (h : run.command ≠ .showState)
    (answer : Except BrokerError ToolReport) : Exchange.captured ⟨.tool run, answer⟩ = [] := by
  cases answer with
  | error e => rfl
  | ok report => exact if_neg h

theorem Parameterization.nodup_apply (scheme : Parameterization) (text : List Char) :
    (scheme.apply text).2.names.Nodup := by
  simp only [apply, replace]
  exact Fields.nodup_ofPairs _

theorem Exchange.distinct_captured (exchange : Exchange jobInterface) :
    ∀ field ∈ exchange.captured, field.2.Distinct := by
  unfold captured
  split
  · split
    · exact Parameterization.distinct_apply _ _
    · simp
  · simp

namespace Job

/-- The variables that come with a job. -/
def vars : Job → Params
  | provision | importResources _ => []
  | update vars | deprovision vars | upgrade vars => vars

/-- The values that a job brings, answered as recorded. -/
def brought (job : Job) (log : List (Exchange jobInterface)) : Params :=
  match job with
  | importResources _ => log.flatMap Exchange.captured
  | provision | update _ | deprovision _ | upgrade _ => job.vars

theorem brought_subset (job : Job) {log later : List (Exchange jobInterface)} (h : log ⊆ later) :
    job.brought log ⊆ job.brought later := by
  cases job with
  | importResources resources =>
      intro field hField
      obtain ⟨exchange, hMember, hCaptured⟩ := List.mem_flatMap.mp hField
      exact List.mem_flatMap.mpr ⟨exchange, h hMember, hCaptured⟩
  | provision | update vars | deprovision vars | upgrade vars => exact List.Subset.refl _

theorem vars_subset_brought (job : Job) (log : List (Exchange jobInterface)) :
    job.vars ⊆ job.brought log := by
  cases job with
  | importResources resources => exact List.nil_subset _
  | provision | update vars | deprovision vars | upgrade vars => exact List.Subset.refl _

namespace Body

variable {α β : Type} {p : Json → Prop} {given : Exchange jobInterface → Params}
  {settings : UpgradeSettings} {workspace reached : Workspace} {log : List (Exchange jobInterface)}

/-- What is done with a definition and the values that it gave up. -/
def adopt (version : Version) (definition : String) (values : Params) : Body Unit := do
  change (·.configure values)
  change (·.setMain definition)
  let plan ← runTool version .plan
  orFail (DeletionGuard.check plan)
  let _ ← runTool version .apply

/-- The definition that the tool shows is taken over with its values. -/
theorem takeOver_eq (settings : UpgradeSettings) (resources : List ExistingResource) :
    takeOver settings resources =
      (runTool settings.defaultVersion .importResources resources >>= fun _ =>
        runTool settings.defaultVersion .showState >>= fun shown =>
          get >>= fun workspace =>
            adopt settings.defaultVersion
              (String.ofList (workspace.parameterization.apply shown.toList).1)
              (workspace.parameterization.apply shown.toList).2) := by
  unfold takeOver
  refine bind_congr fun _ => bind_congr fun shown => bind_congr fun workspace => ?_
  generalize workspace.parameterization.apply shown.toList = given
  rfl

theorem parameterization_ranTool (workspace : Workspace) (report : ToolReport) :
    (ranTool workspace report).parameterization = workspace.parameterization :=
  rfl

/-- However the work ends, what held of the values before holds after, if it holds of those that the
answers have given. -/
def Keeps (given : Exchange jobInterface → Params) (p : Json → Prop) (work : Body α) : Prop :=
  ∀ (workspace reached : Workspace) (log : List (Exchange jobInterface))
    (outcome : Except BrokerError α), work.Ends workspace log outcome reached →
      (∀ exchange ∈ log, ∀ field ∈ given exchange, p field.2) → workspace.Holds p →
        reached.Holds p

namespace Keeps

theorem pure (value : α) : Keeps given p (Pure.pure value : Body α) := by
  intro workspace reached log outcome ends _ holds
  obtain ⟨-, -, rfl⟩ := ends_pure_iff.mp ends
  exact holds

theorem bind {first : Body α} {next : α → Body β} (hFirst : Keeps given p first)
    (hNext : ∀ value, Keeps given p (next value)) : Keeps given p (first >>= next) := by
  intro workspace reached log outcome ends answered holds
  rcases ends_bind_iff.mp ends with
    ⟨e, hFailed, -⟩ | ⟨before, after, value, between, rfl, hEnded, hRest⟩
  · exact hFirst _ _ _ _ hFailed answered holds
  · have hBetween := hFirst _ _ _ _ hEnded (fun exchange h => answered exchange (by simp [h])) holds
    exact hNext value _ _ _ _ hRest (fun exchange h => answered exchange (by simp [h])) hBetween

theorem orFail_bind {ε : Type} [Coe ε BrokerError] {result : Except ε α} {next : α → Body β}
    (hNext : ∀ value, result = .ok value → Keeps given p (next value)) :
    Keeps given p (orFail result >>= next) := by
  intro workspace reached log outcome ends answered holds
  rcases ends_orFail_bind_iff.mp ends with ⟨e, -, -, -, rfl⟩ | ⟨value, hValue, later⟩
  · exact holds
  · exact hNext value hValue _ _ _ _ later answered holds

theorem change {edit : Workspace → Except WorkspaceError Workspace}
    (hEdit : ∀ workspace edited, edit workspace = .ok edited → workspace.Holds p → edited.Holds p) :
    Keeps given p (Job.change edit) := by
  intro workspace reached log outcome ends _ holds
  obtain ⟨-, ⟨hEdited, -⟩ | ⟨e, -, -, rfl⟩⟩ := ends_change_iff.mp ends
  · exact hEdit _ _ hEdited holds
  · exact holds

theorem ranTool (report : ToolReport) (holds : workspace.Holds p) :
    (Body.ranTool workspace report).Holds p :=
  ⟨holds.definitions, holds.names, holds.values⟩

theorem runTool (version : Version) (command : Command) (resources : List ExistingResource) :
    Keeps given p (Job.runTool version command resources) := by
  intro workspace reached log outcome ends _ holds
  obtain ⟨answer, -, hAnswer⟩ := ends_runTool_iff.mp ends
  cases answer with
  | error e =>
      rw [hAnswer.2]
      exact holds
  | ok report =>
      rw [hAnswer.2]
      exact ranTool report holds

theorem walk (versions : List Version) : Keeps given p (Job.walk versions) := by
  induction versions with
  | nil => exact pure ()
  | cons version versions ih => exact (runTool version .apply []).bind fun _ => ih

theorem upgradeState : Keeps given p (Job.upgradeState settings) := by
  intro workspace reached log outcome ends answered holds
  change Ends (orFail workspace.stateVersion >>= fun current =>
    orFail (settings.stepsFrom current) >>= Job.walk) workspace log outcome reached at ends
  exact orFail_bind (fun _ _ => orFail_bind fun steps _ => walk steps) _ _ _ _ ends answered holds

theorem adopt {values : Params} (version : Version) (definition : String)
    (hValues : ∀ field ∈ values, p field.2) :
    Keeps given p (Body.adopt version definition values) := by
  refine (change fun _ _ h holds => holds.configure hValues h).bind fun _ => ?_
  refine (change fun _ _ h holds => holds.setMain h).bind fun _ => ?_
  refine (runTool _ _ _).bind fun plan => orFail_bind fun _ _ => ?_
  exact (runTool _ _ _).bind fun _ => pure ()

theorem takeOver (resources : List ExistingResource) :
    Keeps Exchange.captured p (Job.takeOver settings resources) := by
  rw [takeOver_eq]
  refine (runTool _ _ _).bind fun _ => ?_
  intro workspace reached log outcome ends answered holds
  rcases ends_bind_iff.mp ends with
    ⟨e, hShown, -⟩ | ⟨before, after, shown, between, rfl, hShown, hRest⟩
  · exact runTool _ _ _ _ _ _ _ hShown answered holds
  · have hBetween := runTool _ _ _ _ _ _ _ hShown
      (fun exchange h => answered exchange (by simp [h])) holds
    obtain ⟨answer, rfl, hAnswer⟩ := ends_runTool_iff.mp hShown
    cases answer with
    | error e => cases hAnswer.1
    | ok report =>
        obtain ⟨hOutput, rfl⟩ := hAnswer
        cases hOutput
        -- A run of the tool leaves the parameters as they are, so these are the values it answered.
        have hValues := answered _ List.mem_cons_self
        rw [Exchange.captured_shown rfl] at hValues
        rw [ends_get_bind_iff, parameterization_ranTool] at hRest
        exact adopt settings.defaultVersion _ hValues _ _ _ _ hRest
          (fun exchange h => answered exchange (List.mem_cons_of_mem _ h)) hBetween

end Keeps

/-- Every kind of job keeps what holds of the values that it brings. -/
theorem Ends.holds {job : Job} {outcome : Except BrokerError Unit}
    (ends : Ends (job.body settings) workspace log outcome reached)
    (values : ∀ field ∈ job.brought log, p field.2) (holds : workspace.Holds p) :
    reached.Holds p := by
  have hApply : Keeps (fun _ => []) p (do let _ ← Job.runTool settings.defaultVersion .apply) :=
    (Keeps.runTool _ _ _).bind fun _ => Keeps.pure ()
  have hUpgrade : Keeps (fun _ => []) p (Job.upgradeState settings) := Keeps.upgradeState
  have hNone : ∀ exchange ∈ log, ∀ field ∈ ([] : Params), p field.2 := by simp
  cases job with
  | provision => exact hApply _ _ _ _ ends hNone holds
  | update vars | upgrade vars =>
      refine hUpgrade.bind (fun _ => ?_) _ _ _ _ ends hNone holds
      exact (Keeps.change fun _ _ h holds => holds.configure values h).bind fun _ => hApply
  | deprovision vars =>
      refine hUpgrade.bind (fun _ => ?_) _ _ _ _ ends hNone holds
      exact (Keeps.runTool _ _ _).bind fun _ => Keeps.pure ()
  | importResources resources =>
      refine Keeps.takeOver resources _ _ _ _ ends (fun exchange h field hField => ?_) holds
      exact values field (List.mem_flatMap.mpr ⟨exchange, h, hField⟩)

/-- Every one of the values is in the configuration of an instance. -/
def Configured (values : Params) (workspace : Workspace) : Prop :=
  ∀ field ∈ values, ∃ i ∈ workspace.instances, field ∈ i.configuration

/-- What is configured and then applied is there in the end. -/
theorem configured_of_reapply {values : Params} {version : Version} (once : values.names.Nodup)
    (ends : Ends (reapply version values) workspace log (.ok ()) reached) :
    Configured values reached := by
  obtain ⟨_, _, _, edited, -, hChange, hRest⟩ := ends_bind_ok_iff.mp ends
  obtain ⟨-, hEdited⟩ := ends_change_ok_iff.mp hChange
  obtain ⟨_, _, _, applied, -, hApply, hDone⟩ := ends_bind_ok_iff.mp hRest
  obtain ⟨-, -, rfl⟩ := ends_pure_iff.mp hDone
  obtain ⟨report, -, -, rfl⟩ := exists_report_of_runTool hApply
  obtain ⟨first, hFirst, hConfigured⟩ := Workspace.exists_of_configure once hEdited
  exact fun field hField => ⟨first, hFirst, hConfigured field hField⟩

/-- What is adopted is there in the end, and nothing more is captured. -/
theorem configured_of_adopt {values : Params} {version : Version} {definition : String}
    (once : values.names.Nodup)
    (ends : Ends (adopt version definition values) workspace log (.ok ()) reached) :
    Configured values reached ∧ log.flatMap Exchange.captured = [] := by
  obtain ⟨_, _, _, edited, rfl, hChange, hDefine⟩ := ends_bind_ok_iff.mp ends
  obtain ⟨rfl, hEdited⟩ := ends_change_ok_iff.mp hChange
  obtain ⟨_, _, _, defined, rfl, hMain, hPlan⟩ := ends_bind_ok_iff.mp hDefine
  obtain ⟨rfl, hDefined⟩ := ends_change_ok_iff.mp hMain
  obtain ⟨_, _, _, planned, rfl, hPlanned, hGuard⟩ := ends_bind_ok_iff.mp hPlan
  obtain ⟨plan, rfl, rfl, rfl⟩ := exists_report_of_runTool hPlanned
  obtain ⟨_, -, hApply⟩ := ends_orFail_bind_ok_iff.mp hGuard
  obtain ⟨_, _, _, applied, rfl, hApplied, hDone⟩ := ends_bind_ok_iff.mp hApply
  obtain ⟨rfl, -, rfl⟩ := ends_pure_iff.mp hDone
  obtain ⟨report, rfl, -, rfl⟩ := exists_report_of_runTool hApplied
  refine ⟨fun field hField => ?_, rfl⟩
  obtain ⟨first, hFirst, hConfigured⟩ := Workspace.exists_of_configure once hEdited
  -- Neither the definition nor a run of the tool changes an instance.
  have hInstances : defined.instances = edited.instances := Workspace.instances_of_setMain hDefined
  exact ⟨first, hInstances.symm ▸ hFirst, hConfigured field hField⟩

/-- When the import of resources has succeeded the values that it captured are there. -/
theorem configured_of_takeOver {resources : List ExistingResource}
    (ends : Ends (Job.takeOver settings resources) workspace log (.ok ()) reached) :
    Configured (log.flatMap Exchange.captured) reached := by
  rw [takeOver_eq] at ends
  obtain ⟨_, _, _, imported, rfl, hImport, hShow⟩ := ends_bind_ok_iff.mp ends
  obtain ⟨imports, rfl, -, rfl⟩ := exists_report_of_runTool hImport
  obtain ⟨_, _, _, _, rfl, hShown, hAdopt⟩ := ends_bind_ok_iff.mp hShow
  obtain ⟨shown, rfl, rfl, rfl⟩ := exists_report_of_runTool hShown
  rw [ends_get_bind_iff, parameterization_ranTool] at hAdopt
  obtain ⟨configured, hNone⟩ := configured_of_adopt (Parameterization.nodup_apply _ _) hAdopt
  rw [List.flatMap_append, List.flatMap_append, hNone, List.flatMap_singleton,
    List.flatMap_singleton, Exchange.captured_of_ne (by rintro ⟨⟩), Exchange.captured_shown rfl,
    List.append_nil, List.nil_append]
  exact configured

/-- When a job has succeeded the values that it brought are configured, unless it has destroyed what
they were for. -/
theorem Ends.configured {job : Job} (retains : job.operation ≠ .deprovision)
    (once : job.vars.names.Nodup)
    (ends : Ends (job.body settings) workspace log (.ok ()) reached) :
    Configured (job.brought log) reached := by
  cases job with
  | provision => exact fun _ hField => nomatch hField
  | deprovision vars => exact absurd rfl retains
  | update vars | upgrade vars =>
      obtain ⟨_, _, _, _, -, -, hRest⟩ := ends_bind_ok_iff.mp ends
      exact configured_of_reapply once hRest
  | importResources resources => exact configured_of_takeOver ends

end Body

variable {p : Json → Prop} {settings : UpgradeSettings} {id : String} {job : Job} {record : Record}
  {loaded returned : Workspace} {log : List (Exchange jobInterface)} {result : JobResult}

theorem holds_of_prepare {prepared : Workspace} (null : p .null)
    (hVars : ∀ field ∈ job.vars, p field.2) (h : job.prepare loaded = .ok prepared)
    (holds : loaded.Holds p) : prepared.Holds p := by
  cases job with
  | deprovision vars => exact holds.restrict null hVars h
  | provision | update vars | upgrade vars | importResources resources =>
      rw [← Except.ok.inj h]
      exact holds

theorem Ended.holds (ended : Ended settings job record log result)
    (hLoaded : Workspace.ofBytes record.workspace = .ok loaded) (holds : loaded.Holds p)
    (null : p .null) (values : ∀ field ∈ job.brought log, p field.2)
    (hReturned : result.workspace? = some returned) : returned.Holds p := by
  cases ended with
  | unreadable h => cases hReturned
  | unprepared h unprepared => cases hReturned
  | @worked workspace prepared reached log outcome h hPrepare work =>
      obtain rfl := Except.ok.inj (h.symm.trans hLoaded)
      have hReached : reached = returned := by
        cases outcome <;> exact Option.some.inj hReturned
      subst hReached
      have hVars := fun field hField => values field (job.vars_subset_brought log hField)
      exact work.holds values (holds_of_prepare null hVars hPrepare holds)

end Job

end ServiceBroker
