import ServiceBroker.Proofs.Broker.Interruption
import ServiceBroker.Proofs.Job.Takeover

/-! An import at work, told to stop at any moment or never. The tool imports, shows the state,
plans and applies, in this order and each at the default version. It plans with what was shown, and
it does not apply unless the guard has let the plan pass. -/

namespace ServiceBroker

/-- A run of the tool, as it is noted. -/
def ToolRun.call (run : ToolRun) : ToolCall :=
  { command := run.command, version := run.version }

/-- The run of the tool that was asked for. -/
def Exchange.run? : Exchange jobInterface → Option ToolRun
  | ⟨.tool run, _⟩ => some run
  | _ => none

/-- The run of the tool that a program asks for next. -/
def JobProgram.run? : JobProgram JobResult → Option ToolRun
  | .ask (.tool run) _ => some run
  | _ => none

/-- The commands of an import. -/
def importCalls (settings : UpgradeSettings) : List ToolCall :=
  [Command.importResources, .showState, .plan, .apply].map fun command =>
    { command, version := settings.defaultVersion }

theorem toolCalls_eq_map (log : List (Exchange jobInterface)) :
    toolCalls log = (log.filterMap Exchange.run?).map ToolRun.call := by
  rw [toolCalls, List.map_filterMap]
  congr 1
  funext exchange
  obtain ⟨request, reply⟩ := exchange
  cases request <;> rfl

namespace Definitions

theorem lookup_put_self (definitions : Definitions) (name text : String) :
    (definitions.put name text).lookup name = some text := by
  induction definitions with
  | nil => simp [put]
  | cons head rest ih =>
      obtain ⟨known, old⟩ := head
      unfold put
      split
      · simp
      · next other =>
          split
          · simp
          · rw [List.lookup_cons, beq_false_of_ne other]
            exact ih

theorem lookup_put_of_ne (definitions : Definitions) {name other : String} (text : String)
    (h : other ≠ name) : (definitions.put name text).lookup other = definitions.lookup other := by
  have hOther : (other == name) = false := beq_false_of_ne h
  induction definitions with
  | nil => simp [put, List.lookup_cons, hOther]
  | cons head rest ih =>
      obtain ⟨known, old⟩ := head
      unfold put
      split
      · next same =>
          subst same
          simp [List.lookup_cons, hOther]
      · split
        · simp [List.lookup_cons, hOther]
        · rw [List.lookup_cons, List.lookup_cons, ih]

end Definitions

/-- A definition that was replaced is the new one. -/
theorem Module.lookup_define (m : Module) (name text : String) :
    (m.define name text).definitions.lookup name = some text :=
  Definitions.lookup_put_self ..

/-- The other definitions are as they were. -/
theorem Module.lookup_define_of_ne (m : Module) {name other : String} (text : String)
    (h : other ≠ name) :
    (m.define name text).definitions.lookup other = m.definitions.lookup other :=
  Definitions.lookup_put_of_ne _ _ h

/-- The later one of two values counts. -/
theorem ModuleInstance.get?_configure (i : ModuleInstance) (vars : Params) (name : String) :
    (i.configure vars).configuration.get? name =
      ((Fields.ofPairs vars).get? name).or (i.configuration.get? name) :=
  Fields.get?_merge ..

namespace Job

/-- A run of a command was completed. -/
def Completes (log : List (Exchange jobInterface)) (command : Command) (run : ToolRun)
    (report : ToolReport) : Prop :=
  run.command = command ∧ .completing run report ∈ log

section

variable {first second log : List (Exchange jobInterface)} {command : Command} {run asked : ToolRun}
  {report given : ToolReport}

@[simp]
theorem not_completes_nil : ¬Completes [] command run report := by
  simp [Completes]

@[simp]
theorem completes_append_iff : Completes (first ++ second) command run report ↔
    Completes first command run report ∨ Completes second command run report := by
  simp only [Completes, List.mem_append]
  exact and_or_left

@[simp]
theorem completes_cons_completing_iff :
    Completes (.completing asked given :: log) command run report ↔
      (asked.command = command ∧ run = asked ∧ report = given) ∨
        Completes log command run report := by
  constructor
  · rintro ⟨hCommand, member⟩
    rcases List.mem_cons.mp member with hFirst | hLater
    · cases hFirst
      exact .inl ⟨hCommand, rfl, rfl⟩
    · exact .inr ⟨hCommand, hLater⟩
  · rintro (⟨hCommand, rfl, rfl⟩ | ⟨hCommand, hLater⟩)
    · exact ⟨hCommand, List.mem_cons_self⟩
    · exact ⟨hCommand, List.mem_cons_of_mem _ hLater⟩

@[simp]
theorem completes_cons_failing_iff {e : BrokerError} :
    Completes (.failing asked e :: log) command run report ↔ Completes log command run report := by
  have hOther : Exchange.completing run report ≠ .failing asked e := nofun
  simp [Completes, hOther]

@[simp]
theorem completes_cons_reading_iff {id : String} {record : Record} :
    Completes (.reading id record :: log) command run report ↔
      Completes log command run report := by
  have hOther : Exchange.completing run report ≠ .reading id record := nofun
  simp [Completes, hOther]

end

/-- An import keeps to the order of its commands, plans with what was shown, and applies only if the
guard has let the plan pass. -/
structure Guarded (settings : UpgradeSettings) (loaded : Workspace)
    (log : List (Exchange jobInterface)) (runs : List ToolRun) : Prop where
  order : runs.map ToolRun.call <+: importCalls settings
  applies : ∀ run ∈ runs, run.command = .apply →
    ∃ planned plan, Completes log .plan planned plan ∧ DeletionGuard.check plan.output = .ok ()
  plans : ∀ planned ∈ runs, planned.command = .plan →
    ∃ imported asked shown, Completes log .showState asked shown ∧
      Adopted loaded imported shown planned.workspace
  blocks : ∀ planned plan e, Completes log .plan planned plan →
    DeletionGuard.check plan.output = .error e → ∀ run ∈ runs, run.command ≠ .apply

variable {settings : UpgradeSettings} {resources : List ExistingResource}
  {loaded edited reached : Workspace} {before log : List (Exchange jobInterface)} {run : ToolRun}
  {imported shown : ToolReport} {outcome : Except BrokerError Unit}

/-- The runs of an import that has adopted what was shown, and applies if it does later. -/
def adoptedRuns (settings : UpgradeSettings) (resources : List ExistingResource)
    (loaded edited : Workspace) (imported : ToolReport) (later : List ToolRun) : List ToolRun :=
  runOf settings .importResources loaded resources ::
    runOf settings .showState (Body.ranTool loaded imported) :: runOf settings .plan edited :: later

/-- An import that has planned applies if the plan passes, and otherwise it stops. -/
theorem Adopted.guarded (adopted : Adopted loaded imported shown edited) {later : List ToolRun}
    (order : later.map ToolRun.call <+: [⟨.apply, settings.defaultVersion⟩])
    (applies : later ≠ [] →
      ∃ planned plan, Completes log .plan planned plan ∧ DeletionGuard.check plan.output = .ok ())
    (blocks : ∀ planned plan e, Completes log .plan planned plan →
      DeletionGuard.check plan.output = .error e → later = []) :
    Guarded settings loaded (shownLog settings resources loaded imported shown ++ log)
      (adoptedRuns settings resources loaded edited imported later) := by
  have hCases {asked : ToolRun}
      (member : asked ∈ adoptedRuns settings resources loaded edited imported later) :
      asked.command = .importResources ∨ asked.command = .showState ∨
        asked = runOf settings .plan edited ∨ (asked ∈ later ∧ asked.command = .apply) := by
    simp only [adoptedRuns, List.mem_cons] at member
    rcases member with rfl | rfl | rfl | hLater
    · exact .inl rfl
    · exact .inr (.inl rfl)
    · exact .inr (.inr (.inl rfl))
    · have hCall := List.mem_singleton.mp (order.subset (List.mem_map_of_mem hLater))
      exact .inr (.inr (.inr ⟨hLater, congrArg (·.command) hCall⟩))
  refine ⟨?_, fun run member hApply => ?_, fun planned member hPlan => ?_,
    fun planned plan e completes blocked run member hApply => ?_⟩
  · exact (List.prefix_append_right_inj [⟨.importResources, settings.defaultVersion⟩,
      ⟨.showState, settings.defaultVersion⟩, ⟨.plan, settings.defaultVersion⟩]).mpr order
  · rcases hCases member with h | h | rfl | ⟨hLater, -⟩
    · cases h.symm.trans hApply
    · cases h.symm.trans hApply
    · cases hApply
    · obtain ⟨planned, plan, completes, allowed⟩ := applies (List.ne_nil_of_mem hLater)
      exact ⟨planned, plan, completes_append_iff.mpr (.inr completes), allowed⟩
  · rcases hCases member with h | h | rfl | ⟨-, h⟩
    · cases h.symm.trans hPlan
    · cases h.symm.trans hPlan
    · exact ⟨imported, runOf settings .showState (Body.ranTool loaded imported), shown,
        by simp [shownLog, runOf], adopted⟩
    · cases h.symm.trans hPlan
  · have hLog : Completes log .plan planned plan := by
      simpa [shownLog, runOf] using completes
    rcases hCases member with h | h | rfl | ⟨hLater, -⟩
    · cases h.symm.trans hApply
    · cases h.symm.trans hApply
    · cases hApply
    · exact List.ne_nil_of_mem hLater (blocks planned plan e hLog blocked)

/-- An import that goes no further than its plan. -/
theorem Adopted.guarded_planned (adopted : Adopted loaded imported shown edited) :
    Guarded settings loaded (shownLog settings resources loaded imported shown ++ log)
      (adoptedRuns settings resources loaded edited imported []) :=
  adopted.guarded List.nil_prefix nofun fun _ _ _ _ _ => rfl

/-- If the plan passes, it is applied. -/
theorem Adopted.guarded_of_allowed (adopted : Adopted loaded imported shown edited)
    {plan : ToolReport} (allowed : DeletionGuard.check plan.output = .ok ())
    (once : ∀ planned other, ¬Completes log .plan planned other) :
    Guarded settings loaded
      (shownLog settings resources loaded imported shown ++
        .completing (runOf settings .plan edited) plan :: log)
      (adoptedRuns settings resources loaded edited imported
        [runOf settings .apply (Body.ranTool edited plan)]) := by
  refine adopted.guarded (List.prefix_refl _)
    (fun _ => ⟨runOf settings .plan edited, plan, by simp [runOf], allowed⟩) ?_
  intro planned other e completes blocked
  obtain ⟨-, -, rfl⟩ | hLater := completes_cons_completing_iff.mp completes
  · cases allowed.symm.trans blocked
  · exact (once planned other hLater).elim

/-- An import that was shown the state has done nothing else. -/
theorem guarded_shownLog (imported shown : ToolReport) :
    Guarded settings loaded (shownLog settings resources loaded imported shown)
      [runOf settings .importResources loaded resources,
        runOf settings .showState (Body.ranTool loaded imported)] := by
  constructor <;> simp [shownLog, runOf, importCalls, ToolRun.call]

theorem Reaches.guarded (reaches : Reaches settings resources loaded before run) :
    Guarded settings loaded before (before.filterMap Exchange.run? ++ [run]) := by
  cases reaches with
  | importing => constructor <;> simp [runOf, importCalls, ToolRun.call]
  | showing imported =>
      constructor <;> simp [runOf, importCalls, ToolRun.call, Exchange.completing, Exchange.run?]
  | planning adopted =>
      rw [← List.append_nil (shownLog ..)]
      exact adopted.guarded_planned
  | applying adopted allowed => exact adopted.guarded_of_allowed allowed (by simp)

theorem Concludes.guarded (concludes : Concludes settings resources loaded log outcome reached) :
    Guarded settings loaded log (log.filterMap Exchange.run?) := by
  cases concludes with
  | unconfigured | undefined => exact guarded_shownLog _ _
  | blocked adopted blocked => exact adopted.guarded_planned
  | applied adopted allowed => exact adopted.guarded_of_allowed allowed (by simp [runOf])

/-- A run that has failed was asked for. -/
theorem Guarded.concat_failing {runs : List ToolRun} {e : BrokerError}
    (guarded : Guarded settings loaded log runs) :
    Guarded settings loaded (log ++ [.failing run e]) runs := by
  have hCompletes {command : Command} {asked : ToolRun} {report : ToolReport} :
      Completes (log ++ [.failing run e]) command asked report ↔
        Completes log command asked report := by
    simp
  exact ⟨guarded.order, by simpa only [hCompletes] using guarded.applies,
    by simpa only [hCompletes] using guarded.plans, by simpa only [hCompletes] using guarded.blocks⟩

/-- Wherever an import stands, it has kept to that. -/
theorem guarded_of_passes {id : String} {record : Record} {rest : JobProgram JobResult}
    (hLoaded : Workspace.ofBytes record.workspace = .ok loaded)
    (passes : ((Job.importResources resources).run settings id).Passes (.reading id record :: log)
      rest) :
    Guarded settings loaded log (log.filterMap Exchange.run? ++ rest.run?.toList) := by
  have hEnd (result : JobResult) : (JobProgram.run? (.done result)).toList = [] := rfl
  rcases takeOver_cases hLoaded passes with
    ⟨run, next, rfl, reaches⟩ | ⟨before, run, e, reaches, rfl, rfl⟩ |
      ⟨outcome, reached, concludes, rfl⟩
  · exact reaches.guarded
  · rw [hEnd, List.append_nil, List.filterMap_append]
    exact reaches.guarded.concat_failing
  · rw [hEnd, List.append_nil]
    exact concludes.guarded

/-- An import that was not shown the state has changed nothing but the state, and one whose plan is
blocked returns the workspace that was planned. -/
theorem Ended.takeOver_returns {record : Record} {result : JobResult}
    (ended : Ended settings (.importResources resources) record log result)
    (hLoaded : Workspace.ofBytes record.workspace = .ok loaded) :
    (∃ kept, result.workspace? = some kept ∧
      ((∀ run report, ¬Completes log .importResources run report) ∨
          (∀ run report, ¬Completes log .showState run report) →
        kept = { loaded with state := kept.state })) ∧
      ∀ planned plan e, Completes log .plan planned plan →
        DeletionGuard.check plan.output = .error e →
          result =
            .error { error := e, workspace := some (Body.ranTool planned.workspace plan) } := by
  rcases ended.takeOver hLoaded with
    ⟨before, run, e, reaches, rfl, rfl⟩ | ⟨outcome, reached, concludes, rfl⟩
  · refine ⟨⟨run.workspace, rfl, ?_⟩, ?_⟩
    · cases reaches with
      | importing | showing => exact fun _ => rfl
      | planning | applying => simp [shownLog, runOf]
    · cases reaches with
      | importing | showing | planning => simp [shownLog, runOf]
      | @applying imported shown plan edited adopted allowed =>
          intro planned other e completes blocked
          obtain ⟨-, rfl⟩ : planned = runOf settings .plan edited ∧ other = plan := by
            simpa [shownLog, runOf] using completes
          cases allowed.symm.trans blocked
  · refine ⟨⟨reached, ?_, ?_⟩, ?_⟩
    · cases outcome <;> rfl
    · cases concludes <;> simp [shownLog, runOf]
    · cases concludes with
      | unconfigured | undefined => simp [shownLog, runOf]
      | @blocked imported shown plan edited cause adopted hBlocked =>
          intro planned other e completes blocked
          obtain ⟨rfl, rfl⟩ : planned = runOf settings .plan edited ∧ other = plan := by
            simpa [shownLog, runOf] using completes
          cases hBlocked.symm.trans blocked
          rfl
      | @applied imported shown plan applied edited adopted allowed =>
          intro planned other e completes blocked
          obtain ⟨-, rfl⟩ : planned = runOf settings .plan edited ∧ other = plan := by
            simpa [shownLog, runOf] using completes
          cases allowed.symm.trans blocked

end Job

namespace Attempt

variable {world : World} {settings : UpgradeSettings} {resources : List ExistingResource}
  {id : String} {record : Record} {loaded : Workspace} {b : Attempt}

/-- The runs of the tool that a job has asked for. A job that is told to stop may abandon the last
one before it has begun. -/
def runs (a : Attempt) : List ToolRun :=
  a.log.filterMap Exchange.run? ++ a.rest.run?.toList

/-- A run of a command was completed. -/
def Completes (a : Attempt) (command : Command) (run : ToolRun) (report : ToolReport) : Prop :=
  Job.Completes a.log command run report

/-- What is noted are the first of the runs that were asked for. -/
theorem Run.exists_calls {job : Job} (run : Run (starting world settings id job) b)
    (calm : world.Calm) :
    ∃ calls, b.world.tool.calls = world.tool.calls ++ calls ∧
      calls <+: b.runs.map ToolRun.call := by
  obtain ⟨a, later, undisturbed, hLog, passes, hCalls, -⟩ := run.exists_undisturbed calm
  refine ⟨toolCalls a.log ++ a.noted, ?_, ?_⟩
  · rw [hCalls, undisturbed.leaves.tool]
  · rw [runs, hLog, List.filterMap_append, List.append_assoc, List.map_append, toolCalls_eq_map,
      List.prefix_append_right_inj]
    rcases undisturbed.noted_cases with hNone | ⟨asked, next, hAsks, hNoted⟩
    · exact hNone ▸ List.nil_prefix
    · rw [hAsks] at passes
      rw [hNoted]
      rcases Program.ask_passes_iff.mp passes with ⟨rfl, hRest⟩ | ⟨answer, more, rfl, -⟩
      · rw [hRest]
        exact List.prefix_refl _
      · exact ⟨_, rfl⟩

/-- A job that waits for a run of the tool has asked for it. -/
theorem Run.mem_runs {job : Job} (run : Run (starting world settings id job) b)
    {ongoing : OngoingRun} (h : b.ongoing = some ongoing) : ongoing.run ∈ b.runs := by
  obtain ⟨next, hAsks⟩ := run.waits h
  rw [runs, hAsks]
  exact List.mem_append_right _ List.mem_cons_self

/-- A run that was completed has reported what the script says. -/
theorem Run.eq_report {job : Job} (run : Run (starting world settings id job) b)
    (calm : world.Calm) {command : Command} {asked : ToolRun} {report : ToolReport}
    (completes : b.Completes command asked report) : report = world.tool.report asked := by
  obtain ⟨a, later, undisturbed, hLog, -, -, abandons, -⟩ := run.exists_undisturbed calm
  have member := completes.2
  rw [hLog] at member
  rcases List.mem_append.mp member with hBefore | hLater
  · have hAnswer : (.ok report : Except BrokerError ToolReport) =
        world.tool.conclude asked (world.tool.reason? asked) := undisturbed.scripted _ hBefore
    cases hReason : world.tool.reason? asked with
    | none =>
        rw [hReason] at hAnswer
        exact Except.ok.inj hAnswer
    | some reason =>
        rw [hReason] at hAnswer
        cases hAnswer
  · cases abandons asked _ hLater

/-- An import asks for no run before it has loaded a workspace. Then it stands where the runs that
were answered have brought it. -/
theorem Run.import_cases (run : Run (starting world settings id (.importResources resources)) b)
    (calm : world.Calm) :
    (b.runs = [] ∧ (∀ command asked report, ¬b.Completes command asked report) ∧
        ∀ record loaded, world.store.records.get? id = some record →
          Workspace.ofBytes record.workspace = .ok loaded → ∀ result, b.rest ≠ .done result) ∨
      ∃ record loaded log, world.store.records.get? id = some record ∧
        Workspace.ofBytes record.workspace = .ok loaded ∧ b.log = .reading id record :: log ∧
        ((Job.importResources resources).run settings id).Passes (.reading id record :: log)
          b.rest := by
  obtain ⟨a, later, undisturbed, hLog, hLater, -, -, reads⟩ := run.exists_undisturbed calm
  have passes := undisturbed.passes.trans hLater
  rw [← hLog] at passes
  rcases Job.passes_cases passes with ⟨hNothing, hRest⟩ | ⟨answer, log, hRead, -, hFailed⟩
  · refine .inl ⟨?_, ?_, ?_⟩
    · rw [runs, hNothing, hRest, Job.run_eq]
      rfl
    · simp [Completes, hNothing]
    · intro _ _ _ _ result hDone
      rw [hRest, Job.run_eq] at hDone
      cases hDone
  · have hFound : answer = world.traffic.found id := reads answer (by simp [hRead])
    cases hLoaded : Job.loaded answer with
    | error e =>
        obtain ⟨rfl, hRest⟩ := hFailed e hLoaded
        refine .inl ⟨?_, ?_, ?_⟩
        · rw [runs, hRead, hRest]
          rfl
        · rintro command asked report ⟨-, member⟩
          rw [hRead] at member
          cases List.mem_singleton.mp member
        · intro record loaded h hWorkspace
          rw [hFound, Traffic.found_of_get? h, Job.loaded_of_ofBytes hWorkspace] at hLoaded
          cases hLoaded
    | ok loaded =>
        cases hRecord : world.store.records.get? id with
        | none =>
            rw [hFound, Traffic.found, World.traffic, hRecord] at hLoaded
            cases hLoaded
        | some record =>
            rw [Traffic.found_of_get? hRecord] at hFound
            subst hFound
            have hWorkspace := mapError_eq_ok_iff.mp hLoaded
            exact .inr ⟨record, loaded, log, rfl, hWorkspace, hRead, hRead ▸ passes⟩

/-- An import for any stored workspace, settings, resources and script of the tool, at any moment,
told to stop before or not. The runs that are noted are the first ones of those that it has asked
for, and these import, show, plan and apply in this order, each at the default version. It asks to
apply only if a plan was completed which the guard lets pass. What it plans is the loaded workspace
with the definition that was shown, as its parameterization makes it, for the main definition, and
with the values given up there merged into the configuration of the first instance; apart from
these and the state it is what was loaded. Once it has ended it returns a workspace. If not both
the import and the showing were completed, only the state of that can differ from what was loaded.
If the plan was completed and is blocked, nothing is applied, the error names the blocked
resources, and the workspace is the one that was planned. -/
theorem import_applies_guarded (calm : world.Calm)
    (run : Run (starting world settings id (.importResources resources)) b) :
    (∃ calls, b.world.tool.calls = world.tool.calls ++ calls ∧
        calls <+: b.runs.map ToolRun.call) ∧
      (∀ ongoing, b.ongoing = some ongoing → ongoing.run ∈ b.runs) ∧
      b.runs.map ToolRun.call <+: importCalls settings ∧
      (∀ applied ∈ b.runs, applied.command = .apply → ∃ planned plan,
        b.Completes .plan planned plan ∧ DeletionGuard.check plan.output = .ok ()) ∧
      (∀ planned plan, b.Completes .plan planned plan → plan.output = world.tool.planText) ∧
      ∀ record loaded, world.store.records.get? id = some record →
        Workspace.ofBytes record.workspace = .ok loaded →
        (∀ planned ∈ b.runs, planned.command = .plan →
          ∃ asked shown first modules head instances, b.Completes .showState asked shown ∧
            shown.output = world.tool.definition ∧ loaded.modules = first :: modules ∧
            loaded.instances = head :: instances ∧
            planned.workspace = { loaded with
              modules := first.define Workspace.mainDefinition (loaded.definitionOf shown) :: modules
              instances := head.configure (loaded.valuesOf shown) :: instances
              state := planned.workspace.state } ∧
            (first.define Workspace.mainDefinition
              (loaded.definitionOf shown)).definitions.lookup Workspace.mainDefinition =
                some (loaded.definitionOf shown) ∧
            (∀ name ≠ Workspace.mainDefinition, (first.define Workspace.mainDefinition
              (loaded.definitionOf shown)).definitions.lookup name =
                first.definitions.lookup name) ∧
            ∀ name, (head.configure (loaded.valuesOf shown)).configuration.get? name =
              ((Fields.ofPairs (loaded.valuesOf shown)).get? name).or
                (head.configuration.get? name)) ∧
        ∀ result, b.rest = .done result →
          (∃ kept, result.workspace? = some kept ∧
            ((∀ asked report, ¬b.Completes .importResources asked report) ∨
                (∀ asked report, ¬b.Completes .showState asked report) →
              kept = { loaded with state := kept.state })) ∧
          ∀ planned plan e, b.Completes .plan planned plan →
            DeletionGuard.check plan.output = .error e →
              (∀ asked ∈ b.runs, asked.command ≠ .apply) ∧
              result = .error {
                error := .job (.deletionBlocked (DeletionGuard.blocked plan.output.toList))
                workspace := some planned.workspace } := by
  refine ⟨run.exists_calls calm, fun _ => run.mem_runs, ?_⟩
  have hPlanned {asked : ToolRun} {report : ToolReport}
      (completes : b.Completes .plan asked report) : report = { output := world.tool.planText } := by
    rw [run.eq_report calm completes, ScriptedTool.report, completes.1]
  have hShown {asked : ToolRun} {report : ToolReport}
      (completes : b.Completes .showState asked report) :
      report = { output := world.tool.definition } := by
    rw [run.eq_report calm completes, ScriptedTool.report, completes.1]
  rcases run.import_cases calm with
    ⟨hNone, hNothing, hOpen⟩ | ⟨record, loaded, log, hRecord, hLoaded, hLog, passes⟩
  · refine ⟨hNone ▸ List.nil_prefix, by simp [hNone], fun _ _ h => (hNothing _ _ _ h).elim,
      fun record loaded hRecord hLoaded => ⟨by simp [hNone], fun result hDone => ?_⟩⟩
    exact (hOpen record loaded hRecord hLoaded result hDone).elim
  · have hCompletes {command : Command} {asked : ToolRun} {report : ToolReport} :
        b.Completes command asked report ↔ Job.Completes log command asked report := by
      rw [Completes, hLog, Job.completes_cons_reading_iff]
    have hRuns : b.runs = log.filterMap Exchange.run? ++ b.rest.run?.toList := by
      rw [runs, hLog]
      rfl
    obtain ⟨order, applies, plans, blocks⟩ := hRuns ▸ Job.guarded_of_passes hLoaded passes
    simp only [← hCompletes] at applies plans blocks
    refine ⟨order, applies, fun planned plan completes => congrArg (·.output) (hPlanned completes),
      fun other workspace hOther hWorkspace => ?_⟩
    cases hRecord.symm.trans hOther
    cases hLoaded.symm.trans hWorkspace
    refine ⟨fun planned member hPlan => ?_, fun result hDone => ?_⟩
    · obtain ⟨imported, asked, shown, completes, adopted⟩ := plans planned member hPlan
      obtain ⟨first, modules, head, instances, hModules, hInstances, hEdited⟩ :=
        Job.adopted_iff.mp adopted
      refine ⟨asked, shown, first, modules, head, instances, completes,
        congrArg (·.output) (hShown completes), hModules, hInstances, ?_,
        first.lookup_define .., fun _ => first.lookup_define_of_ne _, head.get?_configure _⟩
      rw [hEdited]
      rfl
    · rw [hDone] at passes
      obtain ⟨hKept, hBlocked⟩ := (Job.ended_of_passes passes).takeOver_returns hLoaded
      simp only [← hCompletes] at hKept hBlocked
      refine ⟨hKept, fun planned plan e completes blocked => ⟨blocks _ _ _ completes blocked, ?_⟩⟩
      rw [hBlocked planned plan e completes blocked, DeletionGuard.eq_of_check blocked,
        hPlanned completes]
      rfl

section

open Traffic World

/-- A deployment that was built, with a tool that plans to delete a resource of it. -/
def deletingWorld : World where
  settings := upgradingSettings
  store :=
    { records := Fields.put [] restingRecord.id
        (restingWith (builtWorkspace (ToolState.document lastVersion [])).toBytes) }
  tool := { planText := "  # aws_instance.web will be destroyed\n" }
  clock := fun _ => restingRecord.created

theorem deletingWorld_calm : deletingWorld.Calm :=
  rfl

theorem get?_deletingWorld : deletingWorld.store.records.get? restingRecord.id =
    some (restingWith (builtWorkspace (ToolState.document lastVersion [])).toBytes) :=
  Fields.get?_put_self ..

/-- An import comes to its plan and ends, as the plan is blocked. -/
theorem exists_blocked : ∃ b result planned plan,
    Run (starting deletingWorld upgradingSettings restingRecord.id (.importResources [])) b ∧
      b.rest = .done result ∧ b.Completes .plan planned plan ∧
      DeletionGuard.check plan.output = .error (.deletionBlocked ["aws_instance.web"]) := by
  let loaded := builtWorkspace (ToolState.document lastVersion [])
  let imported : ToolReport := { state := some (ToolState.document lastVersion []) }
  let plan : ToolReport := { output := deletingWorld.tool.planText }
  obtain ⟨edited, adopted⟩ : ∃ edited, Job.Adopted loaded imported {} edited :=
    ⟨_, Job.adopted_iff.mpr ⟨_, _, _, _, rfl, rfl, rfl⟩⟩
  have hBlocked : DeletionGuard.check plan.output =
      .error (.deletionBlocked ["aws_instance.web"]) := by
    change DeletionGuard.check "  # aws_instance.web will be destroyed\n" = _
    rfl
  have passes : (Job.run upgradingSettings restingRecord.id (.importResources [])).Passes
      (.reading restingRecord.id (restingWith loaded.toBytes) :: _) (.done _) :=
    Job.passes_of_ends (ofBytes_restingWith_builtWorkspace _) rfl
      (Job.Body.ends_takeOver_of_concludes (.blocked adopted hBlocked))
  have hScripted : ∀ exchange ∈ Job.shownLog upgradingSettings [] loaded imported {} ++
      [.completing (Job.runOf upgradingSettings .plan edited) plan],
      exchange.Scripted deletingWorld.tool := by
    intro exchange member
    simp only [Job.shownLog, List.cons_append, List.nil_append, List.mem_cons,
      List.not_mem_nil, or_false] at member
    rcases member with rfl | rfl | rfl
    · rfl
    · rfl
    · rfl
  obtain ⟨b, hRun, -, -, hLog, hRest⟩ := exists_run_of_passes deletingWorld_calm
    get?_deletingWorld (ofBytes_restingWith_builtWorkspace _) passes hScripted
  refine ⟨b, _, Job.runOf upgradingSettings .plan edited, plan, hRun, hRest, ?_, hBlocked⟩
  rw [Completes, hLog]
  simp [Job.shownLog, Job.runOf]

theorem import_applies_guarded_deleting : ∃ b planned,
    Run (starting deletingWorld upgradingSettings restingRecord.id (.importResources [])) b ∧
      (∀ asked ∈ b.runs, asked.command ≠ .apply) ∧
      b.rest = .done (.error {
        error := .job (.deletionBlocked ["aws_instance.web"]), workspace := some planned }) := by
  obtain ⟨b, result, planned, plan, hRun, hDone, completes, blocked⟩ := exists_blocked
  obtain ⟨-, -, -, -, hText, hLoaded⟩ :=
    import_applies_guarded deletingWorld_calm hRun
  obtain ⟨-, hEnds⟩ := hLoaded _ _ get?_deletingWorld (ofBytes_restingWith_builtWorkspace _)
  obtain ⟨hNone, hResult⟩ := (hEnds result hDone).2 planned plan _ completes blocked
  refine ⟨b, planned.workspace, hRun, hNone, ?_⟩
  rw [hDone, hResult, hText planned plan completes]
  rfl

end

end Attempt

end ServiceBroker
