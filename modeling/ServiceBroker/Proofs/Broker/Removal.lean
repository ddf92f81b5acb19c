import ServiceBroker.Proofs.Broker.Refusal
import ServiceBroker.Proofs.Job.Removal
import ServiceBroker.Proofs.Job.Takeover

/-! What the tool is shown by the removal of a deployment, among all other calls and jobs, and what
is recorded of a removal that has nothing to begin with. -/

namespace ServiceBroker

namespace Traffic

variable {settings : UpgradeSettings} {tool : ToolBehavior} {start t : Traffic} {id : String}
  {work : Activity}

/-- The job has asked for a run of the tool, or waits for it. -/
def Activity.AsksRun (work : Activity) (asked : ToolRun) : Prop :=
  (∃ answer, (⟨.tool asked, answer⟩ : Exchange jobInterface) ∈ work.log) ∨
    ∃ next, work.rest = .ask (I := jobInterface) (.tool asked) next

/-- A job asks the tool for nothing but what its runner asks for. What it does about the outcome
needs no tool. -/
theorem Activity.Stage.exists_passes (stage : work.Stage settings) :
    ∃ log more rest, work.log = log ++ more ∧
      (work.job.run settings work.id).Passes log rest ∧ (log = [] → more = []) ∧
      ∀ asked, work.AsksRun asked →
        (∃ answer, (⟨.tool asked, answer⟩ : Exchange jobInterface) ∈ log) ∨
          ∃ next, rest = .ask (I := jobInterface) (.tool asked) next := by
  have hReturned {log more : List (Exchange jobInterface)} {result : JobResult}
      (passed : (work.job.run settings work.id).Passes log (.done result))
      (hLog : work.log = log ++ more) (noCall : toolCalls more = [])
      (noRun : ∀ asked next, work.rest ≠ .ask (I := jobInterface) (.tool asked) next) :
      ∃ log more rest, work.log = log ++ more ∧
        (work.job.run settings work.id).Passes log rest ∧ (log = [] → more = []) ∧
        ∀ asked, work.AsksRun asked →
          (∃ answer, (⟨.tool asked, answer⟩ : Exchange jobInterface) ∈ log) ∨
            ∃ next, rest = .ask (I := jobInterface) (.tool asked) next := by
    refine ⟨log, more, _, hLog, passed, fun hNone => ?_, fun asked asks => ?_⟩
    · rw [hNone, Job.run_eq] at passed
      cases passed
    · rcases asks with ⟨answer, member⟩ | ⟨next, hAsks⟩
      · rw [hLog] at member
        rcases List.mem_append.mp member with hMember | hMember
        · exact .inl ⟨answer, hMember⟩
        · cases List.filterMap_eq_nil_iff.mp noCall _ hMember
      · exact (noRun asked next hAsks).elim
  cases stage with
  | running program passed h =>
      refine ⟨work.log, [], program, by simp, passed, fun _ => rfl, fun asked asks => ?_⟩
      rcases asks with hLog | ⟨next, hAsks⟩
      · exact .inl hLog
      · rw [h] at hAsks
        cases program with
        | done result =>
            rw [Program.bind, recordOutcome_run] at hAsks
            cases hAsks
        | ask request later =>
            cases hAsks
            exact .inr ⟨later, rfl⟩
  | settling result record log passed key hLog h =>
      refine hReturned passed hLog rfl fun asked next hAsks => ?_
      cases h.symm.trans hAsks
  | storing result record now log passed key hLog h =>
      refine hReturned passed hLog rfl fun asked next hAsks => ?_
      cases h.symm.trans hAsks
  | recorded result record now log passed key hLog h =>
      refine hReturned passed hLog rfl fun asked next hAsks => ?_
      cases h.symm.trans hAsks

/-- A job that has read a record asks the tool for nothing but what its runner asks for, having read
that record. -/
theorem Activity.Stage.exists_passes_reading (stage : work.Stage settings) {seen : Record}
    (first : work.log.head? = some (.reading work.id seen)) :
    ∃ log rest, (work.job.run settings work.id).Passes (.reading work.id seen :: log) rest ∧
      ∀ asked, work.AsksRun asked →
        (∃ answer, (⟨.tool asked, answer⟩ : Exchange jobInterface) ∈ log) ∨
          ∃ next, rest = .ask (I := jobInterface) (.tool asked) next := by
  obtain ⟨log, more, rest, hLog, passes, begun, runs⟩ := stage.exists_passes
  cases log with
  | nil =>
      rw [hLog, begun rfl] at first
      cases first
  | cons exchange log =>
      obtain rfl : exchange = .reading work.id seen := by simpa [hLog] using first
      refine ⟨log, rest, passes, fun asked asks => ?_⟩
      rcases runs asked asks with ⟨answer, member⟩ | hAsks
      · rcases List.mem_cons.mp member with hReading | hMember
        · cases hReading
        · exact .inl ⟨answer, hMember⟩
      · exact .inr hAsks

/-- A removal among any other calls and jobs, at any moment of it, whatever the tool answers and
whether it is told to stop or not. In every run of the tool that it asks for, on the way to the
default version and at the end, the tool is shown the workspace that was read with one change but
for its state: the configuration of the first instance names the input variables that the
definitions of the first module declare and no others, each once and ascending in their octets, and
each has its value in the variables of the removal, or `null`. Without a module or an instance no
run is asked for. The removal has then failed once it has read the record, and returns no
workspace, so that the workspace in the record stays as it is. -/
theorem removal_shows_declared_inputs (quiet : Quiet id start)
    (run : Run settings tool (fun _ => True) start t) {n : Nat} (member : t.jobs[n]? = some work)
    {vars : Params} (removes : work.job = .deprovision vars) {seen : Record}
    (first : work.log.head? = some (.reading work.id seen)) {loaded : Workspace}
    (hLoaded : Workspace.ofBytes seen.workspace = .ok loaded) :
    (∀ asked, work.AsksRun asked →
      ∃ (main : Module) (modules : List Module) (head : ModuleInstance)
          (others : List ModuleInstance) (names : List String),
        loaded.modules = main :: modules ∧ loaded.instances = head :: others ∧
        names.Pairwise (fun left right => Bytes.ofText left < Bytes.ofText right) ∧
        (∀ name, name ∈ names ↔
          ∃ definition ∈ main.definitions, Definition.Declares definition.2.toList name.toList) ∧
        asked.workspace = { loaded with
          instances :=
            { head with
              configuration := names.map fun name => (name, (vars.get? name).getD .null) } :: others
          state := asked.workspace.state }) ∧
      (loaded.modules = [] ∨ loaded.instances = [] →
        (∀ asked, ¬work.AsksRun asked) ∧
        ∃ e : WorkspaceError,
          (∀ log rest, ((Job.deprovision vars).run settings work.id).Passes
              (.reading work.id seen :: log) rest →
            log = [] ∧ rest = .done (.error { error := .workspace e, workspace := none })) ∧
          ∀ u next outcome, Step settings tool t u → u.jobs[n]? = some next →
            work.outcome? = none → next.outcome? = some outcome →
            outcome = .error (.workspace e) ∧ ∃ (record : Record) (now : Timestamp),
              work.log = [.reading work.id seen, .reading work.id record, .clock now] ∧
              u.records = t.records.put work.id
                { record with
                  state := .failed
                  message := BrokerError.message (.workspace e)
                  updated := now }) := by
  have ground : Grounded settings tool t := run.grounded quiet.grounded
  obtain ⟨log, rest, passes, runs⟩ :=
    (ground.jobs work (List.mem_of_getElem? member)).exists_passes_reading first
  rw [removes] at passes
  have hShown (asked : ToolRun) (asks : work.AsksRun asked) :
      Job.Narrowed loaded vars asked.workspace := by
    rcases runs asked asks with ⟨answer, hMember⟩ | ⟨next, rfl⟩
    · exact Job.narrowed_of_mem hLoaded passes hMember
    · exact Job.narrowed_of_asks hLoaded passes
  refine ⟨fun asked asks => ?_, fun lacks => ?_⟩
  · obtain ⟨main, modules, head, others, names, hModules, hInstances, inputs, hWorkspace⟩ :=
      hShown asked asks
    exact ⟨main, modules, head, others, names, hModules, hInstances, inputs.ascending,
      inputs.complete, hWorkspace⟩
  · obtain ⟨e, fails⟩ := Job.exists_failed_removal vars lacks
    refine ⟨fun asked asks => ?_, e, fun log rest => fails hLoaded,
      fun u next outcome step after is_open ended => ?_⟩
    · obtain ⟨main, modules, head, others, names, hModules, hInstances, -⟩ := hShown asked asks
      rcases lacks with hNone | hNone
      · cases hModules.symm.trans hNone
      · cases hInstances.symm.trans hNone
    · obtain ⟨result, record, now, log, passed, -, hLog, written, rfl⟩ :=
        (ground.move step).exists_recorded member after is_open ended
      rw [removes] at passed
      rcases Job.exists_ended passed with ⟨cause, rfl, -⟩ | ⟨found, later, rfl, -⟩
      · rw [hLog] at first
        cases first
      · rw [hLog] at first
        cases first
        obtain ⟨rfl, hDone⟩ := fails hLoaded passed
        cases hDone
        exact ⟨rfl, record, now, hLog, written⟩

section

/-- A deployment whose module declares one variable, with a value that no definition declares. -/
def declaringWorkspace : Workspace where
  modules := [{ name := "m", definitions := [("main", "variable \"size\" \x7b\x7d\n")] }]
  instances := [{ moduleName := "m", name := "db", configuration := [("old", .null)] }]
  state := ToolState.document oldVersion []

theorem ofBytes_declaringWorkspace :
    Workspace.ofBytes declaringWorkspace.toBytes = .ok declaringWorkspace := by
  have holds : declaringWorkspace.Holds Json.Storable :=
    ⟨by simp [declaringWorkspace, Definitions.Ascending],
      by simp [declaringWorkspace, Fields.names],
      by simpa [declaringWorkspace] using Json.storable_null⟩
  exact holds.legible.1

theorem inputs_declaringWorkspace : declaringWorkspace.inputs = .ok ["size"] := by
  have hDeclared : (Definition.declared "variable \"size\" \x7b\x7d\n".toList).map String.ofList =
      ["size"] := by decide
  change Except.ok (List.mergeSort ((Definition.declared _).map String.ofList ++ []) _).eraseReps = _
  rw [hDeclared, List.append_nil, List.mergeSort_singleton]
  rfl

/-- What the tool is shown when that deployment is removed. -/
def destroyingWorkspace (state : Bytes) : Workspace :=
  { declaringWorkspace with
    instances := [{ moduleName := "m", name := "db", configuration := [("size", .bool true)] }]
    state }

/-- The runs of the tool for that removal, when the first one has left a report. -/
def steppingRun : ToolRun where
  command := .apply
  version := nextVersion
  workspace := destroyingWorkspace declaringWorkspace.state

def destroyingRun (stepped : ToolReport) : ToolRun where
  command := .destroy
  version := lastVersion
  workspace := Job.Body.ranTool steppingRun.workspace stepped

theorem prepare_declaringWorkspace :
    (Job.deprovision [("size", .bool true)]).prepare declaringWorkspace =
      .ok steppingRun.workspace := by
  change declaringWorkspace.inputs >>= (fun names => declaringWorkspace.reconfigure _) = _
  rw [inputs_declaringWorkspace]
  rfl

theorem ends_removal (stepped destroyed : ToolReport) :
    (Job.body upgradingSettings (.deprovision [("size", .bool true)])).Ends steppingRun.workspace
      [.completing steppingRun stepped, .completing (destroyingRun stepped) destroyed] (.ok ())
      (Job.Body.ranTool (destroyingRun stepped).workspace destroyed) := by
  have hVersion : steppingRun.workspace.stateVersion = .ok oldVersion := by
    have hState : steppingRun.workspace.state = declaringWorkspace.state := rfl
    exact Workspace.stateVersion_of_legible hState (by simp [ToolState.Legible])
  have hUpgrade : (Job.upgradeState upgradingSettings).Ends steppingRun.workspace
      [.completing steppingRun stepped] (.ok ()) (destroyingRun stepped).workspace :=
    (Job.Body.ends_upgradeState_iff rfl (by simp [upgradingSettings])).mpr (.inr ⟨_, hVersion,
      Job.Body.ends_runTool_bind_iff.mpr
        (.inr ⟨stepped, [], rfl, Job.Body.ends_pure_iff.mpr ⟨rfl, rfl, rfl⟩⟩)⟩)
  exact Job.Body.ends_bind_iff.mpr (.inr ⟨[_], [_], (), _, rfl, hUpgrade,
    Job.Body.ends_runTool_bind_iff.mpr
      (.inr ⟨destroyed, [], rfl, Job.Body.ends_pure_iff.mpr ⟨rfl, rfl, rfl⟩⟩)⟩)

/-- The removal of that deployment, up to where it writes its outcome. -/
theorem exists_removal : ∃ (t : Traffic) (work : Activity) (destroying : ToolRun),
    Run upgradingSettings recording (fun _ => True) (restingOn declaringWorkspace) t ∧
      t.jobs = [work] ∧ work.job = .deprovision [("size", .bool true)] ∧
      work.log.head? = some (.reading work.id (begunWith declaringWorkspace.toBytes .deprovision)) ∧
      work.AsksRun steppingRun ∧ work.AsksRun destroying ∧ destroying.command = .destroy := by
  have hReport (run : ToolRun) : ∃ report, recording run (.ok report) :=
    ⟨({} : ScriptedTool).report run, {}, none, rfl⟩
  obtain ⟨stepped, hStepped⟩ := hReport steppingRun
  obtain ⟨destroyed, hDestroyed⟩ := hReport (destroyingRun stepped)
  have hRead : Workspace.ofBytes (begunWith declaringWorkspace.toBytes .deprovision).workspace =
      .ok declaringWorkspace := by
    rw [begunWith_workspace, ofBytes_declaringWorkspace]
  have hStored : Workspace.ofBytes (restingWith declaringWorkspace.toBytes).workspace =
      .ok declaringWorkspace := by
    rw [restingWith_workspace, ofBytes_declaringWorkspace]
  have idle : admission restingRecord.id (.ok (restingWith declaringWorkspace.toBytes)) = .ok () :=
    admission_eq_ok_iff.mpr ⟨rfl, _, hStored⟩
  have passes : (Job.run upgradingSettings restingRecord.id
      (.deprovision [("size", .bool true)])).Passes
        (.reading restingRecord.id (begunWith declaringWorkspace.toBytes .deprovision) :: _)
        (.done _) :=
    Job.passes_of_ends hRead prepare_declaringWorkspace (ends_removal stepped destroyed)
  have answered : ∀ exchange ∈ [Exchange.completing steppingRun stepped,
      .completing (destroyingRun stepped) destroyed], ∀ records : Records,
        Answered recording false records records exchange.request exchange.reply := by
    simp only [List.mem_cons, List.not_mem_nil, or_false]
    rintro exchange (rfl | rfl) records
    · exact ⟨rfl, hStepped⟩
    · exact ⟨rfl, hDestroyed⟩
  obtain ⟨t, -, work, -, hRun, -, hJobs, -, hJob, hId, -, -, hLog, -⟩ :=
    exists_step_of_operation (t := restingOn declaringWorkspace) false (by simp [restingOn])
      (get?_restingOn _) rfl idle passes answered
  refine ⟨t, work, destroyingRun stepped, hRun, hJobs, hJob, by rw [hLog, hId]; rfl,
    .inl ⟨.ok stepped, ?_⟩, .inl ⟨.ok destroyed, ?_⟩, rfl⟩
  · rw [hLog]
    exact List.mem_append_left _ (List.mem_cons_of_mem _ List.mem_cons_self)
  · rw [hLog]
    exact List.mem_append_left _ (List.mem_cons_of_mem _ (List.mem_cons_of_mem _ List.mem_cons_self))

/-- The removal of a deployment by way of the version in between. -/
theorem removal_shows_declared_inputs_size :
    ∃ (t : Traffic) (work : Activity) (destroying : ToolRun),
      Run upgradingSettings recording (fun _ => True) (restingOn declaringWorkspace) t ∧
        t.jobs = [work] ∧ work.job = .deprovision [("size", .bool true)] ∧
        work.AsksRun steppingRun ∧ work.AsksRun destroying ∧ destroying.command = .destroy ∧
        ∀ asked, work.AsksRun asked → ∃ head others, asked.workspace.instances = head :: others ∧
          head.configuration.get? "size" = some (.bool true) ∧
          head.configuration.get? "old" = none := by
  obtain ⟨t, work, destroying, hRun, hJobs, removes, first, hStepping, hDestroying, hDestroy⟩ :=
    exists_removal
  have hLoaded : Workspace.ofBytes (begunWith declaringWorkspace.toBytes .deprovision).workspace =
      .ok declaringWorkspace := by
    rw [begunWith_workspace, ofBytes_declaringWorkspace]
  obtain ⟨shown, -⟩ := removal_shows_declared_inputs (quiet_restingOn _ restingRecord.id) hRun
    (n := 0) (by rw [hJobs]; rfl) removes first hLoaded
  refine ⟨t, work, destroying, hRun, hJobs, removes, hStepping, hDestroying, hDestroy,
    fun asked asks => ?_⟩
  obtain ⟨main, modules, head, others, names, hModules, -, -, complete, hWorkspace⟩ :=
    shown asked asks
  obtain ⟨rfl, -⟩ := List.cons_eq_cons.mp hModules
  have hSize : "size" ∈ names := (complete _).mpr
    ⟨_, List.mem_cons_self, Definition.mem_declared_iff.mp (by decide)⟩
  have hOld : "old" ∉ names := by
    rw [complete]
    rintro ⟨definition, member, declares⟩
    obtain rfl := List.mem_singleton.mp member
    exact absurd (Definition.mem_declared_iff.mpr declares) (by decide)
  refine ⟨_, _, by rw [hWorkspace], ?_, ?_⟩
  · rw [Fields.get?_map, if_pos hSize]
    rfl
  · rw [Fields.get?_map, if_neg hOld]

end

end Traffic

end ServiceBroker
