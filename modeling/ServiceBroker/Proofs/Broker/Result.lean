import ServiceBroker.Proofs.Broker.Calm
import ServiceBroker.Proofs.Fields
import ServiceBroker.Proofs.Upgrade.Resumption
import ServiceBroker.Proofs.Workspace.Edits

/-! What a job returns in a world at rest. It reads the record of its deployment and runs the tool,
and the tool answers as its script says; so the runs that are noted and the workspace that is
returned are those of the commands that the job comes to. -/

namespace ServiceBroker

namespace World

variable {world after : World} {id : String} {record : Record} {job : Job}

/-- The record of a deployment is read as it stands in the records, and a run of the tool is answered
as the script says and noted. -/
theorem Calm.leaves_of_asked (calm : world.Calm) {versions : Version → Prop} {request : JobRequest}
    (asks : request = .store (.get id) ∨ JobRequest.IsRun versions request) :
    world.Leaves (serve request world).2 (toolCalls [⟨request, (serve request world).1⟩])
        world.store.records [] ∧
      Exchange.Scripted world.tool ⟨request, (serve request world).1⟩ ∧
      ∀ answer : Except StoreError Record,
        (⟨.store (.get id), answer⟩ : Exchange jobInterface) =
            ⟨request, (serve request world).1⟩ →
          answer = world.traffic.found id := by
  rcases asks with rfl | hRun
  · obtain ⟨hAnswer, leaves⟩ := calm.reads id
    refine ⟨leaves, trivial, fun answer same => ?_⟩
    cases same
    exact hAnswer
  · cases request with
    | store call | now => exact hRun.elim
    | tool run =>
        refine ⟨calm.runs run, rfl, fun answer same => ?_⟩
        cases same

/-- Nothing is asked but the record of a deployment and runs of the tool. The record is the one that
stands in the records, the tool answers as its script says, and its runs are noted. -/
theorem Calm.leaves_of_replied (calm : world.Calm) {log : List (Exchange jobInterface)}
    {versions : Version → Prop} (replied : Program.Replied serve world log after)
    (asks : ∀ exchange ∈ log,
      exchange.request = .store (.get id) ∨ JobRequest.IsRun versions exchange.request) :
    world.Leaves after (toolCalls log) world.store.records [] ∧
      (∀ exchange ∈ log, exchange.Scripted world.tool) ∧
      ∀ answer : Except StoreError Record,
        (⟨.store (.get id), answer⟩ : Exchange jobInterface) ∈ log →
          answer = world.traffic.found id := by
  induction replied with
  | nil world => exact ⟨calm.leaves_self, by simp, by simp⟩
  | @cons request world after log later ih =>
      obtain ⟨hAsks, asksLater⟩ := List.forall_mem_cons.mp asks
      obtain ⟨first, hAnswer, hRead⟩ := calm.leaves_of_asked hAsks
      obtain ⟨hLeaves, hScripted, hFound⟩ := ih first.calm asksLater
      have hRecords : (serve request world).2.store.records = world.store.records := first.records
      rw [hRecords] at hLeaves
      have hWhole := first.trans hLeaves
      rw [← toolCalls_append] at hWhole
      refine ⟨hWhole, ?_, fun answer member => ?_⟩
      · exact List.forall_mem_cons.mpr
          ⟨hAnswer, fun exchange h => first.scripted (hScripted exchange h)⟩
      · exact (List.mem_cons.mp member).elim (hRead answer)
          fun hLater => (hFound answer hLater).trans (first.found id)

/-- What a job comes to that finds a record of its deployment. -/
theorem Calm.run_job (calm : world.Calm) (h : world.store.records.get? id = some record)
    (settings : UpgradeSettings) (job : Job) :
    ∃ log, (job.run settings id).Passes (.reading id record :: log)
        (.done ((job.run settings id).run serve world).1) ∧
      (∀ exchange ∈ log, exchange.Scripted world.tool) ∧
      world.Leaves ((job.run settings id).run serve world).2 (toolCalls log)
        world.store.records [] := by
  obtain ⟨log, passes, replied⟩ := (job.run settings id).exists_replied serve world
  obtain ⟨hLeaves, hScripted, hFound⟩ :=
    calm.leaves_of_replied replied (passes.asks (Job.run_asks settings id job)).1
  have hFirst := passes
  rw [Job.run_eq] at hFirst
  obtain ⟨answer, later, rfl, -⟩ := Program.ask_passes_done_iff.mp hFirst
  obtain rfl : answer = .ok record :=
    (hFound answer List.mem_cons_self).trans (Traffic.found_of_get? h)
  exact ⟨later, passes, fun exchange member => hScripted exchange (by simp [member]), hLeaves⟩

/-- Updates, upgrades and removals in a world at rest, for any settings and any failures of the
tool, of a deployment whose workspace can be read and has a module and an instance. If there is no
way to the default version, no command is run, that error is returned, and the state of the
workspace is what it was. Otherwise the commands are an application of each version on the way and
then the job's own at the default version, up to the first one that fails; the job fails with that
one or not at all. The workspace that is returned has the state of the last command that was completed,
and the variables of an update are merged into the configuration exactly if all versions on the
way were applied; what was configured before keeps its place. A removal begins with the declared
inputs as the configuration. Nothing else is changed, in the workspace or in the records. -/
theorem walk_then_command {workspace : Workspace} {first : ModuleInstance}
    {others : List ModuleInstance} (rest : world.AtRest) (calm : world.Calm)
    (h : world.store.records.get? id = some record)
    (hLoaded : Workspace.ofBytes record.workspace = .ok workspace)
    (hModules : workspace.modules ≠ []) (hInstances : workspace.instances = first :: others)
    (walks : job.walks = true) :
    let configuration := job.initial workspace first.configuration
    let merged := configuration.merge job.joining
    ∃ result after calls,
      world.work none (JobProgram.toBroker (job.run world.settings id)) = (result, after) ∧
        world.Leaves after calls world.store.records [] ∧
        (∀ e, workspace.stepsAhead world.settings = .error e → calls = [] ∧
          result = .error {
            error := e
            workspace := some (workspace.revised configuration workspace.state) }) ∧
        (∀ steps, workspace.stepsAhead world.settings = .ok steps →
          ∃ completed failure,
            world.tool.Carried (job.commands world.settings steps) calls completed failure ∧
              result.failure? = failure ∧
              result.workspace? = some (workspace.revised
                (if steps.length ≤ completed.length then merged else configuration)
                (world.tool.stateAfter workspace.state completed))) ∧
        configuration.names <+: merged.names ∧
        ∀ name, merged.get? name =
          ((Fields.ofPairs job.joining).get? name).or (configuration.get? name) := by
  intro configuration merged
  obtain ⟨log, passes, hScripted, hLeaves⟩ := calm.run_job h world.settings job
  rcases Job.exists_ended passes with ⟨e, hLog, -⟩ | ⟨found, later, hLog, ended⟩
  · cases hLog
  · cases hLog
    refine ⟨_, _, _, rest.work _, hLeaves, ?_, ?_, Fields.names_prefix_merge _ _,
      Fields.get?_merge _ _⟩
    · intro e hSteps
      rcases ended.scripted walks hLoaded hModules hInstances hScripted with
        ⟨other, hOther, hCalls, hResult⟩ | ⟨steps, -, -, hOther, -⟩
      · cases hSteps.symm.trans hOther
        exact ⟨hCalls, hResult⟩
      · cases hSteps.symm.trans hOther
    · intro steps hSteps
      rcases ended.scripted walks hLoaded hModules hInstances hScripted with
        ⟨e, hOther, -⟩ | ⟨_, completed, failure, hOther, hCarried, hFailure, hWorkspace⟩
      · cases hSteps.symm.trans hOther
      · cases hSteps.symm.trans hOther
        exact ⟨completed, failure, hCarried, hFailure, hWorkspace⟩

section

open Traffic

/-- A workspace with a module, an instance and a state. -/
def builtWorkspace (state : Bytes) : Workspace :=
  { modestWorkspace state with modules := [{ name := "m" }] }

theorem ofBytes_builtWorkspace (state : Bytes) :
    Workspace.ofBytes (builtWorkspace state).toBytes = .ok (builtWorkspace state) := by
  have holds : (builtWorkspace state).Holds Json.Proper :=
    ⟨by simp [builtWorkspace, Definitions.Ascending],
      by simp [builtWorkspace, modestWorkspace, Fields.names],
      by simp [builtWorkspace, modestWorkspace]⟩
  have hDepth : (builtWorkspace state).toJson.depth ≤ 127 := by
    refine Workspace.depth_toJson_le_iff.mpr ?_
    simp [Workspace.Shallow, builtWorkspace, modestWorkspace, ModuleInstance.FitsIn]
  rw [holds.ofBytes_toBytes, if_pos hDepth]

theorem ofBytes_restingWith_builtWorkspace (state : Bytes) :
    Workspace.ofBytes (restingWith (builtWorkspace state).toBytes).workspace =
      .ok (builtWorkspace state) := by
  rw [restingWith_workspace, ofBytes_builtWorkspace]

/-- A deployment whose state the old version wrote, with a tool that fails at the last version. -/
def crashingWorld : World where
  settings := upgradingSettings
  store :=
    { records := Fields.put [] restingRecord.id
        (restingWith (builtWorkspace (ToolState.document oldVersion [])).toBytes) }
  tool :=
    { faults := [{ command := .apply, version := some lastVersion, reason := "provider crashed" }] }
  clock := fun _ => restingRecord.created

theorem crashingWorld_atRest : crashingWorld.AtRest :=
  ⟨by simp [crashingWorld], rfl⟩

theorem crashingWorld_calm : crashingWorld.Calm :=
  rfl

theorem get?_crashingWorld : crashingWorld.store.records.get? restingRecord.id =
    some (restingWith (builtWorkspace (ToolState.document oldVersion [])).toBytes) :=
  Fields.get?_put_self ..

theorem stepsAhead_crashingWorld :
    (builtWorkspace (ToolState.document oldVersion [])).stepsAhead crashingWorld.settings =
      .ok [nextVersion] := by
  have hState : (builtWorkspace (ToolState.document oldVersion [])).state =
      (modestWorkspace (ToolState.document oldVersion [])).state := rfl
  rw [Workspace.stepsAhead, Workspace.stateVersion_congr hState, stateVersion_modestWorkspace]
  rfl

theorem carried_crashingWorld :
    crashingWorld.tool.Carried [⟨.apply, nextVersion⟩, ⟨.apply, lastVersion⟩]
      [⟨.apply, nextVersion⟩, ⟨.apply, lastVersion⟩] [⟨.apply, nextVersion⟩]
      (some (crash lastVersion)) := by
  have hCarried : crashingWorld.tool.Carried ([⟨.apply, nextVersion⟩] ++ [⟨.apply, lastVersion⟩])
      ([⟨.apply, nextVersion⟩] ++ [⟨.apply, lastVersion⟩]) [⟨.apply, nextVersion⟩]
      (some (crash lastVersion)) := .upTo (by decide) (by decide)
  exact hCarried

theorem walk_then_command_crashing :
    crashingWorld.AtRest ∧ crashingWorld.Calm ∧ ∃ result after calls,
      crashingWorld.work none (JobProgram.toBroker
          (Job.run crashingWorld.settings restingRecord.id (.update [("size", .null)]))) =
        (result, after) ∧
      after.tool.calls = calls ∧ calls = [⟨.apply, nextVersion⟩, ⟨.apply, lastVersion⟩] ∧
      result.failure? = some (crash lastVersion) ∧
      result.workspace? = some ((builtWorkspace (ToolState.document oldVersion [])).revised
        [("size", .null)] (ToolState.document nextVersion [])) := by
  let before := builtWorkspace (ToolState.document oldVersion [])
  let job : Job := .update [("size", .null)]
  obtain ⟨result, after, calls, hWork, hLeaves, -, hWalk, -⟩ :=
    @walk_then_command crashingWorld restingRecord.id _ job before _ [] crashingWorld_atRest
      crashingWorld_calm get?_crashingWorld (ofBytes_restingWith_builtWorkspace _)
      (by simp [before, builtWorkspace]) rfl rfl
  obtain ⟨completed, failure, hDone, hFailure, hWorkspace⟩ := hWalk _ stepsAhead_crashingWorld
  obtain ⟨rfl, rfl, rfl⟩ := carried_crashingWorld.det hDone
  have hCalls : after.tool.calls = crashingWorld.tool.calls ++ _ := congrArg (·.calls) hLeaves.tool
  exact ⟨crashingWorld_atRest, crashingWorld_calm, result, after, _, hWork, hCalls, rfl, hFailure,
    hWorkspace⟩

end

end World

end ServiceBroker
