import ServiceBroker.Proofs.Broker.Poll
import ServiceBroker.Proofs.Broker.Succession
import ServiceBroker.Proofs.Workspace.ToolState

/-! The outputs that an application leaves. The state holds them within the stored workspace; each
instance shows them, also once the workspace was stored and read again, and a poll after the job has
ended tells the status output among them. -/

namespace ServiceBroker

namespace Workspace

/-- The workspace after an application of a version that left some outputs. -/
def appliedAt (workspace : Workspace) (version : Version) (outputs : Params) : Workspace :=
  { workspace with state := ToolState.document version outputs }

variable {workspace : Workspace} {version : Version} {outputs : Params}

@[simp]
theorem state_appliedAt :
    (workspace.appliedAt version outputs).state = ToolState.document version outputs := by
  rw [appliedAt]

@[simp]
theorem modules_appliedAt : (workspace.appliedAt version outputs).modules = workspace.modules := by
  rw [appliedAt]

@[simp]
theorem instances_appliedAt :
    (workspace.appliedAt version outputs).instances = workspace.instances := by
  rw [appliedAt]

@[simp]
theorem instanceNames_appliedAt :
    (workspace.appliedAt version outputs).instanceNames = workspace.instanceNames := by
  rw [instanceNames, instances_appliedAt, instanceNames]

theorem WellFormed.appliedAt (wellFormed : workspace.WellFormed) :
    (workspace.appliedAt version outputs).WellFormed where
  definitions := by simpa using wellFormed.definitions
  configuration := by simpa using wellFormed.configuration

/-- Nothing but the configurations matters for what can be read of a workspace. -/
theorem depth_appliedAt_le_iff :
    (workspace.appliedAt version outputs).toJson.depth ≤ 127 ↔ workspace.toJson.depth ≤ 127 := by
  rw [depth_toJson_le_iff, depth_toJson_le_iff, Shallow, instances_appliedAt, Shallow]

theorem legible_appliedAt_iff :
    (workspace.appliedAt version outputs).toJson.Legible ↔ workspace.toJson.Legible := by
  rw [legible_toJson_iff, legible_toJson_iff, instances_appliedAt]

end Workspace

/-- An application that the script lets succeed leaves the scripted outputs, however it is run. -/
theorem Job.Body.eq_appliedAt_of_ends {workspace reached : Workspace}
    {log : List (Exchange jobInterface)} {outcome : Except BrokerError String} {version : Version}
    {tool : ScriptedTool} (ends : Ends (runTool version .apply) workspace log outcome reached)
    (scripted : ∀ exchange ∈ log, exchange.Scripted tool)
    (sound : tool.fault? ⟨.apply, version⟩ = none) :
    outcome = .ok "" ∧ reached = workspace.appliedAt version tool.outputs := by
  obtain ⟨answer, rfl, hAnswer⟩ := ends_runTool_iff.mp ends
  have hReport := ScriptedTool.answer_of_sound (scripted _ List.mem_cons_self) sound
  rw [hReport] at hAnswer
  simpa [ranTool, ScriptedTool.report, Workspace.appliedAt] using hAnswer

/-- What is told of the outputs once a job has ended with success: the status output of the first
instance, a text as it is and any other value as JSON. -/
structure Workspace.Tells (workspace : Workspace) (outputs : Params) (message : String) : Prop where
  nowhere : workspace.instances = [] → message = ""
  missing : outputs.get? statusOutput = none → message = ""
  text : workspace.instances ≠ [] → ∀ text, outputs.get? statusOutput = some (.string text) →
    message = text
  other : workspace.instances ≠ [] → ∀ value, outputs.get? statusOutput = some value →
    (∀ text, value ≠ .string text) → message = value.render

theorem Workspace.Shows.tells {workspace : Workspace} {version : Version} {outputs : Params}
    (shows : workspace.Shows version outputs) :
    workspace.Tells outputs workspace.final.statusMessage := by
  cases hInstances : workspace.instances with
  | nil =>
      have hMessage : workspace.final.statusMessage = "" := by
        simp [FinalWorkspace.statusMessage, final, instanceNames, hInstances]
      exact ⟨fun _ => hMessage, fun _ => hMessage, fun placed => (placed hInstances).elim,
        fun placed => (placed hInstances).elim⟩
  | cons first others =>
      have hOutputs := shows.outputs first.name (by simp [instanceNames, hInstances])
      simp only [FinalWorkspace.statusMessage, final, instanceNames, hInstances, List.map_cons,
        hOutputs]
      constructor
      · intro hNone
        rw [hInstances] at hNone
        cases hNone
      · intro hStatus
        rw [hStatus]
      · intro _ text hStatus
        rw [hStatus]
      · intro _ value hStatus noText
        rw [hStatus]
        cases value with
        | string text => exact (noText text rfl).elim
        | null | bool | number | array | object => rfl

namespace World

variable {α : Type} {world : World} {id : String} {record : Record}

/-- Work that never runs the tool does not wait, whatever goes on in the background. -/
theorem work_of_runsAtMost_zero {program : JobProgram α} (idle : program.RunsAtMost 0)
    (world : World) : world.work none program.toBroker = program.run serve world := by
  generalize hNone : 0 = n at idle
  induction idle generalizing world with
  | done => rfl
  | store _ ih => exact ih _ _ hNone
  | now _ ih => exact ih _ _ hNone
  | tool => cases hNone

/-- A world at rest applies what the script lets succeed. -/
theorem AtRest.work_apply (rest : world.AtRest) {version : Version}
    (sound : world.tool.fault? ⟨.apply, version⟩ = none) (workspace : Workspace) :
    ∃ after, world.work none
        (JobProgram.toBroker ((Job.runTool version .apply).run.run workspace)) =
      ((.ok "", workspace.appliedAt version world.tool.outputs), after) := by
  rw [rest.work]
  obtain ⟨log, passes, replied⟩ :=
    ((Job.runTool version .apply).run.run workspace).exists_replied World.serve world
  generalize ((Job.runTool version .apply).run.run workspace).run World.serve world = returned
    at passes replied ⊢
  obtain ⟨⟨outcome, reached⟩, after⟩ := returned
  have hLog := passes
  obtain ⟨answer, rfl, -⟩ := Job.Body.ends_runTool_iff.mp hLog
  have scripted : ∀ exchange ∈ [(⟨.tool { command := .apply, version, workspace }, answer⟩ :
      Exchange jobInterface)], exchange.Scripted world.tool := by
    cases replied
    exact List.forall_mem_singleton.mpr rfl
  obtain ⟨hOutcome, hReached⟩ := Job.Body.eq_appliedAt_of_ends passes scripted sound
  exact ⟨after, by rw [hOutcome, hReached]⟩

/-- Whoever polls after a job has ended with success is told what the workspace says. -/
theorem Calm.work_settled (calm : world.Calm) (h : world.store.records.get? id = some record)
    (key : record.id = id) (workspace : Workspace) :
    ∃ finished polled,
      world.work none (StoreWork.toBroker (recordOutcome id (.ok workspace))).run =
        (.ok (), finished) ∧
      finished.work none (StoreWork.toBroker (pollStatus id)).run =
        (.ok { isDone := true, message := workspace.final.statusMessage, failure := none },
          polled) := by
  obtain ⟨now, finished, hRun, leaves⟩ := calm.run_recordOutcome h key (.ok workspace)
  have hWork := work_of_runsAtMost_zero (Job.recordOutcome_runsAtMost id (.ok workspace)) world
  have hFound : finished.store.records.get? id =
      some (record.settled (.ok workspace) now) := by
    rw [leaves.records]
    exact Fields.get?_put_self ..
  obtain ⟨polled, hPoll, -⟩ := leaves.calm.work_pollStatus hFound
  exact ⟨finished, polled, hWork.trans hRun, hPoll⟩

/-- The workspace has instances of some names, shows a version and outputs for them, and is what
whoever polls is told of once a job has ended with it. -/
structure Presents (names : List String) (version : Version) (outputs : Params)
    (workspace : Workspace) : Prop where
  names : workspace.instanceNames = names
  shows : workspace.Shows version outputs
  polled : ∀ (world : World) (id : String) (record : Record), world.Calm →
    world.store.records.get? id = some record → record.id = id →
      ∃ finished polled status,
        world.work none (StoreWork.toBroker (recordOutcome id (.ok workspace))).run =
          (.ok (), finished) ∧
        finished.work none (StoreWork.toBroker (pollStatus id)).run = (.ok status, polled) ∧
        status.isDone = true ∧ status.failure = none ∧ workspace.Tells outputs status.message

variable {workspace : Workspace} {version : Version} {outputs : Params}

theorem presents_of_document (hState : workspace.state = ToolState.document version outputs)
    (distinct : (Json.object outputs).Distinct) (faithful : (Json.object outputs).Faithful)
    (shallow : ∀ output ∈ outputs, output.2.depth ≤ 124) :
    Presents workspace.instanceNames version outputs workspace where
  names := rfl
  shows := Workspace.shows_of_document hState distinct faithful shallow
  polled world id record calm h key := by
    obtain ⟨finished, polled, hFinished, hPolled⟩ := calm.work_settled h key workspace
    have shows := Workspace.shows_of_document hState distinct faithful shallow
    exact ⟨finished, polled, _, hFinished, hPolled, rfl, rfl, shows.tells⟩

/-- For all outputs whose numbers are integers of 64 bits and whose values nest to a depth of at
most 124, the state that an application writes says which version wrote it and which outputs there
are, in their order. An application at a version that does not fail leaves a workspace that shows
this version, and these outputs for its instances and for nothing else; and a poll after a job has
ended with it tells the status output. So does the workspace that is read from its stored form; and
that can be read if the text nests to a depth of at most 127 and each number in it can be read, as
an integer of 64 bits always can. -/
theorem outputs_reach_polls (distinct : (Json.object outputs).Distinct)
    (integral : (Json.object outputs).Integral)
    (shallow : ∀ output ∈ outputs, output.2.depth ≤ 124) (version : Version) :
    (∃ state, ToolState.parse (ToolState.document version outputs) = .ok state ∧
      state.version = .ok version ∧ state.outputValues = outputs) ∧
    ∀ (tool : ScriptedTool) (workspace : Workspace), tool.outputs = outputs →
      tool.fault? ⟨.apply, version⟩ = none →
      ∃ applied,
        (∀ log outcome reached,
          (Job.runTool version .apply).Ends workspace log outcome reached →
          (∀ exchange ∈ log, exchange.Scripted tool) → outcome = .ok "" ∧ reached = applied) ∧
        (∀ world : World, world.AtRest → world.tool = tool →
          ∃ after, world.work none
              (JobProgram.toBroker ((Job.runTool version .apply).run.run workspace)) =
            ((.ok "", applied), after)) ∧
        Presents workspace.instanceNames version outputs applied ∧
        (workspace.WellFormed → workspace.toJson.Legible → workspace.toJson.depth ≤ 127 →
          ∃ again, Workspace.ofBytes applied.toBytes = .ok again ∧
            Presents workspace.instanceNames version outputs again) := by
  refine ⟨ToolState.exists_parse_document distinct integral.faithful shallow version, ?_⟩
  rintro tool workspace rfl sound
  let applied := workspace.appliedAt version tool.outputs
  have hNames : applied.instanceNames = workspace.instanceNames :=
    Workspace.instanceNames_appliedAt
  have hState : applied.state = ToolState.document version tool.outputs :=
    Workspace.state_appliedAt
  refine ⟨applied, ?_, ?_, ?_, ?_⟩
  · intro log outcome reached ends scripted
    exact Job.Body.eq_appliedAt_of_ends ends scripted sound
  · rintro world rest rfl
    exact rest.work_apply sound workspace
  · rw [← hNames]
    exact presents_of_document hState distinct integral.faithful shallow
  · intro wellFormed legible hDepth
    have hRead : Workspace.ofBytes applied.toBytes = .ok applied.asRead :=
      Workspace.ofBytes_toBytes_of_legible wellFormed.appliedAt
        (Workspace.legible_appliedAt_iff.mpr legible) (Workspace.depth_appliedAt_le_iff.mpr hDepth)
    refine ⟨applied.asRead, hRead, ?_⟩
    rw [← hNames, ← applied.instanceNames_asRead]
    have hKept := applied.state_asRead.trans hState
    exact presents_of_document hKept distinct integral.faithful shallow

/-- The outputs of a database. -/
def databaseOutputs : Params :=
  [("status", .string "created"), ("port", .number (.integer 5432))]

/-- A workspace with a database that was never built. -/
def databaseWorkspace : Workspace where
  modules := [{ name := "m" }]
  instances := [{
    moduleName := "m", name := "db", configuration := [("size", .number (.integer 3))] }]

/-- A broker with one record, whose tool leaves the outputs of a database. -/
def databaseWorld : World where
  settings := Traffic.plainSettings
  store := { records := Fields.put [] Traffic.restingRecord.id Traffic.restingRecord }
  tool := { outputs := databaseOutputs }
  clock := fun _ => Traffic.restingRecord.created

theorem distinct_databaseOutputs : (Json.object databaseOutputs).Distinct :=
  Json.distinct_object_iff.mpr ⟨by decide, List.forall_mem_cons.mpr
    ⟨Json.distinct_of_isAtom trivial, List.forall_mem_singleton.mpr
      (Json.distinct_of_isAtom trivial)⟩⟩

theorem integral_databaseOutputs : (Json.object databaseOutputs).Integral := by
  refine Json.throughout_object_iff.mpr ⟨trivial, ?_⟩
  simp [databaseOutputs, Json.Number.keeps]

theorem wellFormed_databaseWorkspace : databaseWorkspace.WellFormed where
  definitions := by simp [databaseWorkspace, Definitions.Ascending]
  configuration := List.forall_mem_singleton.mpr (Json.distinct_object_iff.mpr
    ⟨by decide, List.forall_mem_singleton.mpr (Json.distinct_of_isAtom trivial)⟩)

theorem legible_databaseWorkspace : databaseWorkspace.toJson.Legible := by
  refine Json.Faithful.legible (Json.Integral.faithful (Workspace.integral_toJson_iff.mpr ?_))
  simp [databaseWorkspace, Json.Integral, Json.Number.keeps]

theorem outputs_reach_polls_created :
    (Json.object databaseOutputs).Distinct ∧ (Json.object databaseOutputs).Integral ∧
      (∀ output ∈ databaseOutputs, output.2.depth ≤ 124) ∧
      ∃ applied after again finished polled,
        databaseWorld.work none (JobProgram.toBroker
            ((Job.runTool databaseWorld.settings.defaultVersion .apply).run.run
              databaseWorkspace)) = ((.ok "", applied), after) ∧
        Workspace.ofBytes applied.toBytes = .ok again ∧
        again.stateVersion = .ok databaseWorld.settings.defaultVersion ∧
        again.outputs "db" = .ok databaseOutputs ∧
        again.outputs "cache" = .error (.instanceNotFound "cache") ∧
        databaseWorld.work none
            (StoreWork.toBroker (recordOutcome Traffic.restingRecord.id (.ok again))).run =
          (.ok (), finished) ∧
        finished.work none (StoreWork.toBroker (pollStatus Traffic.restingRecord.id)).run =
          (.ok { isDone := true, message := "created", failure := none }, polled) := by
  have shallow : ∀ output ∈ databaseOutputs, output.2.depth ≤ 124 := by decide
  have hDepth : databaseWorkspace.toJson.depth ≤ 127 :=
    Workspace.depth_toJson_le_iff.mpr (by decide)
  let version := databaseWorld.settings.defaultVersion
  obtain ⟨-, hApplied⟩ :=
    outputs_reach_polls distinct_databaseOutputs integral_databaseOutputs shallow version
  obtain ⟨applied, -, hWork, -, hStored⟩ := hApplied databaseWorld.tool databaseWorkspace rfl rfl
  have rest : databaseWorld.AtRest := ⟨by simp [databaseWorld], rfl⟩
  obtain ⟨after, hWork⟩ := hWork databaseWorld rest rfl
  obtain ⟨again, hRead, presents⟩ :=
    hStored wellFormed_databaseWorkspace legible_databaseWorkspace hDepth
  have hNames : again.instanceNames = ["db"] := presents.names
  have hFirst := presents.shows.outputs "db" (by simp [hNames])
  have hOther := presents.shows.others "cache" (by simp [hNames])
  obtain ⟨finished, polled, ⟨isDone, message, failure⟩, hFinished, hPolled, hDone, hNone, tells⟩ :=
    presents.polled databaseWorld Traffic.restingRecord.id Traffic.restingRecord rfl
      (Fields.get?_put_self ..) rfl
  have placed : again.instances ≠ [] := by
    intro hEmpty
    rw [Workspace.instanceNames, hEmpty] at hNames
    cases hNames
  obtain rfl : isDone = true := hDone
  obtain rfl : failure = none := hNone
  obtain rfl : message = "created" := tells.text placed "created" rfl
  exact ⟨distinct_databaseOutputs, integral_databaseOutputs, shallow, applied, after, again,
    finished, polled, hWork, hRead, presents.shows.version, hFirst, hOther, hFinished, hPolled⟩

end World

end ServiceBroker
