import ServiceBroker.Proofs.Broker.LifeCycle
import ServiceBroker.Proofs.Broker.Result
import ServiceBroker.Proofs.Upgrade.StateVersion

/-! Deployments that are upgraded one after another. In a world at rest each call comes to an end
before the next one begins: it is refused and nothing is done, or its job runs and its outcome is
recorded. The first one that fails is the last one. -/

namespace ServiceBroker

/-- The record tells of an update that succeeded and left a state of a version; whoever can read the
version of that state reads this one. -/
structure Record.UpdatedTo (record : Record) (version : Version) (outputs : Params) : Prop where
  operation : record.operation = .update
  state : record.state = .succeeded
  workspace : ∃ workspace : Workspace, record.workspace = workspace.toBytes ∧
    workspace.state = ToolState.document version outputs
  read : ∀ found, storedVersion record.workspace = .ok found → found = version
  legible : ToolState.Legible outputs → ∀ workspace,
    Workspace.ofBytes record.workspace = .ok workspace → workspace.stateVersion = .ok version

/-- The record of an update that was recorded with the workspace that it left. -/
theorem Record.updatedTo_settled {record : Record} {workspace : Workspace} {version : Version}
    {outputs : Params} (h : workspace.state = ToolState.document version outputs)
    (begun finished : Timestamp) :
    ((record.started .update begun).settled (.ok workspace) finished).UpdatedTo version
      outputs where
  operation := rfl
  state := rfl
  workspace := ⟨workspace, rfl, h⟩
  read _ hFound := Workspace.stateVersion_eq_of_document h (storedVersion_toBytes hFound)
  legible legible _ hRead :=
    Workspace.stateVersion_of_legible ((Workspace.state_of_ofBytes_toBytes hRead).trans h) legible

namespace World

variable {world middle after : World} {calls : List ToolCall} {records : Records} {id : String}
  {record : Record} {job : Job}

/-- The outcome of a job is written into the record of its deployment. -/
theorem Calm.run_recordOutcome (calm : world.Calm)
    (h : world.store.records.get? id = some record) (key : record.id = id) (result : JobResult) :
    ∃ now after, (recordOutcome id result).run.run serve world = (result.outcome, after) ∧
      world.Leaves after [] (world.store.records.put id (record.settled result now)) [] := by
  obtain ⟨hRead, first⟩ := calm.reads_of_get? h
  rw [recordOutcome_run, run_store hRead]
  generalize (world.callStore (.get id)).2 = middle at first
  let now := middle.clock middle.time
  let settled := record.settled result now
  obtain ⟨hWritten, second⟩ := first.calm.writes settled
  have hStored : (storing result record now).run serve middle =
      (result.outcome, (middle.callStore (.put settled)).2) := run_store hWritten
  refine ⟨now, _, hStored, ?_⟩
  have hRecords : middle.store.records.put settled.id settled =
      world.store.records.put id settled := by
    rw [first.records, Record.settled_id, key]
  rw [hRecords] at second
  exact first.trans second

/-- A job that runs to its end records its outcome. -/
theorem Calm.run_task (calm : world.Calm) (h : world.store.records.get? id = some record)
    (key : record.id = id) (settings : UpgradeSettings) (job : Job) :
    ∃ log result now after,
      (job.run settings id).Passes (.reading id record :: log) (.done result) ∧
      (∀ exchange ∈ log, exchange.Scripted world.tool) ∧
      (job.task settings id).run serve world = (result.outcome, after) ∧
      world.Leaves after (toolCalls log) (world.store.records.put id (record.settled result now))
        [] := by
  obtain ⟨log, passes, scripted, first⟩ := calm.run_job h settings job
  have hTask : (job.task settings id).run serve world =
      (recordOutcome id ((job.run settings id).run serve world).1).run.run serve
        ((job.run settings id).run serve world).2 := Program.run_bind ..
  generalize (job.run settings id).run serve world = returned at passes first hTask
  obtain ⟨result, middle⟩ := returned
  have hFound : middle.store.records.get? id = some record := by rw [first.records, h]
  obtain ⟨now, after, hRecorded, second⟩ := first.calm.run_recordOutcome hFound key result
  rw [first.records] at second
  refine ⟨log, result, now, after, passes, scripted, hTask.trans hRecorded, ?_⟩
  have hLeaves := first.trans second
  rwa [List.append_nil] at hLeaves

theorem dispatchAndJoin_run (id : String) (job : Job) :
    (dispatchAndJoin id job).run = Program.bind (dispatch id job).run fun started =>
      match started with
      | .ok handle => .ask (I := brokerInterface) (.join handle) .done
      | .error e => .done (.error e) := by
  change Program.bind _ _ = Program.bind _ _
  congr 1
  funext started
  cases started <;> rfl

/-- A job is dispatched and joined in a world at rest. The call is refused and nothing is done, or
the job runs to its end, its outcome is recorded, and whoever joins it is told. -/
inductive Performs (world : World) (id : String) (job : Job) :
    List ToolCall → Except BrokerError Unit → World → Prop where
  | refused {e : BrokerError} {after : World} (refused : Traffic.Refused id world.traffic e)
      (leaves : world.Leaves after [] world.store.records []) :
      Performs world id job [] (.error e) after
  | ended {record : Record} {log : List (Exchange jobInterface)} {result : JobResult}
      {after : World} (begun finished : Timestamp)
      (h : world.store.records.get? id = some record)
      (idle : admission id (.ok record) = .ok ())
      (ended : Job.Ended world.settings job record log result)
      (scripted : ∀ exchange ∈ log, exchange.Scripted world.tool)
      (leaves : world.Leaves after (toolCalls log)
        (world.store.records.put id ((record.started job.operation begun).settled result finished))
        [{ id, job, state := .ended result.outcome }]) :
      Performs world id job (toolCalls log) result.outcome after

/-- The same world with one more job. -/
theorem Leaves.employ (leaves : world.Leaves after calls records []) (rest : world.AtRest)
    (task : Task) : world.Leaves (after.employ (world.tasks ++ [task]) []) calls records [task] :=
  ⟨leaves.calm, leaves.settings, leaves.tool, leaves.records, rfl, rest.queue.symm⟩

/-- What a call for a job and the wait for its end come to in a world at rest. -/
theorem AtRest.work_dispatchAndJoin (rest : world.AtRest) (calm : world.Calm)
    (keyed : world.store.records.Keyed) (id : String) (job : Job) :
    ∃ calls outcome after, world.work none (dispatchAndJoin id job).run = (outcome, after) ∧
      world.Performs id job calls outcome after := by
  rw [dispatchAndJoin_run, work_bind]
  cases hVerdict : admission id (world.traffic.found id) with
  | error e =>
      obtain ⟨after, hWork, hLeaves⟩ := calm.work_dispatch_refused hVerdict job
      rw [hWork]
      have hRefused := Traffic.admission_eq_error_iff.mp hVerdict
      exact ⟨[], .error e, after, rfl, .refused hRefused hLeaves⟩
  | ok _ =>
      obtain ⟨record, hFound, idle⟩ := Traffic.exists_of_admission hVerdict
      have key := keyed id record hFound
      obtain ⟨begun, middle, hWork, hMarked⟩ := calm.work_dispatch hFound key idle job
      let started := record.started job.operation begun
      have hStarted : middle.store.records.get? id = some started := by
        rw [hMarked.records]
        exact Fields.get?_put_self ..
      obtain ⟨log, result, finished, after, passes, scripted, hTask, hLeaves⟩ :=
        hMarked.calm.run_task hStarted key middle.settings job
      -- The job runs in the background once it is joined, and comes to what it comes to alone.
      have hJoin := (hMarked.atRest rest (by simp)).join_start id job
      rw [hTask] at hJoin
      have hWhole := hMarked.trans hLeaves
      have hTasks := hMarked.tasks
      rw [List.append_nil] at hTasks
      rw [hMarked.records, Fields.put_put_self] at hWhole
      let task : Task := { id, job, state := .ended result.outcome }
      have hEmployed := hWhole.employ rest task
      rcases Job.exists_ended passes with ⟨e, hLog, -⟩ | ⟨found, later, hLog, ended⟩
      · cases hLog
      · cases hLog
        rw [hMarked.settings] at ended
        refine ⟨toolCalls log, result.outcome, _, ?_, .ended begun finished hFound idle
          (ended.congr rfl) (fun exchange member => hMarked.scripted (scripted exchange member))
          hEmployed⟩
        rw [hWork]
        refine hJoin.trans ?_
        rw [hTasks]

theorem Performs.leaves {outcome : Except BrokerError Unit}
    (performs : world.Performs id job calls outcome after) :
    ∃ tasks, (∀ task ∈ tasks, ∃ outcome, task.state = .ended outcome) ∧
      world.Leaves after calls after.store.records tasks := by
  cases performs with
  | refused _ leaves => exact ⟨[], by simp, leaves.records.symm ▸ leaves⟩
  | ended begun finished h idle ended scripted leaves =>
      exact ⟨_, by simp, leaves.records.symm ▸ leaves⟩

/-- Only the record of the deployment may have changed. -/
theorem Performs.untouched {outcome : Except BrokerError Unit} {other : String}
    (performs : world.Performs id job calls outcome after) (h : other ≠ id) :
    after.store.records.get? other = world.store.records.get? other := by
  cases performs with
  | refused _ leaves => rw [leaves.records]
  | ended begun finished _ idle ended scripted leaves =>
      rw [leaves.records]
      exact Fields.get?_put_of_ne _ _ h

theorem Performs.keyed {outcome : Except BrokerError Unit}
    (performs : world.Performs id job calls outcome after) (keyed : world.store.records.Keyed) :
    after.store.records.Keyed := by
  cases performs with
  | refused _ leaves => rwa [leaves.records]
  | @ended record log result _ begun finished h idle ended scripted leaves =>
      have key := keyed id record h
      have hPut := keyed.put ((record.started job.operation begun).settled result finished)
      rw [Record.settled_id, Record.started_id, key] at hPut
      rwa [leaves.records]

/-- An upgrade that succeeds leaves a record of that, and a state of the default version. -/
theorem Performs.updated {vars : Params}
    (performs : world.Performs id (.upgrade vars) calls (.ok ()) after) :
    ∃ record, after.store.records.get? id = some record ∧
      record.UpdatedTo world.settings.defaultVersion world.tool.outputs := by
  generalize hOutcome : (Except.ok () : Except BrokerError Unit) = outcome at performs
  cases performs with
  | refused => cases hOutcome
  | @ended record log result _ begun finished h idle ended scripted leaves =>
      cases result with
      | error failed => cases hOutcome
      | ok workspace =>
          obtain ⟨prepared, ends⟩ := ended.exists_ends
          have hState := Job.Body.state_of_ends_ok rfl ends scripted
          rw [leaves.records]
          exact ⟨_, Fields.get?_put_self .., Record.updatedTo_settled hState begun finished⟩

/-- Deployments that are upgraded one after another, each of them with success. -/
inductive Succession : World → List (String × Params) → List ToolCall → World → Prop where
  | nil (world : World) : Succession world [] [] world
  | cons {world middle after : World} {id : String} {vars : Params} {calls later : List ToolCall}
      {units : List (String × Params)}
      (first : world.Performs id (.upgrade vars) calls (.ok ()) middle)
      (rest : Succession middle units later after) :
      Succession world ((id, vars) :: units) (calls ++ later) after

variable {units : List (String × Params)}

theorem Succession.leaves (calm : world.Calm) (succession : Succession world units calls after) :
    ∃ tasks, (∀ task ∈ tasks, ∃ outcome, task.state = .ended outcome) ∧
      world.Leaves after calls after.store.records tasks := by
  induction succession with
  | nil world => exact ⟨[], by simp, calm.leaves_self⟩
  | cons first _ ih =>
      obtain ⟨tasks, hEnded, hFirst⟩ := first.leaves
      obtain ⟨more, hMore, hLater⟩ := ih hFirst.calm
      refine ⟨tasks ++ more, fun task member => ?_, hFirst.trans hLater⟩
      exact (List.mem_append.mp member).elim (hEnded task) (hMore task)

theorem Succession.keyed (succession : Succession world units calls after)
    (keyed : world.store.records.Keyed) : after.store.records.Keyed := by
  induction succession with
  | nil => exact keyed
  | cons first _ ih => exact ih (first.keyed keyed)

/-- A record of none of the deployments is what it was. -/
theorem Succession.untouched (succession : Succession world units calls after) {other : String}
    (h : ∀ unit ∈ units, other ≠ unit.1) :
    after.store.records.get? other = world.store.records.get? other := by
  induction succession with
  | nil => rfl
  | cons first _ ih =>
      obtain ⟨hFirst, hLater⟩ := List.forall_mem_cons.mp h
      exact (ih hLater).trans (first.untouched hFirst)

/-- A deployment that comes twice is upgraded twice, and its record tells of the last time. -/
theorem Succession.updated (succession : Succession world units calls after) :
    ∀ unit ∈ units, ∃ record, after.store.records.get? unit.1 = some record ∧
      record.UpdatedTo world.settings.defaultVersion world.tool.outputs := by
  induction succession with
  | nil => simp
  | @cons world middle after id vars calls later units first succession ih =>
      obtain ⟨tasks, -, hFirst⟩ := first.leaves
      have hLater := ih
      rw [hFirst.settings, hFirst.tool] at hLater
      refine List.forall_mem_cons.mpr ⟨?_, hLater⟩
      by_cases again : ∃ unit ∈ units, id = unit.1
      · obtain ⟨unit, member, rfl⟩ := again
        exact hLater unit member
      · obtain ⟨record, hFound, hUpdated⟩ := first.updated
        refine ⟨record, ?_, hUpdated⟩
        rw [succession.untouched fun unit member same => again ⟨unit, member, same⟩, hFound]

theorem upgradeAll_cons_run (id : String) (vars : Params) (units : List (String × Params)) :
    (upgradeAll ((id, vars) :: units)).run =
      Program.bind (dispatchAndJoin id (.upgrade vars)).run fun ended =>
        match ended with
        | .ok _ => (upgradeAll units).run
        | .error e => .done (.error e) := by
  change Program.bind _ _ = Program.bind _ _
  congr 1
  funext ended
  cases ended <;> rfl

/-- Either all deployments are upgraded with success, or those before the first one that fails. -/
theorem AtRest.work_upgradeAll (rest : world.AtRest) (calm : world.Calm)
    (keyed : world.store.records.Keyed) (units : List (String × Params)) :
    ∃ outcome after, world.work none (upgradeAll units).run = (outcome, after) ∧
      ((outcome = .ok () ∧ ∃ calls, Succession world units calls after) ∨
        ∃ before id vars later calls middle last e, units = before ++ (id, vars) :: later ∧
          outcome = .error e ∧ Succession world before calls middle ∧
          middle.Performs id (.upgrade vars) last (.error e) after) := by
  induction units generalizing world with
  | nil => exact ⟨.ok (), world, rfl, .inl ⟨rfl, [], .nil world⟩⟩
  | cons unit units ih =>
      obtain ⟨id, vars⟩ := unit
      obtain ⟨calls, outcome, middle, hWork, performs⟩ :=
        rest.work_dispatchAndJoin calm keyed id (.upgrade vars)
      rw [upgradeAll_cons_run, work_bind, hWork]
      cases outcome with
      | error e =>
          exact ⟨.error e, middle, rfl,
            .inr ⟨[], id, vars, units, [], world, calls, e, rfl, rfl, .nil world, performs⟩⟩
      | ok _ =>
          obtain ⟨tasks, hEnded, hLeaves⟩ := performs.leaves
          obtain ⟨outcome, after, hRest, hEnd⟩ :=
            ih (hLeaves.atRest rest hEnded) hLeaves.calm (performs.keyed keyed)
          refine ⟨outcome, after, hRest, ?_⟩
          rcases hEnd with ⟨rfl, later, succession⟩ |
            ⟨before, other, vars₂, rest₂, later, failing, last, e, rfl, rfl, succession, failed⟩
          · exact .inl ⟨rfl, _, .cons performs succession⟩
          · exact .inr ⟨_ :: before, other, vars₂, rest₂, _, failing, last, e, rfl, rfl,
              .cons performs succession, failed⟩

/-- Upgrades of an instance and its bindings in a world at rest, for any settings and any failures
of the tool. One after another is brought to its recorded outcome, in the order in which they are
listed, and so are the runs of the tool. If all succeed, so does the whole, and the records of all
tell of an update that succeeded and left a state of the default version. Otherwise the whole ends
with the error of the first one that fails, whether it was refused or its job failed; the runs of
the tool are those up to and including that one, the records of those before it, unless of the same
deployment, tell of their success, and no other record is changed. -/
theorem upgrades_until_failure (rest : world.AtRest) (calm : world.Calm)
    (keyed : world.store.records.Keyed) (name : String) (vars : Params)
    (bindings : List (String × Params)) :
    let units := (instanceId name, vars) ::
      bindings.map fun (binding, vars) => (bindingId name binding, vars)
    let Updated (after : World) (id : String) := ∃ record,
      after.store.records.get? id = some record ∧
        record.UpdatedTo world.settings.defaultVersion world.tool.outputs
    ∃ outcome after calls,
      world.work none (upgradeInstance name vars bindings).run = (outcome, after) ∧
        after.AtRest ∧ after.tool.calls = world.tool.calls ++ calls ∧
        ((outcome = .ok () ∧ Succession world units calls after ∧
            (∀ unit ∈ units, Updated after unit.1) ∧
            ∀ other, (∀ unit ∈ units, other ≠ unit.1) →
              after.store.records.get? other = world.store.records.get? other) ∨
          ∃ before id vars later middle earlier last e,
            units = before ++ (id, vars) :: later ∧ outcome = .error e ∧
              calls = earlier ++ last ∧ Succession world before earlier middle ∧
              middle.Performs id (.upgrade vars) last (.error e) after ∧
              (∀ unit ∈ before, unit.1 ≠ id → Updated after unit.1) ∧
              ∀ other, other ≠ id → (∀ unit ∈ before, other ≠ unit.1) →
                after.store.records.get? other = world.store.records.get? other) := by
  intro units Updated
  obtain ⟨outcome, after, hWork, ⟨hOutcome, calls, succession⟩ |
    ⟨before, id, vars, later, earlier, middle, last, e, hUnits, hOutcome, succession, failed⟩⟩ :=
    rest.work_upgradeAll calm keyed units
  · obtain ⟨tasks, hEnded, hLeaves⟩ := succession.leaves calm
    exact ⟨outcome, after, calls, hWork, hLeaves.atRest rest hEnded, by rw [hLeaves.tool],
      .inl ⟨hOutcome, succession, succession.updated, fun other h => succession.untouched h⟩⟩
  · obtain ⟨tasks, hEnded, hEarlier⟩ := succession.leaves calm
    obtain ⟨more, hMore, hLast⟩ := failed.leaves
    have hRest := hLast.atRest (hEarlier.atRest rest hEnded) hMore
    have hWhole := hEarlier.trans hLast
    refine ⟨outcome, after, earlier ++ last, hWork, hRest, by rw [hWhole.tool],
      .inr ⟨before, id, vars, later, middle, earlier, last, e, hUnits, hOutcome, rfl, succession,
        failed, fun unit member hOther => ?_, fun other hOther hEarlier => ?_⟩⟩
    · obtain ⟨record, hFound, hUpdated⟩ := succession.updated unit member
      exact ⟨record, by rw [failed.untouched hOther, hFound], hUpdated⟩
    · rw [failed.untouched hOther, succession.untouched hEarlier]

section

open Traffic

/-- The tool fails at the last version, whatever variables are set. -/
theorem Performs.crashing {vars : Params} {outcome : Except BrokerError Unit}
    (performs : crashingWorld.Performs restingRecord.id (.upgrade vars) calls outcome after) :
    calls = [⟨.apply, nextVersion⟩, ⟨.apply, lastVersion⟩] ∧
      outcome = .error (crash lastVersion) := by
  let before := builtWorkspace (ToolState.document oldVersion [])
  have hLoaded := ofBytes_restingWith_builtWorkspace (ToolState.document oldVersion [])
  cases performs with
  | refused refused =>
      have hRefused := admission_eq_error_iff.mpr refused
      rw [found_of_get? get?_crashingWorld,
        admission_eq_ok_iff.mpr ⟨rfl, before, hLoaded⟩] at hRefused
      cases hRefused
  | @ended record log result _ begun finished h idle ended scripted leaves =>
      obtain rfl := Option.some.inj (get?_crashingWorld.symm.trans h)
      rcases ended.scripted rfl hLoaded (by simp [builtWorkspace]) rfl scripted with
        ⟨e, hSteps, -⟩ | ⟨steps, completed, failure, hSteps, hDone, hFailure, -⟩
      · cases stepsAhead_crashingWorld.symm.trans hSteps
      · cases stepsAhead_crashingWorld.symm.trans hSteps
        obtain ⟨hCalls, -, rfl⟩ := carried_crashingWorld.det hDone
        refine ⟨hCalls.symm, ?_⟩
        cases result with
        | ok workspace => cases hFailure
        | error failed => exact congrArg Except.error (Option.some.inj hFailure)

/-- The upgrade of the instance fails, and its binding is not looked at. -/
theorem upgrades_until_failure_crashing :
    crashingWorld.AtRest ∧ crashingWorld.Calm ∧ crashingWorld.store.records.Keyed ∧ ∃ after,
      crashingWorld.work none (upgradeInstance "db" [] [("b", [])]).run =
          (.error (crash lastVersion), after) ∧
        after.AtRest ∧
        after.tool.calls = [⟨.apply, nextVersion⟩, ⟨.apply, lastVersion⟩] ∧
        after.store.records.get? "tf:db:b" = none := by
  let bytes := (builtWorkspace (ToolState.document oldVersion [])).toBytes
  have hRecords : crashingWorld.store.records =
      Fields.put [] (restingWith bytes).id (restingWith bytes) := rfl
  have keyed : crashingWorld.store.records.Keyed :=
    hRecords ▸ Records.keyed_empty.put (restingWith bytes)
  have hNone : crashingWorld.store.records.get? "tf:db:b" = none := by
    rw [hRecords, Records.get?_put]
    rfl
  obtain ⟨outcome, after, calls, hWork, hRest, hCalls, hEnd⟩ :=
    upgrades_until_failure crashingWorld_atRest crashingWorld_calm keyed "db" [] [("b", [])]
  rcases hEnd with ⟨-, succession, -⟩ |
    ⟨before, id, vars, later, middle, earlier, last, e, hUnits, rfl, rfl, succession, failed, -,
      hOthers⟩
  · cases succession with
    | cons first => cases first.crashing.2
  · cases succession with
    | nil =>
        cases hUnits
        obtain ⟨rfl, hFailure⟩ := failed.crashing
        rw [hFailure] at hWork
        exact ⟨crashingWorld_atRest, crashingWorld_calm, keyed, after, hWork, hRest, hCalls,
          (hOthers _ (by decide) (by simp)).trans hNone⟩
    | cons first =>
        obtain ⟨hFirst, -⟩ := List.cons_eq_cons.mp hUnits
        cases hFirst
        cases first.crashing.2

end

end World

end ServiceBroker
