import ServiceBroker.Proofs.Broker.Readable
import ServiceBroker.Proofs.Broker.Result
import ServiceBroker.Proofs.Job.Refusal

/-! What is recorded of a job that is refused. The tool is not run. An update or an upgrade leaves
the stored workspace as it was; a removal has narrowed the configuration to the declared inputs by
then, and that is recorded. -/

namespace ServiceBroker

namespace Traffic

variable {settings : UpgradeSettings} {tool : ToolBehavior} {start t u : Traffic} {id : String}

/-- A job that is refused, in any run of calls and jobs and whatever the tool answers: it walks, it
has read a workspace, and something is in the way from there to the default version. It ends
without having run the tool. An update or an upgrade fails with the error that it is refused with,
and the workspace that is written is the one that was read, to the byte if it had been written like
this. It reads back if its numbers do, and then any later job goes on from it as it would have from
the workspace before. A removal fails with that error too, but what is written has the declared
inputs, with the values that came with the removal, as the configuration of its first instance; the
rest is as it was. If it lacks a module or an instance, the removal has failed before, and the
stored workspace stays. -/
theorem refused_job_recorded (quiet : Quiet id start)
    (run : Run settings tool (fun _ => True) start t) (step : Step settings tool t u) {n : Nat}
    {work next : Activity} (before : t.jobs[n]? = some work) (after : u.jobs[n]? = some next)
    (is_open : work.outcome? = none) {outcome : Except BrokerError Unit}
    (ended : next.outcome? = some outcome) (walks : work.job.walks = true) {seen : Record}
    (first : work.log.head? = some (.reading work.id seen)) {loaded : Workspace}
    (hLoaded : Workspace.ofBytes seen.workspace = .ok loaded) {e : BrokerError}
    (obstacle : Obstacle settings loaded e) :
    ∃ (failure : JobFailure) (record : Record) (now : Timestamp),
      work.log = [.reading work.id seen, .reading work.id record, .clock now] ∧
      outcome = .error failure.error ∧
      u.records = t.records.put work.id
        { record with
          state := .failed
          message := failure.error.message
          workspace := failure.workspace.elim record.workspace Workspace.toBytes
          updated := now } ∧
      (work.job.operation ≠ .deprovision →
        failure = { error := e, workspace := some loaded } ∧
        (∀ written : Workspace, written.Holds Json.Proper → seen.workspace = written.toBytes →
          loaded.toBytes = seen.workspace) ∧
        (loaded.toJson.Faithful →
          Workspace.ofBytes loaded.toBytes = .ok loaded ∧
          ∀ (kept : Record), kept.workspace = loaded.toBytes →
            ∀ (later : Job) (log : List (Exchange jobInterface)) (rest : JobProgram JobResult),
              (later.run settings work.id).Passes (.reading work.id kept :: log) rest ↔
                (later.run settings work.id).Passes (.reading work.id seen :: log) rest)) ∧
      ∀ vars, work.job = .deprovision vars →
        (∃ failed, loaded.restrict vars = .error failed ∧ failure = { error := .workspace failed }) ∨
        ∃ names main others, loaded.inputs = .ok names ∧ loaded.instances = main :: others ∧
          failure =
            { error := e
              workspace := some
                { loaded with
                  instances :=
                    { main with
                      configuration := names.map fun name => (name, (vars.get? name).getD .null) } ::
                        others } } := by
  obtain ⟨result, record, now, log, passed, -, hLog, written, rfl⟩ :=
    ((run.grounded quiet.grounded).move step).exists_recorded before after is_open ended
  have hFirst : log.head? = some (.reading work.id seen) := by
    rcases Job.exists_ended passed with ⟨e, rfl, -⟩ | ⟨found, later, rfl, -⟩
    · rw [hLog] at first
      cases first
    · rw [hLog] at first
      exact first
  obtain ⟨rfl, rfl⟩ := Job.eq_of_obstacle passed hFirst hLoaded walks obstacle
  refine ⟨work.job.refusal loaded e, record, now, hLog, rfl, ?_, ?_, ?_⟩
  · rw [written]
    cases work.job.refusal loaded e with
    | mk error workspace => cases workspace <;> rfl
  · intro retains
    refine ⟨Job.refusal_of_retains retains loaded e, ?_, ?_⟩
    · intro original proper hBytes
      rw [hBytes] at hLoaded ⊢
      rw [proper.eq_of_ofBytes hLoaded]
    · intro faithful
      have hRead := (Workspace.holds_of_ofBytes hLoaded faithful).legible.1
      refine ⟨hRead, fun kept hKept later log rest => Job.passes_congr ?_⟩
      rw [hKept, hRead, hLoaded]
  · rintro vars hJob
    rw [hJob]
    exact Job.refusal_deprovision vars loaded e

section

open World

/-- A broker that has only the record of a deployment with a workspace. -/
def restingOn (workspace : Workspace) : Traffic where
  records := Fields.put [] (restingWith workspace.toBytes).id (restingWith workspace.toBytes)

theorem quiet_restingOn (workspace : Workspace) (id : String) : Quiet id (restingOn workspace) where
  keyed := Records.keyed_empty.put (restingWith workspace.toBytes)
  calls := rfl
  jobs := rfl
  idle := by
    rw [restingOn, Records.get?_put]
    split <;> rfl

theorem get?_restingOn (workspace : Workspace) :
    (restingOn workspace).records.get? restingRecord.id = some (restingWith workspace.toBytes) :=
  Fields.get?_put_self ..

/-- A job that is refused, from the call to its end. -/
theorem exists_refused {workspace : Workspace} {job : Job} {e : BrokerError}
    (hRead : Workspace.ofBytes workspace.toBytes = .ok workspace) (walks : job.walks = true)
    (obstacle : Obstacle settings workspace e) :
    ∃ (before after : Traffic) (work next : Activity),
      Run settings recording (fun _ => True) (restingOn workspace) before ∧
        Step settings recording before after ∧ before.jobs = [work] ∧ after.jobs = [next] ∧
        work.job = job ∧ work.id = restingRecord.id ∧ work.outcome? = none ∧
        next.outcome? = some (.error (job.refusal workspace e).error) ∧
        work.log = [.reading restingRecord.id (begunWith workspace.toBytes job.operation),
          .reading restingRecord.id (begunWith workspace.toBytes job.operation),
          .clock restingRecord.created] ∧
        after.records.get? restingRecord.id =
          some ((begunWith workspace.toBytes job.operation).settled
            (.error (job.refusal workspace e)) restingRecord.created) := by
  have hBegun : Workspace.ofBytes (begunWith workspace.toBytes job.operation).workspace =
      .ok workspace := by
    rw [begunWith_workspace, hRead]
  have idle : admission restingRecord.id (.ok (restingWith workspace.toBytes)) = .ok () :=
    admission_eq_ok_iff.mpr ⟨rfl, _, hRead⟩
  have passes : (job.run settings restingRecord.id).Passes
      [.reading restingRecord.id (begunWith workspace.toBytes job.operation)]
      (.done (.error (job.refusal workspace e))) := by
    refine Job.passes_of_workOn hBegun ?_
    rw [Job.workOn_of_obstacle walks obstacle]
    exact .refl _
  exact exists_step_of_operation false (by simp [restingOn]) (get?_restingOn workspace) rfl idle
    passes (by simp)

/-- Without upgrades a state of the old version is in the way. -/
theorem obstacle_old {workspace : Workspace}
    (hState : workspace.state = ToolState.document oldVersion []) :
    Obstacle plainSettings workspace
      (.job (.versionMismatch oldVersion.text plainSettings.defaultVersion.text)) := by
  refine .versionMismatch ?_ (by decide) rfl
  exact Workspace.stateVersion_of_legible hState (by simp [ToolState.Legible])

/-- The update of an old deployment without upgrades. -/
theorem refused_job_recorded_old :
    let workspace := modestWorkspace (ToolState.document oldVersion [])
    Quiet restingRecord.id (restingOn workspace) ∧ ∃ (t u : Traffic) (work : Activity)
        (record : Record),
      Run plainSettings recording (fun _ => True) (restingOn workspace) t ∧
        Step plainSettings recording t u ∧ t.jobs = [work] ∧
        work.job = .update [("size", .null)] ∧ work.log.length = 3 ∧
        u.records.get? restingRecord.id = some record ∧ record.state = .failed ∧
        Workspace.ofBytes record.workspace = .ok workspace := by
  intro workspace
  have obstacle : Obstacle plainSettings workspace _ := obstacle_old rfl
  have hRead : Workspace.ofBytes workspace.toBytes = .ok workspace := ofBytes_modestWorkspace _
  have faithful : workspace.toJson.Faithful :=
    Workspace.faithful_toJson_iff.mpr (by simp [workspace, modestWorkspace])
  clear_value workspace
  have quiet := quiet_restingOn workspace restingRecord.id
  have walks : (Job.update [("size", .null)]).walks = true := rfl
  obtain ⟨t, u, work, next, hRun, hStep, hBefore, hAfter, hJob, hId, is_open, ended, hLog, -⟩ :=
    exists_refused hRead walks obstacle
  have hBegun : Workspace.ofBytes (begunWith workspace.toBytes .update).workspace =
      .ok workspace := by
    rw [begunWith_workspace, hRead]
  obtain ⟨failure, record, now, hWhole, -, hWritten, hKept, -⟩ :=
    refused_job_recorded quiet hRun hStep (n := 0) (by rw [hBefore]; rfl) (by rw [hAfter]; rfl)
      is_open ended (by rw [hJob]; rfl) (by rw [hLog, hId]; rfl) hBegun obstacle
  obtain ⟨rfl, -, hBack⟩ := hKept (by rw [hJob]; decide)
  let written : Record :=
    { record with
      state := .failed
      message := BrokerError.message
        (.job (.versionMismatch oldVersion.text plainSettings.defaultVersion.text))
      workspace := workspace.toBytes
      updated := now }
  have hWorkspace : written.workspace = workspace.toBytes := by with_reducible rfl
  refine ⟨quiet, t, u, work, written, hRun, hStep, hBefore, hJob, by rw [hWhole]; rfl, ?_, rfl, ?_⟩
  · rw [hWritten, hId]
    exact Fields.get?_put_self ..
  · rw [hWorkspace]
    exact (hBack faithful).1

/-- An old workspace with a variable that no definition declares. -/
def surplusWorkspace : Workspace :=
  { builtWorkspace (ToolState.document oldVersion []) with
    instances := [{ moduleName := "m", name := "db", configuration := [("size", .null)] }] }

theorem ofBytes_surplusWorkspace :
    Workspace.ofBytes surplusWorkspace.toBytes = .ok surplusWorkspace := by
  have holds : surplusWorkspace.Holds Json.Storable :=
    ⟨by simp [surplusWorkspace, builtWorkspace, Definitions.Ascending],
      by simp [surplusWorkspace, Fields.names],
      by simpa [surplusWorkspace] using Json.storable_null⟩
  exact holds.legible.1

/-- A removal of an old deployment without upgrades is refused and runs no tool. And yet the
variable that nothing declares is gone from the recorded workspace. -/
theorem refused_removal_narrows :
    Quiet restingRecord.id (restingOn surplusWorkspace) ∧
    ∃ (before after : Traffic) (work next : Activity) (record : Record),
      Run plainSettings recording (fun _ => True) (restingOn surplusWorkspace) before ∧
        Step plainSettings recording before after ∧ before.jobs = [work] ∧ after.jobs = [next] ∧
        work.job = .deprovision [] ∧
        next.outcome? = some (.error (.job
          (.versionMismatch oldVersion.text plainSettings.defaultVersion.text))) ∧
        (∀ exchange ∈ work.log, ∀ run answer, exchange ≠ ⟨.tool run, answer⟩) ∧
        ((restingOn surplusWorkspace).records.get? restingRecord.id).map
          (Workspace.ofBytes ·.workspace) = some (.ok surplusWorkspace) ∧
        after.records.get? restingRecord.id = some record ∧
        Workspace.ofBytes record.workspace =
          .ok (builtWorkspace (ToolState.document oldVersion [])) ∧
        builtWorkspace (ToolState.document oldVersion []) ≠ surplusWorkspace := by
  have walks : (Job.deprovision []).walks = true := rfl
  obtain ⟨before, after, work, next, hRun, hStep, hBefore, hAfter, hJob, -, -, ended, hLog,
      hRecord⟩ :=
    exists_refused ofBytes_surplusWorkspace walks (obstacle_old rfl)
  have hNarrowed : ((Job.deprovision []).refusal surplusWorkspace (.job
      (.versionMismatch oldVersion.text plainSettings.defaultVersion.text))) =
        { error := .job (.versionMismatch oldVersion.text plainSettings.defaultVersion.text)
          workspace := some (builtWorkspace (ToolState.document oldVersion [])) } := by
    have hInputs : surplusWorkspace.inputs = .ok [] := by
      change Except.ok (List.mergeSort [] _).eraseReps = _
      rw [List.mergeSort_nil]
      rfl
    have hPrepare : (Job.deprovision []).prepare surplusWorkspace =
        surplusWorkspace.inputs >>= fun names => surplusWorkspace.reconfigure
          (names.map fun name => (name, (Fields.get? [] name).getD .null)) := rfl
    rw [Job.refusal, hPrepare, hInputs]
    rfl
  rw [hNarrowed] at ended hRecord
  refine ⟨quiet_restingOn _ _, before, after, work, next, _, hRun, hStep, hBefore, hAfter, hJob,
    ended, ?_, ?_, hRecord, ?_, ?_⟩
  · rw [hLog]
    rintro exchange member run answer rfl
    simp only [List.mem_cons, List.not_mem_nil, or_false] at member
    rcases member with h | h | h <;> cases h
  · rw [get?_restingOn, Option.map_some, restingWith_workspace, ofBytes_surplusWorkspace]
  · rw [Record.settled_workspace, JobResult.kept]
    exact ofBytes_builtWorkspace _
  · intro same
    have hInstances := congrArg Workspace.instances same
    simp [surplusWorkspace, builtWorkspace, modestWorkspace] at hInstances

end

end Traffic

end ServiceBroker
