import ServiceBroker.Proofs.Broker.Readable
import ServiceBroker.Proofs.Job.Revision

/-! What is recorded of a job that was cancelled. It fails with the run of the tool that it
abandons, and what it had changed of the workspace for that run is recorded with the rest. -/

namespace ServiceBroker

namespace Job

variable {settings : UpgradeSettings} {id : String} {job : Job} {record : Record}
  {log : List (Exchange jobInterface)} {result : JobResult}

/-- A job that was cancelled has asked for a run of the tool last, and returns the workspace of that
run. -/
theorem Ended.of_cancelled (ended : Ended settings job record log result)
    (h : result.failure? = some (.job .cancelled)) :
    ∃ loaded completed abandoned, Workspace.ofBytes record.workspace = .ok loaded ∧
      log = completed ++ [.failing abandoned (.job .cancelled)] ∧
      (∀ exchange ∈ completed, exchange.Completed) ∧
      job.nextWorkspace settings loaded completed = .ok abandoned.workspace ∧
      result = .error { error := .job .cancelled, workspace := some abandoned.workspace } := by
  cases hLoaded : Workspace.ofBytes record.workspace with
  | error e =>
      cases ended with
      | unreadable => cases h
      | unprepared hOther | worked hOther => cases hLoaded.symm.trans hOther
  | ok loaded =>
      rcases (ended.course hLoaded).failure h with check | ⟨abandoned, hLast⟩
      · exact check.elim
      · obtain ⟨completed, rfl⟩ := List.getLast?_eq_some_iff.mp hLast
        exact ⟨loaded, completed, abandoned, rfl, rfl,
          (ended.course hLoaded).completed_of_failing, ended.nextWorkspace_eq hLoaded,
          (ended.course hLoaded).of_failing.2⟩

end Job

namespace Traffic

variable {settings : UpgradeSettings} {tool : ToolBehavior} {start t u : Traffic} {id : String}

/-- A job that ends as it was cancelled, in any run of calls and jobs and whatever the tool
answers. It had asked for a run of the tool last, and all runs before that one were completed. The
record says that the operation was cancelled, and the workspace that is written is that of the
abandoned run: as the last completed run has left it, or as it was loaded if there was none, with
what the job changes of it for its next run. That may be the variables of an update, the declared
inputs of a removal, or the definition and the values of an import, although the run that they were
meant for has not been completed. -/
theorem abandoned_run_recorded (quiet : Quiet id start)
    (run : Run settings tool (fun _ => True) start t) (step : Step settings tool t u) {n : Nat}
    {work next : Activity} (before : t.jobs[n]? = some work) (after : u.jobs[n]? = some next)
    (is_open : work.outcome? = none)
    (cancelled : next.outcome? = some (.error (.job .cancelled))) :
    ∃ seen loaded completed abandoned record now,
      Workspace.ofBytes seen.workspace = .ok loaded ∧
      work.log = .reading work.id seen :: (completed ++ [.failing abandoned (.job .cancelled)]) ++
        [.reading work.id record, .clock now] ∧
      (∀ exchange ∈ completed, exchange.Completed) ∧
      work.job.nextWorkspace settings loaded completed = .ok abandoned.workspace ∧
      abandoned.workspace.state = (lastLeft loaded completed).state ∧
      abandoned.workspace.parameterization = (lastLeft loaded completed).parameterization ∧
      u.records = t.records.put work.id
        { record with
          state := .failed
          message := "operation cancelled"
          workspace := abandoned.workspace.toBytes
          updated := now } := by
  obtain ⟨result, record, now, log, passed, -, hLog, written, hOutcome⟩ :=
    ((run.grounded quiet.grounded).move step).exists_recorded before after is_open cancelled
  have hFailure : result.failure? = some (.job .cancelled) := by
    cases result with
    | ok workspace => cases hOutcome
    | error failed =>
        obtain ⟨error, workspace⟩ := failed
        cases hOutcome
        rfl
  rcases Job.exists_ended passed with ⟨e, -, rfl⟩ | ⟨seen, later, rfl, ended⟩
  · cases hFailure
  · obtain ⟨loaded, completed, abandoned, hLoaded, rfl, sound, hNext, rfl⟩ :=
      ended.of_cancelled hFailure
    obtain ⟨hState, hScheme⟩ := Job.nextWorkspace_keeps hNext
    exact ⟨seen, loaded, completed, abandoned, record, now, hLoaded, hLog, sound, hNext, hState,
      hScheme, written⟩

section

/-- The workspace for which an update with a variable asks the tool. -/
def sizedWorkspace (state : Bytes) : Workspace :=
  { modestWorkspace state with
    instances := [{ moduleName := "m", name := "db", configuration := [("size", .null)] }] }

theorem ofBytes_sizedWorkspace (state : Bytes) :
    Workspace.ofBytes (sizedWorkspace state).toBytes = .ok (sizedWorkspace state) := by
  have holds : (sizedWorkspace state).Holds Json.Storable :=
    ⟨by simp [sizedWorkspace, modestWorkspace], by simp [sizedWorkspace, Fields.names],
      by simpa [sizedWorkspace] using Json.storable_null⟩
  exact holds.legible.1

/-- The run of the tool that the update asks for. -/
def sizedApplication (state : Bytes) : ToolRun where
  command := .apply
  version := lastVersion
  workspace := sizedWorkspace state

/-- An update that is told to stop before its only run of the tool. -/
theorem exists_cancelled_update {state : Bytes}
    (hVersion : (modestWorkspace state).stateVersion = .ok lastVersion) :
    ∃ (before after : Traffic) (work next : Activity),
      Run upgradingSettings recording (fun _ => True) (restingAt state) before ∧
        Step upgradingSettings recording before after ∧ before.jobs = [work] ∧
        after.jobs = [next] ∧ work.job = .update [("size", .null)] ∧
        work.id = restingRecord.id ∧ work.outcome? = none ∧
        next.outcome? = some (.error (.job .cancelled)) ∧
        work.log = [.reading restingRecord.id (begunWith (modestWorkspace state).toBytes .update),
          .failing (sizedApplication state) (.job .cancelled),
          .reading restingRecord.id (begunWith (modestWorkspace state).toBytes .update),
          .clock restingRecord.created] ∧
        after.records.get? restingRecord.id =
          some ((begunWith (modestWorkspace state).toBytes .update).settled
            (.error { error := .job .cancelled, workspace := some (sizedWorkspace state) })
            restingRecord.created) := by
  have hUpgrade : (Job.upgradeState upgradingSettings).Ends (modestWorkspace state) [] (.ok ())
      (modestWorkspace state) :=
    (Job.Body.ends_upgradeState_iff rfl (by simp [upgradingSettings])).mpr
      (.inr ⟨_, hVersion, Job.Body.ends_pure_iff.mpr ⟨rfl, rfl, rfl⟩⟩)
  have ends : (Job.body upgradingSettings (.update [("size", .null)])).Ends (modestWorkspace state)
      [.failing (sizedApplication state) (.job .cancelled)] (.error (.job .cancelled))
      (sizedWorkspace state) :=
    Job.Body.ends_bind_iff.mpr (.inr ⟨[], _, (), _, rfl, hUpgrade,
      Job.Body.ends_change_bind_iff.mpr (.inr ⟨sizedWorkspace state, rfl,
        Job.Body.ends_runTool_bind_iff.mpr (.inl ⟨_, rfl, rfl, rfl⟩)⟩)⟩)
  have hRead : Workspace.ofBytes (begunWith (modestWorkspace state).toBytes .update).workspace =
      .ok (modestWorkspace state) := by
    rw [begunWith_workspace, ofBytes_modestWorkspace]
  have idle : admission restingRecord.id (.ok (restingWith (modestWorkspace state).toBytes)) =
      .ok () := admission_eq_ok_iff.mpr ⟨rfl, _, ofBytes_restingWith state⟩
  have passes : (Job.run upgradingSettings restingRecord.id (.update [("size", .null)])).Passes
      (.reading restingRecord.id (begunWith (modestWorkspace state).toBytes .update) ::
        [.failing (sizedApplication state) (.job .cancelled)]) (.done _) :=
    Job.passes_of_ends hRead rfl ends
  exact exists_step_of_operation true (by simp [restingAt]) (get?_restingAt state) rfl idle passes
    fun exchange member records => by
      rw [List.mem_singleton.mp member]
      exact ⟨rfl, rfl⟩

theorem abandoned_run_recorded_sized :
    let state := ToolState.document lastVersion []
    Quiet restingRecord.id (restingAt state) ∧ ∃ (t u : Traffic) (work : Activity),
      Run upgradingSettings recording (fun _ => True) (restingAt state) t ∧
        Step upgradingSettings recording t u ∧ t.jobs = [work] ∧
        work.job = .update [("size", .null)] ∧
        work.job.nextWorkspace upgradingSettings (modestWorkspace state) [] =
          .ok (sizedWorkspace state) ∧
        ∃ record, u.records.get? restingRecord.id = some record ∧ record.state = .failed ∧
          record.message = "operation cancelled" ∧
          record.workspace = (sizedWorkspace state).toBytes := by
  intro state
  have hVersion : (modestWorkspace state).stateVersion = .ok lastVersion :=
    stateVersion_modestWorkspace lastVersion
  clear_value state
  have quiet := quiet_restingAt state restingRecord.id
  obtain ⟨t, u, work, next, hRun, hStep, hBefore, hAfter, hJob, hId, is_open, cancelled, hLog, -⟩ :=
    exists_cancelled_update hVersion
  obtain ⟨seen, loaded, completed, abandoned, record, now, hLoaded, hWhole, -, hNext, -, -,
      hWritten⟩ :=
    abandoned_run_recorded quiet hRun hStep (n := 0) (by rw [hBefore]; rfl) (by rw [hAfter]; rfl)
      is_open cancelled
  have hLength := congrArg List.length (hLog.symm.trans hWhole)
  simp only [List.length_cons, List.length_append, List.length_nil] at hLength
  obtain rfl : completed = [] := List.length_eq_zero_iff.mp (by omega)
  rw [hLog, hId] at hWhole
  obtain ⟨hSeen, hRest⟩ := List.cons_eq_cons.mp hWhole
  obtain ⟨hAbandoned, -⟩ := List.cons_eq_cons.mp hRest
  cases hSeen
  cases hAbandoned
  rw [begunWith_workspace, ofBytes_modestWorkspace] at hLoaded
  cases hLoaded
  refine ⟨quiet, t, u, work, hRun, hStep, hBefore, hJob, hNext,
    { record with
      state := .failed
      message := "operation cancelled"
      workspace := (sizedWorkspace state).toBytes
      updated := now }, ?_, rfl, rfl, by with_reducible rfl⟩
  rw [hWritten, hId]
  exact Fields.get?_put_self ..

/-- An update of a deployment is told to stop before it has run the tool at all. It ends as
cancelled, and yet its variable is in the recorded workspace, which is not the one that was loaded.
-/
theorem abandoned_variables_recorded :
    let state := ToolState.document lastVersion []
    ∃ (before after : Traffic) (work next : Activity) (record : Record),
      Run upgradingSettings recording (fun _ => True) (restingAt state) before ∧
        Step upgradingSettings recording before after ∧ before.jobs = [work] ∧
        after.jobs = [next] ∧ work.job = .update [("size", .null)] ∧
        next.outcome? = some (.error (.job .cancelled)) ∧
        (∀ exchange ∈ work.log, ¬exchange.Completed) ∧
        ((restingAt state).records.get? restingRecord.id).map (Workspace.ofBytes ·.workspace) =
          some (.ok (modestWorkspace state)) ∧
        after.records.get? restingRecord.id = some record ∧
        Workspace.ofBytes record.workspace = .ok (sizedWorkspace state) ∧
        sizedWorkspace state ≠ modestWorkspace state := by
  intro state
  have hVersion : (modestWorkspace state).stateVersion = .ok lastVersion :=
    stateVersion_modestWorkspace lastVersion
  clear_value state
  obtain ⟨before, after, work, next, hRun, hStep, hBefore, hAfter, hJob, -, -, cancelled, hLog,
    hRecord⟩ := exists_cancelled_update hVersion
  refine ⟨before, after, work, next, _, hRun, hStep, hBefore, hAfter, hJob, cancelled, ?_, ?_,
    hRecord, ?_, ?_⟩
  · rw [hLog]
    rintro exchange member
    simp only [List.mem_cons, List.not_mem_nil, or_false] at member
    rcases member with rfl | rfl | rfl | rfl <;> exact id
  · rw [get?_restingAt, Option.map_some, ofBytes_restingWith]
  · simp only [Record.settled_workspace, JobResult.kept, JobResult.workspace?, Option.elim_some,
      ofBytes_sizedWorkspace]
  · intro same
    have hInstances := congrArg Workspace.instances same
    simp [sizedWorkspace, modestWorkspace] at hInstances

end

end Traffic

end ServiceBroker
