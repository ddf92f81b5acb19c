import ServiceBroker.Proofs.Upgrade.Resumption

/-! The version in the state that a job leaves when it succeeds. Each kind of job runs the default
version last, so that version is in the state, whichever version was in it before; the state of a
newer version goes back to it. -/

namespace ServiceBroker

namespace Job

namespace Body

variable {α β : Type} {good : Bytes → Prop}

/-- When the work is done, the state is good. -/
def Leaves (good : Bytes → Prop) (work : Body α) : Prop :=
  ∀ (workspace reached : Workspace) (log : List (Exchange jobInterface)) (value : α),
    work.Ends workspace log (.ok value) reached →
      (∀ exchange ∈ log, exchange.Allowed recording) → good reached.state

/-- What is done last decides. -/
theorem Leaves.after (first : Body α) {next : α → Body β}
    (h : ∀ value, (next value).Leaves good) : (first >>= next).Leaves good := by
  intro workspace reached log value ends allowed
  obtain ⟨before, after, found, between, rfl, -, hNext⟩ := ends_bind_ok_iff.mp ends
  exact h found _ _ _ _ hNext fun exchange hMember => allowed exchange (by simp [hMember])

theorem Leaves.bind_pure {work : Body α} (h : work.Leaves good) (value : β) :
    Leaves good (work >>= fun _ => pure value) := by
  intro workspace reached log found ends allowed
  obtain ⟨before, after, _, between, rfl, hWork, hPure⟩ := ends_bind_ok_iff.mp ends
  obtain ⟨rfl, -, rfl⟩ := ends_pure_iff.mp hPure
  exact h _ _ _ _ hWork fun exchange hMember => allowed exchange (by simp [hMember])

theorem leaves_apply (version : Version) (resources : List ExistingResource) :
    Leaves (fun state => ∃ outputs, state = ToolState.document version outputs)
      (runTool version .apply resources) := by
  intro workspace reached log output ends allowed
  exact (ends_apply_ok ends allowed).2

theorem leaves_destroy (version : Version) (resources : List ExistingResource) :
    Leaves (fun state => state = ToolState.document version [])
      (runTool version .destroy resources) := by
  intro workspace reached log output ends allowed
  obtain ⟨run, script, hCommand, rfl, rfl, rfl⟩ := exists_report_of_ends ends allowed
  simp [ranTool, ScriptedTool.report, hCommand]

theorem leaves_deprovision (settings : UpgradeSettings) (vars : Params) :
    Leaves (fun state => state = ToolState.document settings.defaultVersion [])
      (Job.body settings (.deprovision vars)) :=
  Leaves.after _ fun _ => (leaves_destroy _ _).bind_pure ()

/-- Each kind of job runs the default version last. -/
theorem leaves_body (settings : UpgradeSettings) (job : Job) :
    Leaves (fun state => ∃ outputs, state = ToolState.document settings.defaultVersion outputs)
      (job.body settings) := by
  have hApply := (leaves_apply settings.defaultVersion []).bind_pure ()
  cases job with
  | provision => exact hApply
  | update vars | upgrade vars => exact Leaves.after _ fun _ => Leaves.after _ fun _ => hApply
  | deprovision vars =>
      intro workspace reached log value ends allowed
      exact ⟨[], leaves_deprovision settings vars _ _ _ _ ends allowed⟩
  | importResources resources =>
      refine Leaves.after _ fun _ => Leaves.after _ fun shown => Leaves.after _ fun workspace => ?_
      refine Leaves.after _ fun _ => Leaves.after _ fun _ => Leaves.after _ fun plan => ?_
      exact Leaves.after _ fun _ => hApply

end Body

variable {settings : UpgradeSettings} {job : Job} {record : Record}
  {log : List (Exchange jobInterface)} {result : Workspace}

/-- A job that succeeds has done its work on the workspace. -/
theorem Ended.exists_ends (ended : Ended settings job record log (.ok result)) :
    ∃ prepared, (job.body settings).Ends prepared log (.ok ()) result := by
  generalize hResult : (Except.ok result : JobResult) = outcome at ended
  cases ended with
  | unreadable h | unprepared h unprepared => cases hResult
  | @worked workspace prepared reached log outcome h hPrepare work =>
      cases outcome with
      | error e => cases hResult
      | ok value =>
          cases hResult
          exact ⟨prepared, work⟩

/-- A job that succeeds leaves a state of the default version. -/
theorem Ended.stamped (ended : Ended settings job record log (.ok result))
    (allowed : ∀ exchange ∈ log, exchange.Allowed recording) :
    ∃ outputs, result.state = ToolState.document settings.defaultVersion outputs ∧
      (job.operation = .deprovision → outputs = []) := by
  obtain ⟨prepared, ends⟩ := ended.exists_ends
  obtain ⟨outputs, hState⟩ := Body.leaves_body settings job _ _ _ _ ends allowed
  cases job with
  | deprovision vars =>
      exact ⟨[], Body.leaves_deprovision settings vars _ _ _ _ ends allowed, fun _ => rfl⟩
  | provision | update vars | upgrade vars | importResources resources =>
      exact ⟨outputs, hState, by rintro ⟨⟩⟩

/-- A job that succeeded has read the record first. -/
theorem stamped_of_passes {id : String} (run : (job.run settings id).Passes log (.done (.ok result)))
    (allowed : ∀ exchange ∈ log, exchange.Allowed recording) :
    ∃ outputs, result.state = ToolState.document settings.defaultVersion outputs ∧
      (job.operation = .deprovision → outputs = []) := by
  rcases exists_ended run with ⟨e, -, hError⟩ | ⟨record, later, rfl, ended⟩
  · cases hError
  · exact ended.stamped fun exchange h => allowed exchange (by simp [h])

end Job

/-- A record that was written. -/
def Exchange.written? : Exchange jobInterface → Option Record
  | ⟨.store (.put record), .ok _⟩ => some record
  | _ => none

namespace Traffic

variable {settings : UpgradeSettings} {work : Activity}

/-- The version in the state that a job has recorded, if it has succeeded and the state can be
read. -/
def Activity.recordedVersions (work : Activity) : List Version :=
  match work.outcome? with
  | some (.ok _) => (work.log.filterMap Exchange.written?).filterMap fun record =>
      (storedVersion record.workspace).toOption
  | _ => []

/-- Before its outcome is known a job writes no record. -/
theorem written_of_passes {id : String} {job : Job} {log : List (Exchange jobInterface)}
    {program : JobProgram JobResult} (run : (job.run settings id).Passes log program) :
    log.filterMap Exchange.written? = [] := by
  rw [List.filterMap_eq_nil_iff]
  intro exchange member
  obtain ⟨request, reply⟩ := exchange
  rcases (run.asks (Job.run_asks settings id job)).1 _ member with rfl | hRun
  · rfl
  · cases request with
    | tool run => rfl
    | store call => cases hRun
    | now => cases hRun

theorem eq_ok_of_toOption {ε α : Type} {result : Except ε α} {value : α}
    (h : result.toOption = some value) : result = .ok value := by
  cases result with
  | error e => cases h
  | ok found => rw [Option.some.inj h]

theorem Activity.Stage.recordedVersions (stage : work.Stage settings)
    (allowed : ∀ exchange ∈ work.log, exchange.Allowed recording) :
    ∀ version ∈ work.recordedVersions, version = settings.defaultVersion := by
  intro version member
  unfold Activity.recordedVersions at member
  split at member
  · next hOutcome =>
      cases stage with
      | running program passed h =>
          rw [Activity.outcome?, h, value?_task] at hOutcome
          cases hOutcome
      | settling result record log passed key hLog h
        | storing result record now log passed key hLog h =>
          rw [Activity.outcome?, h] at hOutcome
          cases hOutcome
      | recorded result record now log passed key hLog h =>
          rw [Activity.outcome?, h] at hOutcome
          cases result with
          | error failed => cases hOutcome
          | ok workspace =>
              obtain ⟨outputs, hState, -⟩ := Job.stamped_of_passes passed
                fun exchange hMember => allowed exchange (by simp [hLog, hMember])
              rw [hLog, List.filterMap_append, written_of_passes passed, List.nil_append] at member
              obtain ⟨written, hWritten, hFound⟩ := List.mem_filterMap.mp member
              obtain rfl : record.settled (.ok workspace) now = written := by
                simpa [Exchange.written?, Exchange.reading, Exchange.clock, Exchange.writing]
                  using hWritten
              have hVersion : storedVersion workspace.toBytes = .ok version := by
                rw [Record.settled_workspace] at hFound
                exact eq_ok_of_toOption hFound
              exact Workspace.stateVersion_eq_of_document hState (storedVersion_toBytes hVersion)
  · cases member

/-- The versions that successful jobs leave. Whatever version was in the state before, a job of any
kind that succeeds leaves a state that the default version wrote. If that state can be read, which
depends on its outputs alone, its version is not older than the one before exactly if that was not
newer than the default version. So over any run the versions that were recorded on a deployment when
its jobs succeeded never decrease, and from a state that is not newer than the default version none
of them is older than that state. -/
theorem success_stamps_default (settings : UpgradeSettings) :
    (∀ (id : String) (job : Job) (record : Record) (workspace result : Workspace)
        (version : Version) (log : List (Exchange jobInterface)),
      (job.run settings id).Passes (.reading id record :: log) (.done (.ok result)) →
      (∀ exchange ∈ log, exchange.Allowed recording) →
      Workspace.ofBytes record.workspace = .ok workspace → workspace.stateVersion = .ok version →
      ∃ outputs, result.state = ToolState.document settings.defaultVersion outputs ∧
        (job.operation = .deprovision → outputs = []) ∧
        (ToolState.Legible outputs → result.stateVersion = .ok settings.defaultVersion) ∧
        ∀ found, result.stateVersion = .ok found →
          (version ≤ found ↔ version ≤ settings.defaultVersion)) ∧
    ∀ (id : String) (start t : Traffic), Quiet id start →
      Run settings recording (fun _ => True) start t →
      ((t.jobsOn id).flatMap Activity.recordedVersions).Pairwise (· ≤ ·) ∧
        ∀ (record : Record) (version : Version), start.records.get? id = some record →
          storedVersion record.workspace = .ok version → version ≤ settings.defaultVersion →
          (version :: (t.jobsOn id).flatMap Activity.recordedVersions).Pairwise (· ≤ ·) := by
  refine ⟨?_, ?_⟩
  · intro id job record workspace result version log run allowed hRead hVersion
    have hAllowed : ∀ exchange ∈ Exchange.reading id record :: log, exchange.Allowed recording := by
      simpa [Exchange.reading, Exchange.Allowed] using allowed
    obtain ⟨outputs, hState, hNone⟩ := Job.stamped_of_passes run hAllowed
    refine ⟨outputs, hState, hNone, Workspace.stateVersion_of_legible hState, fun found hFound => ?_⟩
    rw [Workspace.stateVersion_eq_of_document hState hFound]
  · intro id start t quiet run
    have ground := run.grounded quiet.grounded
    have hDefault : ∀ version ∈ (t.jobsOn id).flatMap Activity.recordedVersions,
        version = settings.defaultVersion := by
      intro version member
      obtain ⟨work, hWork, hRecorded⟩ := List.mem_flatMap.mp member
      have hJob := (List.mem_filter.mp hWork).1
      exact (ground.jobs work hJob).recordedVersions (ground.allowed work hJob) version hRecorded
    have hSorted : ((t.jobsOn id).flatMap Activity.recordedVersions).Pairwise (· ≤ ·) := by
      refine List.pairwise_of_forall_mem_list fun one hOne two hTwo => ?_
      rw [hDefault one hOne, hDefault two hTwo]
      exact Version.le_refl _
    refine ⟨hSorted, fun record version _ _ hOld => List.pairwise_cons.mpr ⟨?_, hSorted⟩⟩
    intro found member
    rw [hDefault found member]
    exact hOld

/-- The update of a deployment at rest of whose state nothing lies ahead. -/
theorem passes_update_at {version : Version} (hAhead : upgradingSettings.ahead version = []) :
    (Job.run upgradingSettings restingRecord.id (.update [])).Passes
      [.reading restingRecord.id
          (restingWith (modestWorkspace (ToolState.document version [])).toBytes),
        applying lastVersion (ToolState.document version []) (ToolState.document lastVersion [])]
      (.done (.ok (modestWorkspace (ToolState.document lastVersion [])))) :=
  Job.passes_of_ends (ofBytes_restingWith _) rfl
    (ends_update_at (stateVersion_modestWorkspace version) hAhead)

theorem allowed_applying (version : Version) (state : Bytes) :
    ∀ exchange ∈ [applying version state (ToolState.document version [])],
      exchange.Allowed recording := by
  intro exchange member
  rw [List.mem_singleton.mp member]
  exact .inr (recording_applying version state)

theorem success_stamps_default_upgrading :
    nextVersion ≤ lastVersion ∧ ∃ t,
      Run upgradingSettings recording (fun _ => True)
          (restingAt (ToolState.document oldVersion [])) t ∧ t.jobs.length = 2 ∧
        (oldVersion :: (t.jobsOn restingRecord.id).flatMap Activity.recordedVersions).Pairwise
          (· ≤ ·) := by
  obtain ⟨hJob, hRun⟩ := success_stamps_default upgradingSettings
  obtain ⟨outputs, -, -, -, hOrder⟩ := hJob _ _ _ _ _ _ _ (passes_update_at (by decide))
    (allowed_applying _ _) (ofBytes_restingWith _) (stateVersion_modestWorkspace nextVersion)
  obtain ⟨t, one, two, run, hJobs, -⟩ := run_interrupted
  have hVersion : storedVersion
      (restingWith (modestWorkspace (ToolState.document oldVersion [])).toBytes).workspace =
        .ok oldVersion :=
    (storedVersion_of_ofBytes (ofBytes_restingWith _)).trans (stateVersion_modestWorkspace _)
  have free := run.mono fun _ _ => trivial
  refine ⟨(hOrder lastVersion (stateVersion_modestWorkspace lastVersion)).mpr (by decide), t, free,
    by rw [hJobs]; rfl, ?_⟩
  exact (hRun _ _ t (quiet_restingAt _ restingRecord.id) free).2 _ oldVersion (get?_restingAt _)
    hVersion (by decide)

/-- A version beyond the default one. -/
def newerVersion : Version := ⟨1, 2, 0, [], [], Eq.refl true⟩

/-- An update of a state that a newer version wrote succeeds, and the version goes back. -/
theorem newer_state_goes_back :
    (Job.run upgradingSettings restingRecord.id (.update [])).Passes
        [.reading restingRecord.id
            (restingWith (modestWorkspace (ToolState.document newerVersion [])).toBytes),
          applying lastVersion (ToolState.document newerVersion [])
            (ToolState.document lastVersion [])]
        (.done (.ok (modestWorkspace (ToolState.document lastVersion [])))) ∧
      (∀ exchange ∈ [applying lastVersion (ToolState.document newerVersion [])
        (ToolState.document lastVersion [])], exchange.Allowed recording) ∧
      Workspace.ofBytes (restingWith
          (modestWorkspace (ToolState.document newerVersion [])).toBytes).workspace =
        .ok (modestWorkspace (ToolState.document newerVersion [])) ∧
      (modestWorkspace (ToolState.document newerVersion [])).stateVersion = .ok newerVersion ∧
      (modestWorkspace (ToolState.document lastVersion [])).stateVersion = .ok lastVersion ∧
      ¬newerVersion ≤ lastVersion :=
  ⟨passes_update_at (by decide), allowed_applying _ _, ofBytes_restingWith _,
    stateVersion_modestWorkspace _, stateVersion_modestWorkspace _, by decide⟩

end Traffic

end ServiceBroker
