import ServiceBroker.Proofs.Broker.Chronicle
import ServiceBroker.Proofs.Broker.Undisturbed
import ServiceBroker.Proofs.Upgrade.Walk
import ServiceBroker.Proofs.Workspace.Codec

/-! Upgrades that are interrupted and taken up again. A job that fails or is cancelled on its way to
the default version leaves the state of the last version that it applied, and the next job goes on
from there; so however often the way is interrupted, the versions on it are applied once each and in
order. -/

namespace ServiceBroker

/-- The version that wrote the state of a stored workspace. -/
def storedVersion (bytes : Bytes) : Except WorkspaceError Version := do
  (← Workspace.ofBytes bytes).stateVersion

theorem storedVersion_of_ofBytes {bytes : Bytes} {workspace : Workspace}
    (h : Workspace.ofBytes bytes = .ok workspace) :
    storedVersion bytes = workspace.stateVersion := by
  rw [storedVersion, h]
  rfl

/-- A stored workspace that can be read says of its state what it said before it was stored. -/
theorem storedVersion_toBytes {workspace : Workspace} {version : Version}
    (h : storedVersion workspace.toBytes = .ok version) : workspace.stateVersion = .ok version := by
  obtain ⟨found, hFound, hVersion⟩ := exists_of_bind_eq_ok h
  rw [← Workspace.stateVersion_congr (Workspace.state_of_ofBytes_toBytes hFound)]
  exact hVersion

/-- A state that was stamped on the way says how far the way was gone. -/
theorem Stamped.ahead_eq_rest {settings : UpgradeSettings} (ascends : settings.Ascends)
    {workspace reached : Workspace} {current next : Version} {passed rest : List Version}
    (stamped : Stamped workspace.state passed reached.state)
    (hCurrent : workspace.stateVersion = .ok current) (hNext : reached.stateVersion = .ok next)
    (hAhead : settings.ahead current = passed ++ rest) : settings.ahead next = rest := by
  generalize hState : reached.state = state at stamped
  cases stamped with
  | untouched =>
      rw [Workspace.stateVersion_congr hState] at hNext
      obtain rfl : current = next := Except.ok.inj (hCurrent.symm.trans hNext)
      exact hAhead
  | written passed version outputs =>
      obtain rfl := Workspace.stateVersion_eq_of_document hState hNext
      exact ascends.ahead_eq_rest (by simpa using hAhead)

namespace Traffic

/-- The job is an update or an upgrade. -/
def Activity.Updates (work : Activity) : Prop :=
  ∃ vars, work.job = .update vars ∨ work.job = .upgrade vars

variable {settings : UpgradeSettings} {loaded first bytes : Bytes} {work : Activity}
  {works : List Activity} {result : JobResult} {version current next : Version}

theorem Activity.Ran.outcome? {tool : ToolBehavior} (ran : work.Ran settings tool loaded result) :
    work.outcome? = some result.outcome := by
  obtain ⟨-, -, -, -, told⟩ := ran
  rw [Activity.outcome?, told]
  rfl

/-- What a job did between its two readings of the record. -/
theorem Activity.Ran.ended {tool : ToolBehavior} (ran : work.Ran settings tool loaded result) :
    (appliedVersions work.log = [] ∧ ∃ error, result = .error { error }) ∨
      ∃ record log, record.workspace = loaded ∧ Job.Ended settings work.job record log result ∧
        appliedVersions work.log = appliedVersions log ∧
        ∀ exchange ∈ log, exchange.Allowed tool := by
  obtain ⟨run, hLog, loads, allowed, -⟩ := ran
  rcases Job.exists_ended run with ⟨e, rfl, rfl⟩ | ⟨record, later, rfl, ended⟩
  · rw [hLog]
    exact .inl ⟨rfl, _, rfl⟩
  · refine .inr ⟨record, later, loads record ?_, ended, ?_, fun exchange h => ?_⟩
    · rw [Activity.readings, hLog]
      simp [Exchange.reading, Exchange.reading?]
    · rw [hLog]
      change appliedVersions (later ++ _) = _
      rw [appliedVersions_append]
      exact List.append_nil _
    · exact allowed exchange (by simp [hLog, h])

theorem Activity.Updates.prepare {workspace prepared : Workspace} (updates : work.Updates)
    (h : work.job.prepare workspace = .ok prepared) : prepared = workspace := by
  obtain ⟨vars, hJob | hJob⟩ := updates <;>
  · rw [hJob] at h
    exact (Except.ok.inj h).symm

theorem Activity.Updates.body (updates : work.Updates) :
    ∃ vars, work.job.body settings = Job.body settings (.update vars) := by
  obtain ⟨vars, hJob | hJob⟩ := updates
  · exact ⟨vars, by rw [hJob]⟩
  · exact ⟨vars, by rw [hJob, Job.Body.body_upgrade]⟩

/-- A job that succeeds applies what lies ahead of the state and then the default version. One that
fails leaves a state of which the rest of that lies ahead, or one that cannot be read. -/
theorem Activity.Ran.update (ran : work.Ran settings recording loaded result)
    (updates : work.Updates) (ascends : settings.Ascends) (enabled : settings.enabled = true)
    (path : settings.path ≠ []) :
    (result.outcome = .ok () ∧ ∃ current, storedVersion loaded = .ok current ∧
        appliedVersions work.log = settings.ahead current ++ [settings.defaultVersion]) ∨
      (∃ e, result.outcome = .error e) ∧ ∀ next, storedVersion (result.kept loaded) = .ok next →
        ∃ current, storedVersion loaded = .ok current ∧
          appliedVersions work.log ++ settings.ahead next = settings.ahead current := by
  rcases ran.ended with ⟨hLog, error, rfl⟩ | ⟨record, log, rfl, ended, hLog, allowed⟩
  · exact .inr ⟨⟨error, rfl⟩, fun next hNext => ⟨next, hNext, by rw [hLog]; rfl⟩⟩
  · rw [hLog]
    cases ended with
    | unreadable h | unprepared h unprepared =>
        exact .inr ⟨⟨_, rfl⟩, fun next hNext => ⟨next, hNext, rfl⟩⟩
    | @worked workspace prepared reached log outcome h hPrepare ends =>
        obtain rfl := updates.prepare hPrepare
        obtain ⟨vars, hBody⟩ : ∃ vars, work.job.body settings = _ := updates.body
        rw [hBody] at ends
        rcases Job.Body.ends_update ends allowed enabled path with
          ⟨e, -, hNone, rfl, rfl⟩ | ⟨current, hCurrent, hWalk⟩
        · refine .inr ⟨⟨_, rfl⟩, fun next hNext => ⟨next, ?_, by rw [hNone]; rfl⟩⟩
          rw [storedVersion_of_ofBytes h]
          exact storedVersion_toBytes hNext
        · have hStored := (storedVersion_of_ofBytes h).trans hCurrent
          rcases hWalk with ⟨rfl, hApplied⟩ | ⟨e, rest, rfl, hAhead, stamped⟩
          · exact .inl ⟨rfl, current, hStored, hApplied⟩
          · refine .inr ⟨⟨e, rfl⟩, fun next hNext => ⟨current, hStored, ?_⟩⟩
            rw [stamped.ahead_eq_rest ascends hCurrent (storedVersion_toBytes hNext) hAhead, hAhead]

/-- What was applied by jobs that were interrupted, and what lies ahead of the state that they have
left, is the way as it was in the beginning. -/
theorem Chronicle.interrupted (chronicle : Chronicle settings recording first works bytes)
    (updates : ∀ work ∈ works, work.Updates)
    (failed : ∀ work ∈ works, ∃ e, work.outcome? = some (.error e)) (ascends : settings.Ascends)
    (enabled : settings.enabled = true) (path : settings.path ≠ [])
    (written : storedVersion first = .ok version) (hCurrent : storedVersion bytes = .ok current) :
    works.flatMap (fun work => appliedVersions work.log) ++ settings.ahead current =
      settings.ahead version := by
  induction chronicle generalizing current with
  | nil =>
      obtain rfl : version = current := Except.ok.inj (written.symm.trans hCurrent)
      rfl
  | @snoc works loaded work result earlier ran ih =>
      obtain ⟨e, hFailed⟩ := failed work (by simp)
      have hOutcome := ran.outcome?
      rcases ran.update (updates work (by simp)) ascends enabled path with ⟨hDone, -⟩ | ⟨-, hLeft⟩
      · rw [hOutcome, hDone] at hFailed
        cases hFailed
      · obtain ⟨before, hBefore, hWay⟩ := hLeft current hCurrent
        have hEarlier := ih (fun other h => updates other (by simp [h]))
          (fun other h => failed other (by simp [h])) hBefore
        calc (works ++ [work]).flatMap (fun work => appliedVersions work.log) ++ settings.ahead current
          _ = works.flatMap (fun work => appliedVersions work.log) ++
              (appliedVersions work.log ++ settings.ahead current) := by simp
          _ = settings.ahead version := by rw [hWay, hEarlier]

/-- Once a job has succeeded the way is complete. -/
theorem Chronicle.completed {earlier : List Activity} {last : Activity}
    (chronicle : Chronicle settings recording first (earlier ++ [last]) bytes)
    (updates : ∀ work ∈ earlier ++ [last], work.Updates)
    (failed : ∀ work ∈ earlier, ∃ e, work.outcome? = some (.error e))
    (succeeded : last.outcome? = some (.ok ())) (ascends : settings.Ascends)
    (enabled : settings.enabled = true) (path : settings.path ≠ [])
    (written : storedVersion first = .ok version) :
    (earlier ++ [last]).flatMap (fun work => appliedVersions work.log) =
      settings.ahead version ++ [settings.defaultVersion] := by
  generalize hWorks : earlier ++ [last] = works at chronicle
  cases chronicle with
  | nil => simp at hWorks
  | @snoc works loaded work result before ran =>
      obtain ⟨rfl, hLast⟩ := List.append_inj' hWorks rfl
      obtain rfl := List.singleton_inj.mp hLast
      have hOutcome := ran.outcome?.symm.trans succeeded
      rcases ran.update (updates last (by simp)) ascends enabled path with
        ⟨-, current, hCurrent, hApplied⟩ | ⟨⟨e, hError⟩, -⟩
      · have hWay := before.interrupted (fun work h => updates work (by simp [h])) failed ascends
          enabled path written hCurrent
        rw [List.flatMap_append, List.flatMap_singleton, hApplied, ← hWay, List.append_assoc]
      · rw [hError] at hOutcome
        cases hOutcome

/-- Take the settings of a valid configuration with a path for upgrades, and a record whose state
some version wrote. If updates and upgrades are started on the deployment one after another, and all
of them fail or are cancelled except for the last, they have applied the versions that lay ahead of
that state, in ascending order, and after them the default version. -/
theorem upgrades_resume {config : Config} {settings : UpgradeSettings}
    (valid : config.check.isValid = true)
    (hSettings : config.tool.upgradeSettings = .ok settings) (enabled : settings.enabled = true)
    (path : settings.path ≠ []) {id : String} {start t : Traffic} (quiet : Quiet id start)
    {record : Record} {workspace : Workspace} {version : Version}
    (hFound : start.records.get? id = some record)
    (hWorkspace : Workspace.ofBytes record.workspace = .ok workspace)
    (hVersion : workspace.stateVersion = .ok version)
    (run : Run settings recording (Separate id) start t) {earlier : List Activity} {last : Activity}
    (jobs : t.jobsOn id = earlier ++ [last]) (updates : ∀ work ∈ t.jobsOn id, work.Updates)
    (failed : ∀ work ∈ earlier, ∃ e, work.outcome? = some (.error e))
    (succeeded : last.outcome? = some (.ok ())) :
    (t.jobsOn id).flatMap (fun work => appliedVersions work.log) =
        settings.ahead version ++ [settings.defaultVersion] ∧
      (settings.ahead version).Pairwise (· < ·) := by
  have ascends := Config.ascends_of_isValid valid hSettings
  have kept : ∀ other, start.records.get? id = some other → other.workspace = record.workspace := by
    intro other hOther
    rw [Option.some.inj (hOther.symm.trans hFound)]
  obtain ⟨done, running, loaded, told⟩ :=
    run.chronicled quiet (fun _ h => h) (quiet.separate id) kept
  have hDone := told.complete fun work member hOpen => by
    rw [jobs] at member
    rcases List.mem_append.mp member with hOld | hLast
    · obtain ⟨e, hError⟩ := failed work hOld
      cases hOpen.symm.trans hError
    · rw [List.mem_singleton.mp hLast, succeeded] at hOpen
      cases hOpen
  have hChronicle := told.chronicle
  have hUpdates : ∀ work ∈ (t.jobsOn id).map Activity.deeds, work.Updates :=
    List.forall_mem_map.mpr updates
  have hFailed : ∀ work ∈ earlier.map Activity.deeds, ∃ e, work.outcome? = some (.error e) :=
    List.forall_mem_map.mpr failed
  rw [← hDone] at hChronicle
  rw [jobs, List.map_append, List.map_singleton] at hChronicle hUpdates
  have hWay := hChronicle.completed hUpdates hFailed succeeded ascends enabled path
    ((storedVersion_of_ofBytes hWorkspace).trans hVersion)
  refine ⟨?_, ascends.pairwise_ahead version⟩
  rw [← hWay, jobs]
  simp [List.flatMap_map, Activity.deeds]

/-- A workspace with one instance. -/
def modestWorkspace (state : Bytes) : Workspace where
  modules := []
  instances := [{ moduleName := "m", name := "db" }]
  state := state

theorem ofBytes_modestWorkspace (state : Bytes) :
    Workspace.ofBytes (modestWorkspace state).toBytes = .ok (modestWorkspace state) := by
  have hRead : (modestWorkspace state).toJson.reread? = some (.mapping
      [(some "modules", .sequence []),
        (some "instances", .sequence [.mapping [(some "module_name", .scalar (.ofText "m")),
          (some "instance_name", .scalar (.ofText "db")), (some "configuration", .mapping [])]]),
        (some "transform", .mapping [(some "parameter_mappings", .sequence []),
          (some "parameters_to_remove", .sequence []), (some "parameters_to_add", .sequence [])]),
        (some "tfstate", .scalar (.ofText (String.ofList (Text.Base64.encode state))))]) := rfl
  rw [Workspace.ofBytes, mapError_eq_ok_iff, Workspace.toBytes, Workspace.text,
    Json.decodeBytes_render, hRead, Option.elim_some, Workspace.decoder_members]
  rfl

/-- The versions of a way in one step. -/
def oldVersion : Version := ⟨0, 12, 21, [], [], Eq.refl true⟩

def nextVersion : Version := ⟨1, 0, 0, [], [], Eq.refl true⟩

def lastVersion : Version := ⟨1, 1, 6, [], [], Eq.refl true⟩

/-- A broker that upgrades to the last version by way of the one in between. -/
def upgradingConfig : Config where
  tool :=
    { upgradesEnabled := true
      versions := [{ version := nextVersion }, { version := lastVersion, isDefault := true }]
      upgradePath := [nextVersion] }

def upgradingSettings : UpgradeSettings where
  enabled := true
  defaultVersion := lastVersion
  path := [nextVersion]

theorem stateVersion_modestWorkspace (version : Version) :
    (modestWorkspace (ToolState.document version [])).stateVersion = .ok version := by
  have hState (state : Bytes) : (modestWorkspace state).state = state := rfl
  exact Workspace.stateVersion_of_legible (hState _) (by simp [ToolState.Legible])

theorem configure_modestWorkspace (state : Bytes) :
    (modestWorkspace state).configure [] = .ok (modestWorkspace state) :=
  rfl

/-- The application of a version, as it is asked for. -/
def application (version : Version) (state : Bytes) : ToolRun where
  command := .apply
  version := version
  workspace := modestWorkspace state

/-- What a tool that crashes says. -/
def crash (version : Version) : BrokerError :=
  .tool (.commandFailed Command.apply.name version.text "provider crashed")

/-- An application that is completed. -/
def applying (version : Version) (before after : Bytes) : Exchange jobInterface :=
  ⟨.tool (application version before),
    (.ok { state := some after } : Except BrokerError ToolReport)⟩

/-- An application that is not. -/
def crashing (version : Version) (state : Bytes) : Exchange jobInterface :=
  ⟨.tool (application version state), (.error (crash version) : Except BrokerError ToolReport)⟩

theorem recording_applying (version : Version) (before : Bytes) :
    recording (application version before)
      (.ok { state := some (ToolState.document version []) }) :=
  ⟨{}, none, rfl⟩

theorem recording_crashing (version : Version) (state : Bytes) :
    recording (application version state) (.error (crash version)) :=
  ⟨{}, some "provider crashed", rfl⟩

section

open Job.Body

variable {before between after : Bytes} {log : List (Exchange jobInterface)}

theorem ends_applying (version : Version) (before after : Bytes) :
    Ends (Job.runTool version .apply) (modestWorkspace before) [applying version before after]
      (.ok "") (modestWorkspace after) :=
  ends_runTool_iff.mpr ⟨.ok { state := some after }, rfl, rfl, rfl⟩

theorem ends_crashing (version : Version) (state : Bytes) :
    Ends (Job.runTool version .apply) (modestWorkspace state) [crashing version state]
      (.error (crash version)) (modestWorkspace state) :=
  ends_runTool_iff.mpr ⟨.error (crash version), rfl, rfl, rfl⟩

/-- An update that walks as far as it is to and then ends in one way or the other. -/
theorem ends_update_of_walk (hVersion : (modestWorkspace before).stateVersion = .ok version)
    (walk : Ends (Job.walk (upgradingSettings.ahead version)) (modestWorkspace before) log (.ok ())
      (modestWorkspace between)) {last : Exchange jobInterface} {output : Except BrokerError String}
    (apply : Ends (Job.runTool lastVersion .apply) (modestWorkspace between) [last] output
      (modestWorkspace after)) :
    Ends (Job.body upgradingSettings (.update [])) (modestWorkspace before) (log ++ [last])
      (output.map fun _ => ()) (modestWorkspace after) := by
  have hUpgrade : Ends (Job.upgradeState upgradingSettings) (modestWorkspace before) log (.ok ())
      (modestWorkspace between) :=
    (ends_upgradeState_iff rfl (by simp [upgradingSettings])).mpr (.inr ⟨version, hVersion, walk⟩)
  have hChange : Ends (Job.change (·.configure [])) (modestWorkspace between) [] (.ok ())
      (modestWorkspace between) :=
    ends_change_iff.mpr ⟨rfl, .inl ⟨configure_modestWorkspace between, rfl⟩⟩
  rw [body_update]
  refine ends_bind_iff.mpr (.inr ⟨log, [last], (), _, rfl, hUpgrade, ?_⟩)
  refine ends_bind_iff.mpr (.inr ⟨[], [last], (), _, rfl, hChange, ?_⟩)
  cases output with
  | error e => exact ends_bind_iff.mpr (.inl ⟨e, apply, rfl⟩)
  | ok output =>
      exact ends_bind_iff.mpr
        (.inr ⟨[last], [], output, _, rfl, apply, ends_pure_iff.mpr ⟨rfl, rfl, rfl⟩⟩)

/-- An update that fails after the version in between. -/
theorem ends_interrupted (hVersion : (modestWorkspace before).stateVersion = .ok oldVersion) :
    Ends (Job.body upgradingSettings (.update [])) (modestWorkspace before)
      [applying nextVersion before between, crashing lastVersion between]
      (.error (crash lastVersion)) (modestWorkspace between) := by
  have hAhead : upgradingSettings.ahead oldVersion = [nextVersion] := by decide
  have hWalk : Ends (Job.walk [nextVersion]) (modestWorkspace before)
      [applying nextVersion before between] (.ok ()) (modestWorkspace between) :=
    ends_bind_iff.mpr (.inr ⟨[applying nextVersion before between], [], "", _, rfl,
      ends_applying _ _ _, ends_pure_iff.mpr ⟨rfl, rfl, rfl⟩⟩)
  rw [← hAhead] at hWalk
  exact ends_update_of_walk hVersion hWalk (ends_crashing lastVersion between)

/-- An update of a state of which nothing lies ahead. -/
theorem ends_update_at (hVersion : (modestWorkspace before).stateVersion = .ok version)
    (hAhead : upgradingSettings.ahead version = []) :
    Ends (Job.body upgradingSettings (.update [])) (modestWorkspace before)
      [applying lastVersion before after] (.ok ()) (modestWorkspace after) := by
  have hWalk : Ends (Job.walk []) (modestWorkspace before) [] (.ok ()) (modestWorkspace before) :=
    ends_pure_iff.mpr ⟨rfl, rfl, rfl⟩
  rw [← hAhead] at hWalk
  exact ends_update_of_walk hVersion hWalk (ends_applying lastVersion before after)

end

/-- The record of a deployment at rest with a workspace. -/
def restingWith (bytes : Bytes) : Record :=
  { restingRecord with workspace := bytes }

theorem restingWith_workspace (bytes : Bytes) : (restingWith bytes).workspace = bytes :=
  rfl

/-- The record of the deployment when an operation has begun. -/
def begunWith (bytes : Bytes) (operation : OperationType) : Record :=
  (restingWith bytes).started operation restingRecord.created

theorem begunWith_workspace (bytes : Bytes) (operation : OperationType) :
    (begunWith bytes operation).workspace = bytes := by
  have hStarted (record : Record) (now : Timestamp) :
      (record.started operation now).workspace = record.workspace := rfl
  rw [begunWith, hStarted, restingWith_workspace]

theorem ofBytes_restingWith (state : Bytes) :
    Workspace.ofBytes (restingWith (modestWorkspace state).toBytes).workspace =
      .ok (modestWorkspace state) := by
  rw [restingWith_workspace, ofBytes_modestWorkspace]

/-- A broker that has only the record of a deployment in a state. -/
def restingAt (state : Bytes) : Traffic where
  records := Fields.put [] (restingWith (modestWorkspace state).toBytes).id
    (restingWith (modestWorkspace state).toBytes)

theorem quiet_restingAt (state : Bytes) (id : String) : Quiet id (restingAt state) where
  keyed := Records.keyed_empty.put (restingWith (modestWorkspace state).toBytes)
  calls := rfl
  jobs := rfl
  idle := by
    rw [restingAt, Records.get?_put]
    split <;> rfl

theorem get?_restingAt (state : Bytes) :
    (restingAt state).records.get? restingRecord.id =
      some (restingWith (modestWorkspace state).toBytes) :=
  Fields.get?_put_self ..

/-- The deployment is at rest, and its state is as it is. -/
def RestsAt (state : Bytes) (t : Traffic) : Prop :=
  (∀ call ∈ t.calls, ¬call.InWindow) ∧ ∃ record, t.records.get? restingRecord.id = some record ∧
    record.id = restingRecord.id ∧ record.isInProgress = false ∧
    record.workspace = (modestWorkspace state).toBytes

theorem restsAt_restingAt (state : Bytes) : RestsAt state (restingAt state) :=
  ⟨by simp [restingAt], restingWith (modestWorkspace state).toBytes, get?_restingAt state, rfl, rfl,
    restingWith_workspace _⟩

/-- Whatever an update can come to, it can come to while nobody disturbs it. -/
theorem RestsAt.update {t : Traffic} {state after : Bytes} {log : List (Exchange jobInterface)}
    {outcome : Except BrokerError Unit} (rests : RestsAt state t)
    (ends : (Job.body upgradingSettings (.update [])).Ends (modestWorkspace state) log outcome
      (modestWorkspace after))
    (answered : ∀ exchange ∈ log, ∀ records : Records,
      Answered recording false records records exchange.request exchange.reply) :
    ∃ (u : Traffic) (work : Activity),
      Run upgradingSettings recording (Separate restingRecord.id) t u ∧ RestsAt after u ∧
        u.jobs = t.jobs ++ [work] ∧ work.id = restingRecord.id ∧ work.job = .update [] ∧
        work.outcome? = some outcome := by
  obtain ⟨alone, record, hFound, key, idle, hWorkspace⟩ := rests
  have hRead : Workspace.ofBytes record.workspace = .ok (modestWorkspace state) := by
    rw [hWorkspace, ofBytes_modestWorkspace]
  let now := restingRecord.created
  have passes : (Job.run upgradingSettings restingRecord.id (.update [])).Passes
      (.reading restingRecord.id (record.started .update now) :: log) _ :=
    Job.passes_of_ends hRead rfl ends
  obtain ⟨u, work, run, gone, hWritten, hJobs, hId, hJob, hOutcome, -⟩ := exists_run_of_operation
    alone hFound key (admission_eq_ok_iff.mpr ⟨idle, _, hRead⟩) passes answered
  refine ⟨u, work, run, ⟨gone, _, hWritten, ?_, Record.settled_isInProgress .., ?_⟩, hJobs, hId,
    hJob, ?_⟩
  · rw [Record.settled_id, Record.started_id, key]
  · rw [Record.settled_workspace]
    cases outcome <;> rfl
  · rw [hOutcome]
    cases outcome <;> rfl

/-- An update can go wrong on the way, and the next one can succeed. -/
theorem run_interrupted : ∃ (t : Traffic) (one two : Activity),
    Run upgradingSettings recording (Separate restingRecord.id)
        (restingAt (ToolState.document oldVersion [])) t ∧
      t.jobs = [one, two] ∧ one.id = restingRecord.id ∧ two.id = restingRecord.id ∧
      one.job = .update [] ∧ two.job = .update [] ∧
      one.outcome? = some (.error (crash lastVersion)) ∧ two.outcome? = some (.ok ()) := by
  have hOld := stateVersion_modestWorkspace oldVersion
  have hNext := stateVersion_modestWorkspace nextVersion
  have hLog {version : Version} {state : Bytes} {exchange : Exchange jobInterface}
      (h : exchange = applying version state (ToolState.document version []) ∨
        exchange = crashing version state) (records : Records) :
      Answered recording false records records exchange.request exchange.reply := by
    rcases h with rfl | rfl
    · exact ⟨rfl, recording_applying version state⟩
    · exact ⟨rfl, recording_crashing version state⟩
  obtain ⟨t, one, hFirst, rests, hOne, hOneId, hOneJob, hOneOutcome⟩ :=
    (restsAt_restingAt (ToolState.document oldVersion [])).update (ends_interrupted hOld)
      fun exchange member => by
        rcases List.mem_cons.mp member with rfl | member
        · exact hLog (.inl rfl)
        · exact hLog (.inr (List.mem_singleton.mp member))
  obtain ⟨u, two, hSecond, -, hTwo, hTwoId, hTwoJob, hTwoOutcome⟩ :=
    rests.update (ends_update_at hNext (by decide)) fun exchange member =>
      hLog (.inl (List.mem_singleton.mp member))
  refine ⟨u, one, two, hFirst.trans hSecond, ?_, hOneId, hTwoId, hOneJob, hTwoJob, hOneOutcome,
    hTwoOutcome⟩
  rw [hTwo, hOne]
  rfl

theorem upgrades_resume_interrupted :
    Quiet restingRecord.id (restingAt (ToolState.document oldVersion [])) ∧ ∃ t,
      Run upgradingSettings recording (Separate restingRecord.id)
        (restingAt (ToolState.document oldVersion [])) t ∧
        (t.jobsOn restingRecord.id).length = 2 ∧
        (t.jobsOn restingRecord.id).flatMap (fun work => appliedVersions work.log) =
          [nextVersion, lastVersion] := by
  obtain ⟨t, one, two, hRun, hJobs, hOneId, hTwoId, hOneJob, hTwoJob, hOne, hTwo⟩ := run_interrupted
  have quiet := quiet_restingAt (ToolState.document oldVersion []) restingRecord.id
  have hJobsOn : t.jobsOn restingRecord.id = [one] ++ [two] := by
    simp [jobsOn, hJobs, hOneId, hTwoId]
  have hUpdates : ∀ work ∈ t.jobsOn restingRecord.id, work.Updates := by
    rw [hJobsOn]
    simpa using ⟨⟨[], .inl hOneJob⟩, ⟨[], .inl hTwoJob⟩⟩
  have hFailed : ∀ work ∈ [one], ∃ e, work.outcome? = some (.error e) := by
    simpa using ⟨_, hOne⟩
  obtain ⟨hApplied, -⟩ := @upgrades_resume upgradingConfig upgradingSettings rfl rfl rfl
    (by simp [upgradingSettings]) _ _ _ quiet _ _ _ (get?_restingAt _)
    (ofBytes_restingWith _) (stateVersion_modestWorkspace oldVersion) hRun _ _ hJobsOn hUpdates
    hFailed hTwo
  refine ⟨quiet, t, hRun, by rw [hJobsOn]; rfl, ?_⟩
  have hAhead : upgradingSettings.ahead oldVersion = [nextVersion] := by decide
  rw [hApplied, hAhead]
  rfl

end Traffic

end ServiceBroker
