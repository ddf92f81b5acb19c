import ServiceBroker.Proofs.Upgrade.Resumption

/-! What comes before the default version. A job that walks asks for a version of its way only when
those before it have been applied, and for the default version only when all older ones have. A job
that does not walk asks for the default version at once, whatever version wrote the state. -/

namespace ServiceBroker

theorem jobInterface_answerable (request : jobInterface.Request) :
    Nonempty (jobInterface.Reply request) := by
  cases request with
  | store call => exact ⟨(.error (.notFound "") : Except StoreError call.Reply)⟩
  | now => exact ⟨Traffic.restingRecord.created⟩
  | tool run => exact ⟨World.cancelledRun⟩

namespace UpgradeSettings

variable {settings : UpgradeSettings} {current : Version} {passed rest : List Version}

/-- The versions of the path between that of a state and the default one. -/
def between (settings : UpgradeSettings) (current : Version) : List Version :=
  settings.path.filter fun version => current < version ∧ version < settings.defaultVersion

theorem between_eq_filter_ahead (h : current < settings.defaultVersion) :
    settings.between current =
      (settings.ahead current).filter fun version => version < settings.defaultVersion := by
  rw [ahead, if_pos h, List.filter_filter, between]
  exact List.filter_congr fun version _ => by simp [Bool.and_comm]

/-- In an ascending list, what is below a bound comes first. -/
theorem filter_lt_prefix {versions : List Version} (ascending : versions.Pairwise (· < ·))
    (bound : Version) : versions.filter (fun version => version < bound) <+: versions := by
  induction versions with
  | nil => exact List.prefix_refl []
  | cons version versions ih =>
      obtain ⟨hLater, hRest⟩ := List.pairwise_cons.mp ascending
      by_cases hBelow : version < bound
      · rw [List.filter_cons_of_pos (by simpa using hBelow)]
        exact List.cons_prefix_cons.mpr ⟨rfl, ih hRest⟩
      · rw [List.filter_eq_nil_iff.mpr]
        · exact List.nil_prefix
        · intro other hOther
          rcases List.mem_cons.mp hOther with rfl | hMember
          · simpa using hBelow
          · simpa using fun hOther => hBelow (Version.lt_trans (hLater other hMember) hOther)

/-- When the default version is next on the way, everything below it has been passed. -/
theorem Ascends.between_prefix_of_default (ascends : settings.Ascends)
    (h : current < settings.defaultVersion)
    (hAhead : settings.ahead current = passed ++ settings.defaultVersion :: rest) :
    settings.between current <+: passed := by
  have ascending := ascends.pairwise_ahead current
  rw [hAhead, List.pairwise_append, List.pairwise_cons] at ascending
  obtain ⟨hPassed, ⟨hRest, -⟩, -⟩ := ascending
  have hNone : rest.filter (fun version => version < settings.defaultVersion) = [] := by
    refine List.filter_eq_nil_iff.mpr fun version hVersion => ?_
    simpa using fun hBelow => Version.lt_irrefl _ (Version.lt_trans (hRest version hVersion) hBelow)
  rw [between_eq_filter_ahead h, hAhead, List.filter_append,
    List.filter_cons_of_neg (by simpa using Version.lt_irrefl _), hNone, List.append_nil]
  exact filter_lt_prefix hPassed _

end UpgradeSettings

namespace Job

/-- What a job prepares leaves the state alone. -/
theorem state_of_prepare {job : Job} {workspace prepared : Workspace}
    (h : job.prepare workspace = .ok prepared) : prepared.state = workspace.state := by
  cases job with
  | deprovision vars =>
      obtain ⟨names, -, hReplaced⟩ := exists_of_bind_eq_ok h
      unfold Workspace.reconfigure at hReplaced
      split at hReplaced
      · cases hReplaced
      · cases hReplaced
        rfl
  | provision | update vars | upgrade vars | importResources resources =>
      rw [Except.ok.inj h]

/-- A job that walks does so first. -/
theorem exists_body_of_walks {job : Job} (settings : UpgradeSettings) (walks : job.walks = true) :
    ∃ rest : Body Unit, job.body settings = (upgradeState settings >>= fun _ => rest) := by
  cases job with
  | provision | importResources resources => cases walks
  | update vars | upgrade vars | deprovision vars => exact ⟨_, rfl⟩

namespace Body

variable {settings : UpgradeSettings} {workspace reached : Workspace}
  {log before after : List (Exchange jobInterface)} {exchange : Exchange jobInterface}
  {current : Version} {outcome : Except BrokerError Unit}

/-- On a walk a version is asked for when all those before it have been applied. -/
theorem applied_before_of_walk {versions : List Version}
    (ends : Ends (walk versions) workspace log outcome reached)
    (h : log = before ++ exchange :: after) :
    ∃ (run : ToolRun) (answer : Except BrokerError ToolReport) (rest : List Version),
      exchange = ⟨.tool run, answer⟩ ∧
        versions = appliedVersions before ++ run.version :: rest := by
  induction versions generalizing workspace log before with
  | nil =>
      obtain ⟨rfl, -, -⟩ := ends_pure_iff.mp ends
      simp at h
  | cons version versions ih =>
      rcases ends_bind_iff.mp ends with
        ⟨e, hFirst, -⟩ | ⟨first, later, output, between, rfl, hFirst, hRest⟩
      · obtain ⟨answer, rfl, -⟩ := ends_runTool_iff.mp hFirst
        cases before with
        | nil =>
            cases h
            exact ⟨_, answer, versions, rfl, rfl⟩
        | cons passed before => simp at h
      · obtain ⟨answer, rfl, hAnswer⟩ := ends_runTool_iff.mp hFirst
        cases answer with
        | error e => cases hAnswer.1
        | ok report =>
            cases before with
            | nil =>
                cases h
                exact ⟨_, _, versions, rfl, rfl⟩
            | cons passed before =>
                cases h
                obtain ⟨run, answer, rest, rfl, hVersions⟩ := ih hRest rfl
                exact ⟨run, answer, rest, rfl, by rw [hVersions]; rfl⟩

/-- A walk that was completed has applied all its versions. -/
theorem applied_of_walk {versions : List Version}
    (ends : Ends (walk versions) workspace log (.ok ()) reached) :
    appliedVersions log = versions := by
  induction versions generalizing workspace log with
  | nil =>
      obtain ⟨rfl, -, -⟩ := ends_pure_iff.mp ends
      rfl
  | cons version versions ih =>
      obtain ⟨first, later, output, between, rfl, hFirst, hRest⟩ := ends_bind_ok_iff.mp ends
      obtain ⟨report, rfl, -, -⟩ := exists_report_of_runTool hFirst
      rw [appliedVersions_append, ih hRest]
      rfl

/-- When a job that walks asks for the default version, all versions between have been applied. -/
theorem between_prefix_of_ends {job : Job} (ascends : settings.Ascends)
    (enabled : settings.enabled = true) (path : settings.path ≠ []) (walks : job.walks = true)
    (ends : Ends (job.body settings) workspace log outcome reached)
    (hCurrent : workspace.stateVersion = .ok current) (hOld : current < settings.defaultVersion)
    {run : ToolRun} {answer : Except BrokerError ToolReport}
    (h : log = before ++ ⟨.tool run, answer⟩ :: after)
    (hDefault : run.version = settings.defaultVersion) :
    settings.between current <+: appliedVersions before := by
  obtain ⟨rest, hBody⟩ : ∃ rest : Body Unit, job.body settings = _ :=
    exists_body_of_walks settings walks
  rw [hBody] at ends
  -- While the job walks, the default version may only be the last one on the way.
  have hWalking {walked later : List (Exchange jobInterface)} {ended : Except BrokerError Unit}
      {between : Workspace} (hWalk : Ends (upgradeState settings) workspace walked ended between)
      (hSplit : walked = before ++ ⟨.tool run, answer⟩ :: later) :
      settings.between current <+: appliedVersions before := by
    rcases (ends_upgradeState_iff enabled path).mp hWalk with
      ⟨e, hVersion, rfl, -, -⟩ | ⟨found, hFound, hSteps⟩
    · simp at hSplit
    · obtain rfl : current = found := Except.ok.inj (hCurrent.symm.trans hFound)
      obtain ⟨_, _, steps, hExchange, hAhead⟩ := applied_before_of_walk hSteps hSplit
      cases hExchange
      rw [hDefault] at hAhead
      exact ascends.between_prefix_of_default hOld hAhead
  rcases ends_bind_iff.mp ends with ⟨e, hWalk, -⟩ | ⟨walked, last, _, between, rfl, hWalk, -⟩
  · exact hWalking hWalk h
  · have hWalked (hEarlier : walked <+: before) :
        settings.between current <+: appliedVersions before := by
      obtain ⟨more, rfl⟩ := hEarlier
      rcases (ends_upgradeState_iff enabled path).mp hWalk with
        ⟨e, -, -, hOutcome, -⟩ | ⟨found, hFound, hSteps⟩
      · cases hOutcome
      · obtain rfl : current = found := Except.ok.inj (hCurrent.symm.trans hFound)
        rw [appliedVersions_append, applied_of_walk hSteps,
          UpgradeSettings.between_eq_filter_ahead hOld]
        exact (UpgradeSettings.filter_lt_prefix (ascends.pairwise_ahead current) _).trans
          (List.prefix_append _ _)
    rcases List.append_eq_append_iff.mp h with ⟨more, rfl, -⟩ | ⟨more, rfl, hMore⟩
    · exact hWalked (List.prefix_append _ _)
    · cases more with
      | nil => exact hWalked (by simp)
      | cons first more =>
          cases hMore
          exact hWalking hWalk rfl

end Body

variable {settings : UpgradeSettings} {current : Version}

theorem between_prefix_of_passes {id : String} {job : Job} {record : Record}
    {workspace : Workspace} {log before after : List (Exchange jobInterface)}
    {rest : JobProgram JobResult} (ascends : settings.Ascends) (enabled : settings.enabled = true)
    (path : settings.path ≠ []) (walks : job.walks = true)
    (passes : (job.run settings id).Passes (.reading id record :: log) rest)
    (hRead : Workspace.ofBytes record.workspace = .ok workspace)
    (hCurrent : workspace.stateVersion = .ok current) (hOld : current < settings.defaultVersion)
    {run : ToolRun} {answer : Except BrokerError ToolReport}
    (h : log = before ++ ⟨.tool run, answer⟩ :: after)
    (hDefault : run.version = settings.defaultVersion) :
    settings.between current <+: appliedVersions before := by
  obtain ⟨more, result, later⟩ := rest.exists_passes_done jobInterface_answerable
  rcases exists_ended (passes.trans later) with ⟨e, hLog, -⟩ | ⟨found, whole, hLog, ended⟩
  · cases hLog
  · obtain ⟨rfl, hWhole⟩ : record = found ∧
        whole = before ++ ⟨.tool run, answer⟩ :: (after ++ more) := by
      cases hLog
      simp [h]
    cases ended with
    | unreadable hUnreadable => cases hRead.symm.trans hUnreadable
    | unprepared _ _ => simp at hWhole
    | worked hLoaded hPrepare work =>
        obtain rfl := Except.ok.inj (hRead.symm.trans hLoaded)
        exact Body.between_prefix_of_ends ascends enabled path walks work
          ((Workspace.stateVersion_congr (state_of_prepare hPrepare)).trans hCurrent) hOld hWhole
          hDefault

/-- A broker upgrades old states by the settings of a valid configuration. Whichever part of its
work a job that walks has done on a state older than the default version, before each command that
it ran at the default version it had applied every version of the path between the two, in ascending
order and before anything else. A job that does not walk never asks for another version than the
default one, so it touches a state of any age with it. -/
theorem walked_before_default {config : Config} {settings : UpgradeSettings}
    (valid : config.check.isValid = true) (hSettings : config.tool.upgradeSettings = .ok settings)
    (enabled : settings.enabled = true) (path : settings.path ≠ []) :
    (∀ (id : String) (job : Job) (record : Record) (workspace : Workspace) (current : Version)
        (log : List (Exchange jobInterface)) (rest : JobProgram JobResult), job.walks = true →
      (job.run settings id).Passes (.reading id record :: log) rest →
      Workspace.ofBytes record.workspace = .ok workspace →
      workspace.stateVersion = .ok current → current < settings.defaultVersion →
      (settings.between current).Pairwise (· < ·) ∧
        ∀ (before after : List (Exchange jobInterface)) (run : ToolRun)
          (answer : Except BrokerError ToolReport), log = before ++ ⟨.tool run, answer⟩ :: after →
          run.version = settings.defaultVersion →
          settings.between current <+: appliedVersions before) ∧
    ∀ (id : String) (job : Job), job.walks = false →
      (job.run settings id).Asks fun request : JobRequest =>
        ∀ run, request = .tool run → run.version = settings.defaultVersion := by
  have ascends := Config.ascends_of_isValid valid hSettings
  refine ⟨?_, fun id job stays => ?_⟩
  · intro id job record workspace current log rest walks passes hRead hCurrent hOld
    exact ⟨ascends.ascending.filter _, fun before after run answer h hDefault =>
      between_prefix_of_passes ascends enabled path walks passes hRead hCurrent hOld h hDefault⟩
  · refine (run_asks settings id job).mono fun request hRequest run hRun => ?_
    obtain rfl : request = .tool run := hRun
    rcases hRequest with hStore | hDefault | ⟨walks, -⟩
    · cases hStore
    · exact hDefault
    · rw [stays] at walks
      cases walks

open Traffic in
/-- The update of an old state that fails after the version in between. -/
theorem walked_before_default_interrupted :
    oldVersion < lastVersion ∧
      upgradingSettings.between oldVersion = [nextVersion] ∧
      upgradingSettings.between oldVersion <+: appliedVersions
        [applying nextVersion (ToolState.document oldVersion [])
          (ToolState.document nextVersion [])] := by
  obtain ⟨hWalks, -⟩ := @walked_before_default upgradingConfig upgradingSettings rfl rfl rfl
    (by simp [upgradingSettings])
  let before := ToolState.document oldVersion []
  let between := ToolState.document nextVersion []
  have hEnds : (Job.body upgradingSettings (.update [])).Ends (modestWorkspace before)
      [applying nextVersion before between, crashing lastVersion between] _ _ :=
    ends_interrupted (stateVersion_modestWorkspace oldVersion)
  have passes : (Job.run upgradingSettings restingRecord.id (.update [])).Passes _ _ :=
    passes_of_ends (ofBytes_restingWith before) rfl hEnds
  obtain ⟨-, hBefore⟩ := hWalks _ _ _ _ oldVersion _ _ rfl passes (ofBytes_restingWith _)
    (stateVersion_modestWorkspace oldVersion) (by decide)
  exact ⟨by decide, by decide, hBefore [_] [] _ _ rfl rfl⟩

open Traffic in
/-- Provisioning and importing run the default version on an old state although a version of the
path lies between. -/
theorem default_version_touches_old_state :
    upgradingConfig.check.isValid = true ∧
      upgradingConfig.tool.upgradeSettings = .ok upgradingSettings ∧
      upgradingSettings.enabled = true ∧ upgradingSettings.path = [nextVersion] ∧
      Workspace.ofBytes (restingWith
          (modestWorkspace (ToolState.document oldVersion [])).toBytes).workspace =
        .ok (modestWorkspace (ToolState.document oldVersion [])) ∧
      (modestWorkspace (ToolState.document oldVersion [])).stateVersion = .ok oldVersion ∧
      oldVersion < upgradingSettings.defaultVersion ∧
      upgradingSettings.between oldVersion = [nextVersion] ∧
      ∀ job ∈ [Job.provision, .importResources []],
        ∃ (before : List (Exchange jobInterface)) (run : ToolRun) (rest : JobProgram JobResult),
          (job.run upgradingSettings restingRecord.id).Passes
              (.reading restingRecord.id
                  (restingWith (modestWorkspace (ToolState.document oldVersion [])).toBytes) ::
                (before ++ [⟨.tool run, (.ok {} : Except BrokerError ToolReport)⟩])) rest ∧
            run.version = upgradingSettings.defaultVersion ∧ appliedVersions before = [] := by
  refine ⟨rfl, rfl, rfl, rfl, ofBytes_restingWith _, stateVersion_modestWorkspace _, by decide,
    by decide, fun job member => ?_⟩
  rcases List.mem_cons.mp member with rfl | member
  · exact ⟨[], _, _, passes_of_workOn (ofBytes_restingWith _) (.ask (.refl _)), rfl, rfl⟩
  · obtain rfl := List.mem_singleton.mp member
    exact ⟨[], _, _, passes_of_workOn (ofBytes_restingWith _) (.ask (.refl _)), rfl, rfl⟩

end Job

end ServiceBroker
