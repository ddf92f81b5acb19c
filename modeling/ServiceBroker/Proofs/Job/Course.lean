import ServiceBroker.Proofs.Upgrade.Precedence

/-! The course that a job takes. A run of the tool that is completed may write a state, and the job
keeps the last one that was written. The first run that fails is the last thing that a job asks for:
it ends with that failure and with the workspace of that run. Otherwise it succeeds, or a check of
its own stops it. -/

namespace ServiceBroker

/-- A job has stopped by a check of its own: of the stored workspace and the version of its state,
of the way to the default version, or of what an import would delete. -/
def BrokerError.IsCheck : BrokerError → Prop
  | workspace _ | job (.versionMismatch ..) | job .noUpgradePath | job (.deletionBlocked _) => True
  | _ => False

/-- A run of the tool that was completed. -/
def Exchange.Completed : Exchange jobInterface → Prop
  | ⟨.tool _, .ok _⟩ => True
  | _ => False

/-- The state that a run of the tool has written. -/
def Exchange.state? : Exchange jobInterface → Option Bytes
  | ⟨.tool _, .ok report⟩ => report.state
  | _ => none

/-- The exchange in which a run of the tool fails. -/
def Exchange.failing (run : ToolRun) (e : BrokerError) : Exchange jobInterface :=
  ⟨.tool run, (.error e : Except BrokerError ToolReport)⟩

/-- The state that some requests leave: the last one that was written, if one was. -/
def stateLeft (before : Bytes) (log : List (Exchange jobInterface)) : Bytes :=
  (log.filterMap Exchange.state?).getLast?.getD before

theorem not_completed_failing (run : ToolRun) (e : BrokerError) :
    ¬(Exchange.failing run e).Completed :=
  id

@[simp]
theorem stateLeft_nil (before : Bytes) : stateLeft before [] = before :=
  rfl

theorem stateLeft_append (before : Bytes) (first second : List (Exchange jobInterface)) :
    stateLeft before (first ++ second) = stateLeft (stateLeft before first) second := by
  rw [stateLeft, stateLeft, stateLeft, List.filterMap_append, List.getLast?_append,
    Option.getD_or]

/-- A run that fails writes nothing. -/
@[simp]
theorem stateLeft_concat_failing (before : Bytes) (log : List (Exchange jobInterface))
    (run : ToolRun) (e : BrokerError) :
    stateLeft before (log ++ [.failing run e]) = stateLeft before log := by
  rw [stateLeft_append]
  rfl

/-- The versions ahead are refused by a check. -/
theorem UpgradeSettings.isCheck_of_stepsFrom {settings : UpgradeSettings} {current : Version}
    {e : JobError} (h : settings.stepsFrom current = .error e) : (e : BrokerError).IsCheck := by
  unfold stepsFrom at h
  split at h
  · cases h
  · split at h
    · cases h
      trivial
    · split at h
      · cases h
        trivial
      · cases h

theorem DeletionGuard.isCheck_of_check {plan : String} {e : JobError}
    (h : check plan = .error e) : (e : BrokerError).IsCheck := by
  unfold check at h
  split at h
  · cases h
  · cases h
    trivial

theorem Workspace.state_of_setMain {workspace edited : Workspace} {text : String}
    (h : workspace.setMain text = .ok edited) : edited.state = workspace.state := by
  unfold setMain at h
  split at h
  · cases h
  · cases h
    rfl

namespace Job

namespace Body

variable {α β : Type} {settings : UpgradeSettings} {workspace reached : Workspace}
  {log : List (Exchange jobInterface)} {outcome : Except BrokerError α}

/-- The course of work on a workspace: what it asked, how it ended and what it left. -/
inductive Course (workspace : Workspace) :
    List (Exchange jobInterface) → Except BrokerError α → Workspace → Prop where
  | completed {log : List (Exchange jobInterface)} {value : α} {reached : Workspace}
      (sound : ∀ exchange ∈ log, exchange.Completed)
      (state : reached.state = stateLeft workspace.state log) :
      Course workspace log (.ok value) reached
  | refused {log : List (Exchange jobInterface)} {e : BrokerError} {reached : Workspace}
      (sound : ∀ exchange ∈ log, exchange.Completed) (check : e.IsCheck)
      (state : reached.state = stateLeft workspace.state log) :
      Course workspace log (.error e) reached
  | failed {log : List (Exchange jobInterface)} {run : ToolRun} {e : BrokerError}
      (sound : ∀ exchange ∈ log, exchange.Completed)
      (state : run.workspace.state = stateLeft workspace.state log) :
      Course workspace (log ++ [.failing run e]) (.error e) run.workspace

/-- Some runs that were completed come before the rest of the course. -/
theorem Course.prepend {between : Workspace} {before : List (Exchange jobInterface)}
    (sound : ∀ exchange ∈ before, exchange.Completed)
    (state : between.state = stateLeft workspace.state before)
    (course : Course between log outcome reached) :
    Course workspace (before ++ log) outcome reached := by
  have hSound {later : List (Exchange jobInterface)}
      (h : ∀ exchange ∈ later, exchange.Completed) :
      ∀ exchange ∈ before ++ later, exchange.Completed :=
    List.forall_mem_append.mpr ⟨sound, h⟩
  have hState {later : List (Exchange jobInterface)} {last : Workspace}
      (h : last.state = stateLeft between.state later) :
      last.state = stateLeft workspace.state (before ++ later) := by
    rw [h, state, stateLeft_append]
  cases course with
  | completed later hLast => exact .completed (hSound later) (hState hLast)
  | refused later check hLast => exact .refused (hSound later) check (hState hLast)
  | failed later hLast =>
      rw [← List.append_assoc]
      exact .failed (hSound later) (hState hLast)

/-- What follows a failure is left out. -/
theorem Course.cut {e : BrokerError} (course : Course (α := α) workspace log (.error e) reached) :
    Course (α := β) workspace log (.error e) reached := by
  cases course with
  | refused sound check state => exact .refused sound check state
  | failed sound state => exact .failed sound state

/-- However it is answered, the work takes such a course. -/
def FailsFast (work : Body α) : Prop :=
  ∀ (workspace reached : Workspace) (log : List (Exchange jobInterface))
    (outcome : Except BrokerError α), work.Ends workspace log outcome reached →
      Course workspace log outcome reached

namespace FailsFast

theorem pure (value : α) : FailsFast (Pure.pure value : Body α) := by
  intro workspace reached log outcome ends
  obtain ⟨rfl, rfl, rfl⟩ := ends_pure_iff.mp ends
  exact .completed (by simp) rfl

theorem bind {first : Body α} {next : α → Body β} (hFirst : FailsFast first)
    (hNext : ∀ value, FailsFast (next value)) : FailsFast (first >>= next) := by
  intro workspace reached log outcome ends
  rcases ends_bind_iff.mp ends with
    ⟨e, hFailed, rfl⟩ | ⟨before, after, value, between, rfl, hEnded, hRest⟩
  · exact (hFirst _ _ _ _ hFailed).cut
  · cases hFirst _ _ _ _ hEnded with
    | completed sound state => exact (hNext value _ _ _ _ hRest).prepend sound state

theorem get_bind {next : Workspace → Body β} (hNext : ∀ workspace, FailsFast (next workspace)) :
    FailsFast (get >>= next) :=
  fun workspace reached log outcome ends => hNext workspace workspace reached log outcome ends

theorem orFail_bind {ε : Type} [Coe ε BrokerError] {result : Except ε α} {next : α → Body β}
    (check : ∀ e, result = .error e → (e : BrokerError).IsCheck)
    (hNext : ∀ value, FailsFast (next value)) : FailsFast (orFail result >>= next) := by
  intro workspace reached log outcome ends
  rcases ends_orFail_bind_iff.mp ends with ⟨e, hFailed, rfl, rfl, rfl⟩ | ⟨value, -, later⟩
  · exact .refused (by simp) (check e hFailed) rfl
  · exact hNext value _ _ _ _ later

theorem change {edit : Workspace → Except WorkspaceError Workspace}
    (hEdit : ∀ workspace edited, edit workspace = .ok edited → edited.state = workspace.state) :
    FailsFast (Job.change edit) := by
  intro workspace reached log outcome ends
  obtain ⟨rfl, ⟨hEdited, rfl⟩ | ⟨e, -, rfl, rfl⟩⟩ := ends_change_iff.mp ends
  · exact .completed (by simp) (hEdit _ _ hEdited)
  · exact .refused (by simp) trivial rfl

theorem runTool (version : Version) (command : Command) (resources : List ExistingResource) :
    FailsFast (Job.runTool version command resources) := by
  intro workspace reached log outcome ends
  obtain ⟨answer, rfl, hAnswer⟩ := ends_runTool_iff.mp ends
  cases answer with
  | error e =>
      obtain ⟨rfl, rfl⟩ := hAnswer
      let run : ToolRun := { command, version, workspace := reached, resources }
      have course : Course (α := String) reached ([] ++ [.failing run e]) (.error e) run.workspace :=
        .failed (by simp) rfl
      exact course
  | ok report =>
      obtain ⟨rfl, rfl⟩ := hAnswer
      refine .completed (by simp [Exchange.Completed]) ?_
      simp only [ranTool, stateLeft, List.filterMap_cons, List.filterMap_nil, Exchange.state?]
      cases report.state <;> rfl

theorem walk (versions : List Version) : FailsFast (Job.walk versions) := by
  induction versions with
  | nil => exact pure ()
  | cons version versions ih => exact (runTool version .apply []).bind fun _ => ih

theorem upgradeState (settings : UpgradeSettings) : FailsFast (Job.upgradeState settings) :=
  get_bind fun _ => orFail_bind (fun _ _ => trivial) fun _ =>
    orFail_bind (fun _ h => UpgradeSettings.isCheck_of_stepsFrom h) walk

theorem configure (vars : Params) : FailsFast (Job.change (·.configure vars)) :=
  change fun _ _ h => state_of_configure h

theorem takeOver (settings : UpgradeSettings) (resources : List ExistingResource) :
    FailsFast (Job.takeOver settings resources) := by
  have hMain (text : String) : FailsFast (Job.change (·.setMain text)) :=
    change fun _ _ h => Workspace.state_of_setMain h
  refine (runTool _ _ _).bind fun _ => (runTool _ _ _).bind fun shown => get_bind fun _ => ?_
  refine (configure _).bind fun _ => (hMain _).bind fun _ => (runTool _ _ _).bind fun plan => ?_
  exact orFail_bind (fun _ h => DeletionGuard.isCheck_of_check h) fun _ =>
    (runTool _ _ _).bind fun _ => pure ()

/-- Every kind of job takes such a course. -/
theorem body (settings : UpgradeSettings) (job : Job) : FailsFast (job.body settings) := by
  cases job with
  | provision => exact (runTool _ _ _).bind fun _ => pure ()
  | update vars | upgrade vars =>
      exact (upgradeState settings).bind fun _ => (configure vars).bind fun _ =>
        (runTool _ _ _).bind fun _ => pure ()
  | deprovision vars =>
      exact (upgradeState settings).bind fun _ => (runTool _ _ _).bind fun _ => pure ()
  | importResources resources => exact takeOver settings resources

end FailsFast

end Body

/-- The course of a job that has loaded a workspace. -/
inductive Course (loaded : Workspace) : List (Exchange jobInterface) → JobResult → Prop where
  | completed {log : List (Exchange jobInterface)} {reached : Workspace}
      (sound : ∀ exchange ∈ log, exchange.Completed)
      (state : reached.state = stateLeft loaded.state log) : Course loaded log (.ok reached)
  | unprepared {e : BrokerError} (check : e.IsCheck) : Course loaded [] (.error { error := e })
  | refused {log : List (Exchange jobInterface)} {e : BrokerError} {reached : Workspace}
      (sound : ∀ exchange ∈ log, exchange.Completed) (check : e.IsCheck)
      (state : reached.state = stateLeft loaded.state log) :
      Course loaded log (.error { error := e, workspace := some reached })
  | failed {log : List (Exchange jobInterface)} {run : ToolRun} {e : BrokerError}
      (sound : ∀ exchange ∈ log, exchange.Completed)
      (state : run.workspace.state = stateLeft loaded.state log) :
      Course loaded (log ++ [.failing run e])
        (.error { error := e, workspace := some run.workspace })

variable {settings : UpgradeSettings} {id : String} {job : Job} {record : Record}
  {loaded : Workspace} {log later : List (Exchange jobInterface)} {result : JobResult}
  {run : ToolRun} {e : BrokerError}

theorem Ended.course (ended : Ended settings job record log result)
    (h : Workspace.ofBytes record.workspace = .ok loaded) : Course loaded log result := by
  cases ended with
  | unreadable hUnreadable => cases h.symm.trans hUnreadable
  | unprepared hLoaded unprepared => exact .unprepared trivial
  | worked hLoaded hPrepare work =>
      cases h.symm.trans hLoaded
      have hState := state_of_prepare hPrepare
      cases Body.FailsFast.body settings job _ _ _ _ work with
      | completed sound state => exact .completed sound (hState ▸ state)
      | refused sound check state => exact .refused sound check (hState ▸ state)
      | failed sound state => exact .failed sound (hState ▸ state)

/-- The first run that fails is the last thing that happens. -/
theorem Course.of_failing (course : Course loaded (log ++ .failing run e :: later) result) :
    later = [] ∧ result = .error { error := e, workspace := some run.workspace } := by
  have hClash {before : List (Exchange jobInterface)} {conclusion : Prop}
      (sound : ∀ exchange ∈ before, exchange.Completed) (h : .failing run e ∈ before) :
      conclusion :=
    (not_completed_failing run e (sound _ h)).elim
  generalize hLog : log ++ .failing run e :: later = whole at course
  cases course with
  | completed sound state | refused sound check state => exact hClash sound (by simp [← hLog])
  | unprepared check => simp at hLog
  | failed sound state =>
      rcases List.eq_nil_or_concat later with rfl | ⟨rest, last, rfl⟩
      · obtain ⟨-, hLast⟩ := List.append_inj' hLog rfl
        cases hLast
        exact ⟨rfl, rfl⟩
      · rw [List.concat_eq_append, ← List.cons_append, ← List.append_assoc] at hLog
        obtain ⟨rfl, -⟩ := List.append_inj' hLog rfl
        exact hClash sound (by simp)

/-- All runs before the one that fails were completed. -/
theorem Course.completed_of_failing (course : Course loaded (log ++ [.failing run e]) result) :
    ∀ exchange ∈ log, exchange.Completed := by
  generalize hLog : log ++ [.failing run e] = whole at course
  cases course with
  | completed sound | refused sound =>
      exact (not_completed_failing run e (sound _ (hLog ▸ List.mem_concat_self))).elim
  | unprepared => simp at hLog
  | failed sound =>
      obtain ⟨rfl, -⟩ := List.append_inj' hLog rfl
      exact sound

/-- The workspace that a job returns has the last state that was written. -/
theorem Course.state (course : Course loaded log result) {kept : Workspace}
    (h : result.workspace? = some kept) : kept.state = stateLeft loaded.state log := by
  cases course with
  | completed sound state | refused sound check state =>
      obtain rfl := Option.some.inj h
      exact state
  | unprepared check => cases h
  | failed sound state =>
      obtain rfl := Option.some.inj h
      rw [stateLeft_concat_failing]
      exact state

/-- A job fails by a check of its own, or with its last run of the tool. -/
theorem Course.failure (course : Course loaded log result) (h : result.failure? = some e) :
    e.IsCheck ∨ ∃ run, log.getLast? = some (.failing run e) := by
  cases course with
  | completed sound state => cases h
  | unprepared check | refused sound check state =>
      obtain rfl := Option.some.inj h
      exact .inl check
  | failed sound state =>
      obtain rfl := Option.some.inj h
      exact .inr ⟨_, List.getLast?_concat⟩

/-- Whatever is answered at first, a job can be answered to its end. -/
theorem exists_ended_of_passes {rest : JobProgram JobResult}
    (passes : (job.run settings id).Passes (.reading id record :: log) rest) :
    ∃ later result, rest.Passes later (.done result) ∧
      Ended settings job record (log ++ later) result := by
  obtain ⟨later, result, hLater⟩ := Program.exists_passes_done jobInterface_answerable rest
  exact ⟨later, result, hLater, ended_of_passes (passes.trans hLater)⟩

/-- A job whose run of the tool has failed has ended. -/
theorem done_of_failing {rest : JobProgram JobResult}
    (h : Workspace.ofBytes record.workspace = .ok loaded)
    (passes : (job.run settings id).Passes (.reading id record :: (log ++ [.failing run e])) rest) :
    rest = .done (.error { error := e, workspace := some run.workspace }) := by
  obtain ⟨later, result, hLater, ended⟩ := exists_ended_of_passes passes
  rw [List.append_assoc] at ended
  obtain ⟨rfl, rfl⟩ := (ended.course h).of_failing
  exact Program.passes_nil_iff.mp hLater

/-- A job that asks for a run of the tool would end with that run if it failed. -/
theorem ended_of_asks {next : Except BrokerError ToolReport → JobProgram JobResult}
    (h : Workspace.ofBytes record.workspace = .ok loaded)
    (passes : (job.run settings id).Passes (.reading id record :: log)
      (.ask (I := jobInterface) (.tool run) next)) (e : BrokerError) :
    Ended settings job record (log ++ [.failing run e])
      (.error { error := e, workspace := some run.workspace }) := by
  have hFailed : (job.run settings id).Passes (.reading id record :: (log ++ [.failing run e]))
      (next (.error e)) :=
    passes.snoc (.error e : Except BrokerError ToolReport)
  rw [done_of_failing h hFailed] at hFailed
  exact ended_of_passes hFailed

end Job

end ServiceBroker
