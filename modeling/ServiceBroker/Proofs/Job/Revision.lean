import ServiceBroker.Proofs.Job.Takeover
import ServiceBroker.Proofs.Job.Commands

/-! The workspace of a run of the tool. It is the one that the last completed run has left, with
what the job changes of it in between: an update sets its variables once the whole way lies behind,
a removal keeps the declared inputs alone before it begins, and an import adopts what it was shown.
-/

namespace ServiceBroker

open Job.Body

/-- A run of the tool that was completed, and what it has reported. -/
def Exchange.completed? : Exchange jobInterface → Option (ToolRun × ToolReport)
  | ⟨.tool run, .ok report⟩ => some (run, report)
  | _ => none

/-- The last run of the tool that was completed. -/
def lastCompleted? (log : List (Exchange jobInterface)) : Option (ToolRun × ToolReport) :=
  (log.filterMap Exchange.completed?).getLast?

/-- The workspace as the last completed run of the tool has left it, or else as it was loaded. -/
def lastLeft (loaded : Workspace) (log : List (Exchange jobInterface)) : Workspace :=
  (lastCompleted? log).elim loaded fun (run, report) => ranTool run.workspace report

@[simp]
theorem lastLeft_nil (loaded : Workspace) : lastLeft loaded [] = loaded :=
  rfl

/-- What comes after a run begins with what that has left. -/
@[simp]
theorem lastLeft_cons_completing (loaded : Workspace) (run : ToolRun) (report : ToolReport)
    (log : List (Exchange jobInterface)) :
    lastLeft loaded (.completing run report :: log) =
      lastLeft (ranTool run.workspace report) log := by
  rw [lastLeft, lastLeft, lastCompleted?, lastCompleted?,
    List.filterMap_cons_some
      (rfl : Exchange.completed? (.completing run report) = some (run, report)),
    List.getLast?_cons]
  cases (log.filterMap Exchange.completed?).getLast? <;> rfl

theorem Exchange.Completed.exists_completing {exchange : Exchange jobInterface}
    (completed : exchange.Completed) : ∃ run report, exchange = .completing run report := by
  obtain ⟨request, reply⟩ := exchange
  cases request with
  | store call | now => exact completed.elim
  | tool run =>
      cases reply with
      | error e => exact completed.elim
      | ok report => exact ⟨run, report, rfl⟩

/-- Once a run was completed it makes no difference what was loaded. -/
theorem lastLeft_congr {log : List (Exchange jobInterface)} (begun : log ≠ [])
    (sound : ∀ exchange ∈ log, exchange.Completed) (loaded other : Workspace) :
    lastLeft loaded log = lastLeft other log := by
  cases log with
  | nil => exact (begun rfl).elim
  | cons exchange log =>
      obtain ⟨run, report, rfl⟩ := (sound exchange List.mem_cons_self).exists_completing
      rw [lastLeft_cons_completing, lastLeft_cons_completing]

namespace Job

/-- The workspace of the next run of the tool, when some runs were completed. -/
def nextWorkspace (settings : UpgradeSettings) (loaded : Workspace)
    (completed : List (Exchange jobInterface)) : Job → Except WorkspaceError Workspace
  | provision => pure (lastLeft loaded completed)
  | update vars | upgrade vars =>
    match loaded.stepsAhead settings with
    | .ok steps =>
      if completed.length < steps.length then pure (lastLeft loaded completed)
      else (lastLeft loaded completed).configure vars
    | .error _ => pure (lastLeft loaded completed)
  | deprovision vars =>
    match completed with
    | [] => loaded.restrict vars
    | _ => pure (lastLeft loaded completed)
  | importResources _ =>
    match lastCompleted? completed with
    | some ({ command := .showState, .. }, shown) => do
      let configured ← (lastLeft loaded completed).configure (loaded.valuesOf shown)
      configured.setMain (loaded.definitionOf shown)
    | _ => pure (lastLeft loaded completed)

variable {settings : UpgradeSettings} {job : Job} {record : Record}
  {loaded workspace reached : Workspace} {log completed : List (Exchange jobInterface)}
  {run : ToolRun} {e : BrokerError}
  {outcome : Except BrokerError Unit} {result : JobResult}

/-- Commands are carried out up to the first one that fails, and each of them begins with what the
one before it has left. -/
theorem Body.ends_carryOut_cases {calls : List ToolCall}
    (ends : Ends (carryOut calls) workspace log outcome reached) :
    (outcome = .ok () ∧ (∀ exchange ∈ log, exchange.Completed) ∧ log.length = calls.length ∧
        reached = lastLeft workspace log) ∨
      ∃ completed run e, log = completed ++ [.failing run e] ∧ outcome = .error e ∧
        (∀ exchange ∈ completed, exchange.Completed) ∧ completed.length < calls.length ∧
        run.workspace = lastLeft workspace completed := by
  induction calls generalizing workspace log with
  | nil =>
      obtain ⟨rfl, rfl, rfl⟩ := ends_pure_iff.mp ends
      exact .inl ⟨rfl, by simp, rfl, rfl⟩
  | cons call calls ih =>
      rcases ends_runTool_bind_iff.mp ends with
        ⟨e, rfl, rfl, rfl⟩ | ⟨report, later, rfl, hLater⟩
      · exact .inr ⟨[], _, e, rfl, rfl, by simp, by simp, rfl⟩
      · rcases ih hLater with
          ⟨rfl, sound, hLength, rfl⟩ | ⟨completed, run, e, rfl, rfl, sound, hLength, hRun⟩
        · refine .inl ⟨rfl, List.forall_mem_cons.mpr ⟨trivial, sound⟩, by simp [hLength], ?_⟩
          rw [lastLeft_cons_completing]
        · refine .inr ⟨_ :: completed, run, e, rfl, rfl, List.forall_mem_cons.mpr ⟨trivial, sound⟩,
            by simpa using hLength, ?_⟩
          rw [lastLeft_cons_completing]
          exact hRun

/-- A single command fails at once. -/
theorem Body.ends_carryOut_singleton_failing {call : ToolCall}
    (ends : Ends (carryOut [call]) workspace (log ++ [.failing run e]) outcome reached) :
    log = [] ∧ run.workspace = workspace := by
  rcases ends_carryOut_cases ends with
    ⟨-, sound, -⟩ | ⟨completed, other, cause, hLog, -, -, hLength, hRun⟩
  · exact (not_completed_failing run e (sound _ List.mem_concat_self)).elim
  · obtain ⟨rfl, hLast⟩ := List.append_inj' hLog rfl
    cases hLast
    obtain rfl := List.length_eq_zero_iff.mp (Nat.lt_one_iff.mp hLength)
    exact ⟨rfl, hRun⟩

/-- Work that walks first has failed on the way, or behind it. -/
theorem Body.ends_walk_failing {next : Body Unit}
    (ends : Ends (upgradeState settings >>= fun _ => next) workspace (log ++ [.failing run e]) outcome
      reached) :
    ∃ steps, workspace.stepsAhead settings = .ok steps ∧
      ((log.length < steps.length ∧ run.workspace = lastLeft workspace log) ∨
        ∃ before later, log = before ++ later ∧ before.length = steps.length ∧
          next.Ends (lastLeft workspace before) (later ++ [.failing run e]) outcome reached) := by
  rcases ends_bind_iff.mp ends with
    ⟨cause, hFailed, -⟩ | ⟨before, later, value, between, hLog, hWalked, hNext⟩
  · rcases ends_upgradeState hFailed with ⟨_, -, hNothing, -⟩ | ⟨steps, hSteps, hWalk⟩
    · exact (List.append_ne_nil_of_right_ne_nil _ (List.cons_ne_nil _ _) hNothing).elim
    · rcases ends_carryOut_cases hWalk with
        ⟨hOutcome, -⟩ | ⟨completed, other, _, hLog, -, -, hLength, hRun⟩
      · cases hOutcome
      · obtain ⟨rfl, hLast⟩ := List.append_inj' hLog rfl
        cases hLast
        refine ⟨steps, hSteps, .inl ⟨?_, hRun⟩⟩
        rwa [applications, List.length_map] at hLength
  · rcases ends_upgradeState hWalked with ⟨_, -, -, hOutcome, -⟩ | ⟨steps, hSteps, hWalk⟩
    · cases hOutcome
    · rcases ends_carryOut_cases hWalk with
        ⟨-, sound, hLength, rfl⟩ | ⟨_, _, _, -, hOutcome, -⟩
      · rw [applications, List.length_map] at hLength
        -- The run that fails is not among those on the way, so it is the last one behind it.
        rcases List.eq_nil_or_concat later with rfl | ⟨rest, last, rfl⟩
        · rw [List.append_nil] at hLog
          exact (not_completed_failing run e (sound _ (hLog ▸ List.mem_concat_self))).elim
        · rw [List.concat_eq_append, ← List.append_assoc] at hLog
          obtain ⟨rfl, hLast⟩ := List.append_inj' hLog rfl
          cases hLast
          rw [List.concat_eq_append] at hNext
          exact ⟨steps, hSteps, .inr ⟨before, rest, rfl, hLength, hNext⟩⟩
      · cases hOutcome

/-- A job has failed with the workspace that it had for the run that failed. -/
theorem Ended.nextWorkspace_eq
    (ended : Ended settings job record (completed ++ [.failing run e]) result)
    (hLoaded : Workspace.ofBytes record.workspace = .ok loaded) :
    job.nextWorkspace settings loaded completed = .ok run.workspace := by
  have sound := (ended.course hLoaded).completed_of_failing
  have begun : completed ++ [.failing run e] ≠ [] := by simp
  generalize hLog : completed ++ [.failing run e] = log at ended begun
  cases ended with
  | unreadable | unprepared => exact (begun rfl).elim
  | @worked workspace prepared reached log outcome h hPrepare work =>
      cases hLoaded.symm.trans h
      subst hLog
      cases job with
      | provision =>
          cases hPrepare
          have hOnly : (carryOut [⟨.apply, settings.defaultVersion⟩]).Ends _ _ _ _ := work
          obtain ⟨rfl, hRun⟩ := Body.ends_carryOut_singleton_failing hOnly
          exact congrArg Except.ok hRun.symm
      | update vars | upgrade vars =>
          cases hPrepare
          obtain ⟨steps, hSteps, ⟨hLength, hRun⟩ | ⟨before, later, rfl, hLength, hNext⟩⟩ :=
            Body.ends_walk_failing work
          · simp only [nextWorkspace, hSteps, if_pos hLength, hRun]
            rfl
          · rcases Body.ends_change_bind_iff.mp hNext with
              ⟨cause, -, hNothing, -⟩ | ⟨configured, hConfigure, hLast⟩
            · simp at hNothing
            · have hOnly : (carryOut [⟨.apply, settings.defaultVersion⟩]).Ends _ _ _ _ := hLast
              obtain ⟨rfl, hRun⟩ := Body.ends_carryOut_singleton_failing hOnly
              simp only [nextWorkspace, hSteps, List.append_nil, hLength, Nat.lt_irrefl, if_false,
                hConfigure, hRun]
      | deprovision vars =>
          have hRun : run.workspace = lastLeft prepared completed := by
            obtain ⟨steps, hSteps, ⟨-, hRun⟩ | ⟨before, later, rfl, -, hNext⟩⟩ :=
              Body.ends_walk_failing work
            · exact hRun
            · have hOnly : (carryOut [⟨.destroy, settings.defaultVersion⟩]).Ends _ _ _ _ := hNext
              obtain ⟨rfl, hRun⟩ := Body.ends_carryOut_singleton_failing hOnly
              rw [List.append_nil]
              exact hRun
          cases completed with
          | nil =>
              rw [hRun]
              exact hPrepare
          | cons exchange later =>
              rw [hRun, lastLeft_congr (List.cons_ne_nil _ _) sound prepared loaded]
              rfl
      | importResources resources =>
          cases hPrepare
          rcases Body.ends_takeOver work with ⟨before, other, cause, reaches, hLast, -⟩ | concludes
          · obtain ⟨rfl, hSame⟩ := List.append_inj' hLast rfl
            cases hSame
            cases reaches with
            | importing => rfl
            | showing imported => rfl
            | @planning imported shown edited adopted =>
                obtain ⟨configured, hConfigure, hMain⟩ := adopted
                change (do
                  let configured ← (ranTool (ranTool loaded imported) shown).configure
                    (loaded.valuesOf shown)
                  configured.setMain (loaded.definitionOf shown)) = .ok edited
                rw [hConfigure]
                exact hMain
            | applying adopted allowed => rfl
          · exact (not_completed_failing run e (concludes.completed _ List.mem_concat_self)).elim

/-- Setting variables leaves the state and the parameterization. -/
theorem keeps_of_configure {vars : Params} (h : workspace.configure vars = .ok reached) :
    reached.state = workspace.state ∧ reached.parameterization = workspace.parameterization := by
  unfold Workspace.configure at h
  split at h
  · cases h
  · cases h
    exact ⟨rfl, rfl⟩

theorem keeps_of_setMain {text : String} (h : workspace.setMain text = .ok reached) :
    reached.state = workspace.state ∧ reached.parameterization = workspace.parameterization := by
  unfold Workspace.setMain at h
  split at h
  · cases h
  · cases h
    exact ⟨rfl, rfl⟩

theorem keeps_of_restrict {vars : Params} (h : workspace.restrict vars = .ok reached) :
    reached.state = workspace.state ∧ reached.parameterization = workspace.parameterization := by
  obtain ⟨names, first, others, -, -, rfl⟩ := Workspace.exists_of_restrict h
  exact ⟨rfl, rfl⟩

/-- What a job changes of the workspace for its next run is neither the state nor how a definition
gets its parameters. -/
theorem nextWorkspace_keeps (h : job.nextWorkspace settings loaded completed = .ok workspace) :
    workspace.state = (lastLeft loaded completed).state ∧
      workspace.parameterization = (lastLeft loaded completed).parameterization := by
  have hSame (same : (.ok (lastLeft loaded completed) : Except WorkspaceError Workspace) =
      .ok workspace) : workspace.state = (lastLeft loaded completed).state ∧
        workspace.parameterization = (lastLeft loaded completed).parameterization := by
    cases same
    exact ⟨rfl, rfl⟩
  cases job with
  | provision => exact hSame h
  | update vars | upgrade vars =>
      simp only [nextWorkspace] at h
      split at h
      · split at h
        · exact hSame h
        · exact keeps_of_configure h
      · exact hSame h
  | deprovision vars =>
      simp only [nextWorkspace] at h
      split at h
      · exact keeps_of_restrict h
      · exact hSame h
  | importResources resources =>
      simp only [nextWorkspace] at h
      split at h
      · obtain ⟨configured, hConfigure, hMain⟩ := exists_of_bind_eq_ok h
        obtain ⟨hState, hScheme⟩ := keeps_of_configure hConfigure
        obtain ⟨hLater, hSchemeLater⟩ := keeps_of_setMain hMain
        exact ⟨hLater.trans hState, hSchemeLater.trans hScheme⟩
      · exact hSame h

end Job

end ServiceBroker
