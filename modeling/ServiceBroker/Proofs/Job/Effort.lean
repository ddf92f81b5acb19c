import ServiceBroker.Proofs.Job.Requests

/-! How often a job runs the tool. Whatever it is answered, it does so at most once for each version
of the path and four times besides; so whoever lets jobs go on from one run to the next knows how
many rounds are enough. -/

namespace ServiceBroker

namespace JobProgram

variable {α β : Type}

/-- The program runs the tool at most so many times, whatever it is answered. -/
inductive RunsAtMost : JobProgram α → Nat → Prop where
  | done (value : α) (n : Nat) : RunsAtMost (.done value) n
  | store {call : StoreCall} {next : call.Answer → JobProgram α} {n : Nat}
      (later : ∀ answer, RunsAtMost (next answer) n) :
      RunsAtMost (.ask (I := jobInterface) (.store call) next) n
  | now {next : Timestamp → JobProgram α} {n : Nat} (later : ∀ now, RunsAtMost (next now) n) :
      RunsAtMost (.ask (I := jobInterface) .now next) n
  | tool {run : ToolRun} {next : Except BrokerError ToolReport → JobProgram α} {n : Nat}
      (later : ∀ answer, RunsAtMost (next answer) n) :
      RunsAtMost (.ask (I := jobInterface) (.tool run) next) (n + 1)

theorem RunsAtMost.mono {program : JobProgram α} {m n : Nat} (few : RunsAtMost program m)
    (h : m ≤ n) : RunsAtMost program n := by
  induction few generalizing n with
  | done value => exact .done value n
  | store _ ih => exact .store fun answer => ih answer h
  | now _ ih => exact .now fun now => ih now h
  | tool _ ih =>
      obtain ⟨n, rfl⟩ := Nat.exists_eq_add_of_lt h
      exact .tool fun answer => ih answer (by omega)

/-- The runs of two parts add up. -/
theorem RunsAtMost.bind {program : JobProgram α} {next : α → JobProgram β} {m n : Nat}
    (first : RunsAtMost program m) (second : ∀ value, RunsAtMost (next value) n) :
    RunsAtMost (Program.bind program next) (m + n) := by
  induction first with
  | done value => exact (second value).mono (Nat.le_add_left _ _)
  | store _ ih => exact .store ih
  | now _ ih => exact .now ih
  | tool _ ih =>
      rw [Nat.add_right_comm]
      exact .tool ih

end JobProgram

namespace Job

/-- Work on a workspace that runs the tool at most so many times. -/
def Body.RunsAtMost {α : Type} (work : Body α) (n : Nat) : Prop :=
  ∀ workspace, JobProgram.RunsAtMost (work.run.run workspace) n

namespace Body.RunsAtMost

variable {α β : Type} {settings : UpgradeSettings} {m n : Nat}

theorem mono {work : Body α} (few : work.RunsAtMost m) (h : m ≤ n) : work.RunsAtMost n :=
  fun workspace => (few workspace).mono h

theorem bind {first : Body α} {next : α → Body β} (hFirst : first.RunsAtMost m)
    (hNext : ∀ value, (next value).RunsAtMost n) : (first >>= next).RunsAtMost (m + n) := by
  intro workspace
  change JobProgram.RunsAtMost (Program.bind (first.run.run workspace) _) _
  refine (hFirst workspace).bind ?_
  rintro ⟨outcome, reached⟩
  cases outcome with
  | error e => exact .done _ _
  | ok value => exact hNext value reached

theorem pure (value : α) : RunsAtMost (Pure.pure value) 0 :=
  fun _ => .done _ _

theorem get_bind {next : Workspace → Body α} (hNext : ∀ workspace, (next workspace).RunsAtMost n) :
    RunsAtMost (get >>= next) n :=
  fun workspace => hNext workspace workspace

theorem orFail_bind {ε : Type} [Coe ε BrokerError] {result : Except ε α} {next : α → Body β}
    (hNext : ∀ value, result = .ok value → (next value).RunsAtMost n) :
    RunsAtMost (orFail result >>= next) n := by
  cases result with
  | error e => exact fun _ => .done _ _
  | ok value => exact hNext value rfl

theorem change (edit : Workspace → Except WorkspaceError Workspace) :
    RunsAtMost (Job.change edit) 0 :=
  get_bind fun _ => orFail_bind fun _ _ _ => .done _ _

theorem runTool (version : Version) (command : Command) (resources : List ExistingResource) :
    RunsAtMost (Job.runTool version command resources) 1 :=
  fun _ => .tool fun answer => by cases answer <;> exact .done _ _

theorem walk (steps : List Version) : RunsAtMost (Job.walk steps) steps.length := by
  induction steps with
  | nil => exact pure ()
  | cons version steps ih =>
      rw [List.length_cons, Nat.add_comm]
      exact (runTool _ _ _).bind fun _ => ih

/-- There are never more steps ahead than there are versions on the path. -/
theorem upgradeState (settings : UpgradeSettings) :
    RunsAtMost (Job.upgradeState settings) settings.path.length := by
  refine get_bind fun _ => orFail_bind fun current _ => orFail_bind fun steps hSteps => ?_
  obtain ⟨-, rfl⟩ := UpgradeSettings.stepsFrom_eq_ok_iff.mp hSteps
  refine (walk _).mono ?_
  rw [UpgradeSettings.ahead]
  split
  · exact List.length_filter_le _ _
  · exact Nat.zero_le _

theorem takeOver (settings : UpgradeSettings) (resources : List ExistingResource) :
    RunsAtMost (Job.takeOver settings resources) 4 :=
  ((runTool _ _ _).bind fun _ => (runTool _ _ _).bind fun _ => get_bind fun _ =>
    (change _).bind fun _ => (change _).bind fun _ => (runTool _ _ _).bind fun _ =>
      orFail_bind fun _ _ => (runTool _ _ _).bind fun _ => pure ()).mono (by omega)

theorem body (settings : UpgradeSettings) (job : Job) :
    RunsAtMost (job.body settings) (settings.path.length + 4) := by
  cases job with
  | provision => exact ((runTool _ _ _).bind fun _ => pure ()).mono (by omega)
  | update vars | upgrade vars =>
      exact ((upgradeState settings).bind fun _ => (change _).bind fun _ =>
        (runTool _ _ _).bind fun _ => pure ()).mono (by omega)
  | deprovision vars =>
      exact ((upgradeState settings).bind fun _ => (runTool _ _ _).bind fun _ => pure ()).mono
        (by omega)
  | importResources resources => exact (takeOver settings resources).mono (by omega)

end Body.RunsAtMost

/-- Recording an outcome does not run the tool. -/
theorem recordOutcome_runsAtMost (id : String) (result : JobResult) :
    JobProgram.RunsAtMost (recordOutcome id result).run 0 := by
  rw [recordOutcome_run]
  refine .store fun answer => ?_
  cases answer with
  | error e => exact .done _ _
  | ok record =>
      refine .now fun now => .store fun written => ?_
      cases written <;> exact .done _ _

/-- No job runs the tool more often than once for each version of the path and four times
besides. -/
theorem task_runsAtMost (settings : UpgradeSettings) (id : String) (job : Job) :
    JobProgram.RunsAtMost (job.task settings id) (settings.path.length + 4) := by
  have hRun : JobProgram.RunsAtMost (job.run settings id) (settings.path.length + 4) := by
    rw [run_eq]
    refine .store fun answer => ?_
    cases loaded answer with
    | error e => exact .done _ _
    | ok workspace =>
        simp only [workOn]
        cases job.prepare workspace with
        | error e => exact .done _ _
        | ok prepared =>
            exact (Body.RunsAtMost.body settings job prepared).bind fun _ => .done _ 0
  exact hRun.bind (recordOutcome_runsAtMost id)

end Job

end ServiceBroker
