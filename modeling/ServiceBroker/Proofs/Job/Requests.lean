import ServiceBroker.Job.Dispatch
import ServiceBroker.Proofs.Program.Passage
import ServiceBroker.Proofs.Upgrade.Path

/-! The requests that calls and jobs make, in the order in which they make them. A call reads the
record, and if it may go on reads it again, asks the time, writes the record and starts the job. A
job reads the record, runs the tool, and at its end reads the record, asks the time and writes the
record. Nothing but the tool is asked between its two readings. -/

namespace ServiceBroker

/-- A reading of a record, and the record that was read. -/
def Exchange.reading? : Exchange jobInterface → Option Record
  | ⟨.store (.get _), .ok record⟩ => some record
  | _ => none

/-- The exchange in which a record is read. -/
def Exchange.reading (id : String) (record : Record) : Exchange jobInterface :=
  ⟨.store (.get id), (.ok record : Except StoreError Record)⟩

/-- The exchange in which the time is asked. -/
def Exchange.clock (now : Timestamp) : Exchange jobInterface :=
  ⟨.now, now⟩

/-- The exchange in which a record is written. -/
def Exchange.writing (record : Record) : Exchange jobInterface :=
  ⟨.store (.put record), (.ok () : Except StoreError Unit)⟩

/-- What the record of a deployment says about starting a job. -/
def admission (id : String) : Except StoreError Record → Except BrokerError Unit
  | .error e => .error (.store e)
  | .ok record =>
    if record.isInProgress then .error (.job (.operationInProgress id))
    else match Workspace.ofBytes record.workspace with
      | .ok _ => .ok ()
      | .error e => .error (.workspace e)

/-- What is left of a call that was admitted. -/
def admitted (id : String) (job : Job) : BrokerWork Nat := do
  StoreWork.toBroker (markStarted id job.operation)
  ExceptT.lift (Program.request (I := brokerInterface) (.start id job))

theorem checkIdle_run (id : String) :
    (checkIdle id).run = Program.ask (I := jobInterface) (.store (.get id))
      fun answer : Except StoreError Record => .done (admission id answer) := by
  change Program.ask _ _ = Program.ask _ _
  congr 1
  funext answer
  cases answer with
  | error e => rfl
  | ok record =>
      change ExceptT.run (m := JobProgram) (if record.isInProgress = true then _ else _) = _
      simp only [admission]
      split
      · rfl
      · cases Workspace.ofBytes record.workspace <;> rfl

/-- The first request of a call decides whether there is another one. -/
theorem dispatch_run (id : String) (job : Job) :
    (dispatch id job).run = Program.ask (I := brokerInterface) (.job (.store (.get id)))
      fun answer : Except StoreError Record =>
        match admission id answer with
        | .error e => .done (.error e)
        | .ok () => (admitted id job).run := by
  change ((checkIdle id).run.embed (J := brokerInterface) .job fun _ reply => reply).bind _ = _
  rw [checkIdle_run]
  change Program.ask _ _ = Program.ask _ _
  congr 1
  funext answer
  simp only [Program.embed, Program.bind]
  generalize admission id answer = verdict
  cases verdict <;> rfl

/-- What is left of an admitted call that has marked the deployment. -/
def starting (id : String) (job : Job) : BrokerProgram (Except BrokerError Nat) :=
  .ask (.start id job) fun handle : Nat => .done (.ok handle)

/-- What is left of an admitted call that knows what to write. -/
def writing (id : String) (job : Job) (record : Record) (now : Timestamp) :
    BrokerProgram (Except BrokerError Nat) :=
  .ask (.job (.store (.put (record.started job.operation now))))
    fun answer : Except StoreError Unit =>
      match answer with
      | .error e => .done (.error (.store e))
      | .ok () => starting id job

/-- What is left of an admitted call that has read the record again. -/
def marking (id : String) (job : Job) (record : Record) : BrokerProgram (Except BrokerError Nat) :=
  .ask (.job .now) fun now : Timestamp => writing id job record now

/-- An admitted call marks the deployment with what the record then says, and starts the job. -/
theorem admitted_run (id : String) (job : Job) :
    (admitted id job).run = Program.ask (I := brokerInterface) (.job (.store (.get id)))
      fun answer : Except StoreError Record =>
        match answer with
        | .error e => .done (.error (.store e))
        | .ok record => marking id job record := by
  change Program.ask _ _ = Program.ask _ _
  congr 1
  funext answer
  cases answer with
  | error e => rfl
  | ok record =>
      change Program.ask _ _ = Program.ask _ _
      congr 1
      funext now
      change Program.ask _ _ = Program.ask _ _
      congr 1
      funext answer
      cases answer <;> rfl

namespace JobResult

/-- Why a job failed, if it did. -/
def failure? : JobResult → Option BrokerError
  | .ok _ => none
  | .error failed => some failed.error

/-- The workspace as far as a job got, if it was loaded. -/
def workspace? : JobResult → Option Workspace
  | .ok workspace => some workspace
  | .error failed => failed.workspace

/-- What whoever joins a job is told, once the outcome is recorded. -/
def outcome : JobResult → Except BrokerError Unit
  | .ok _ => .ok ()
  | .error failed => .error failed.error

end JobResult

/-- The record of a deployment when the outcome of a job is written into it. -/
def Record.settled (record : Record) (result : JobResult) (now : Timestamp) : Record :=
  record.finished result.failure? (result.workspace?.map (·.final)) now

@[simp]
theorem Record.started_id (record : Record) (operation : OperationType) (now : Timestamp) :
    (record.started operation now).id = record.id :=
  rfl

@[simp]
theorem Record.settled_id (record : Record) (result : JobResult) (now : Timestamp) :
    (record.settled result now).id = record.id := by
  rcases result with ⟨error, _ | workspace⟩ | workspace <;> rfl

/-- What is left of a job that knows what to write about its outcome. -/
def storing (result : JobResult) (record : Record) (now : Timestamp) :
    JobProgram (Except BrokerError Unit) :=
  .ask (.store (.put (record.settled result now))) fun answer : Except StoreError Unit =>
    match answer with
    | .error e => .done (.error (.store e))
    | .ok () => .done result.outcome

/-- What is left of a job that has read the record again at its end. -/
def settling (result : JobResult) (record : Record) : JobProgram (Except BrokerError Unit) :=
  .ask .now fun now : Timestamp => storing result record now

theorem recordOutcome_run (id : String) (result : JobResult) :
    (recordOutcome id result).run = Program.ask (I := jobInterface) (.store (.get id))
      fun answer : Except StoreError Record =>
        match answer with
        | .error e => .done (.error (.store e))
        | .ok record => settling result record := by
  cases result <;>
  · change Program.ask _ _ = Program.ask _ _
    congr 1
    funext answer
    cases answer with
    | error e => rfl
    | ok record =>
        change Program.ask _ _ = Program.ask _ _
        congr 1
        funext now
        change Program.ask _ _ = Program.ask _ _
        congr 1
        funext answer
        cases answer <;> rfl

/-- The request is a run of the tool at one of some versions. -/
def JobRequest.IsRun (versions : Version → Prop) : JobRequest → Prop
  | tool run => versions run.version
  | _ => False

namespace Job

/-- The workspace that a job works on, given what the store answered. -/
def loaded : Except StoreError Record → Except BrokerError Workspace
  | .error e => .error (.store e)
  | .ok record => (Workspace.ofBytes record.workspace).mapError BrokerError.workspace

theorem load_run (id : String) :
    (load id).run = Program.ask (I := jobInterface) (.store (.get id))
      fun answer : Except StoreError Record => .done (loaded answer) := by
  change Program.ask _ _ = Program.ask _ _
  congr 1
  funext answer
  cases answer with
  | error e => rfl
  | ok record =>
      change ExceptT.run (m := JobProgram) (match Workspace.ofBytes record.workspace with
        | .ok workspace => _
        | .error e => _) = _
      simp only [loaded]
      cases Workspace.ofBytes record.workspace <;> rfl

/-- The result of a job whose body ended with an outcome and a workspace. -/
def resultOf : Except BrokerError Unit × Workspace → JobResult
  | (.ok (), workspace) => .ok workspace
  | (.error error, workspace) => .error { error, workspace }

/-- What a job does with the workspace in its record. -/
def workOn (settings : UpgradeSettings) (job : Job) (workspace : Workspace) :
    JobProgram JobResult :=
  match job.prepare workspace with
  | .error e => .done (.error { error := e })
  | .ok prepared =>
    Program.bind ((job.body settings).run.run prepared) fun ending => .done (resultOf ending)

theorem run_eq (settings : UpgradeSettings) (id : String) (job : Job) :
    job.run settings id = Program.ask (I := jobInterface) (.store (.get id))
      fun answer : Except StoreError Record =>
        match loaded answer with
        | .error error => .done (.error { error })
        | .ok workspace => job.workOn settings workspace := by
  change (load id).run.bind _ = _
  rw [load_run]
  change Program.ask _ _ = Program.ask _ _
  congr 1
  funext answer
  simp only [Program.bind]
  cases loaded answer with
  | error e => rfl
  | ok workspace =>
      simp only [workOn]
      cases job.prepare workspace with
      | error e => rfl
      | ok prepared =>
          change Program.bind _ _ = Program.bind _ _
          congr 1
          funext ending
          obtain ⟨outcome, workspace⟩ := ending
          cases outcome <;> rfl

/-- The job brings an old state to the default version before it does anything else. -/
def walks : Job → Bool
  | provision | importResources _ => false
  | update _ | deprovision _ | upgrade _ => true

/-- The versions that a job may ask for: the default one, and those of the path if it walks. -/
def MayRun (settings : UpgradeSettings) (job : Job) (version : Version) : Prop :=
  version = settings.defaultVersion ∨ job.walks = true ∧ version ∈ settings.path

/-- Whatever it is answered, work on a workspace asks for nothing but runs of the tool at some
versions. -/
def Body.OnlyRuns {α : Type} (versions : Version → Prop) (work : Body α) : Prop :=
  ∀ workspace, (work.run.run workspace).Asks (JobRequest.IsRun versions)

namespace Body.OnlyRuns

variable {α β : Type} {versions : Version → Prop} {settings : UpgradeSettings}

theorem pure (value : α) : OnlyRuns versions (Pure.pure value : Body α) :=
  fun _ => trivial

theorem get : OnlyRuns versions (MonadState.get : Body Workspace) :=
  fun _ => trivial

theorem set (workspace : Workspace) :
    OnlyRuns versions (MonadStateOf.set workspace : Body Unit) :=
  fun _ => trivial

theorem bind {first : Body α} {next : α → Body β} (hFirst : OnlyRuns versions first)
    (hNext : ∀ value, OnlyRuns versions (next value)) : OnlyRuns versions (first >>= next) := by
  intro workspace
  change Program.Asks _ (Program.bind (first.run.run workspace) _)
  refine (hFirst workspace).bind ?_
  rintro ⟨outcome, reached⟩
  cases outcome with
  | error e => trivial
  | ok value => exact hNext value reached

/-- What follows something that can fail is reached only with its value. -/
theorem orFail_bind {ε : Type} [Coe ε BrokerError] {result : Except ε α} {next : α → Body β}
    (hNext : ∀ value, result = .ok value → OnlyRuns versions (next value)) :
    OnlyRuns versions (orFail result >>= next) := by
  cases result with
  | error e => exact fun _ => trivial
  | ok value => exact hNext value rfl

theorem change (edit : Workspace → Except WorkspaceError Workspace) :
    OnlyRuns versions (Job.change edit) :=
  get.bind fun _ => orFail_bind fun changed _ => set changed

theorem runTool {version : Version} (command : Command) (resources : List ExistingResource)
    (h : versions version) : OnlyRuns versions (Job.runTool version command resources) := by
  refine get.bind fun workspace => bind ?_ fun report => ?_
  · intro reached
    exact ⟨h, fun reply => by cases reply <;> trivial⟩
  · exact bind (fun _ => trivial) fun _ => pure _

theorem walk {steps : List Version} (h : ∀ version ∈ steps, versions version) :
    OnlyRuns versions (Job.walk steps) := by
  induction steps with
  | nil => exact pure ()
  | cons version steps ih =>
      exact (runTool .apply [] (h version (by simp))).bind fun _ =>
        ih fun next hNext => h next (by simp [hNext])

theorem upgradeState (h : ∀ version ∈ settings.path, versions version) :
    OnlyRuns versions (Job.upgradeState settings) :=
  get.bind fun _ => orFail_bind fun _ _ => orFail_bind fun _ hSteps =>
    walk fun version hStep =>
      h version (UpgradeSettings.mem_path_of_stepsFrom hSteps version hStep)

theorem takeOver (resources : List ExistingResource) (h : versions settings.defaultVersion) :
    OnlyRuns versions (Job.takeOver settings resources) := by
  refine (runTool _ _ h).bind fun _ => (runTool _ _ h).bind fun shown => get.bind fun workspace => ?_
  refine (change _).bind fun _ => (change _).bind fun _ => (runTool _ _ h).bind fun plan => ?_
  exact orFail_bind fun _ _ => (runTool _ _ h).bind fun _ => pure ()

/-- Each kind of job asks for the versions that it may. -/
theorem body (settings : UpgradeSettings) (job : Job) :
    OnlyRuns (job.MayRun settings) (job.body settings) := by
  have hDefault : job.MayRun settings settings.defaultVersion := .inl rfl
  have hPath (walks : job.walks = true) (version : Version) (h : version ∈ settings.path) :
      job.MayRun settings version := .inr ⟨walks, h⟩
  cases job with
  | provision => exact (runTool _ _ hDefault).bind fun _ => pure ()
  | update vars | upgrade vars =>
      exact (upgradeState (hPath rfl)).bind fun _ => (change _).bind fun _ =>
        (runTool _ _ hDefault).bind fun _ => pure ()
  | deprovision vars =>
      exact (upgradeState (hPath rfl)).bind fun _ => (runTool _ _ hDefault).bind fun _ => pure ()
  | importResources resources => exact takeOver resources hDefault

end Body.OnlyRuns

theorem workOn_asks (settings : UpgradeSettings) (job : Job) (workspace : Workspace) :
    (job.workOn settings workspace).Asks (JobRequest.IsRun (job.MayRun settings)) := by
  unfold workOn
  split
  · trivial
  · exact (Body.OnlyRuns.body settings job _).bind fun _ => trivial

end Job

end ServiceBroker
