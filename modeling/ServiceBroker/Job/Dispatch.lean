import ServiceBroker.Job.Operation

/-!
Starting jobs in the background.

A job is started only if no operation is in progress on its deployment and the recorded workspace
can be read. The operation is marked as started before the job exists, so whoever polls right after
sees it in progress. The job records its own outcome.
-/

namespace ServiceBroker

/-- What starting and joining jobs asks of the world. -/
inductive BrokerRequest where
  | job (request : JobRequest)
  /-- Starts a job on a deployment in the background. -/
  | start (id : String) (job : Job)
  /-- Waits until a job has recorded its outcome. -/
  | join (handle : Nat)

/-- What a request is answered with. A job that was started has a number. -/
abbrev BrokerRequest.Reply : BrokerRequest → Type
  | job request => request.Reply
  | start _ _ => Nat
  | join _ => Except BrokerError Unit

/-- The world of the broker. -/
def brokerInterface : Interface where
  Request := BrokerRequest
  Reply := BrokerRequest.Reply

/-- What the broker does. -/
abbrev BrokerProgram := Program brokerInterface

/-- The work of a job as work of the broker. -/
def JobProgram.toBroker {α : Type} (program : JobProgram α) : BrokerProgram α :=
  program.embed (J := brokerInterface) .job fun _ reply => reply

abbrev BrokerWork := ExceptT BrokerError BrokerProgram

def StoreWork.toBroker {α : Type} (work : StoreWork α) : BrokerWork α :=
  ExceptT.mk (JobProgram.toBroker work.run)

/-- Writes the outcome of a job into the record as it then is, and hands the job's error on. -/
def recordOutcome (id : String) (result : JobResult) : StoreWork Unit := do
  let (failure, workspace) : Option BrokerError × Option Workspace :=
    match result with
    | .ok workspace => (none, some workspace)
    | .error failed => (some failed.error, failed.workspace)
  let record ← callStore (.get id)
  markFinished record failure (workspace.map (·.final))
  match failure with
  | none => return ()
  | some e => throw e

/-- What is done in the background for a job. -/
def Job.task (settings : UpgradeSettings) (id : String) (job : Job) :
    JobProgram (Except BrokerError Unit) := do
  let result ← job.run settings id
  (recordOutcome id result).run

/-- Refuses a job on a deployment that is busy or whose workspace cannot be read. -/
def checkIdle (id : String) : StoreWork Unit := do
  let record ← callStore (.get id)
  if record.isInProgress then throw (.job (.operationInProgress id))
  match Workspace.ofBytes record.workspace with
  | .ok _ => return ()
  | .error e => throw (.workspace e)

def dispatch (id : String) (job : Job) : BrokerWork Nat := do
  StoreWork.toBroker (checkIdle id)
  StoreWork.toBroker (markStarted id job.operation)
  ExceptT.lift (Program.request (I := brokerInterface) (.start id job))

/-- Starts a job and waits for its end. -/
def dispatchAndJoin (id : String) (job : Job) : BrokerWork Unit := do
  let handle ← dispatch id job
  ExceptT.mk (Program.request (I := brokerInterface) (.join handle))

/-- Upgrades deployments one after another; the first failure ends it. -/
def upgradeAll : List (String × Params) → BrokerWork Unit
  | [] => pure ()
  | (id, vars) :: rest => do
    dispatchAndJoin id (.upgrade vars)
    upgradeAll rest

def upgradeInstance (name : String) (vars : Params) (bindings : List (String × Params)) :
    BrokerWork Unit :=
  upgradeAll ((instanceId name, vars) ::
    bindings.map fun (binding, vars) => (bindingId name binding, vars))

end ServiceBroker
