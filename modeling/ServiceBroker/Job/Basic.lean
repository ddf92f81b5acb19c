import ServiceBroker.Definition.Parameterization
import ServiceBroker.Plan
import ServiceBroker.Program
import ServiceBroker.Store.Basic
import ServiceBroker.Tool
import ServiceBroker.Upgrade

/-!
Jobs: what the broker does to one deployment.

A job loads the workspace from the record, runs the tool, and hands the workspace back as far as it
got, also when it fails halfway. It writes no record. Every run of the tool can be cancelled; the
state is then the one of the last run that was completed, so a later job goes on from there.
-/

namespace ServiceBroker

/-- What a job asks of the world. -/
inductive JobRequest where
  | store (call : StoreCall)
  | now
  /-- Runs the tool, unless the job is cancelled before the run is completed. -/
  | tool (run : ToolRun)

/-- What a request is answered with. -/
abbrev JobRequest.Reply : JobRequest → Type
  | store call => call.Answer
  | now => Timestamp
  | tool _ => Except BrokerError ToolReport

/-- The world of a job. -/
def jobInterface : Interface where
  Request := JobRequest
  Reply := JobRequest.Reply

/-- What a job does. -/
abbrev JobProgram := Program jobInterface

/-- Work on records. -/
abbrev StoreWork := ExceptT BrokerError JobProgram

def callStore (call : StoreCall) : StoreWork call.Reply :=
  ExceptT.mk do
    let answer : call.Answer ← Program.request (I := jobInterface) (.store call)
    return answer.mapError BrokerError.store

def present : StoreWork Timestamp :=
  ExceptT.lift (Program.request (I := jobInterface) .now)

/-- A job for a deployment. -/
inductive Job where
  /-- Builds what the workspace describes. -/
  | provision
  /-- Upgrades the state, sets variables, and applies. -/
  | update (vars : Params)
  /-- Upgrades the state and destroys everything. -/
  | deprovision (vars : Params)
  /-- Takes existing resources over. -/
  | importResources (resources : List ExistingResource)
  /-- Upgrades the state and applies at the default version. -/
  | upgrade (vars : Params)

/-- A job that failed, and the workspace as far as the job got, if it was loaded. -/
structure JobFailure where
  error : BrokerError
  workspace : Option Workspace := none

/-- How a job ends. -/
abbrev JobResult := Except JobFailure Workspace

namespace Job

def name : Job → String
  | provision => "provision"
  | update _ => "update"
  | deprovision _ => "deprovision"
  | importResources _ => "import"
  | upgrade _ => "upgrade"

/-- What is recorded as the type of the operation. -/
def operation : Job → OperationType
  | provision => .provision
  | update _ | importResources _ | upgrade _ => .update
  | deprovision _ => .deprovision

/-- Work on a workspace. A failure leaves the workspace as it is at that point. -/
abbrev Body := ExceptT BrokerError (StateT Workspace JobProgram)

def orFail {ε α : Type} [Coe ε BrokerError] : Except ε α → Body α
  | .ok value => pure value
  | .error e => throw (e : BrokerError)

/-- Changes the workspace, or fails and leaves it. -/
def change (edit : Workspace → Except WorkspaceError Workspace) : Body Unit := do
  set (← orFail (edit (← get)))

/-- Runs the tool on the workspace and keeps the state that it writes. -/
def runTool (version : Version) (command : Command) (resources : List ExistingResource := []) :
    Body String := do
  let run : ToolRun := { command, version, workspace := ← get, resources }
  let report : ToolReport ←
    ExceptT.mk (StateT.lift (Program.request (I := jobInterface) (.tool run)))
  modify fun workspace => { workspace with state := report.state.getD workspace.state }
  return report.output

/-- Applies one version after another. -/
def walk : List Version → Body Unit
  | [] => pure ()
  | version :: versions => do
    let _ ← runTool version .apply
    walk versions

/-- Brings the state to where the default version can read it. -/
def upgradeState (settings : UpgradeSettings) : Body Unit := do
  let current ← orFail (← get).stateVersion
  walk (← orFail (settings.stepsFrom current))

/-- Imports resources, and applies unless something would be deleted. The definition that the tool
shows takes the place of the main one, and what it captures joins the configuration. -/
def takeOver (settings : UpgradeSettings) (resources : List ExistingResource) : Body Unit := do
  let version := settings.defaultVersion
  let _ ← runTool version .importResources resources
  let shown ← runTool version .showState
  let (definition, values) := (← get).parameterization.apply shown.toList
  change (·.configure values)
  change (·.setMain (String.ofList definition))
  let plan ← runTool version .plan
  orFail (DeletionGuard.check plan)
  let _ ← runTool version .apply

/-- What a job does with the workspace that it loaded. -/
def body (settings : UpgradeSettings) : Job → Body Unit
  | provision => do
    let _ ← runTool settings.defaultVersion .apply
  | update vars | upgrade vars => do
    upgradeState settings
    change (·.configure vars)
    let _ ← runTool settings.defaultVersion .apply
  | deprovision _ => do
    upgradeState settings
    let _ ← runTool settings.defaultVersion .destroy
  | importResources resources => takeOver settings resources

/-- The workspace that a job begins with. Only what the definitions ask for is set when everything
is destroyed. -/
def prepare (workspace : Workspace) : Job → Except WorkspaceError Workspace
  | deprovision vars => workspace.restrict vars
  | _ => pure workspace

def load (id : String) : StoreWork Workspace := do
  let record ← callStore (.get id)
  match Workspace.ofBytes record.workspace with
  | .ok workspace => return workspace
  | .error e => throw (e : BrokerError)

def run (settings : UpgradeSettings) (id : String) (job : Job) : JobProgram JobResult := do
  match ← (load id).run with
  | .error error => return .error { error }
  | .ok loaded =>
    match job.prepare loaded with
    | .error e => return .error { error := e }
    | .ok workspace =>
      let (outcome, workspace) ← (job.body settings).run.run workspace
      match outcome with
      | .ok () => return .ok workspace
      | .error error => return .error { error, workspace }

/-- The output values of an instance in the record of a deployment. -/
def outputs (id instanceName : String) : StoreWork Params := do
  match (← load id).outputs instanceName with
  | .ok values => return values
  | .error e => throw (e : BrokerError)

/-- The state in the record of a deployment, written down as a definition. -/
def definition (settings : UpgradeSettings) (id : String) : StoreWork String := do
  let workspace ← load id
  let run : ToolRun := { command := .showState, version := settings.defaultVersion, workspace }
  let report : ToolReport ← ExceptT.mk (Program.request (I := jobInterface) (.tool run))
  return report.output

end Job

end ServiceBroker
