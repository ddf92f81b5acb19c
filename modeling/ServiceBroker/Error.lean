/-!
What can go wrong, and what is said about it.

Errors are causes: each constructor is one cause with the data that its message shows.
-/

namespace ServiceBroker

/-- What is wrong with a configuration, and the field that it is wrong in, if that is known. -/
structure Objection where
  reason : String
  field : Option String := none
deriving DecidableEq

/-- An objection may be raised without a field. -/
instance : Coe String Objection := ⟨fun reason => { reason }⟩

/-- The configuration cannot be used. -/
inductive ConfigError where
  | fileNotFound (path : String)
  | unreadable (reason : String)
  | invalid (objection : Objection)
  /-- No tool version is declared. -/
  | noVersion
  /-- Several tool versions are declared, and none of them is the default. -/
  | noDefaultVersion
deriving DecidableEq

/-- A deployment record cannot be read or written. -/
inductive StoreError where
  | notFound (id : String)
  | corrupted (reason : String)
  | backend (reason : String)
  | unserializable (reason : String)
deriving DecidableEq

/-- An update request is refused. -/
inductive DecisionError where
  | planNotFound (planId : String)
  /-- Request and plan both carry maintenance info, and it differs. -/
  | maintenanceInfoConflict
  /-- The request carries maintenance info, the plan has none. -/
  | maintenanceInfoUnknown
  /-- The instance runs at a maintenance info that its plan has left behind. -/
  | upgradeRequired
deriving DecidableEq

/-- A workspace cannot be used. -/
inductive WorkspaceError where
  | undecodable (reason : String)
  | unserializable (reason : String)
  /-- The tool has never been applied. -/
  | noState
  | invalidState (reason : String)
  | instanceNotFound (name : String)
  | noInstances
  | noModules
deriving DecidableEq

/-- A tool command failed. -/
inductive ToolError where
  | commandFailed (command version reason : String)
deriving DecidableEq

/-- A job cannot start, or did not finish. -/
inductive JobError where
  /-- The state is older than the default version, and upgrades are off. -/
  | versionMismatch (stateVersion defaultVersion : String)
  /-- The state is older than the default version, and there is no path to walk. -/
  | noUpgradePath
  | deletionBlocked (addresses : List String)
  | operationInProgress (id : String)
  /-- An operation that was polled has failed with the recorded message. -/
  | operationFailed (message : String)
  | cancelled
  | taskFailed (reason : String)
deriving DecidableEq

/-- Any failure of the broker. -/
inductive BrokerError where
  | config (cause : ConfigError)
  | store (cause : StoreError)
  | decision (cause : DecisionError)
  | workspace (cause : WorkspaceError)
  | tool (cause : ToolError)
  | job (cause : JobError)
  | io (reason : String)
  | internal (reason : String)
deriving DecidableEq

namespace ConfigError

/-- The cause in words. -/
def message : ConfigError → String
  | fileNotFound path => "Configuration file not found: " ++ path
  | unreadable reason => "Failed to parse configuration: " ++ reason
  | invalid objection => "Configuration validation failed: " ++ objection.reason
  | noVersion => "terraform not found"
  | noDefaultVersion => "no default terraform found"

end ConfigError

namespace StoreError

/-- The cause in words. -/
def message : StoreError → String
  | notFound id => "Deployment not found: " ++ id
  | corrupted reason => "Deployment record is corrupted: " ++ reason
  | backend reason => "State backend error: " ++ reason
  | unserializable reason => "State serialization error: " ++ reason

end StoreError

namespace DecisionError

/-- The cause in words. -/
def message : DecisionError → String
  | planNotFound planId => "plan " ++ planId ++ " does not exist"
  | maintenanceInfoConflict =>
    "passed maintenance_info does not match the catalog maintenance_info"
  | maintenanceInfoUnknown =>
    "maintenance_info was passed, but the broker catalog contains no maintenance_info"
  | upgradeRequired => "service instance needs to be upgraded before updating"

/-- The HTTP status that the broker answers with. -/
def httpStatus : DecisionError → Nat
  | planNotFound _ => 500
  | _ => 422

/-- The key in the body of the broker's answer. -/
def key? : DecisionError → Option String
  | planNotFound _ => none
  | maintenanceInfoConflict | maintenanceInfoUnknown => some "MaintenanceInfoConflict"
  | upgradeRequired => some "previous-maintenance-info-check"

end DecisionError

namespace WorkspaceError

/-- The cause in words. -/
def message : WorkspaceError → String
  | undecodable reason => "error deserializing workspace: " ++ reason
  | unserializable reason => "error serializing workspace: " ++ reason
  | noState => "workspace has no terraform state"
  | invalidState reason => "invalid terraform state: " ++ reason
  | instanceNotFound name => "no module instance named " ++ name
  | noInstances => "workspace has no module instances"
  | noModules => "workspace has no modules"

end WorkspaceError

namespace ToolError

/-- The cause in words. -/
def message : ToolError → String
  | commandFailed command version reason =>
    "terraform " ++ command ++ " failed (version " ++ version ++ "): " ++ reason

end ToolError

namespace JobError

/-- The cause in words. -/
def message : JobError → String
  | versionMismatch stateVersion defaultVersion =>
    "apply attempted with a newer version of terraform than the state (state: " ++ stateVersion ++
      ", default: " ++ defaultVersion ++ ")"
  | noUpgradePath => "terraform version mismatch and no upgrade path specified"
  | deletionBlocked addresses =>
    "terraform plan shows that resources would be deleted - cancelling import: " ++
      ", ".intercalate addresses
  | operationInProgress id => "an operation is already in progress for deployment " ++ id
  | operationFailed message => message
  | cancelled => "operation cancelled"
  | taskFailed reason => "job task failed: " ++ reason

end JobError

namespace BrokerError

/-- The cause in words. Decision, tool and job errors stand for themselves, the others are told
apart by where they come from. -/
def message : BrokerError → String
  | config cause => "Configuration error: " ++ cause.message
  | store cause => "State error: " ++ cause.message
  | decision cause => cause.message
  | workspace cause => "Workspace error: " ++ cause.message
  | tool cause => cause.message
  | job cause => cause.message
  | io reason => "IO error: " ++ reason
  | internal reason => "Internal error: " ++ reason

/-- Trying again later may help. -/
def isRetryable : BrokerError → Bool
  | store (.backend _) => true
  | job (.operationInProgress _) => true
  | _ => false

/-- There is no record of the deployment. -/
def isNotFound : BrokerError → Bool
  | store (.notFound _) => true
  | _ => false

instance : Coe ConfigError BrokerError := ⟨.config⟩
instance : Coe StoreError BrokerError := ⟨.store⟩
instance : Coe DecisionError BrokerError := ⟨.decision⟩
instance : Coe WorkspaceError BrokerError := ⟨.workspace⟩
instance : Coe ToolError BrokerError := ⟨.tool⟩
instance : Coe JobError BrokerError := ⟨.job⟩

end BrokerError

end ServiceBroker
