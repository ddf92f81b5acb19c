import ServiceBroker.Config.Basic

/-!
Checks that a configuration is consistent before any job runs by it.

Every check is made and every fault is reported, in a fixed order: the declared versions, the
default among them, the upgrade path, the store, the jobs. Warnings never make a configuration
invalid.
-/

namespace ServiceBroker.Config

/-- A fault of a configuration: the field it is in, and what is wrong. -/
structure Fault where
  field : String
  message : String
deriving DecidableEq

/-- What the checks found. -/
structure Findings where
  faults : List Fault := []
  warnings : List String := []
deriving DecidableEq

/-- The findings of two checks, one after the other. -/
def Findings.append (a b : Findings) : Findings :=
  { faults := a.faults ++ b.faults, warnings := a.warnings ++ b.warnings }

instance : Append Findings := ⟨Findings.append⟩

/-- Nothing is wrong. -/
def Findings.isValid (findings : Findings) : Bool :=
  findings.faults.isEmpty

def Fault.text (fault : Fault) : String :=
  fault.field ++ ": " ++ fault.message

def Fault.objection (fault : Fault) : Objection where
  reason := fault.message
  field := some fault.field

/-- The versions that were declared before, once for every repetition. -/
def repetitions : List Version → List Version → List Version
  | _, [] => []
  | seen, version :: rest =>
    if seen.contains version then version :: repetitions seen rest
    else repetitions (version :: seen) rest

/-- The places of a path where it does not ascend. -/
def descents : List Version → List (Version × Version)
  | a :: b :: rest => if b ≤ a then (a, b) :: descents (b :: rest) else descents (b :: rest)
  | _ => []

def versionFault (message : String) : Fault :=
  { field := "terraform.versions", message }

def pathFault (message : String) : Fault :=
  { field := "terraform.upgrade_path", message }

/-- Faults that the declared versions have by themselves. -/
def versionFaults (tool : ToolConfig) : List Fault :=
  let repeated := (repetitions [] (tool.versions.map (·.version))).map fun version =>
    versionFault ("Version " ++ version.text ++ " is declared more than once")
  let flagged := (tool.versions.filter (·.isDefault)).length
  let several :=
    if 1 < flagged then
      [versionFault (toString flagged ++ " versions are flagged as default, expected at most one")]
    else []
  let unresolved := match tool.defaultVersion with
    | .ok _ => []
    | .error e => [versionFault e.message]
  repeated ++ several ++ unresolved

/-- Faults of the upgrade path that need no default version. -/
def pathFaults (tool : ToolConfig) : List Fault :=
  let descending := (descents tool.upgradePath).map fun (a, b) =>
    pathFault ("Upgrade path must be strictly ascending, " ++ a.text ++ " is followed by " ++
      b.text)
  let undeclared := (tool.upgradePath.filter fun version => !tool.hasVersion version).map
    fun version =>
      pathFault ("Upgrade path version " ++ version.text ++ " is not a declared version")
  descending ++ undeclared

def beyondFaults (tool : ToolConfig) (default : Version) : List Fault :=
  match tool.upgradePath.find? (fun version => default < version) with
  | some version =>
    [pathFault ("Upgrade path version " ++ version.text ++ " is newer than the default version " ++
      default.text)]
  | none => []

/-- Where the path ends, if that is not where jobs end up. -/
def pathWarnings (tool : ToolConfig) (default : Version) : List String :=
  match tool.upgradePath.getLast? with
  | some last =>
    if last ≠ default then
      ["Upgrade path ends at " ++ last.text ++ ", not at the default version " ++ default.text]
    else []
  | none =>
    if tool.upgradesEnabled then ["Upgrades are enabled but no upgrade path is configured"] else []

def checkTool (tool : ToolConfig) : Findings :=
  let faults := versionFaults tool ++ pathFaults tool
  match tool.defaultVersion with
  | .error _ => { faults }
  | .ok default =>
    { faults := faults ++ beyondFaults tool default, warnings := pathWarnings tool default }

/-- Checks where records are kept. -/
def checkStore (store : StoreConfig) : Findings :=
  match store.backend with
  | .directory => {}
  | .bucket =>
    if store.bucket.any (· ≠ "") then {}
    else { faults := [{ field := "state.bucket",
                        message := "S3 bucket name is required when using S3 backend" }] }
  | .memory => { warnings := ["Memory backend loses every deployment record on exit"] }

def checkJobs (jobs : JobConfig) : Findings :=
  if jobs.pollInterval = 0 then
    { faults := [{ field := "jobs.poll_interval_ms",
                   message := "Poll interval must be greater than zero" }] }
  else {}

def check (config : Config) : Findings :=
  checkTool config.tool ++ checkStore config.store ++ checkJobs config.jobs

/-- The findings of a valid configuration; the first fault of another one is an error. -/
def validate (config : Config) : Except ConfigError Findings :=
  match config.check.faults with
  | [] => pure config.check
  | fault :: _ => throw (.invalid fault.objection)

end ServiceBroker.Config
