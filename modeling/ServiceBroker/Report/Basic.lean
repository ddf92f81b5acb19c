import ServiceBroker.Config.Validation
import ServiceBroker.Decision
import ServiceBroker.Job.Operation
import ServiceBroker.Report.Paint
import ServiceBroker.Report.Table

/-!
What the operator is told: reports on a configuration, a decision, an operation, records, and a
workspace. Each is either a text for people or a JSON document for scripts.
-/

namespace ServiceBroker

/-- The form of a report. -/
inductive ReportForm where
  | text
  | json
deriving DecidableEq

def ReportForm.ofName? : String → Option ReportForm
  | "text" => some .text
  | "json" => some .json
  | _ => none

/-- A form, and whether a text has colours. -/
structure ReportStyle where
  form : ReportForm
  colors : Bool

namespace Report

/-- Lines with a line end behind each. -/
def lines (texts : List String) : String :=
  String.join (texts.map (· ++ "\n"))

def texts (xs : List String) : Json :=
  .array (xs.map .string)

def optional (x : Option String) : Json :=
  x.elim .null .string

/-- The first characters of a text that is too long, with dots behind them. -/
def shorten (limit : Nat) (text : String) : String :=
  if text.length ≤ limit then text
  else String.ofList (text.toList.take (limit - 3)) ++ "..."

/-- What the checks of a configuration found, and what it says. -/
def validation (style : ReportStyle) (config : Config) (findings : Config.Findings)
    (showWarnings : Bool) : String :=
  let tool := config.tool
  let default := match tool.defaultVersion with
    | .ok version => version.text
    | .error _ => "unresolved"
  match style.form with
  | .json => Json.renderPretty (.object [
      ("valid", .bool findings.isValid),
      ("errors", texts (findings.faults.map (·.text))),
      ("warnings", texts findings.warnings),
      ("default_version", .string default),
      ("upgrades_enabled", .bool tool.upgradesEnabled),
      ("upgrade_path", texts (tool.upgradePath.map (·.text))),
      ("backend", .string config.store.backend.name)])
  | .text =>
    let verdict :=
      if findings.isValid then [paint style.colors .green "✓" ++ " Configuration is valid!"]
      else (paint style.colors .red "✗" ++ " Configuration is invalid:") ::
        findings.faults.map fun fault => "   - " ++ fault.text
    let warnings :=
      if showWarnings && !findings.warnings.isEmpty then
        "" :: (paint style.colors .yellow "⚠" ++ " Warnings:") ::
          findings.warnings.map fun warning => "   - " ++ warning
      else []
    let path :=
      if tool.upgradePath.isEmpty then "none"
      else " -> ".intercalate (tool.upgradePath.map (·.text))
    let summary := ["", "Configuration summary:",
      "   Versions: " ++ toString tool.versions.length,
      "   Default version: " ++ default,
      "   Upgrades enabled: " ++ (if tool.upgradesEnabled then "true" else "false"),
      "   Upgrade path: " ++ path,
      "   State backend: " ++ config.store.backend.title]
    lines (verdict ++ warnings ++ summary)

/-- How an update request was classified. -/
def decision (style : ReportStyle) (decided : Except DecisionError Operation) : String :=
  match style.form, decided with
  | .json, .ok operation => Json.renderPretty (.object [("operation", .string operation.name)])
  | .json, .error e => Json.renderPretty (.object [
      ("operation", .string "failed"),
      ("status", .number (.integer e.httpStatus)),
      ("error", optional e.key?),
      ("description", .string e.message)])
  | .text, .ok .update => paint style.colors .green "→" ++ " update\n"
  | .text, .ok .upgrade => paint style.colors .yellow "↑" ++ " upgrade\n"
  | .text, .error e =>
    let key := e.key?.elim "" fun key => " [" ++ key ++ "]"
    paint style.colors .red "✗" ++ " failed (" ++ toString e.httpStatus ++ ")" ++ key ++ ": " ++
      e.message ++ "\n"

/-- What a poll tells. -/
def status (style : ReportStyle) (id : String) (status : Status) : String :=
  match style.form with
  | .json => Json.renderPretty (.object [
      ("id", .string id),
      ("done", .bool status.isDone),
      ("message", .string status.message),
      ("error", optional (status.failure.map (·.message)))])
  | .text =>
    let state :=
      if status.failure.isSome then paint style.colors .red "failed"
      else if status.isDone then paint style.colors .green "succeeded"
      else paint style.colors .yellow "in progress"
    let message := if status.message = "" then [] else ["   " ++ status.message]
    lines ((id ++ ": " ++ state) :: message)

def state (colors : Bool) (state : OperationState) : String :=
  let color : Color := match state with
    | .succeeded => .green
    | .inProgress => .yellow
    | .failed => .red
    | .unknown => .dimmed
  paint colors color state.name

def records (style : ReportStyle) (records : List Record) : String :=
  match style.form with
  | .json => Json.renderPretty (.array (records.map fun record => .object [
      ("id", .string record.id),
      ("last_operation_type", .string record.operation.name),
      ("last_operation_state", .string record.state.name),
      ("last_operation_message", .string record.message),
      ("updated_at", .string record.updated.text)]))
  | .text =>
    if records.isEmpty then "No deployments found.\n"
    else
      let rows := records.map fun record =>
        [record.id, record.operation.name, state style.colors record.state,
          record.updated.minuteText, shorten 40 record.message]
      Table.render (["ID", "Operation", "State", "Updated", "Message"] :: rows) ++ "\n\n" ++
        toString records.length ++ " deployment(s)\n"

/-- What there is to say of the workspace in a record. -/
structure Contents where
  record : Record
  workspace : Workspace

/-- The contents of a record whose workspace can be read. -/
def contentsOf (record : Record) : Except WorkspaceError Contents :=
  (Workspace.ofBytes record.workspace).map fun workspace => { record, workspace }

namespace Contents

/-- The version that wrote the state, if it can be told. -/
def version? (contents : Contents) : Option String :=
  contents.workspace.stateVersion.toOption.map (·.text)

/-- The output values of the first instance, as far as they can be read. -/
def outputs (contents : Contents) : Params :=
  match contents.workspace.instanceNames with
  | [] => []
  | first :: _ => (contents.workspace.outputs first).toOption.getD []

def modules (contents : Contents) : List String :=
  contents.workspace.modules.map (·.name)

end Contents

def workspace (style : ReportStyle) (contents : Contents) : String :=
  let record := contents.record
  let instances := contents.workspace.instanceNames
  match style.form with
  | .json => Json.renderPretty (.object [
      ("id", .string record.id),
      ("last_operation_type", .string record.operation.name),
      ("last_operation_state", .string record.state.name),
      ("last_operation_message", .string record.message),
      ("modules", texts contents.modules),
      ("instances", texts instances),
      ("state_version", optional contents.version?),
      ("outputs", .object contents.outputs)])
  | .text =>
    let message := if record.message = "" then [] else ["   Message: " ++ record.message]
    let head := lines (["", "Workspace: " ++ record.id, "",
        "   Last operation: " ++ record.operation.name ++ " " ++
          state style.colors record.state] ++
      message ++ [
        "   Modules: " ++ ", ".intercalate contents.modules,
        "   Instances: " ++ ", ".intercalate instances,
        "   State version: " ++ contents.version?.getD "never applied"])
    match contents.outputs with
    | [] => head
    | outputs =>
      let rows := outputs.map fun (name, value) => [name, shorten 60 value.render]
      head ++ "\n" ++ Table.render (["Output", "Value"] :: rows) ++ "\n"

end Report

end ServiceBroker
