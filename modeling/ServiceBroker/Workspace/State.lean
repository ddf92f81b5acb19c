import ServiceBroker.Workspace.Basic
import ServiceBroker.Json.Printer
import ServiceBroker.Error
import ServiceBroker.Version.Parser

/-!
The state that the tool leaves in a workspace: the version that wrote it, and the outputs.
-/

namespace ServiceBroker

/-- What the broker reads of a state. -/
structure ToolState where
  /-- The version that wrote the state, as it stands there. -/
  versionText : String
  /-- What is recorded for each output. -/
  outputs : Params := []

namespace ToolState

open Decoder in
def decoder : Decoder ToolState :=
  record ["terraform_version", "outputs"] fun dialect form => do
    return {
      versionText := ← required form dialect "terraform_version" text
      outputs := ← defaulted form dialect "outputs" params [] }

/-- Reads the state of a workspace; before the first apply there is none. -/
def parse (bytes : Bytes) : Except WorkspaceError ToolState :=
  if bytes.isEmpty then throw .noState
  else (Json.decodeBytes decoder bytes).mapError fun e =>
    .invalidState ("failed to parse state: " ++ e.message)

/-- The version that wrote the state. -/
def version (state : ToolState) : Except WorkspaceError Version :=
  (Version.parse state.versionText).mapError fun e =>
    .invalidState ("invalid terraform_version " ++
      String.ofList (Text.quote state.versionText.toList) ++ ": " ++ e.message)

/-- The values of the outputs; an output without one has the value `null`. -/
def outputValues (state : ToolState) : Params :=
  state.outputs.map fun (name, output) => (name, (output.member? "value").getD .null)

/-- The state that an application at a version with some outputs writes. -/
def document (version : Version) (outputs : Params) : Bytes :=
  Bytes.ofText (Json.render (.object [
    ("version", .number (.integer 4)),
    ("terraform_version", .string version.text),
    ("outputs", .object (outputs.map fun (name, value) => (name, .object [("value", value)])))]))

end ToolState

namespace Workspace

/-- What the tool wrote last. -/
def toolState (workspace : Workspace) : Except WorkspaceError ToolState :=
  ToolState.parse workspace.state

/-- The version that wrote the state. -/
def stateVersion (workspace : Workspace) : Except WorkspaceError Version := do
  (← workspace.toolState).version

def outputs (workspace : Workspace) (instanceName : String) : Except WorkspaceError Params := do
  if workspace.instanceNames.contains instanceName then
    return (← workspace.toolState).outputValues
  else throw (.instanceNotFound instanceName)

end Workspace

end ServiceBroker
