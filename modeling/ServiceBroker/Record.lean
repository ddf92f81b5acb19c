import ServiceBroker.Timestamp
import ServiceBroker.Workspace.Codec

/-!
The record of a deployment: its workspace as it is kept, and the last operation on it.

A service instance and each of its bindings are deployments of their own. The record is what
outlives a restart of the broker, and what clients see when they poll.
-/

namespace ServiceBroker

/-- What kind of operation was last started on a deployment. -/
inductive OperationType where
  | provision
  | update
  | deprovision
deriving DecidableEq

/-- How the last operation on a deployment stands. -/
inductive OperationState where
  | inProgress
  | succeeded
  | failed
  /-- The record says something else. -/
  | unknown
deriving DecidableEq

namespace OperationType

def name : OperationType → String
  | provision => "provision"
  | update => "update"
  | deprovision => "deprovision"

def ofName? (name : String) : Option OperationType :=
  [provision, update, deprovision].find? (·.name == name)

end OperationType

namespace OperationState

def name : OperationState → String
  | inProgress => "in progress"
  | succeeded => "succeeded"
  | failed => "failed"
  | unknown => "unknown"

/-- The state with a name; whatever is not a name of one is unknown. -/
def ofName (name : String) : OperationState :=
  ([inProgress, succeeded, failed].find? (·.name == name)).getD unknown

/-- The state will not change by itself any more. An unknown one counts as still running. -/
def isDone : OperationState → Bool
  | succeeded | failed => true
  | inProgress | unknown => false

/-- A state reads back from its name. -/
@[simp]
theorem ofName_name (state : OperationState) : ofName state.name = state := by
  cases state <;> decide

end OperationState

def bindingId (instanceId binding : String) : String :=
  "tf:" ++ instanceId ++ ":" ++ binding

def instanceId (id : String) : String :=
  bindingId id ""

/-- The record of a deployment. -/
structure Record where
  id : String
  /-- The workspace in its stored form. -/
  workspace : Bytes
  operation : OperationType
  state : OperationState
  /-- What the last operation had to say when it ended. -/
  message : String := ""
  created : Timestamp
  updated : Timestamp
deriving DecidableEq

namespace Record

/-- An operation is running on the deployment. -/
def isInProgress (record : Record) : Bool :=
  record.state == .inProgress

open Decoder

def operationDecoder : Decoder OperationType :=
  choice OperationType.ofName?

def timestampDecoder : Decoder Timestamp :=
  parsed fun text => (Timestamp.ofText? text).elim (.error "not a moment in time") .ok

def decoder : Decoder Record :=
  record ["id", "workspace", "last_operation_type", "last_operation_state",
      "last_operation_message", "created_at", "updated_at"] fun dialect form => do
    return {
      id := ← required form dialect "id" text
      workspace := ← required form dialect "workspace" base64
      operation := ← required form dialect "last_operation_type" operationDecoder
      state := OperationState.ofName (← required form dialect "last_operation_state" text)
      message := ← defaulted form dialect "last_operation_message" text ""
      created := ← required form dialect "created_at" timestampDecoder
      updated := ← required form dialect "updated_at" timestampDecoder }

def toJson (record : Record) : Json :=
  .object [
    ("id", .string record.id),
    ("workspace", record.workspace.toJson),
    ("last_operation_type", .string record.operation.name),
    ("last_operation_state", .string record.state.name),
    ("last_operation_message", .string record.message),
    ("created_at", .string record.created.text),
    ("updated_at", .string record.updated.text)]

/-- The stored form of a record. -/
def text (record : Record) : String :=
  record.toJson.renderPretty

/-- Reads the stored form of a record. -/
def ofText (text : String) : Except DecodeError Record :=
  Json.decode decoder text

end Record

end ServiceBroker
