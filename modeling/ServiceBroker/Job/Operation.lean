import ServiceBroker.Job.Basic

/-!
The last operation in a record: how it begins, how it ends, and what a poll tells of it.
-/

namespace ServiceBroker

/-- The output whose value is the message of an operation that succeeded. -/
def statusOutput : String := "status"

/-- What is recorded of the workspace when an operation ends. -/
structure FinalWorkspace where
  /-- The names of the instances. -/
  instances : List String
  outputs : String → Except WorkspaceError Params
  /-- The form in which the workspace is kept. -/
  stored : Except WorkspaceError Bytes

def Workspace.final (workspace : Workspace) : FinalWorkspace where
  instances := workspace.instanceNames
  outputs := workspace.outputs
  stored := .ok workspace.toBytes

/-- The value of the status output of the first instance: a text as it is, anything else as JSON,
and nothing if there is none. -/
def FinalWorkspace.statusMessage (workspace : FinalWorkspace) : String :=
  match workspace.instances with
  | [] => ""
  | first :: _ =>
    match workspace.outputs first with
    | .error _ => ""
    | .ok outputs =>
      match outputs.get? statusOutput with
      | none => ""
      | some (.string text) => text
      | some value => value.render

/-- The answer to a poll. -/
structure Status where
  /-- The outcome will not change any more. -/
  isDone : Bool
  message : String
  /-- Why the operation failed, if it did. -/
  failure : Option BrokerError
deriving DecidableEq

namespace Record

def started (record : Record) (operation : OperationType) (now : Timestamp) : Record :=
  { record with operation, state := .inProgress, message := "", updated := now }

def concluded (record : Record) (failure : Option BrokerError)
    (workspace : Option FinalWorkspace) : Record :=
  match failure with
  | none =>
    { record with state := .succeeded, message := workspace.elim "" (·.statusMessage) }
  | some e => { record with state := .failed, message := e.message }

/-- Records the workspace at the end of an operation. One that cannot be written makes the operation
a failure and leaves nothing. -/
def withWorkspace (record : Record) (workspace : FinalWorkspace) : Record :=
  match workspace.stored with
  | .ok bytes => { record with workspace := bytes }
  | .error e =>
    { record with
      state := .failed
      message := "couldn't serialize workspace, contact your operator for cleanup: " ++
        (BrokerError.workspace e).message
      workspace := [] }

/-- The record when an operation has ended. Without a workspace the recorded one is kept. -/
def finished (record : Record) (failure : Option BrokerError) (workspace : Option FinalWorkspace)
    (now : Timestamp) : Record :=
  let record := record.concluded failure workspace
  { workspace.elim record record.withWorkspace with updated := now }

/-- What a poll tells. A state that is not known counts as still running. -/
def status (record : Record) : Status where
  isDone := record.state.isDone
  message := record.message
  failure := if record.state = .failed then some (.job (.operationFailed record.message)) else none

end Record

/-- What a wait for an operation ends with once a poll has shown it done. -/
def Status.outcome? (status : Status) : Option (Except BrokerError Unit) :=
  if status.isDone then some (status.failure.elim (.ok ()) .error) else none

/-- Marks an operation as started. The record is read again right before, so that nothing else in
it is lost. -/
def markStarted (id : String) (operation : OperationType) : StoreWork Unit := do
  let record ← callStore (.get id)
  let now ← present
  callStore (.put (record.started operation now))

/-- Writes how an operation ended. -/
def markFinished (record : Record) (failure : Option BrokerError)
    (workspace : Option FinalWorkspace) : StoreWork Unit := do
  let now ← present
  callStore (.put (record.finished failure workspace now))

def pollStatus (id : String) : StoreWork Status := do
  return (← callStore (.get id)).status

/-- A wait for an operation: a poll after each interval, until it is done or patience ends. -/
structure Waiting where
  /-- Milliseconds between two polls. -/
  interval : Nat
  /-- Milliseconds until the wait is given up, if it ever is. -/
  patience : Option Nat := none
deriving DecidableEq

namespace Waiting

/-- Milliseconds until something happens next. -/
def pause (waiting : Waiting) : Nat :=
  waiting.patience.elim waiting.interval (min waiting.interval)

/-- The wait after the pause, if patience has not ended. Patience that ends just when a poll is due
ends before the poll. -/
def next? (waiting : Waiting) : Option Waiting :=
  match waiting.patience with
  | none => some waiting
  | some left =>
    if left ≤ waiting.interval then none
    else some { waiting with patience := some (left - waiting.interval) }

/-- How a wait stands after a round. -/
inductive Stage where
  | over (outcome : Except BrokerError Unit)
  | goesOn (waiting : Waiting)

/-- One round of a wait: a pause, which may be interrupted, and a poll. An interruption ends the
wait, and so does the end of patience. -/
def round {m : Type → Type} [Monad m] (pauseFor : Nat → m Bool)
    (poll : m (Except BrokerError Status)) (waiting : Waiting) : m Stage := do
  if ← pauseFor waiting.pause then return .over (.ok ())
  else match waiting.next? with
    | none => return .over (.ok ())
    | some waiting =>
      match ← poll with
      | .error e => return .over (.error e)
      | .ok status => return status.outcome?.elim (.goesOn waiting) .over

end Waiting

end ServiceBroker
