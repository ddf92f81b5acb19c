import ServiceBroker.Job.Basic
import ServiceBroker.Store.Memory

/-!
Stand-ins for the tool and the store with which the broker can be rehearsed.

The tool follows a script: it prints what the script says, fails and takes time where the script
says so, and writes states that hold its version and the scripted outputs. Every run is noted when
it begins. The store keeps records in memory, notes every call, and fails where it is told to.
-/

namespace ServiceBroker

/-- A run of the tool, as it is noted. -/
structure ToolCall where
  command : Command
  version : Version
deriving DecidableEq

/-- A scripted failure of a command, at one version or at all. -/
structure ToolFault where
  command : Command
  version : Option Version
  reason : String
deriving DecidableEq

/-- A tool that follows a script. -/
structure ScriptedTool where
  /-- The outputs that an application leaves in the state. -/
  outputs : Params := []
  /-- What showing the state prints. -/
  definition : String := ""
  /-- What planning prints. -/
  planText : String := ""
  faults : List ToolFault := []
  /-- The milliseconds that every command takes at a version. -/
  delays : List (Version × Nat) := []
  /-- The runs so far. -/
  calls : List ToolCall := []

namespace ScriptedTool

def noted (tool : ScriptedTool) (run : ToolRun) : ScriptedTool :=
  { tool with calls := tool.calls ++ [{ command := run.command, version := run.version }] }

/-- Why a run fails, if it does: the first scripted failure counts that fits. -/
def reason? (tool : ScriptedTool) (run : ToolRun) : Option String :=
  (tool.faults.find? fun fault =>
    fault.command == run.command && fault.version.all (· == run.version)).map (·.reason)

/-- The milliseconds that a run takes: the first that are given for its version. -/
def delay (tool : ScriptedTool) (run : ToolRun) : Nat :=
  (tool.delays.lookup run.version).getD 0

/-- What a run leaves behind that does not fail. -/
def report (tool : ScriptedTool) (run : ToolRun) : ToolReport :=
  match run.command with
  | .apply => { state := some (ToolState.document run.version tool.outputs) }
  | .destroy | .importResources => { state := some (ToolState.document run.version []) }
  | .showState => { output := tool.definition }
  | .plan => { output := tool.planText }

/-- The end of a run, given why it fails. -/
def conclude (tool : ScriptedTool) (run : ToolRun) (reason : Option String) :
    Except BrokerError ToolReport :=
  match reason with
  | none => pure (tool.report run)
  | some reason =>
    throw (.tool (.commandFailed run.command.name run.version.text reason))

def versionsOf (tool : ScriptedTool) (command : Command) : List Version :=
  (tool.calls.filter (·.command == command)).map (·.version)

end ScriptedTool

namespace StoreCall

def method : StoreCall → String
  | get _ => "get"
  | put _ => "store"
  | contains _ => "exists"
  | delete _ => "delete"
  | list => "list"

/-- The id that a call is about, if it is about one. -/
def subject : StoreCall → String
  | get id | contains id | delete id => id
  | put record => record.id
  | list => ""

end StoreCall

/-- A failure that is due in the store. -/
structure StoreFault where
  method : String
  /-- How many calls of the method are left until it happens, that one included. -/
  left : Nat
  reason : String
deriving DecidableEq

/-- Records in memory, with a note of every call, and failures that are due. -/
structure WatchedStore where
  records : Records := []
  faults : List StoreFault := []
  log : List String := []

namespace WatchedStore

/-- The failures after a call of a method. -/
def count (faults : List StoreFault) (method : String) : List StoreFault :=
  faults.map fun fault =>
    if fault.method = method then { fault with left := fault.left - 1 } else fault

/-- Notes a call and answers it, unless a failure is due. -/
def answer (call : StoreCall) (store : WatchedStore) : call.Answer × WatchedStore :=
  let faults := count store.faults call.method
  let store := { store with
    faults := faults.filter (·.left ≠ 0)
    log := store.log ++ [call.method ++ " " ++ call.subject] }
  match faults.find? (·.left = 0) with
  | some fault => (throw (.backend fault.reason), store)
  | none =>
    let (reply, records) := store.records.answer call
    (reply, { store with records })

end WatchedStore

end ServiceBroker
