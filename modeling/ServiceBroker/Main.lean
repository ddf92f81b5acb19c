import ServiceBroker.Console.Command

/-!
The command line on a real machine: each request of a command is answered by the file system, the
environment, the clock or the terminal.
-/

namespace ServiceBroker.Console

/-- Tries something; a failure is a value. -/
def attempt {α : Type} (action : IO α) : IO (Except String α) := do
  try return .ok (← action) catch e => return .error (toString e)

def isPresent (path : String) : IO Bool := do
  return (← attempt (IO.FS.realPath path)).toOption.isSome

def readFile (path : String) : IO Bytes := do
  return (← IO.FS.readBinFile path).data.toList

def namesIn (path : String) : IO (List String) := do
  return (← (← IO.FS.realPath path).readDir).toList.map (·.fileName)

/-- Takes a step of work in a folder. -/
def stepIn (path : String) : (step : FolderStep) → IO step.Reply
  | .present => isPresent path
  | .make => attempt (IO.FS.createDirAll path)
  | .contains name => isPresent (Path.join path name)
  | .read name => attempt (readFile (Path.join path name))
  | .create name => attempt (IO.FS.writeBinFile (Path.join path name) .empty)
  | .write name content => attempt (IO.FS.writeBinFile (Path.join path name) ⟨content.toArray⟩)
  | .sync name => attempt (IO.FS.withFile (Path.join path name) .append (·.flush))
  | .rename source target =>
    attempt (IO.FS.rename (Path.join path source) (Path.join path target))
  | .remove name => attempt (IO.FS.removeFile (Path.join path name))
  | .list => attempt (namesIn path)

/-- The longest pause that is taken at once. -/
def longestPause : Nat := 24 * 60 * 60 * 1000

/-- Lets some milliseconds pass. -/
def pauseFor (duration : Nat) : IO Unit := do
  if longestPause < duration then
    IO.sleep longestPause.toUInt32
    pauseFor (duration - longestPause)
  else IO.sleep duration.toUInt32
termination_by duration
decreasing_by
  have : 0 < longestPause := by decide
  omega

def answer : (request : Request) → IO request.Reply
  | .environment name => IO.getEnv name
  | .present path => isPresent path
  | .read path => attempt (readFile path)
  | .folder path step => stepIn path step
  | .bucket _ _ => return throw noConnection
  | .pause duration => do
    pauseFor duration
    return false
  | .print text => IO.println text
  | .isTerminal => do (← IO.getStdout).isTty

def perform {α : Type} : Program machine α → IO α
  | .done value => pure value
  | .ask request next => do
    let reply ← answer request
    perform (next reply)

/-- Goes through a command to its end. -/
partial def goThrough (work : Work Progress) : IO (Except BrokerError Unit) := do
  match ← perform work.run with
  | .error e => return .error e
  | .ok .over => return .ok ()
  | .ok (.waits wait) => goThrough wait.round

/-- Answers an inquiry, if the arguments hold one. -/
def serve (arguments : List String) : IO Ending := do
  let defaults : Defaults := {
    config := ← IO.getEnv configVariable, logFormat := ← IO.getEnv logFormatVariable }
  match readArguments defaults arguments with
  | .error stop => return stop.ending
  | .ok invocation => return endingOf (← goThrough (begin invocation))

end ServiceBroker.Console

open ServiceBroker.Console in
/-- The command line. -/
def main (arguments : List String) : IO UInt32 := do
  let ending ← serve arguments
  ending.output.forM IO.println
  ending.complaint.forM IO.eprintln
  return ending.code.toUInt32
