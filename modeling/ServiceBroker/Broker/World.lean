import ServiceBroker.Broker.Rehearsal
import ServiceBroker.Job.Dispatch

/-!
A broker at work, with the jobs in its background and a clock of its own.

Work in the foreground runs until it has to wait. Then every job that can go on does so, in the
order in which they became ready, up to its next wait or its end; when none can, the clock moves on
to the next moment at which one of them or the foreground can. So whatever takes no time happens
at once, and nothing happens in the background while the foreground does not wait.
-/

namespace ServiceBroker

/-- A run of the tool that takes time. -/
structure OngoingRun where
  run : ToolRun
  /-- Why it will fail, if it will. -/
  reason : Option String
  /-- The time at which it ends. -/
  due : Nat

/-- How a job in the background stands. -/
inductive TaskState where
  /-- It has not begun. -/
  | ready (program : JobProgram (Except BrokerError Unit))
  /-- It waits for the tool. -/
  | busy (ongoing : OngoingRun)
    (next : Except BrokerError ToolReport → JobProgram (Except BrokerError Unit))
  | ended (outcome : Except BrokerError Unit)

/-- A job in the background. -/
structure Task where
  id : String
  job : Job
  isCancelled : Bool := false
  state : TaskState

/-- A broker at work. -/
structure World where
  settings : UpgradeSettings
  store : WatchedStore := {}
  tool : ScriptedTool := {}
  /-- Milliseconds since the beginning. -/
  time : Nat := 0
  /-- The moment that the clock shows after so many milliseconds. -/
  clock : Nat → Timestamp
  /-- The jobs by their numbers. -/
  tasks : List Task := []
  /-- The numbers of the jobs that can go on, in the order in which they became ready. -/
  queue : List Nat := []

namespace World

/-- What is answered to a run of the tool in a job that is cancelled. -/
def cancelledRun : Except BrokerError ToolReport :=
  .error (.job .cancelled)

/-- The end of a run. What the script says of outputs counts as it stands then. -/
def conclude (world : World) (ongoing : OngoingRun) : Except BrokerError ToolReport :=
  world.tool.conclude ongoing.run ongoing.reason

/-- Notes a run of the tool, which ends when its time has passed. -/
def begin (world : World) (run : ToolRun) : OngoingRun × World :=
  ({ run, reason := world.tool.reason? run, due := world.time + world.tool.delay run },
    { world with tool := world.tool.noted run })

def callStore (world : World) (call : StoreCall) : call.Answer × World :=
  let (answer, store) := world.store.answer call
  (answer, { world with store })

/-- Runs a job until it has to wait for the tool or ends. -/
def advance (isCancelled : Bool) :
    JobProgram (Except BrokerError Unit) → World → TaskState × World
  | .done outcome, world => (.ended outcome, world)
  | .ask (.store call) next, world =>
    let (answer, world) := world.callStore call
    advance isCancelled (next answer) world
  | .ask .now next, world => advance isCancelled (next (world.clock world.time)) world
  | .ask (.tool run) next, world =>
    if isCancelled then advance isCancelled (next cancelledRun) world
    else
      let (ongoing, world) := world.begin run
      if ongoing.due ≤ world.time then
        advance isCancelled (next (world.conclude ongoing)) world
      else (.busy ongoing next, world)

/-- Lets a job go on that is ready, that is cancelled, or whose run of the tool has ended. -/
def resume (world : World) (task : Task) : TaskState × World :=
  match task.state with
  | .ready program => advance task.isCancelled program world
  | .busy ongoing next =>
    if task.isCancelled then advance true (next cancelledRun) world
    else if ongoing.due ≤ world.time then advance false (next (world.conclude ongoing)) world
    else (.busy ongoing next, world)
  | .ended outcome => (.ended outcome, world)

/-- Lets the job with a number go on. -/
def resumeAt (world : World) (handle : Nat) : World :=
  match world.tasks[handle]? with
  | none => world
  | some task =>
    let (state, world) := world.resume task
    { world with tasks := world.tasks.set handle { task with state } }

/-- When the run of the tool ends that a job waits for. -/
def Task.due? (task : Task) : Option Nat :=
  match task.state with
  | .busy ongoing _ => some ongoing.due
  | _ => none

/-- The jobs whose runs of the tool have ended in the meantime. -/
def dueNow (world : World) : List Nat :=
  (List.range world.tasks.length).filter fun handle =>
    ((world.tasks[handle]?).bind Task.due?).any (· ≤ world.time) && !world.queue.contains handle

/-- Lets every job go on that can. -/
def settle (world : World) : World :=
  (world.queue ++ world.dueNow).foldl resumeAt { world with queue := [] }

/-- The next time at which a run of the tool ends in the background. -/
def nextDue? (world : World) : Option Nat :=
  (world.tasks.filterMap Task.due?).min?

/-- Lets the background run until `stop` holds or the time is `limit`. Every round but the last ends
a run of the tool, and `rounds` are more than there can be. -/
def runUntil (stop : World → Bool) (limit : Option Nat) : (rounds : Nat) → World → World
  | 0, world => world
  | rounds + 1, world =>
    let world := world.settle
    if stop world then world
    else
      match limit, world.nextDue? with
      | none, none => world
      | some limit, none => { world with time := limit }
      | none, some due => runUntil stop limit rounds { world with time := due }
      | some limit, some due =>
        if limit ≤ due then { world with time := limit }
        else runUntil stop (some limit) rounds { world with time := due }

/-- More rounds than there are runs of the tool in all jobs. No job runs it more often than once for
each version of the path and four times besides. -/
def manyRounds (world : World) : Nat :=
  world.tasks.length * (world.settings.path.length + 4) + 1

def waitUntil (world : World) (time : Nat) : World :=
  if time ≤ world.time then world
  else world.runUntil (fun _ => false) (some time) world.manyRounds

/-- Waits in the foreground for some milliseconds. -/
def sleep (world : World) (duration : Nat) : World :=
  world.waitUntil (world.time + duration)

/-- How a job ended, if it has. -/
def outcome? (world : World) (handle : Nat) : Option (Except BrokerError Unit) :=
  match world.tasks[handle]? with
  | some { state := .ended outcome, .. } => some outcome
  | _ => none

/-- Waits in the foreground until a job has ended. -/
def join (world : World) (handle : Nat) : Except BrokerError Unit × World :=
  let world :=
    if (world.outcome? handle).isSome then world
    else world.runUntil (fun world => (world.outcome? handle).isSome) none world.manyRounds
  ((world.outcome? handle).getD (.error (.job (.taskFailed "no such job"))), world)

def start (world : World) (id : String) (job : Job) : Nat × World :=
  let handle := world.tasks.length
  (handle, { world with
    tasks := world.tasks ++ [{ id, job, state := .ready (job.task world.settings id) }]
    queue := world.queue ++ [handle] })

/-- Asks a job to stop. It learns of it when it next goes on. -/
def cancel (world : World) (handle : Nat) : World :=
  match world.tasks[handle]? with
  | none => world
  | some task =>
    let queue := match task.state with
      | .busy .. => if world.queue.contains handle then world.queue else world.queue ++ [handle]
      | _ => world.queue
    { world with tasks := world.tasks.set handle { task with isCancelled := true }, queue }

/-- The work in the foreground is to stop. -/
def isPast (world : World) (cancelAt : Option Nat) : Bool :=
  cancelAt.any (· ≤ world.time)

/-- Waits in the foreground for a run of the tool, or until it is to stop. -/
def await (world : World) (cancelAt : Option Nat) (ongoing : OngoingRun) :
    Except BrokerError ToolReport × World :=
  let world := world.waitUntil (cancelAt.elim ongoing.due (min ongoing.due))
  if world.isPast cancelAt then (cancelledRun, world) else (world.conclude ongoing, world)

/-- Works in the foreground. Its runs of the tool stop at a time, if one is given. -/
def work {α : Type} (cancelAt : Option Nat) : BrokerProgram α → World → α × World
  | .done value, world => (value, world)
  | .ask (.job (.store call)) next, world =>
    let (answer, world) := world.callStore call
    work cancelAt (next answer) world
  | .ask (.job .now) next, world => work cancelAt (next (world.clock world.time)) world
  | .ask (.job (.tool run)) next, world =>
    if world.isPast cancelAt then work cancelAt (next cancelledRun) world
    else
      let (ongoing, world) := world.begin run
      let (answer, world) := world.await cancelAt ongoing
      work cancelAt (next answer) world
  | .ask (.start id job) next, world =>
    let (handle, world) := world.start id job
    work cancelAt (next handle) world
  | .ask (.join handle) next, world =>
    let (outcome, world) := world.join handle
    work cancelAt (next outcome) world

/-- One round of a wait in the foreground. -/
def waitRound (id : String) (waiting : Waiting) : World → Waiting.Stage × World :=
  waiting.round (m := StateM World) (fun duration world => (false, world.sleep duration))
    (work none (JobProgram.toBroker (pollStatus id).run))

/-- Waits in the foreground for the operation on a deployment, for so many rounds at most: a wait may
go on for ever. -/
def wait (id : String) : (rounds : Nat) → Waiting → World → Waiting.Stage × World
  | 0, waiting, world => (.goesOn waiting, world)
  | rounds + 1, waiting, world =>
    match world.waitRound id waiting with
    | (.over outcome, world) => (.over outcome, world)
    | (.goesOn waiting, world) => wait id rounds waiting world

/-- A wait that is over is the same with more rounds. -/
theorem wait_of_over {id : String} {rounds : Nat} {waiting : Waiting} {world after : World}
    {outcome : Except BrokerError Unit}
    (h : world.wait id rounds waiting = (.over outcome, after)) (more : Nat) :
    world.wait id (rounds + more) waiting = (.over outcome, after) := by
  induction rounds generalizing waiting world with
  | zero => cases h
  | succ rounds ih =>
      rw [Nat.succ_add, wait]
      rw [wait] at h
      match world.waitRound id waiting, h with
      | (.over _, _), h => exact h
      | (.goesOn _, _), h => exact ih h

end World

end ServiceBroker
