import ServiceBroker.Proofs.Broker.Alone
import ServiceBroker.Proofs.Broker.Move
import ServiceBroker.Proofs.Job.Commands

/-! What is left of a world after some work, as long as no call of the store fails. What is read is
what stands in the records, what is written stands there afterwards, and the runs of the tool are
noted. A call for a job looks at the record and is refused, or it marks the deployment and starts
the job. -/

namespace ServiceBroker

namespace World

variable {world middle after : World} {calls later : List ToolCall} {records written : Records}
  {tasks more : List Task} {id : String} {record : Record}

/-- The records, without anybody who works on them. -/
def traffic (world : World) : Traffic where
  records := world.store.records

/-- No call of the store is about to fail. -/
def Calm (world : World) : Prop :=
  world.store.faults = []

/-- The world after some more runs of the tool, with other records and some more jobs. No call of
the store is about to fail. -/
structure Leaves (world after : World) (calls : List ToolCall) (records : Records)
    (tasks : List Task) : Prop where
  calm : after.Calm
  settings : after.settings = world.settings
  tool : after.tool = { world.tool with calls := world.tool.calls ++ calls }
  records : after.store.records = records
  tasks : after.tasks = world.tasks ++ tasks
  queue : after.queue = world.queue

theorem Calm.leaves_self (calm : world.Calm) : world.Leaves world [] world.store.records [] :=
  ⟨calm, rfl, by rw [List.append_nil], rfl, by rw [List.append_nil], rfl⟩

theorem Leaves.trans (first : world.Leaves middle calls records tasks)
    (second : middle.Leaves after later written more) :
    world.Leaves after (calls ++ later) written (tasks ++ more) where
  calm := second.calm
  settings := second.settings.trans first.settings
  tool := by rw [second.tool, first.tool, List.append_assoc]
  records := second.records
  tasks := by rw [second.tasks, first.tasks, List.append_assoc]
  queue := second.queue.trans first.queue

/-- Where all jobs that were started have ended, no job is at work. -/
theorem Leaves.atRest (leaves : world.Leaves after calls records tasks) (rest : world.AtRest)
    (ended : ∀ task ∈ tasks, ∃ outcome, task.state = .ended outcome) : after.AtRest where
  ended task member := by
    rw [leaves.tasks] at member
    exact (List.mem_append.mp member).elim (rest.ended task) (ended task)
  queue := leaves.queue.trans rest.queue

/-- A calm store answers from its records. -/
theorem Calm.answer (calm : world.Calm) (call : StoreCall) :
    (world.callStore call).1 = (world.store.records.answer call).1 ∧
      world.Leaves (world.callStore call).2 [] (world.store.records.answer call).2 [] := by
  have hAnswer : world.store.answer call =
      ((world.store.records.answer call).1,
        { world.store with
          records := (world.store.records.answer call).2
          log := world.store.log ++ [call.method ++ " " ++ call.subject] }) := by
    have hFaults : world.store.faults = [] := calm
    simp [WatchedStore.answer, WatchedStore.count, hFaults]
  have hCalm : (world.callStore call).2.store.faults = world.store.faults :=
    congrArg (fun answered => answered.2.faults) hAnswer
  have hRecords : (world.callStore call).2.store.records = (world.store.records.answer call).2 :=
    congrArg (fun answered => answered.2.records) hAnswer
  exact ⟨congrArg Prod.fst hAnswer, hCalm.trans calm, rfl, calm.leaves_self.tool, hRecords,
    calm.leaves_self.tasks, rfl⟩

/-- What is read is what stands in the records. -/
theorem Calm.reads (calm : world.Calm) (id : String) :
    (world.callStore (.get id)).1 = world.traffic.found id ∧
      world.Leaves (world.callStore (.get id)).2 [] world.store.records [] := by
  have hAnswer := calm.answer (.get id)
  have hFound : world.store.records.answer (.get id) =
      (world.traffic.found id, world.store.records) :=
    (Traffic.found_eq_answer world.traffic id).symm
  rwa [hFound] at hAnswer

theorem Calm.reads_of_get? (calm : world.Calm) (h : world.store.records.get? id = some record) :
    (world.callStore (.get id)).1 = .ok record ∧
      world.Leaves (world.callStore (.get id)).2 [] world.store.records [] := by
  have hReads := calm.reads id
  rwa [Traffic.found_of_get? h] at hReads

/-- What is written stands in the records. -/
theorem Calm.writes (calm : world.Calm) (record : Record) :
    (world.callStore (.put record)).1 = .ok () ∧
      world.Leaves (world.callStore (.put record)).2 []
        (world.store.records.put record.id record) [] :=
  calm.answer (.put record)

/-- A run of the tool is noted. -/
theorem Calm.runs (calm : world.Calm) (run : ToolRun) :
    world.Leaves (serve (.tool run) world).2 [⟨run.command, run.version⟩] world.store.records [] :=
  ⟨calm, rfl, rfl, rfl, calm.leaves_self.tasks, rfl⟩

theorem Leaves.found (leaves : world.Leaves after calls world.store.records tasks) (id : String) :
    after.traffic.found id = world.traffic.found id := by
  rw [Traffic.found, Traffic.found, traffic, traffic, leaves.records]

theorem Leaves.scripted (leaves : world.Leaves after calls records tasks)
    {exchange : Exchange jobInterface} (h : exchange.Scripted after.tool) :
    exchange.Scripted world.tool := by
  rw [leaves.tool] at h
  exact h

/-- What a program comes to once a call of the store was answered. -/
theorem run_store {α : Type} {call : StoreCall} {answer : call.Answer}
    {next : call.Answer → JobProgram α} (h : (world.callStore call).1 = answer) :
    Program.run serve (.ask (I := jobInterface) (.store call) next) world =
      (next answer).run serve (world.callStore call).2 := by
  rw [← h]
  rfl

section Foreground

variable {α β : Type}

/-- The second part of some work begins where the first one ended. -/
theorem work_bind (first : BrokerProgram α) (next : α → BrokerProgram β) (world : World) :
    world.work none (Program.bind first next) =
      (world.work none first).2.work none (next (world.work none first).1) := by
  induction first generalizing world with
  | done value => rfl
  | ask request after ih =>
      cases request with
      | job request =>
          cases request with
          | store call | now => exact ih _ _
          | tool run => exact ih _ _
      | start id job | join handle => exact ih _ _

/-- What work comes to once a call of the store was answered. -/
theorem work_store {call : StoreCall} {answer : call.Answer} {next : call.Answer → BrokerProgram α}
    (h : (world.callStore call).1 = answer) :
    world.work none (.ask (I := brokerInterface) (.job (.store call)) next) =
      (world.callStore call).2.work none (next answer) := by
  rw [← h]
  rfl

end Foreground

/-- A call that is refused has done nothing but look. -/
theorem Calm.work_dispatch_refused (calm : world.Calm) {e : BrokerError}
    (refused : admission id (world.traffic.found id) = .error e) (job : Job) :
    ∃ after, world.work none (dispatch id job).run = (.error e, after) ∧
      world.Leaves after [] world.store.records [] := by
  obtain ⟨hRead, first⟩ := calm.reads id
  refine ⟨_, ?_, first⟩
  rw [dispatch_run, work_store hRead, refused]
  rfl

/-- A call that is admitted marks the deployment and starts the job. -/
theorem Calm.work_dispatch (calm : world.Calm) (h : world.store.records.get? id = some record)
    (key : record.id = id) (idle : admission id (.ok record) = .ok ()) (job : Job) :
    ∃ now middle, world.work none (dispatch id job).run =
        (.ok (middle.start id job).1, (middle.start id job).2) ∧
      world.Leaves middle [] (world.store.records.put id (record.started job.operation now))
        [] := by
  obtain ⟨hRead, first⟩ := calm.reads_of_get? h
  rw [dispatch_run, work_store hRead, idle]
  generalize (world.callStore (.get id)).2 = looked at first
  have hFound : looked.store.records.get? id = some record := by rw [first.records, h]
  obtain ⟨hReread, second⟩ := first.calm.reads_of_get? hFound
  have hAdmitted := first.trans second
  rw [first.records] at hAdmitted
  generalize hMarking : (looked.callStore (.get id)).2 = marking at hAdmitted
  let now := marking.clock marking.time
  let started := record.started job.operation now
  obtain ⟨hWritten, third⟩ := hAdmitted.calm.writes started
  have hRecords : marking.store.records.put started.id started =
      world.store.records.put id started := by
    rw [hAdmitted.records, Record.started_id, key]
  rw [hRecords] at third
  refine ⟨now, (marking.callStore (.put started)).2, ?_, hAdmitted.trans third⟩
  have hMarked : marking.work none (writing id job record now) =
      (marking.callStore (.put started)).2.work none (starting id job) := work_store hWritten
  change looked.work none (admitted id job).run = _
  rw [admitted_run, work_store hReread, hMarking]
  exact hMarked

end World

end ServiceBroker
