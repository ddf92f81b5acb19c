import ServiceBroker.Broker.World
import ServiceBroker.Proofs.Job.Requests

/-! Calls and background jobs that share a table of records. Every call of `dispatch` and every job
is a program of its own; at any moment one of them, whichever it is, makes its next request. A
single request is answered at once, so the records change between any two requests of a call or a
job, but never within one. The clock may show any moment, and the tool may give any answer that it
is allowed to. -/

namespace ServiceBroker

/-- What the tool may answer to a run. -/
abbrev ToolBehavior := ToolRun → Except BrokerError ToolReport → Prop

/-- The end of a program that has ended. -/
def Program.value? {I : Interface} {α : Type} : Program I α → Option α
  | .done value => some value
  | .ask _ _ => none

namespace Traffic

/-- A call that asks for a job on a deployment, and what is left of it. -/
structure Call where
  id : String
  job : Job
  rest : BrokerProgram (Except BrokerError Nat)

/-- A job in the background: whether it was told to stop, what it asked and was answered, and what
is left of it. -/
structure Activity where
  id : String
  job : Job
  isCancelled : Bool := false
  log : List (Exchange jobInterface) := []
  rest : JobProgram (Except BrokerError Unit)

/-- A call that has asked nothing yet. -/
def Call.arriving (id : String) (job : Job) : Call :=
  { id, job, rest := (dispatch id job).run }

/-- A job that has asked nothing yet. -/
def Activity.starting (settings : UpgradeSettings) (id : String) (job : Job) : Activity :=
  { id, job, rest := job.task settings id }

/-- The call with what is left once it was answered. -/
def Call.goOn (call : Call) (rest : BrokerProgram (Except BrokerError Nat)) : Call :=
  { call with rest }

/-- The job with one more request answered. -/
def Activity.goOn (work : Activity) (request : JobRequest) (reply : request.Reply)
    (rest : JobProgram (Except BrokerError Unit)) : Activity :=
  { work with log := work.log ++ [⟨request, reply⟩], rest }

/-- The number of the job that a call started, or why it started none, once the call has ended. -/
def Call.outcome? (call : Call) : Option (Except BrokerError Nat) :=
  call.rest.value?

/-- What whoever joins a job is told, once it has ended. -/
def Activity.outcome? (work : Activity) : Option (Except BrokerError Unit) :=
  work.rest.value?

end Traffic

/-- The records of a broker, the calls that were made, and the jobs that were started. -/
structure Traffic where
  records : Records
  calls : List Traffic.Call := []
  jobs : List Traffic.Activity := []

namespace Traffic

/-- How a request may be answered, and what it does to the records. A run of the tool is abandoned
if the job was told to stop. -/
def Answered (tool : ToolBehavior) (isCancelled : Bool) (before after : Records) :
    (request : JobRequest) → request.Reply → Prop
  | .store call, answer => (answer, after) = before.answer call
  | .now, _ => after = before
  | .tool run, answer =>
    after = before ∧ if isCancelled then answer = World.cancelledRun else tool run answer

/-- One thing that can happen: a call comes in, a call or a job makes its next request, a call
starts its job, or a job is told to stop. -/
inductive Step (settings : UpgradeSettings) (tool : ToolBehavior) : Traffic → Traffic → Prop where
  | arrive (t : Traffic) (id : String) (job : Job) :
      Step settings tool t { t with calls := t.calls ++ [.arriving id job] }
  | call {t : Traffic} {n : Nat} {call : Call} {request : JobRequest}
      {next : request.Reply → BrokerProgram (Except BrokerError Nat)} {reply : request.Reply}
      {after : Records} (member : t.calls[n]? = some call)
      (asks : call.rest = .ask (.job request) next)
      (answered : Answered tool false t.records after request reply) :
      Step settings tool t
        { t with records := after, calls := t.calls.set n (call.goOn (next reply)) }
  | start {t : Traffic} {n : Nat} {call : Call} {id : String} {job : Job}
      {next : Nat → BrokerProgram (Except BrokerError Nat)} (member : t.calls[n]? = some call)
      (asks : call.rest = .ask (.start id job) next) :
      Step settings tool t
        { t with
          calls := t.calls.set n (call.goOn (next t.jobs.length))
          jobs := t.jobs ++ [.starting settings id job] }
  | job {t : Traffic} {n : Nat} {work : Activity} {request : JobRequest}
      {next : request.Reply → JobProgram (Except BrokerError Unit)} {reply : request.Reply}
      {after : Records} (member : t.jobs[n]? = some work) (asks : work.rest = .ask request next)
      (answered : Answered tool work.isCancelled t.records after request reply) :
      Step settings tool t
        { t with
          records := after
          jobs := t.jobs.set n (work.goOn request reply (next reply)) }
  | cancel {t : Traffic} {n : Nat} {work : Activity} (member : t.jobs[n]? = some work) :
      Step settings tool t { t with jobs := t.jobs.set n { work with isCancelled := true } }

/-- One thing after another, such that after each of them `limit` holds. -/
inductive Run (settings : UpgradeSettings) (tool : ToolBehavior) (limit : Traffic → Prop) :
    Traffic → Traffic → Prop where
  | refl (t : Traffic) : Run settings tool limit t t
  | tail {s t u : Traffic} (prior : Run settings tool limit s t) (last : Step settings tool t u)
      (within : limit u) : Run settings tool limit s u

/-- The call has found the deployment idle, and has not marked it yet. -/
inductive Call.InWindow (call : Call) : Prop where
  | admitted (h : call.rest = (ServiceBroker.admitted call.id call.job).run)
  | marking (record : Record) (h : call.rest = ServiceBroker.marking call.id call.job record)
  | writing (record : Record) (now : Timestamp)
      (h : call.rest = ServiceBroker.writing call.id call.job record now)

/-- No two calls on a deployment stand between finding it idle and marking it. -/
def Separate (id : String) (t : Traffic) : Prop :=
  ∀ (m n : Nat) (first second : Call), t.calls[m]? = some first → t.calls[n]? = some second →
    first.id = id → second.id = id → first.InWindow → second.InWindow → m = n

/-- What joining a job gives, once the job has ended. -/
def outcome? (t : Traffic) (handle : Nat) : Option (Except BrokerError Unit) :=
  (t.jobs[handle]?).bind Activity.outcome?

end Traffic

end ServiceBroker
