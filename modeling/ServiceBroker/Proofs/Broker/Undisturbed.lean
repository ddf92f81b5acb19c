import ServiceBroker.Proofs.Broker.Exclusion

/-! Calls and jobs that nobody disturbs. A call that has found its deployment idle can go on up to
its end without a break, and so can the job that it starts, in whichever way its requests may be
answered. -/

namespace ServiceBroker

namespace Traffic

variable {settings : UpgradeSettings} {tool : ToolBehavior} {t u v : Traffic} {id : String}
  {limit : Traffic → Prop}

theorem Run.trans (first : Run settings tool limit t u) (second : Run settings tool limit u v) :
    Run settings tool limit t v := by
  induction second with
  | refl => exact first
  | tail _ last within ih => exact .tail ih last within

theorem Run.mono {wider : Traffic → Prop} (run : Run settings tool limit t u)
    (h : ∀ v, limit v → wider v) : Run settings tool wider t u := by
  induction run with
  | refl => exact .refl _
  | tail _ last within ih => exact .tail ih last (h _ within)

theorem Step.run (step : Step settings tool t u) (within : limit u) :
    Run settings tool limit t u :=
  .tail (.refl t) step within

/-- However far the call goes, and whatever happens to records and jobs, the limit holds. -/
def GoesWithin (limit : Traffic → Prop) (t : Traffic) (n : Nat) (call : Call) : Prop :=
  ∀ records rest jobs, limit { records, calls := t.calls.set n (call.goOn rest), jobs }

/-- The call has ended, and its job has begun. -/
def launched (settings : UpgradeSettings) (t : Traffic) (n : Nat) (call : Call)
    (records : Records) : Traffic where
  records := records
  calls := t.calls.set n (call.goOn (.done (.ok t.jobs.length)))
  jobs := t.jobs ++ [.starting settings call.id call.job]

theorem answered_get {record : Record} (hFound : t.records.get? id = some record) :
    Answered tool false t.records t.records (.store (.get id)) (.ok record) := by
  rw [Answered, ← found_eq_answer, found_of_get? hFound]

/-- A call that finds its deployment idle goes on. -/
theorem step_allow {n : Nat} {call : Call} {record : Record} (member : t.calls[n]? = some call)
    (h : call.rest = (dispatch call.id call.job).run)
    (hFound : t.records.get? call.id = some record)
    (idle : admission call.id (.ok record) = .ok ()) :
    Step settings tool t
      { t with calls := t.calls.set n (call.goOn (admitted call.id call.job).run) } := by
  rw [dispatch_run] at h
  have hStep : Step settings tool t _ := .call member h (answered_get hFound)
  simpa only [idle] using hStep

/-- Where the call stood before it went on makes no difference. -/
theorem launched_set (t : Traffic) (n : Nat) (call : Call) (records after : Records)
    (rest : BrokerProgram (Except BrokerError Nat)) :
    launched settings { t with records, calls := t.calls.set n (call.goOn rest) } n
      (call.goOn rest) after = launched settings t n call after := by
  simp [launched, Call.goOn, List.set_set]

theorem GoesWithin.set {n : Nat} {call : Call} (within : GoesWithin limit t n call)
    (records : Records) (rest : BrokerProgram (Except BrokerError Nat)) :
    GoesWithin limit { t with records, calls := t.calls.set n (call.goOn rest) } n
      (call.goOn rest) := by
  intro records rest jobs
  simpa [Call.goOn, List.set_set] using within records rest jobs

theorem run_of_starting {n : Nat} {call : Call} (member : t.calls[n]? = some call)
    (h : call.rest = starting call.id call.job) (within : GoesWithin limit t n call) :
    Run settings tool limit t (launched settings t n call t.records) :=
  Step.run (.start member h) (within _ _ _)

/-- A call makes a request and goes on to its end from there. -/
theorem run_of_request {n : Nat} {call : Call} {request : JobRequest}
    {next : request.Reply → BrokerProgram (Except BrokerError Nat)} {reply : request.Reply}
    {after last : Records} (member : t.calls[n]? = some call)
    (asks : call.rest = .ask (.job request) next)
    (answered : Answered tool false t.records after request reply)
    (within : GoesWithin limit t n call)
    (later : ∀ u : Traffic, u.records = after → u.calls[n]? = some (call.goOn (next reply)) →
      GoesWithin limit u n (call.goOn (next reply)) →
      Run settings tool limit u (launched settings u n (call.goOn (next reply)) last)) :
    Run settings tool limit t (launched settings t n call last) := by
  have hLength := (List.getElem?_eq_some_iff.mp member).1
  have hStep : Step settings tool t _ := .call member asks answered
  have hRest := later { t with records := after, calls := t.calls.set n (call.goOn (next reply)) }
    rfl (List.getElem?_set_self hLength) (within.set after (next reply))
  rw [launched_set] at hRest
  exact (hStep.run (within _ _ _)).trans hRest

theorem run_of_writing {n : Nat} {call : Call} {record : Record} {now : Timestamp}
    (member : t.calls[n]? = some call) (h : call.rest = writing call.id call.job record now)
    (within : GoesWithin limit t n call) :
    Run settings tool limit t (launched settings t n call
      (t.records.put record.id (record.started call.job.operation now))) := by
  refine run_of_request member h rfl within fun u hRecords hNext within => ?_
  have hRun : Run settings tool limit u _ := run_of_starting hNext rfl within
  rwa [hRecords] at hRun

theorem run_of_marking {n : Nat} {call : Call} {record : Record}
    (member : t.calls[n]? = some call) (h : call.rest = marking call.id call.job record)
    (now : Timestamp) (within : GoesWithin limit t n call) :
    Run settings tool limit t (launched settings t n call
      (t.records.put record.id (record.started call.job.operation now))) := by
  have hAnswered : Answered tool false t.records t.records .now now := rfl
  refine run_of_request member h hAnswered within fun u hRecords hNext within => ?_
  rw [← hRecords]
  exact run_of_writing hNext rfl within

theorem run_of_admitted {n : Nat} {call : Call} {record : Record}
    (member : t.calls[n]? = some call) (h : call.rest = (admitted call.id call.job).run)
    (hFound : t.records.get? call.id = some record) (now : Timestamp)
    (within : GoesWithin limit t n call) :
    Run settings tool limit t (launched settings t n call
      (t.records.put record.id (record.started call.job.operation now))) := by
  rw [admitted_run] at h
  refine run_of_request member h (answered_get hFound) within fun u hRecords hNext within => ?_
  rw [← hRecords]
  exact run_of_marking hNext rfl now within

/-- A job goes on as long as its requests leave the records alone. -/
theorem run_of_passes {n : Nat} {work : Activity} {log : List (Exchange jobInterface)}
    {rest : JobProgram (Except BrokerError Unit)} (member : t.jobs[n]? = some work)
    (passes : work.rest.Passes log rest)
    (answered : ∀ exchange ∈ log,
      Answered tool work.isCancelled t.records t.records exchange.request exchange.reply)
    (within : ∀ jobs, limit { t with jobs }) :
    Run settings tool limit t
      { t with jobs := t.jobs.set n { work with log := work.log ++ log, rest } } := by
  generalize hProgram : work.rest = program at passes
  induction passes generalizing t work with
  | refl =>
      obtain ⟨hLength, hGet⟩ := List.getElem?_eq_some_iff.mp member
      have hSame : t.jobs.set n work = t.jobs := by
        rw [← hGet]
        exact List.set_getElem_self hLength
      subst hProgram
      rw [List.append_nil]
      change Run settings tool limit t { t with jobs := t.jobs.set n work }
      rw [hSame]
      exact .refl t
  | @ask request next reply log rest later ih =>
      have hLength := (List.getElem?_eq_some_iff.mp member).1
      let work' := work.goOn request reply (next reply)
      let t' : Traffic := { t with records := t.records, jobs := t.jobs.set n work' }
      have hStep : Step settings tool t t' :=
        .job member hProgram (answered ⟨request, reply⟩ (by simp))
      have hNext : t'.jobs[n]? = some work' := List.getElem?_set_self hLength
      have hRest := ih hNext (fun exchange h => answered exchange (by simp [h])) within rfl
      have hFirst : Run settings tool limit t t' := hStep.run (within _)
      have hRun := hFirst.trans hRest
      simpa [t', work', Activity.goOn, List.set_set] using hRun

/-- One call alone cannot be in the way of another one. -/
theorem separate_of_others {n : Nat}
    (others : ∀ m call, t.calls[m]? = some call → m ≠ n → ¬call.InWindow) : Separate id t := by
  have hAlone {m : Nat} {call : Call} (h : t.calls[m]? = some call) (hWindow : call.InWindow) :
      m = n :=
    Decidable.byContradiction fun hSlot => others m call h hSlot hWindow
  intro first second one two hFirst hSecond _ _ hOne hTwo
  rw [hAlone hFirst hOne, hAlone hSecond hTwo]

/-- If no call is on the way to mark a deployment, none is in the way of another one. -/
theorem separate_of_alone (alone : ∀ call ∈ t.calls, ¬call.InWindow) (id : String) :
    Separate id t :=
  separate_of_others (n := 0) fun _ _ hGet _ => alone _ (List.mem_of_getElem? hGet)

/-- A call for a job has come in and has ended, and the job is about to begin. -/
def called (settings : UpgradeSettings) (t : Traffic) (record : Record) (job : Job)
    (now : Timestamp) : Traffic where
  records := t.records.put record.id (record.started job.operation now)
  calls := t.calls ++ [{ id := record.id, job, rest := .done (.ok t.jobs.length) }]
  jobs := t.jobs ++ [.starting settings record.id job]

theorem get?_called (settings : UpgradeSettings) (t : Traffic) (record : Record) (job : Job)
    (now : Timestamp) :
    (called settings t record job now).records.get? record.id =
      some (record.started job.operation now) :=
  Fields.get?_put_self ..

theorem alone_called {record : Record} {job : Job} {now : Timestamp}
    (alone : ∀ call ∈ t.calls, ¬call.InWindow) :
    ∀ call ∈ (called settings t record job now).calls, ¬call.InWindow :=
  List.forall_mem_append.mpr ⟨alone, by simpa using not_inWindow_of_done rfl⟩

theorem starting_called (settings : UpgradeSettings) (t : Traffic) (record : Record) (job : Job)
    (now : Timestamp) :
    (called settings t record job now).jobs[t.jobs.length]? =
      some (.starting settings record.id job) :=
  List.getElem?_concat_length

/-- A call that comes in while nobody else is on the way to mark a deployment can go on to its
end. -/
theorem run_of_call {record : Record} (alone : ∀ call ∈ t.calls, ¬call.InWindow) (job : Job)
    (hFound : t.records.get? record.id = some record)
    (idle : admission record.id (.ok record) = .ok ()) (now : Timestamp) :
    Run settings tool (fun t => ∀ id, Separate id t) t (called settings t record job now) := by
  let n := t.calls.length
  let call : Call := .arriving record.id job
  let looked : Call := call.goOn (admitted record.id job).run
  let come : Traffic := { t with calls := t.calls ++ [call] }
  let next : Traffic := { come with records := t.records, calls := come.calls.set n looked }
  have others : ∀ m other, come.calls[m]? = some other → m ≠ n → ¬other.InWindow := by
    intro m other hOther hSlot
    rcases getElem?_concat_cases hOther with ⟨rfl, -⟩ | hOld
    · exact (hSlot rfl).elim
    · exact alone other (List.mem_of_getElem? hOld)
  have within : GoesWithin (fun t => ∀ id, Separate id t) come n call := by
    intro records rest jobs id
    refine separate_of_others (n := n) fun m other hOther hSlot => ?_
    rcases getElem?_set_cases hOther with ⟨hSame, -⟩ | ⟨-, hOld⟩
    · exact (hSlot hSame).elim
    · exact others m other hOld hSlot
  have hCome : Run settings tool (fun t => ∀ id, Separate id t) t come :=
    Step.run (.arrive t record.id job) fun _ => separate_of_others others
  have hCall : come.calls[n]? = some call := by simp [come, n]
  have hNext : next.calls[n]? = some looked := by simp [next, come, n]
  have hLooked : Step settings tool come next := step_allow hCall rfl hFound idle
  have hRest : Run settings tool (fun t => ∀ id, Separate id t) next _ :=
    run_of_admitted hNext rfl hFound now (within.set t.records (admitted record.id job).run)
  rw [launched_set] at hRest
  have hRun := (hCome.trans (hLooked.run (within _ _ _))).trans hRest
  simpa [called, launched, looked, come, call, n, Call.goOn, Call.arriving, next] using hRun

/-- In whichever way a job can run, it can run in the background, up to where it writes its
outcome. -/
theorem run_of_storing {n : Nat} {record : Record} {job : Job} {isCancelled : Bool}
    {log : List (Exchange jobInterface)} {result : JobResult}
    (member : t.jobs[n]? = some { Activity.starting settings id job with isCancelled })
    (hFound : t.records.get? id = some record)
    (passes : (job.run settings id).Passes (.reading id record :: log) (.done result))
    (answered : ∀ exchange ∈ log,
      Answered tool isCancelled t.records t.records exchange.request exchange.reply)
    (now : Timestamp) (within : ∀ jobs, limit { t with jobs }) :
    Run settings tool limit t
      { t with
        jobs := t.jobs.set n
          { id, job, isCancelled
            log := .reading id record :: log ++ [.reading id record, .clock now]
            rest := storing result record now } } := by
  let log' := Exchange.reading id record :: log ++ [.reading id record, .clock now]
  have hEnd : ((recordOutcome id result).run).Passes [.reading id record, .clock now]
      (storing result record now) := by
    rw [recordOutcome_run]
    exact .ask (.ask (.refl _))
  have hPasses : ((Activity.starting settings id job).rest).Passes log'
      (storing result record now) :=
    (passes.bind fun result => (recordOutcome id result).run).trans hEnd
  have hRead : Answered tool isCancelled t.records t.records (.store (.get id)) (.ok record) := by
    rw [Answered, ← found_eq_answer, found_of_get? hFound]
  have hAnswered : ∀ exchange ∈ log',
      Answered tool isCancelled t.records t.records exchange.request exchange.reply := by
    intro exchange hMember
    simp only [log', List.mem_append, List.mem_cons, List.not_mem_nil, or_false] at hMember
    rcases hMember with (rfl | hMember) | rfl | rfl
    · exact hRead
    · exact answered exchange hMember
    · exact hRead
    · rfl
  exact run_of_passes member hPasses hAnswered within

/-- A job writes its outcome. -/
theorem step_of_storing {n : Nat} {work : Activity} {result : JobResult} {record : Record}
    {now : Timestamp} (member : t.jobs[n]? = some work) (h : work.rest = storing result record now) :
    Step settings tool t
      { t with
        records := t.records.put record.id (record.settled result now)
        jobs := t.jobs.set n
          { work with
            log := work.log ++ [.writing (record.settled result now)]
            rest := .done result.outcome } } := by
  have hWritten : Answered tool work.isCancelled t.records
      (t.records.put record.id (record.settled result now))
      (.store (.put (record.settled result now))) (.ok () : Except StoreError Unit) := by
    rw [Answered, Records.answer, Record.settled_id]
    rfl
  exact .job member h hWritten

variable (limit) in
/-- In whichever way a job can run, it can run in the background, and it comes to write its
outcome. -/
theorem exists_step_of_starting {n : Nat} {record : Record} {job : Job} {isCancelled : Bool}
    {log : List (Exchange jobInterface)} {result : JobResult}
    (member : t.jobs[n]? = some { Activity.starting settings id job with isCancelled })
    (hFound : t.records.get? id = some record) (key : record.id = id)
    (passes : (job.run settings id).Passes (.reading id record :: log) (.done result))
    (answered : ∀ exchange ∈ log,
      Answered tool isCancelled t.records t.records exchange.request exchange.reply)
    (now : Timestamp) (within : ∀ jobs, limit { t with jobs }) :
    ∃ (before after : Traffic) (work next : Activity),
      (Run settings tool limit t before ∧ Step settings tool before after) ∧
        (before.jobs = t.jobs.set n work ∧ after.jobs = t.jobs.set n next ∧
          after.calls = t.calls) ∧
        (work.id = id ∧ work.job = job ∧ work.outcome? = none ∧
          work.log = .reading id record :: log ++ [.reading id record, .clock now]) ∧
        (next.id = id ∧ next.job = job ∧ next.outcome? = some result.outcome ∧
          next.log = .reading id record :: log ++
            [.reading id record, .clock now, .writing (record.settled result now)]) ∧
        after.records.get? id = some (record.settled result now) := by
  subst key
  let work : Activity :=
    { id := record.id, job, isCancelled
      log := .reading record.id record :: log ++ [.reading record.id record, .clock now]
      rest := storing result record now }
  let next : Activity :=
    { work with
      log := work.log ++ [.writing (record.settled result now)]
      rest := .done result.outcome }
  let before : Traffic := { t with jobs := t.jobs.set n work }
  have hStored : Run settings tool limit t before :=
    run_of_storing member hFound passes answered now within
  have hWork : before.jobs[n]? = some work :=
    List.getElem?_set_self (List.getElem?_eq_some_iff.mp member).1
  exact ⟨before, _, work, next, ⟨hStored, step_of_storing hWork rfl⟩,
    ⟨rfl, List.set_set .., rfl⟩, ⟨rfl, rfl, rfl, rfl⟩, ⟨rfl, rfl, rfl, List.append_assoc ..⟩,
    Fields.get?_put_self ..⟩

/-- A call on an idle deployment and its job, one request after the other. -/
theorem exists_run_of_operation {record : Record} {job : Job} {now : Timestamp}
    {log : List (Exchange jobInterface)} {result : JobResult}
    (alone : ∀ call ∈ t.calls, ¬call.InWindow) (hFound : t.records.get? id = some record)
    (key : record.id = id) (idle : admission id (.ok record) = .ok ())
    (passes : (job.run settings id).Passes
      (.reading id (record.started job.operation now) :: log) (.done result))
    (answered : ∀ exchange ∈ log, ∀ records : Records,
      Answered tool false records records exchange.request exchange.reply) :
    ∃ (u : Traffic) (work : Activity), Run settings tool (Separate id) t u ∧
      (∀ call ∈ u.calls, ¬call.InWindow) ∧
      u.records.get? id = some ((record.started job.operation now).settled result now) ∧
      u.jobs = t.jobs ++ [work] ∧ work.id = id ∧ work.job = job ∧
      work.outcome? = some result.outcome ∧
      work.log = .reading id (record.started job.operation now) :: log ++
        [.reading id (record.started job.operation now), .clock now,
          .writing ((record.started job.operation now).settled result now)] := by
  subst key
  have hCall : Run settings tool (Separate record.id) t (called settings t record job now) :=
    (run_of_call alone job hFound idle now).mono fun _ separate => separate record.id
  have aside : ∀ call ∈ (called settings t record job now).calls, ¬call.InWindow :=
    alone_called alone
  obtain ⟨before, after, _, last, ⟨hStored, hStep⟩, ⟨-, hJobs, hCalls⟩, -,
      ⟨hId, hJob, hOutcome, hLog⟩, hSettled⟩ :=
    exists_step_of_starting (Separate record.id) (starting_called settings t record job now)
      (get?_called settings t record job now) rfl passes (fun exchange h => answered exchange h _)
      now fun _ => separate_of_alone aside record.id
  have gone : ∀ call ∈ after.calls, ¬call.InWindow := hCalls ▸ aside
  have hRun := (hCall.trans hStored).tail hStep (separate_of_alone gone record.id)
  exact ⟨after, last, hRun, gone, hSettled, hJobs.trans (by simp [called]), hId, hJob, hOutcome,
    hLog⟩

/-- A call on an idle deployment starts its job, which comes to write its outcome. The job may be
told to stop before it has begun. -/
theorem exists_step_of_operation (isCancelled : Bool) {record : Record} {job : Job}
    {now : Timestamp} {log : List (Exchange jobInterface)} {result : JobResult}
    (alone : ∀ call ∈ t.calls, ¬call.InWindow) (hFound : t.records.get? id = some record)
    (key : record.id = id) (idle : admission id (.ok record) = .ok ())
    (passes : (job.run settings id).Passes
      (.reading id (record.started job.operation now) :: log) (.done result))
    (answered : ∀ exchange ∈ log, ∀ records : Records,
      Answered tool isCancelled records records exchange.request exchange.reply) :
    ∃ (before after : Traffic) (work next : Activity),
      Run settings tool (fun _ => True) t before ∧ Step settings tool before after ∧
        before.jobs = t.jobs ++ [work] ∧ after.jobs = t.jobs ++ [next] ∧ work.job = job ∧
        work.id = id ∧ work.outcome? = none ∧ next.outcome? = some result.outcome ∧
        work.log = .reading id (record.started job.operation now) :: log ++
          [.reading id (record.started job.operation now), .clock now] ∧
        after.records.get? id = some ((record.started job.operation now).settled result now) := by
  subst key
  let told : Traffic :=
    { called settings t record job now with
      jobs := t.jobs ++ [{ Activity.starting settings record.id job with isCancelled }] }
  have hCalled : Run settings tool (fun _ => True) t (called settings t record job now) :=
    (run_of_call alone job hFound idle now).mono fun _ _ => trivial
  have hTold : Run settings tool (fun _ => True) t told := by
    cases isCancelled with
    | false => exact hCalled
    | true =>
        have hStarted := starting_called settings t record job now
        simpa [called, told] using hCalled.tail (.cancel hStarted) trivial
  have hMember : told.jobs[t.jobs.length]? =
      some { Activity.starting settings record.id job with isCancelled } :=
    List.getElem?_concat_length
  have hJobs (work : Activity) : told.jobs.set t.jobs.length work = t.jobs ++ [work] := by
    simp [told]
  obtain ⟨before, after, work, next, ⟨hStored, hStep⟩, ⟨hBefore, hAfter, -⟩,
      ⟨hId, hJob, hOpen, hLog⟩, ⟨-, -, hOutcome, -⟩, hSettled⟩ :=
    exists_step_of_starting (fun _ => True) hMember (get?_called settings t record job now) rfl
      passes (fun exchange h => answered exchange h _) now fun _ => trivial
  exact ⟨before, after, work, next, hTold.trans hStored, hStep, hBefore.trans (hJobs work),
    hAfter.trans (hJobs next), hJob, hId, hOpen, hOutcome, hLog, hSettled⟩

end Traffic

end ServiceBroker
