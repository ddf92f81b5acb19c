import ServiceBroker.Proofs.Broker.Traffic

/-! What can happen next when calls and jobs share a table of records. The requests of a call and
of a job come in a fixed order, so each step is one of a few moves; only two of them change the
records: a call that marks a deployment, and a job that records its outcome. -/

namespace ServiceBroker

namespace Records

/-- Every record stands under its own id. -/
def Keyed (records : Records) : Prop :=
  ∀ id record, records.get? id = some record → record.id = id

theorem get?_put (records : Records) (record : Record) (id : String) :
    Fields.get? (records.put record.id record) id =
      if id = record.id then some record else records.get? id := by
  split
  · next h => rw [h, Fields.get?_put_self]
  · next h => exact Fields.get?_put_of_ne records record h

theorem Keyed.put {records : Records} (h : records.Keyed) (record : Record) :
    Keyed (records.put record.id record) := by
  intro id found hFound
  rw [get?_put] at hFound
  split at hFound
  · next hId =>
      cases hFound
      exact hId.symm
  · exact h id found hFound

/-- No record is lost when one is written. -/
theorem isSome_get?_put {records : Records} {id : String} (h : (records.get? id).isSome)
    (record : Record) : (Fields.get? (records.put record.id record) id).isSome := by
  rw [get?_put]
  split
  · rfl
  · exact h

theorem keyed_empty : Keyed [] := by
  intro id record h
  cases h

end Records

/-- The tool answers as it may, or its run was abandoned. -/
def Exchange.Allowed (tool : ToolBehavior) : Exchange jobInterface → Prop
  | ⟨.tool run, answer⟩ => answer = World.cancelledRun ∨ tool run answer
  | _ => True

theorem Job.run_asks (settings : UpgradeSettings) (id : String) (job : Job) :
    (job.run settings id).Asks fun request : JobRequest =>
      request = .store (.get id) ∨ request.IsRun (job.MayRun settings) := by
  rw [Job.run_eq]
  refine ⟨.inl rfl, fun answer => ?_⟩
  simp only
  generalize Job.loaded answer = found
  cases found with
  | error e => trivial
  | ok workspace => exact (Job.workOn_asks settings job workspace).mono fun _ h => Or.inr h

namespace Traffic

/-- The records that a job has read. -/
def Activity.readings (work : Activity) : List Record :=
  work.log.filterMap Exchange.reading?

/-- How far a call has come. From when on it is admitted there is a record of its deployment. -/
inductive Call.Stage (records : Records) (call : Call) : Prop where
  | arriving (h : call.rest = (dispatch call.id call.job).run)
  | admitted (present : (records.get? call.id).isSome)
      (h : call.rest = (admitted call.id call.job).run)
  | marking (present : (records.get? call.id).isSome) (record : Record) (key : record.id = call.id)
      (h : call.rest = marking call.id call.job record)
  | writing (present : (records.get? call.id).isSome) (record : Record) (now : Timestamp)
      (key : record.id = call.id) (h : call.rest = writing call.id call.job record now)
  | starting (present : (records.get? call.id).isSome) (h : call.rest = starting call.id call.job)
  | ended (outcome : Except BrokerError Nat) (h : call.rest = .done outcome)

/-- The runner of the job has returned a result: answered as the job was, its run has come to an
end. -/
def Activity.Returned (settings : UpgradeSettings) (work : Activity) (result : JobResult) : Prop :=
  ∃ log, (work.job.run settings work.id).Passes log (.done result) ∧ log <+: work.log

/-- A runner returns once. -/
theorem Activity.Returned.unique {settings : UpgradeSettings} {work : Activity}
    {result other : JobResult} (h : work.Returned settings result)
    (hOther : work.Returned settings other) : other = result := by
  obtain ⟨log, passes, hLog⟩ := h
  obtain ⟨later, hPasses, hLater⟩ := hOther
  rcases List.prefix_or_prefix_of_prefix hLog hLater with hFirst | hSecond
  · exact passes.end_unique hPasses hFirst
  · exact (hPasses.end_unique passes hSecond).symm

/-- How far a job has come. Its runner has returned a result from when on the job reads the record
for the second time. -/
inductive Activity.Stage (settings : UpgradeSettings) (work : Activity) : Prop where
  | running (program : JobProgram JobResult)
      (passed : (work.job.run settings work.id).Passes work.log program)
      (h : work.rest = program.bind fun result => (recordOutcome work.id result).run)
  | settling (result : JobResult) (record : Record) (log : List (Exchange jobInterface))
      (passed : (work.job.run settings work.id).Passes log (.done result))
      (key : record.id = work.id) (hLog : work.log = log ++ [.reading work.id record])
      (h : work.rest = settling result record)
  | storing (result : JobResult) (record : Record) (now : Timestamp)
      (log : List (Exchange jobInterface))
      (passed : (work.job.run settings work.id).Passes log (.done result))
      (key : record.id = work.id) (hLog : work.log = log ++ [.reading work.id record, .clock now])
      (h : work.rest = storing result record now)
  | recorded (result : JobResult) (record : Record) (now : Timestamp)
      (log : List (Exchange jobInterface))
      (passed : (work.job.run settings work.id).Passes log (.done result))
      (key : record.id = work.id)
      (hLog : work.log =
        log ++ [.reading work.id record, .clock now, .writing (record.settled result now)])
      (h : work.rest = .done result.outcome)

/-- The records stand under their ids, every call and job has come as far as its requests allow,
and the tool has answered as it may. Nobody removes a record, so that of a job is there. -/
structure Grounded (settings : UpgradeSettings) (tool : ToolBehavior) (t : Traffic) : Prop where
  keyed : t.records.Keyed
  calls : ∀ call ∈ t.calls, call.Stage t.records
  jobs : ∀ work ∈ t.jobs, work.Stage settings
  present : ∀ work ∈ t.jobs, (t.records.get? work.id).isSome
  allowed : ∀ work ∈ t.jobs, ∀ exchange ∈ work.log, exchange.Allowed tool

/-- What the store answers about the record of a deployment. -/
def found (t : Traffic) (id : String) : Except StoreError Record :=
  (t.records.get? id).elim (.error (.notFound id)) .ok

/-- The moves. -/
inductive Move (settings : UpgradeSettings) (tool : ToolBehavior) (t : Traffic) :
    Traffic → Prop where
  | arrive (id : String) (job : Job) :
      Move settings tool t { t with calls := t.calls ++ [.arriving id job] }
  /-- The first reading tells a call that it may not go on. -/
  | refuse {n : Nat} {call : Call} {e : BrokerError} (member : t.calls[n]? = some call)
      (h : call.rest = (dispatch call.id call.job).run)
      (refused : admission call.id (t.found call.id) = .error e) :
      Move settings tool t { t with calls := t.calls.set n (call.goOn (.done (.error e))) }
  /-- The first reading tells a call that it may go on. -/
  | allow {n : Nat} {call : Call} {record : Record} (member : t.calls[n]? = some call)
      (h : call.rest = (dispatch call.id call.job).run)
      (hFound : t.records.get? call.id = some record)
      (idle : admission call.id (.ok record) = .ok ()) :
      Move settings tool t
        { t with calls := t.calls.set n (call.goOn (admitted call.id call.job).run) }
  | reread {n : Nat} {call : Call} {record : Record} (member : t.calls[n]? = some call)
      (h : call.rest = (admitted call.id call.job).run)
      (hFound : t.records.get? call.id = some record) :
      Move settings tool t
        { t with calls := t.calls.set n (call.goOn (marking call.id call.job record)) }
  | date {n : Nat} {call : Call} {record : Record} {now : Timestamp}
      (member : t.calls[n]? = some call) (key : record.id = call.id)
      (h : call.rest = marking call.id call.job record) :
      Move settings tool t
        { t with calls := t.calls.set n (call.goOn (writing call.id call.job record now)) }
  /-- A call marks the deployment with what it read before. -/
  | mark {n : Nat} {call : Call} {record : Record} {now : Timestamp}
      (member : t.calls[n]? = some call) (key : record.id = call.id)
      (h : call.rest = writing call.id call.job record now) :
      Move settings tool t
        { t with
          records := t.records.put record.id (record.started call.job.operation now)
          calls := t.calls.set n (call.goOn (starting call.id call.job)) }
  | start {n : Nat} {call : Call} (member : t.calls[n]? = some call)
      (h : call.rest = starting call.id call.job) :
      Move settings tool t
        { t with
          calls := t.calls.set n (call.goOn (.done (.ok t.jobs.length)))
          jobs := t.jobs ++ [.starting settings call.id call.job] }
  /-- A job goes on without an end in sight; what it reads is what stands in the records. -/
  | work {n : Nat} {work : Activity} {request : JobRequest} {reply : request.Reply}
      {rest : JobProgram (Except BrokerError Unit)} (member : t.jobs[n]? = some work)
      (open_before : work.outcome? = none)
      (open_after : (work.goOn request reply rest).outcome? = none)
      (stage : (work.goOn request reply rest).Stage settings)
      (allowed : Exchange.Allowed tool ⟨request, reply⟩)
      (current : ∀ record, Exchange.reading? ⟨request, reply⟩ = some record →
        t.records.get? work.id = some record) :
      Move settings tool t { t with jobs := t.jobs.set n (work.goOn request reply rest) }
  /-- A job writes its outcome into what it read before. -/
  | record {n : Nat} {work : Activity} {result : JobResult} {record : Record} {now : Timestamp}
      {log : List (Exchange jobInterface)} (member : t.jobs[n]? = some work)
      (passed : (work.job.run settings work.id).Passes log (.done result))
      (key : record.id = work.id) (hLog : work.log = log ++ [.reading work.id record, .clock now])
      (h : work.rest = storing result record now) :
      Move settings tool t
        { t with
          records := t.records.put record.id (record.settled result now)
          jobs := t.jobs.set n
            { work with
              log := log ++
                [.reading work.id record, .clock now, .writing (record.settled result now)]
              rest := .done result.outcome } }
  | cancel {n : Nat} {work : Activity} (member : t.jobs[n]? = some work) :
      Move settings tool t { t with jobs := t.jobs.set n { work with isCancelled := true } }


theorem found_eq_answer (t : Traffic) (id : String) :
    (t.found id, t.records) = t.records.answer (.get id) := by
  simp only [found, Records.answer]
  cases t.records.get? id <;> rfl

theorem found_of_get? {t : Traffic} {id : String} {record : Record}
    (h : t.records.get? id = some record) : t.found id = .ok record := by
  simp [found, h]

/-- Until its outcome is written a job has requests left. -/
theorem value?_task (id : String) (program : JobProgram JobResult) :
    (program.bind fun result => (recordOutcome id result).run).value? = none := by
  cases program with
  | done result =>
      change ((recordOutcome id result).run).value? = none
      rw [recordOutcome_run]
      rfl
  | ask request next => rfl

/-- A call that is admitted has found a record. -/
theorem exists_of_admission {t : Traffic} {id : String} (h : admission id (t.found id) = .ok ()) :
    ∃ record, t.records.get? id = some record ∧ admission id (.ok record) = .ok () := by
  simp only [found] at h
  cases hFound : t.records.get? id with
  | none =>
      rw [hFound] at h
      cases h
  | some record =>
      rw [hFound] at h
      exact ⟨record, rfl, h⟩

/-- A call makes the move that its stage has in store. -/
theorem Grounded.move_call {settings : UpgradeSettings} {tool : ToolBehavior} {t : Traffic}
    (ground : Grounded settings tool t) {n : Nat} {call : Call} {request : JobRequest}
    {next : request.Reply → BrokerProgram (Except BrokerError Nat)} {reply : request.Reply}
    {after : Records} (member : t.calls[n]? = some call)
    (asks : call.rest = .ask (.job request) next)
    (answered : Answered tool false t.records after request reply) :
    Move settings tool t
      { t with records := after, calls := t.calls.set n (call.goOn (next reply)) } := by
  cases ground.calls call (List.mem_of_getElem? member) with
  | arriving h =>
      have hAsk := h
      rw [asks, dispatch_run] at hAsk
      cases hAsk
      rw [Answered, ← found_eq_answer] at answered
      cases answered
      cases hAdmission : admission call.id (t.found call.id) with
      | error e => simpa only [hAdmission] using Move.refuse member h hAdmission
      | ok _ =>
          obtain ⟨record, hFound, idle⟩ := exists_of_admission hAdmission
          simpa only [found_of_get? hFound, idle] using Move.allow member h hFound idle
  | admitted present h =>
      have hAsk := h
      rw [asks, admitted_run] at hAsk
      cases hAsk
      obtain ⟨record, hFound⟩ := Option.isSome_iff_exists.mp present
      rw [Answered, ← found_eq_answer, found_of_get? hFound] at answered
      cases answered
      exact .reread member h hFound
  | marking present record key h =>
      have hAsk := h
      rw [asks] at hAsk
      cases hAsk
      cases answered
      exact .date member key h
  | writing present record now key h =>
      have hAsk := h
      rw [asks] at hAsk
      cases hAsk
      cases answered
      exact .mark member key h
  | starting present h =>
      rw [asks] at h
      cases h
  | ended outcome h =>
      rw [asks] at h
      cases h

/-- A job makes the move that its stage has in store. -/
theorem Grounded.move_job {settings : UpgradeSettings} {tool : ToolBehavior} {t : Traffic}
    (ground : Grounded settings tool t) {n : Nat} {work : Activity} {request : JobRequest}
    {next : request.Reply → JobProgram (Except BrokerError Unit)} {reply : request.Reply}
    {after : Records} (member : t.jobs[n]? = some work) (asks : work.rest = .ask request next)
    (answered : Answered tool work.isCancelled t.records after request reply) :
    Move settings tool t
      { t with
        records := after
        jobs := t.jobs.set n (work.goOn request reply (next reply)) } := by
  have hOpen : work.outcome? = none := by rw [Activity.outcome?, asks]; rfl
  obtain ⟨current, hCurrent⟩ :=
    Option.isSome_iff_exists.mp (ground.present work (List.mem_of_getElem? member))
  cases ground.jobs work (List.mem_of_getElem? member) with
  | running program passed h =>
      cases program with
      | done result =>
          -- The runner has returned: the job reads the record for the second time.
          change work.rest = (recordOutcome work.id result).run at h
          rw [asks, recordOutcome_run] at h
          cases h
          rw [Answered, ← found_eq_answer, found_of_get? hCurrent] at answered
          cases answered
          refine .work member hOpen rfl (.settling result current work.log passed
            (ground.keyed _ _ hCurrent) rfl rfl) trivial ?_
          intro record hRead
          cases hRead
          exact hCurrent
      | ask asked later =>
          change work.rest = .ask asked _ at h
          rw [asks] at h
          cases h
          have hKind := (passed.asks (Job.run_asks settings work.id work.job)).2.1
          have hStage : (work.goOn request reply
              ((later reply).bind fun result => (recordOutcome work.id result).run)).Stage settings :=
            .running (later reply) (passed.snoc reply) rfl
          rcases hKind with rfl | hRun
          · rw [Answered, ← found_eq_answer, found_of_get? hCurrent] at answered
            cases answered
            refine .work member hOpen (value?_task _ _) hStage trivial ?_
            intro record hRead
            cases hRead
            exact hCurrent
          · cases request with
            | tool run =>
                obtain ⟨rfl, hTool⟩ := answered
                refine .work member hOpen (value?_task _ _) hStage ?_ (by rintro record ⟨⟩)
                split at hTool
                · exact .inl hTool
                · exact .inr hTool
            | store call => cases hRun
            | now => cases hRun
  | settling result record log passed key hLog h =>
      rw [asks] at h
      cases h
      cases answered
      refine .work member hOpen rfl (.storing result record reply log passed key ?_ rfl) trivial
        (by rintro record ⟨⟩)
      simp [Activity.goOn, hLog, Exchange.clock]
  | storing result record now log passed key hLog h =>
      have hAsk := h
      rw [asks] at hAsk
      cases hAsk
      cases answered
      have hMove : Move settings tool t _ := .record member passed key hLog h
      simpa [Activity.goOn, hLog, Exchange.writing, pure, Except.pure] using hMove
  | recorded result record now log passed key hLog h =>
      rw [asks] at h
      cases h

/-- Every step is a move. -/
theorem Grounded.move {settings : UpgradeSettings} {tool : ToolBehavior} {t u : Traffic}
    (ground : Grounded settings tool t) (step : Step settings tool t u) :
    Move settings tool t u := by
  cases step with
  | arrive id job => exact .arrive id job
  | call member asks answered => exact ground.move_call member asks answered
  | start member asks =>
      cases ground.calls _ (List.mem_of_getElem? member) with
      | starting present h =>
          have hAsk := h
          rw [asks] at hAsk
          cases hAsk
          exact .start member h
      | arriving h =>
          rw [asks, dispatch_run] at h
          cases h
      | admitted present h =>
          rw [asks, admitted_run] at h
          cases h
      | marking present record key h | writing present record now key h | ended outcome h =>
          rw [asks] at h
          cases h
  | job member asks answered => exact ground.move_job member asks answered
  | cancel member => exact .cancel member

theorem Call.Stage.mono {before after : Records} {call : Call} (stage : call.Stage before)
    (keeps : ∀ id, (before.get? id).isSome → (after.get? id).isSome) : call.Stage after := by
  cases stage with
  | arriving h => exact .arriving h
  | admitted present h => exact .admitted (keeps _ present) h
  | marking present record key h => exact .marking (keeps _ present) record key h
  | writing present record now key h => exact .writing (keeps _ present) record now key h
  | starting present h => exact .starting (keeps _ present) h
  | ended outcome h => exact .ended outcome h

/-- A call that has read the record once and has not ended finds it there. -/
theorem Call.Stage.present {records : Records} {call : Call} (stage : call.Stage records)
    (begun : call.rest ≠ (dispatch call.id call.job).run) (is_open : call.outcome? = none) :
    (records.get? call.id).isSome := by
  cases stage with
  | arriving h => exact (begun h).elim
  | admitted present h | marking present record key h | writing present record now key h
    | starting present h => exact present
  | ended outcome h =>
      rw [Call.outcome?, h] at is_open
      cases is_open

/-- A call that was admitted goes on even if an operation has begun since. -/
theorem arriving_ne_admitted (id : String) (job : Job) :
    (dispatch id job).run ≠ (admitted id job).run := by
  intro h
  rw [dispatch_run, admitted_run] at h
  injection h with hRequest hNext
  let now : Timestamp := { date := { year := 2000, month := 1, day := 1 }, hour := 0, minute := 0 }
  let record : Record :=
    { id, workspace := [], operation := .provision, state := .inProgress, created := now,
      updated := now }
  have hBusy := congrFun hNext (.ok record)
  simp [admission, record, Record.isInProgress, marking] at hBusy

theorem marking_ne_arriving (id : String) (job : Job) (record : Record) :
    marking id job record ≠ (dispatch id job).run := by
  intro h
  rw [dispatch_run] at h
  cases h

theorem writing_ne_arriving (id : String) (job : Job) (record : Record) (now : Timestamp) :
    writing id job record now ≠ (dispatch id job).run := by
  intro h
  rw [dispatch_run] at h
  cases h

theorem starting_ne_arriving (id : String) (job : Job) :
    starting id job ≠ (dispatch id job).run := by
  intro h
  rw [dispatch_run] at h
  cases h

variable {settings : UpgradeSettings} {tool : ToolBehavior} {t u : Traffic}

theorem Grounded.set_call (ground : Grounded settings tool t) {n : Nat} {call : Call}
    (stage : call.Stage t.records) :
    Grounded settings tool { t with calls := t.calls.set n call } where
  keyed := ground.keyed
  calls other member := by
    rcases List.mem_or_eq_of_mem_set member with hOld | rfl
    · exact ground.calls other hOld
    · exact stage
  jobs := ground.jobs
  present := ground.present
  allowed := ground.allowed

theorem Grounded.set_job (ground : Grounded settings tool t) {n : Nat} {work : Activity}
    (stage : work.Stage settings) (present : (t.records.get? work.id).isSome)
    (allowed : ∀ exchange ∈ work.log, exchange.Allowed tool) :
    Grounded settings tool { t with jobs := t.jobs.set n work } where
  keyed := ground.keyed
  calls := ground.calls
  jobs other member := by
    rcases List.mem_or_eq_of_mem_set member with hOld | rfl
    · exact ground.jobs other hOld
    · exact stage
  present other member := by
    rcases List.mem_or_eq_of_mem_set member with hOld | rfl
    · exact ground.present other hOld
    · exact present
  allowed other member := by
    rcases List.mem_or_eq_of_mem_set member with hOld | rfl
    · exact ground.allowed other hOld
    · exact allowed

theorem Grounded.put (ground : Grounded settings tool t) (record : Record) :
    Grounded settings tool { t with records := t.records.put record.id record } where
  keyed := ground.keyed.put record
  calls call member := (ground.calls call member).mono fun _ h => Records.isSome_get?_put h record
  jobs := ground.jobs
  present work member := Records.isSome_get?_put (ground.present work member) record
  allowed := ground.allowed

/-- Being told to stop changes nothing of what a job has done. -/
theorem Activity.Stage.cancelled {work : Activity} (stage : work.Stage settings) :
    Activity.Stage settings { work with isCancelled := true } := by
  cases stage with
  | running program passed h => exact .running program passed h
  | settling result record log passed key hLog h => exact .settling result record log passed key hLog h
  | storing result record now log passed key hLog h =>
      exact .storing result record now log passed key hLog h
  | recorded result record now log passed key hLog h =>
      exact .recorded result record now log passed key hLog h

/-- A move keeps to the order of requests. -/
theorem Move.grounded (move : Move settings tool t u) (ground : Grounded settings tool t) :
    Grounded settings tool u := by
  cases move with
  | arrive id job =>
      refine ⟨ground.keyed, ?_, ground.jobs, ground.present, ground.allowed⟩
      intro call member
      rcases List.mem_append.mp member with hOld | hNew
      · exact ground.calls call hOld
      · rw [List.mem_singleton.mp hNew]
        exact .arriving rfl
  | refuse member h refused => exact ground.set_call (.ended _ rfl)
  | allow member h hFound idle =>
      exact ground.set_call (.admitted (by simp [Call.goOn, hFound]) rfl)
  | reread member h hFound =>
      exact ground.set_call
        (.marking (by simp [Call.goOn, hFound]) _ (ground.keyed _ _ hFound) rfl)
  | @date n call record now member key h =>
      have present := (ground.calls call (List.mem_of_getElem? member)).present
        (h ▸ marking_ne_arriving _ _ _) (by rw [Call.outcome?, h]; rfl)
      exact ground.set_call (.writing present _ _ key rfl)
  | @mark n call record now member key h =>
      have present := (ground.calls call (List.mem_of_getElem? member)).present
        (h ▸ writing_ne_arriving _ _ _ _) (by rw [Call.outcome?, h]; rfl)
      exact (ground.put (record.started call.job.operation now)).set_call
        (.starting (Records.isSome_get?_put present _) rfl)
  | @start n call member h =>
      have present := (ground.calls call (List.mem_of_getElem? member)).present
        (h ▸ starting_ne_arriving _ _) (by rw [Call.outcome?, h]; rfl)
      have hStage : (call.goOn (.done (.ok t.jobs.length))).Stage t.records := .ended _ rfl
      have ground := ground.set_call (n := n) hStage
      refine ⟨ground.keyed, ground.calls, ?_, ?_, ?_⟩ <;> intro work member
      all_goals
        rcases List.mem_append.mp member with hOld | hNew
      · exact ground.jobs work hOld
      · rw [List.mem_singleton.mp hNew]
        exact .running _ (.refl _) rfl
      · exact ground.present work hOld
      · rw [List.mem_singleton.mp hNew]
        exact present
      · exact ground.allowed work hOld
      · rw [List.mem_singleton.mp hNew]
        simp [Activity.starting]
  | @work n work request reply rest member open_before open_after stage allowed current =>
      have hOld := List.mem_of_getElem? member
      refine ground.set_job stage (ground.present work hOld) ?_
      intro exchange hMember
      rcases List.mem_append.mp hMember with hBefore | hNew
      · exact ground.allowed work hOld exchange hBefore
      · rw [List.mem_singleton.mp hNew]
        exact allowed
  | @record n work result record now log member passed key hLog h =>
      have hOld := List.mem_of_getElem? member
      have hPut := ground.put (record.settled result now)
      rw [Record.settled_id] at hPut
      refine hPut.set_job (.recorded result record now log passed key rfl rfl)
        (hPut.present work hOld) ?_
      intro exchange hMember
      have hBefore := ground.allowed work hOld exchange
      rw [hLog] at hBefore
      simp only [List.mem_append, List.mem_cons, List.not_mem_nil, or_false] at hMember hBefore
      rcases hMember with hMember | rfl | rfl | rfl
      · exact hBefore (.inl hMember)
      · trivial
      · trivial
      · trivial
  | @cancel n work member =>
      have hOld := List.mem_of_getElem? member
      exact ground.set_job (ground.jobs work hOld).cancelled (ground.present work hOld)
        (ground.allowed work hOld)

/-- An entry of a list of which one entry was replaced. -/
theorem getElem?_set_cases {α : Type} {entries : List α} {m n : Nat} {new entry : α}
    (h : (entries.set n new)[m]? = some entry) :
    (m = n ∧ entry = new) ∨ (m ≠ n ∧ entries[m]? = some entry) := by
  rw [List.getElem?_set] at h
  split at h
  · next hSlot =>
      split at h
      · exact .inl ⟨hSlot.symm, (Option.some.inj h).symm⟩
      · cases h
  · next hSlot => exact .inr ⟨Ne.symm hSlot, h⟩

/-- What a move means for one of the calls. -/
inductive Call.Turn (settings : UpgradeSettings) (t u : Traffic) (call : Call) : Call → Prop where
  | still : call.Turn settings t u call
  | refused {e : BrokerError} (h : call.rest = (dispatch call.id call.job).run)
      (verdict : admission call.id (t.found call.id) = .error e) (records : u.records = t.records)
      (jobs : u.jobs = t.jobs) : call.Turn settings t u (call.goOn (.done (.error e)))
  | admitted (h : call.rest = (dispatch call.id call.job).run)
      (verdict : admission call.id (t.found call.id) = .ok ()) :
      call.Turn settings t u (call.goOn (ServiceBroker.admitted call.id call.job).run)
  | proceeding {rest : BrokerProgram (Except BrokerError Nat)}
      (begun : call.rest ≠ (dispatch call.id call.job).run) (is_open : rest.value? = none) :
      call.Turn settings t u (call.goOn rest)
  | launched (begun : call.rest ≠ (dispatch call.id call.job).run)
      (jobs : u.jobs = t.jobs ++ [.starting settings call.id call.job]) :
      call.Turn settings t u (call.goOn (.done (.ok t.jobs.length)))

/-- What a move means for one of the jobs. -/
inductive Activity.Turn (settings : UpgradeSettings) (t u : Traffic) (work : Activity) :
    Activity → Prop where
  | still (isCancelled : Bool) : work.Turn settings t u { work with isCancelled }
  | working {request : JobRequest} {reply : request.Reply}
      {rest : JobProgram (Except BrokerError Unit)} (open_before : work.outcome? = none)
      (open_after : rest.value? = none) : work.Turn settings t u (work.goOn request reply rest)
  | recorded {result : JobResult} {record : Record} {now : Timestamp}
      {log : List (Exchange jobInterface)}
      (passed : (work.job.run settings work.id).Passes log (.done result))
      (key : record.id = work.id) (hLog : work.log = log ++ [.reading work.id record, .clock now])
      (h : work.rest = storing result record now)
      (written : u.records = t.records.put record.id (record.settled result now)) :
      work.Turn settings t u
        { work with
          log := log ++ [.reading work.id record, .clock now, .writing (record.settled result now)]
          rest := .done result.outcome }

theorem Move.turn (move : Move settings tool t u) {n : Nat} {call next : Call}
    (before : t.calls[n]? = some call) (after : u.calls[n]? = some next) :
    call.Turn settings t u next := by
  have hLength := (List.getElem?_eq_some_iff.mp before).1
  have hOther {m : Nat} {other new : Call} (hGet : t.calls[m]? = some other)
      (hSet : (t.calls.set m new)[n]? = some next) : next = call ∨ call = other ∧ next = new := by
    rcases getElem?_set_cases hSet with ⟨rfl, rfl⟩ | ⟨-, hOld⟩
    · exact .inr ⟨Option.some.inj (before.symm.trans hGet), rfl⟩
    · exact .inl (Option.some.inj (hOld.symm.trans before))
  cases move with
  | arrive id job =>
      rw [List.getElem?_append_left hLength, before] at after
      cases after
      exact .still
  | refuse member h refused =>
      rcases hOther member after with rfl | ⟨rfl, rfl⟩
      · exact .still
      · exact .refused h refused rfl rfl
  | allow member h hFound idle =>
      rcases hOther member after with rfl | ⟨rfl, rfl⟩
      · exact .still
      · exact .admitted h (found_of_get? hFound ▸ idle)
  | reread member h hFound =>
      rcases hOther member after with rfl | ⟨rfl, rfl⟩
      · exact .still
      · exact .proceeding (h ▸ (arriving_ne_admitted _ _).symm) rfl
  | date member key h =>
      rcases hOther member after with rfl | ⟨rfl, rfl⟩
      · exact .still
      · exact .proceeding (h ▸ marking_ne_arriving _ _ _) rfl
  | mark member key h =>
      rcases hOther member after with rfl | ⟨rfl, rfl⟩
      · exact .still
      · exact .proceeding (h ▸ writing_ne_arriving _ _ _ _) rfl
  | start member h =>
      rcases hOther member after with rfl | ⟨rfl, rfl⟩
      · exact .still
      · exact .launched (h ▸ starting_ne_arriving _ _) rfl
  | work | record | cancel =>
      rw [before] at after
      cases after
      exact .still

theorem Move.job_turn (move : Move settings tool t u) {n : Nat} {work next : Activity}
    (before : t.jobs[n]? = some work) (after : u.jobs[n]? = some next) :
    work.Turn settings t u next := by
  have hLength := (List.getElem?_eq_some_iff.mp before).1
  have hOther {m : Nat} {other new : Activity} (hGet : t.jobs[m]? = some other)
      (hSet : (t.jobs.set m new)[n]? = some next) : next = work ∨ work = other ∧ next = new := by
    rcases getElem?_set_cases hSet with ⟨rfl, rfl⟩ | ⟨-, hOld⟩
    · exact .inr ⟨Option.some.inj (before.symm.trans hGet), rfl⟩
    · exact .inl (Option.some.inj (hOld.symm.trans before))
  cases move with
  | arrive | refuse | allow | reread | date | mark =>
      rw [before] at after
      cases after
      exact .still work.isCancelled
  | start member h =>
      rw [List.getElem?_append_left hLength, before] at after
      cases after
      exact .still work.isCancelled
  | work member open_before open_after stage allowed current =>
      rcases hOther member after with rfl | ⟨rfl, rfl⟩
      · exact .still next.isCancelled
      · exact .working open_before open_after
  | record member passed key hLog h =>
      rcases hOther member after with rfl | ⟨rfl, rfl⟩
      · exact .still next.isCancelled
      · exact .recorded passed key hLog h rfl
  | cancel member =>
      rcases hOther member after with rfl | ⟨rfl, rfl⟩
      · exact .still next.isCancelled
      · exact .still true

/-- A job that ends has come to a result and has written it into the record that it read again. -/
theorem Move.exists_recorded (move : Move settings tool t u) {n : Nat} {work next : Activity}
    {outcome : Except BrokerError Unit} (before : t.jobs[n]? = some work)
    (after : u.jobs[n]? = some next) (is_open : work.outcome? = none)
    (ended : next.outcome? = some outcome) :
    ∃ (result : JobResult) (record : Record) (now : Timestamp) (log : List (Exchange jobInterface)),
      (work.job.run settings work.id).Passes log (.done result) ∧ record.id = work.id ∧
        work.log = log ++ [.reading work.id record, .clock now] ∧
        u.records = t.records.put work.id (record.settled result now) ∧
        outcome = result.outcome := by
  cases move.job_turn before after with
  | still isCancelled =>
      change work.outcome? = some outcome at ended
      cases is_open.symm.trans ended
  | working _ open_after => cases open_after.symm.trans ended
  | @recorded result record now log passed key hLog h written =>
      exact ⟨result, record, now, log, passed, key, hLog, key ▸ written,
        (Option.some.inj ended).symm⟩

/-- Calls and jobs stay on record. -/
theorem Step.length_le (step : Step settings tool t u) :
    t.calls.length ≤ u.calls.length ∧ t.jobs.length ≤ u.jobs.length := by
  cases step <;> simp

theorem Step.exists_call (step : Step settings tool t u) {n : Nat} {call : Call}
    (h : t.calls[n]? = some call) : ∃ next, u.calls[n]? = some next := by
  have hLength := (List.getElem?_eq_some_iff.mp h).1
  exact ⟨_, List.getElem?_eq_getElem (Nat.lt_of_lt_of_le hLength step.length_le.1)⟩

theorem Step.exists_job (step : Step settings tool t u) {n : Nat} {work : Activity}
    (h : t.jobs[n]? = some work) : ∃ next, u.jobs[n]? = some next := by
  have hLength := (List.getElem?_eq_some_iff.mp h).1
  exact ⟨_, List.getElem?_eq_getElem (Nat.lt_of_lt_of_le hLength step.length_le.2)⟩

end Traffic

end ServiceBroker
