import ServiceBroker.Proofs.Broker.Calm
import ServiceBroker.Proofs.Broker.Exclusion
import ServiceBroker.Proofs.Record

/-! What a poll tells of a deployment, and what a call for a job makes of the same record. A state
that is not known is still running for the poll, and is not for the call. -/

namespace ServiceBroker

namespace OperationState

variable {name : String} {state : OperationState}

/-- Each state that is known has one name. -/
theorem ofName_eq_iff (known : state ≠ .unknown) : ofName name = state ↔ name = state.name := by
  constructor
  · intro h
    cases hFound : [inProgress, succeeded, failed].find? (·.name == name) with
    | none =>
        rw [ofName, hFound] at h
        exact absurd h.symm known
    | some found =>
        rw [ofName, hFound] at h
        obtain rfl : found = state := h
        have hName := List.find?_some hFound
        exact (eq_of_beq hName).symm
  · rintro rfl
    exact ofName_name state

theorem isDone_iff : state.isDone = true ↔ state = .succeeded ∨ state = .failed := by
  cases state <;> simp [isDone]

/-- Two texts say that an operation has ended. -/
theorem isDone_ofName_iff : (ofName name).isDone = true ↔ name = "succeeded" ∨ name = "failed" := by
  rw [isDone_iff, ofName_eq_iff (by simp), ofName_eq_iff (by simp)]
  rfl

end OperationState

/-- A poll reads the record and does nothing else. -/
theorem pollStatus_run (id : String) :
    (pollStatus id).run = Program.ask (I := jobInterface) (.store (.get id))
      fun answer : Except StoreError Record =>
        .done (match answer with
          | .error e => .error (.store e)
          | .ok record => .ok record.status) := by
  change Program.ask _ _ = Program.ask _ _
  congr 1
  funext answer
  cases answer <;> rfl

namespace World

variable {world : World} {id : String} {record : Record}

theorem Calm.work_pollStatus (calm : world.Calm) (h : world.store.records.get? id = some record) :
    ∃ after, world.work none (StoreWork.toBroker (pollStatus id)).run = (.ok record.status, after) ∧
      world.Leaves after [] world.store.records [] := by
  obtain ⟨hRead, leaves⟩ := calm.reads_of_get? h
  refine ⟨_, ?_, leaves⟩
  change world.work none (JobProgram.toBroker (pollStatus id).run) = _
  rw [pollStatus_run]
  exact work_store hRead

/-- A call for a job does what the record says, and a call that is refused does nothing. -/
theorem Calm.exists_work_dispatch (calm : world.Calm)
    (h : world.store.records.get? id = some record) (key : record.id = id) (job : Job) :
    ∃ answer after, world.work none (dispatch id job).run = (answer, after) ∧
      answer.map (fun _ => ()) = admission id (.ok record) ∧
      (∀ e, answer = .error e → world.Leaves after [] world.store.records []) ∧
      ∀ handle, answer = .ok handle →
        ∃ task, after.tasks = world.tasks ++ [task] ∧ task.id = id ∧ task.job = job := by
  cases hVerdict : admission id (.ok record) with
  | error e =>
      have refused : admission id (world.traffic.found id) = .error e := by
        rw [Traffic.found_of_get? h, hVerdict]
      obtain ⟨after, hWork, leaves⟩ := calm.work_dispatch_refused refused job
      exact ⟨.error e, after, hWork, rfl, fun _ _ => leaves, by simp⟩
  | ok _ =>
      obtain ⟨now, middle, hWork, leaves⟩ := calm.work_dispatch h key hVerdict job
      let task : Task := { id, job, state := .ready (job.task middle.settings id) }
      have hTasks : (middle.start id job).2.tasks = world.tasks ++ [task] := by
        have hSame := leaves.tasks
        rw [List.append_nil] at hSame
        rw [← hSame]
        rfl
      exact ⟨_, _, hWork, rfl, by simp, fun _ _ => ⟨task, hTasks, rfl, rfl⟩⟩

/-- What a record says about starting a job, by the text of its state. -/
theorem admission_stating {base : Record} {stated : String} :
    (admission id (.ok { base with state := .ofName stated }) = .ok () ↔
        stated ≠ "in progress" ∧
          ∃ workspace, Workspace.ofBytes base.workspace = .ok workspace) ∧
      (admission id (.ok { base with state := .ofName stated }) =
          .error (.job (.operationInProgress id)) ↔ stated = "in progress") := by
  have hProgress : ({ base with state := .ofName stated } : Record).isInProgress = true ↔
      stated = "in progress" := by
    rw [Record.isInProgress, beq_iff_eq]
    exact OperationState.ofName_eq_iff (by simp)
  refine ⟨?_, ?_⟩
  · rw [admission_eq_ok_iff, ← Bool.not_eq_true, hProgress]
  · rw [← hProgress, admission]
    split
    · simp [*]
    · next hIdle =>
        cases Workspace.ofBytes base.workspace <;> simp [hIdle]

/-- A poll and a call for a job on a record whose state is any text. The poll tells that the
operation has ended exactly for two texts; the call starts a job exactly if the workspace can be
read and the text is not the one text of an operation in progress, and is told of an operation in
progress exactly for that text. So for a text that is no name of a state the poll tells of an
operation that is still running, and the call does not: the two agree exactly on the texts that are
names. A call that is refused changes nothing. -/
theorem poll_and_call {base : Record} {stated : String} (calm : world.Calm)
    (h : world.store.records.get? id = some { base with state := .ofName stated })
    (key : base.id = id) (job : Job) :
    let record : Record := { base with state := .ofName stated }
    Record.ofText (base.stating stated).renderPretty = .ok record ∧
      ∃ polled answer called,
        world.work none (StoreWork.toBroker (pollStatus id)).run = (.ok record.status, polled) ∧
        world.Leaves polled [] world.store.records [] ∧
        world.work none (dispatch id job).run = (answer, called) ∧
        (record.status.isDone = true ↔ stated = "succeeded" ∨ stated = "failed") ∧
        ((∃ handle, answer = .ok handle) ↔
          stated ≠ "in progress" ∧ ∃ workspace, Workspace.ofBytes base.workspace = .ok workspace) ∧
        (answer = .error (.job (.operationInProgress id)) ↔ stated = "in progress") ∧
        ((((∃ handle, answer = .ok handle) → record.status.isDone = true) ∧
            (record.status.isDone = false → answer = .error (.job (.operationInProgress id)))) ↔
          stated = "in progress" ∨ stated = "succeeded" ∨ stated = "failed") ∧
        (∀ e, answer = .error e → world.Leaves called [] world.store.records []) ∧
        ∀ handle, answer = .ok handle →
          ∃ task, called.tasks = world.tasks ++ [task] ∧ task.id = id ∧ task.job = job := by
  intro record
  obtain ⟨polled, hPoll, hLeaves⟩ := calm.work_pollStatus h
  obtain ⟨answer, called, hCall, hAnswer, hRefused, hStarted⟩ := calm.exists_work_dispatch h key job
  obtain ⟨hAdmitted, hBusy⟩ := @admission_stating id base stated
  have hDone : record.status.isDone = true ↔ stated = "succeeded" ∨ stated = "failed" :=
    OperationState.isDone_ofName_iff
  rw [← hAnswer] at hAdmitted hBusy
  have hOk : (∃ handle, answer = .ok handle) ↔
      stated ≠ "in progress" ∧ ∃ workspace, Workspace.ofBytes base.workspace = .ok workspace := by
    rw [← hAdmitted]
    cases answer <;> simp [Except.map]
  have hTold : answer = .error (.job (.operationInProgress id)) ↔ stated = "in progress" := by
    rw [← hBusy]
    cases answer <;> simp [Except.map]
  refine ⟨base.ofText_stating stated, polled, answer, called, hPoll, hLeaves, hCall, hDone, hOk,
    hTold, ?_, hRefused, hStarted⟩
  rw [hOk, hTold, ← Bool.not_eq_true, hDone]
  constructor
  · rintro ⟨-, hRunning⟩
    by_cases hEnded : stated = "succeeded" ∨ stated = "failed"
    · exact .inr hEnded
    · exact .inl (hRunning hEnded)
  · intro hKnown
    exact ⟨fun started => hKnown.resolve_left started.1, fun hEnded => hKnown.resolve_right hEnded⟩

/-- A broker with one record, whose state is a text. -/
def statingWorld (stated : String) : World where
  settings := Traffic.plainSettings
  store :=
    { records := Fields.put [] Traffic.restingRecord.id
        { Traffic.restingRecord with state := .ofName stated } }
  clock := fun _ => Traffic.restingRecord.created

theorem get?_statingWorld (stated : String) :
    (statingWorld stated).store.records.get? Traffic.restingRecord.id =
      some { Traffic.restingRecord with state := .ofName stated } :=
  Fields.get?_put_self ..

theorem poll_and_call_busy :
    (statingWorld "in progress").Calm ∧ ∃ answer called,
      (statingWorld "in progress").work none
        (dispatch Traffic.restingRecord.id .provision).run = (answer, called) ∧
      answer = .error (.job (.operationInProgress Traffic.restingRecord.id)) ∧
      called.tasks = [] := by
  have calm : (statingWorld "in progress").Calm := rfl
  obtain ⟨-, polled, answer, called, -, -, hCall, -, -, hBusy, -, hRefused, -⟩ :=
    poll_and_call calm (get?_statingWorld "in progress") rfl .provision
  have hAnswer := hBusy.mpr rfl
  exact ⟨calm, answer, called, hCall, hAnswer, (hRefused _ hAnswer).tasks⟩

/-- A poll tells of an operation that is still running, and a job is started. -/
theorem started_while_running :
    Record.ofText (Traffic.restingRecord.stating "exploded").renderPretty =
        .ok { Traffic.restingRecord with state := .ofName "exploded" } ∧
      ∃ status polled handle called,
        (statingWorld "exploded").work none
          (StoreWork.toBroker (pollStatus Traffic.restingRecord.id)).run = (.ok status, polled) ∧
        status.isDone = false ∧
        (statingWorld "exploded").work none
          (dispatch Traffic.restingRecord.id .provision).run = (.ok handle, called) := by
  have calm : (statingWorld "exploded").Calm := rfl
  have hFound := get?_statingWorld "exploded"
  obtain ⟨polled, hPoll, -⟩ := calm.work_pollStatus hFound
  obtain ⟨now, middle, hCall, -⟩ := calm.work_dispatch hFound rfl (by rfl) .provision
  exact ⟨Record.ofText_stating _ _, _, polled, _, _, hPoll, by decide, hCall⟩

end World

end ServiceBroker
