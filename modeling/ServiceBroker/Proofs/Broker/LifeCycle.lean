import ServiceBroker.Proofs.Upgrade.Resumption

/-! The life of a record, as long as no two calls stand between finding its deployment idle and
marking it. A record is in progress from the moment a call marks it until the job of that call has
written its outcome. A call that is refused changes nothing, and what a job writes is what its
runner returned. -/

namespace ServiceBroker

namespace Traffic

/-- Why a call is refused when it looks at the record of its deployment. -/
inductive Refused (id : String) (t : Traffic) : BrokerError → Prop where
  | missing (h : t.records.get? id = none) : Refused id t (.store (.notFound id))
  | busy {record : Record} (h : t.records.get? id = some record)
      (is_busy : record.state = .inProgress) : Refused id t (.job (.operationInProgress id))
  | unreadable {record : Record} {e : WorkspaceError} (h : t.records.get? id = some record)
      (idle : record.state ≠ .inProgress)
      (unreadable : Workspace.ofBytes record.workspace = .error e) :
      Refused id t (.workspace e)

/-- What a job writes into its record when its runner has returned a result. A workspace that it got
hold of takes the place of the recorded one. -/
inductive Concludes (t u : Traffic) (work : Activity) : JobResult → Prop where
  | succeeded {workspace : Workspace} {record : Record} (now : Timestamp)
      (h : t.records.get? work.id = some record)
      (written : u.records = t.records.put work.id
        { record with
          operation := work.job.operation
          state := .succeeded
          message := workspace.final.statusMessage
          workspace := workspace.toBytes
          updated := now }) :
      Concludes t u work (.ok workspace)
  | failed {failed : JobFailure} {record : Record} (now : Timestamp)
      (h : t.records.get? work.id = some record)
      (written : u.records = t.records.put work.id
        { record with
          operation := work.job.operation
          state := .failed
          message := failed.error.message
          workspace := failed.workspace.elim record.workspace Workspace.toBytes
          updated := now }) :
      Concludes t u work (.error failed)

variable {settings : UpgradeSettings} {tool : ToolBehavior} {t u : Traffic} {id : String}

theorem admission_eq_error_iff {e : BrokerError} :
    admission id (t.found id) = .error e ↔ Refused id t e := by
  constructor
  · intro h
    cases hFound : t.records.get? id with
    | none =>
        simp only [found, hFound, Option.elim_none, admission] at h
        cases h
        exact .missing hFound
    | some record =>
        rw [found_of_get? hFound] at h
        simp only [admission] at h
        split at h
        · next hBusy =>
            cases h
            exact .busy hFound (by simpa [Record.isInProgress] using hBusy)
        · next hIdle =>
            split at h
            · cases h
            · next hUnreadable =>
                cases h
                exact .unreadable hFound (by simpa [Record.isInProgress] using hIdle) hUnreadable
  · intro refused
    cases refused with
    | missing h => simp [found, h, admission]
    | busy h is_busy => simp [found_of_get? h, admission, Record.isInProgress, is_busy]
    | unreadable h idle unreadable =>
        simp [found_of_get? h, admission, Record.isInProgress, idle, unreadable]

/-- The call has done nothing yet, and is to read the record of its deployment. -/
def Call.Looks (call : Call) : Prop :=
  call.rest = (dispatch call.id call.job).run ∧
    ∃ next, call.rest = .ask (.job (.store (.get call.id))) next

theorem Call.looks_iff {call : Call} :
    call.Looks ↔ call.rest = (dispatch call.id call.job).run :=
  and_iff_left_of_imp fun h => ⟨_, h.trans (dispatch_run call.id call.job)⟩

/-- A call that ends without a job has done nothing but look. -/
theorem Move.refused (move : Move settings tool t u) {n : Nat} {call next : Call}
    {e : BrokerError} (before : t.calls[n]? = some call) (after : u.calls[n]? = some next)
    (is_open : call.outcome? = none) (ended : next.outcome? = some (.error e)) :
    call.Looks ∧ Refused call.id t e ∧ u.records = t.records ∧ u.jobs = t.jobs := by
  cases move.turn before after with
  | still =>
      rw [is_open] at ended
      cases ended
  | refused h verdict records jobs =>
      cases ended
      exact ⟨Call.looks_iff.mpr h, admission_eq_error_iff.mp verdict, records, jobs⟩
  | admitted h verdict =>
      rw [Call.outcome?, Call.goOn, admitted_run] at ended
      cases ended
  | proceeding begun unfinished =>
      rw [Call.outcome?, Call.goOn, unfinished] at ended
      cases ended
  | launched begun jobs => cases ended

/-- What a job writes at its end is what its runner has returned. -/
theorem Move.concludes (move : Move settings tool t u) (order : ∀ id, Orderly id t) {n : Nat}
    {work next : Activity} {outcome : Except BrokerError Unit} (before : t.jobs[n]? = some work)
    (after : u.jobs[n]? = some next) (is_open : work.outcome? = none)
    (ended : next.outcome? = some outcome) :
    ∃ result, work.Returned settings result ∧ Concludes t u work result ∧
      outcome = result.outcome := by
  obtain ⟨result, record, now, log, passed, key, hLog, written, rfl⟩ :=
    move.exists_recorded before after is_open ended
  obtain ⟨current, hCurrent, hOperation, hReads⟩ :=
    (order work.id).running work (List.mem_of_getElem? before) ⟨rfl, is_open⟩
  have hRead : record ∈ work.readings := by
    rw [Activity.readings, hLog]
    simp [Exchange.reading, Exchange.reading?]
  obtain rfl := hReads record hRead
  refine ⟨result, ⟨log, passed, hLog ▸ List.prefix_append _ _⟩, ?_, rfl⟩
  cases result with
  | ok workspace =>
      refine .succeeded now hCurrent ?_
      rw [written, ← hOperation]
      rfl
  | error failed =>
      refine .failed now hCurrent ?_
      rw [written, ← hOperation]
      rcases failed with ⟨error, _ | workspace⟩ <;> rfl

/-- The outcome of a job stays what it is. -/
theorem Step.outcome? (step : Step settings tool t u) {n : Nat} {result : Except BrokerError Unit}
    (h : t.outcome? n = some result) : u.outcome? n = some result := by
  obtain ⟨work, hGet, hWork⟩ := Option.bind_eq_some_iff.mp h
  have hEnded : ∀ {request next}, work.rest ≠ .ask request next := by
    intro request next hRest
    rw [Activity.outcome?, hRest] at hWork
    cases hWork
  cases step with
  | arrive | call => exact h
  | start member asks =>
      have hLength := (List.getElem?_eq_some_iff.mp hGet).1
      rw [Traffic.outcome?, List.getElem?_append_left hLength]
      exact h
  | @job m other request next reply after member asks answered =>
      have hSlot : m ≠ n := by
        rintro rfl
        rw [hGet] at member
        cases member
        exact hEnded asks
      rw [Traffic.outcome?, List.getElem?_set_ne hSlot]
      exact h
  | @cancel m other member =>
      rw [Traffic.outcome?]
      by_cases hSlot : m = n
      · subst hSlot
        rw [hGet] at member
        cases member
        rw [List.getElem?_set_self (List.getElem?_eq_some_iff.mp hGet).1]
        exact hWork
      · rw [List.getElem?_set_ne hSlot]
        exact h

theorem Run.outcome? {limit : Traffic → Prop} (run : Run settings tool limit t u) {n : Nat}
    {result : Except BrokerError Unit} (h : t.outcome? n = some result) :
    u.outcome? n = some result := by
  induction run with
  | refl => exact h
  | tail _ last _ ih => exact last.outcome? ih

/-- A call that ended without being refused has started the job whose number it was given. -/
def Started (t : Traffic) : Prop :=
  ∀ call ∈ t.calls, ∀ n, call.outcome? = some (.ok n) →
    ∃ work, t.jobs[n]? = some work ∧ work.id = call.id ∧ work.job = call.job

/-- A call on record has been there before, or has just come in. -/
theorem Step.origin (step : Step settings tool t u) {n : Nat} {next : Call}
    (h : u.calls[n]? = some next) :
    (∃ call, t.calls[n]? = some call) ∨ ∃ id job, next = .arriving id job := by
  have hSet {m : Nat} {new : Call} (hGet : (t.calls.set m new)[n]? = some next) :
      ∃ call, t.calls[n]? = some call := by
    have hLength := (List.getElem?_eq_some_iff.mp hGet).1
    rw [List.length_set] at hLength
    exact ⟨_, List.getElem?_eq_getElem hLength⟩
  cases step with
  | arrive id job =>
      rcases getElem?_concat_cases h with ⟨-, rfl⟩ | hOld
      · exact .inr ⟨id, job, rfl⟩
      · exact .inl ⟨next, hOld⟩
  | call | start => exact .inl (hSet h)
  | job | cancel => exact .inl ⟨next, h⟩

theorem Move.started (move : Move settings tool t u) (step : Step settings tool t u)
    (started : Started t) : Started u := by
  have hKept {n : Nat} {work : Activity} (hGet : t.jobs[n]? = some work) :
      ∃ next, u.jobs[n]? = some next ∧ next.id = work.id ∧ next.job = work.job := by
    obtain ⟨next, hNext⟩ := step.exists_job hGet
    refine ⟨next, hNext, ?_⟩
    cases move.job_turn hGet hNext <;> exact ⟨rfl, rfl⟩
  intro next member n ended
  obtain ⟨m, hNext⟩ := List.mem_iff_getElem?.mp member
  rcases step.origin hNext with ⟨call, hCall⟩ | ⟨id, job, rfl⟩
  · cases move.turn hCall hNext with
    | still =>
        obtain ⟨work, hWork, hId, hJob⟩ := started _ (List.mem_of_getElem? hCall) n ended
        obtain ⟨later, hLater, hLaterId, hLaterJob⟩ := hKept hWork
        exact ⟨later, hLater, hLaterId.trans hId, hLaterJob.trans hJob⟩
    | refused => cases ended
    | admitted =>
        rw [Call.outcome?, Call.goOn, admitted_run] at ended
        cases ended
    | proceeding begun unfinished =>
        rw [Call.outcome?, Call.goOn, unfinished] at ended
        cases ended
    | launched begun jobs =>
        cases ended
        exact ⟨_, jobs ▸ List.getElem?_concat_length, rfl, rfl⟩
  · rw [Call.outcome?, Call.arriving, dispatch_run] at ended
    cases ended

theorem Run.started {limit : Traffic → Prop} {start : Traffic} (quiet : Quiet id start)
    (run : Run settings tool limit start t) : Started t := by
  induction run with
  | refl => simp [Started, quiet.calls]
  | tail prior last _ ih => exact ((prior.grounded quiet.grounded).move last).started last ih

end Traffic

end ServiceBroker
