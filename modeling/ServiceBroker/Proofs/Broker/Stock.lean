import ServiceBroker.Proofs.Broker.Chronicle

/-! What holds of every workspace of a deployment that is stored. A workspace comes into the record
from a job, and a call writes back the one that it has read. So what holds at first and of all that
jobs return holds at all times, in whatever way calls and jobs overlap. -/

namespace ServiceBroker

namespace Traffic

/-- Something holds of the workspace in the record of a deployment, of those that a call is about to
write back, and of those that a job has read. -/
structure Stocked (good : Bytes → Prop) (id : String) (t : Traffic) : Prop where
  records : ∀ record, t.records.get? id = some record → good record.workspace
  calls : ∀ call ∈ t.calls, call.id = id → ∀ record now,
    call.rest = marking call.id call.job record ∨
      call.rest = writing call.id call.job record now → good record.workspace
  jobs : ∀ work ∈ t.jobs, work.id = id → ∀ record ∈ work.readings, good record.workspace

variable {settings : UpgradeSettings} {tool : ToolBehavior} {limit : Traffic → Prop} {t u : Traffic}
  {id : String} {good : Bytes → Prop}

theorem Stocked.set_call (stocked : Stocked good id t) {n : Nat} {next : Call}
    (h : next.id = id → ∀ record now, next.rest = marking next.id next.job record ∨
      next.rest = writing next.id next.job record now → good record.workspace) :
    Stocked good id { t with calls := t.calls.set n next } where
  records := stocked.records
  calls other hMember := by
    rcases List.mem_or_eq_of_mem_set hMember with hOld | rfl
    · exact stocked.calls other hOld
    · exact h
  jobs := stocked.jobs

theorem Stocked.set_job (stocked : Stocked good id t) {n : Nat} {next : Activity}
    (h : next.id = id → ∀ record ∈ next.readings, good record.workspace) :
    Stocked good id { t with jobs := t.jobs.set n next } where
  records := stocked.records
  calls := stocked.calls
  jobs other hMember := by
    rcases List.mem_or_eq_of_mem_set hMember with hOld | rfl
    · exact stocked.jobs other hOld
    · exact h

theorem Stocked.put (stocked : Stocked good id t) (record : Record)
    (h : record.id = id → good record.workspace) :
    Stocked good id { t with records := t.records.put record.id record } where
  records found hFound := by
    change Fields.get? (t.records.put record.id record) id = some found at hFound
    rw [Records.get?_put] at hFound
    split at hFound
    · next hId =>
        cases hFound
        exact h hId.symm
    · exact stocked.records found hFound
  calls := stocked.calls
  jobs := stocked.jobs

/-- What holds of all workspaces that were read holds of all that are written, if no job returns one
of which it does not hold. -/
theorem Move.stocked (move : Move settings tool t u) (stocked : Stocked good id t)
    (returns : ∀ work ∈ t.jobs, work.id = id → ∀ result returned,
      work.Returned settings result → result.workspace? = some returned → good returned.toBytes) :
    Stocked good id u := by
  cases move with
  | arrive other job =>
      refine ⟨stocked.records, fun call hMember => ?_, stocked.jobs⟩
      rcases List.mem_append.mp hMember with hOld | hNew
      · exact stocked.calls call hOld
      · rw [List.mem_singleton.mp hNew]
        rintro - record now (hRest | hRest)
        · exact (marking_ne_arriving _ _ _ hRest.symm).elim
        · exact (writing_ne_arriving _ _ _ _ hRest.symm).elim
  | refuse member h refused =>
      exact stocked.set_call (by rintro - record now (hRest | hRest) <;> cases hRest)
  | allow member h hFound idle =>
      refine stocked.set_call ?_
      rintro - record now (hRest | hRest)
      · exact (admitted_ne_marking _ _ _ hRest).elim
      · exact (admitted_ne_writing _ _ _ _ hRest).elim
  | @reread n call record member h hFound =>
      refine stocked.set_call ?_
      rintro rfl seen now (hRest | hRest)
      · rw [← workspace_eq_of_marking hRest]
        exact stocked.records record hFound
      · cases hRest
  | @date n call record now member key h =>
      refine stocked.set_call ?_
      rintro hId seen later (hRest | hRest)
      · cases hRest
      · rw [← workspace_eq_of_writing hRest]
        exact stocked.calls call (List.mem_of_getElem? member) hId record now (.inl h)
  | @mark n call record now member key h =>
      have hPut : Stocked good id
          { t with records := t.records.put record.id (record.started call.job.operation now) } :=
        stocked.put (record.started call.job.operation now) fun hId =>
          stocked.calls call (List.mem_of_getElem? member) (key.symm.trans hId) record now (.inr h)
      exact hPut.set_call (by rintro - seen later (hRest | hRest) <;> cases hRest)
  | @start n call member h =>
      have hCall : Stocked good id
          { t with calls := t.calls.set n (call.goOn (.done (.ok t.jobs.length))) } :=
        stocked.set_call (by rintro - seen later (hRest | hRest) <;> cases hRest)
      refine ⟨hCall.records, hCall.calls, fun work hMember => ?_⟩
      rcases List.mem_append.mp hMember with hOld | hNew
      · exact stocked.jobs work hOld
      · rw [List.mem_singleton.mp hNew]
        rintro - record ⟨⟩
  | @work n work request reply rest member open_before open_after stage allowed current =>
      refine stocked.set_job fun hId record hRead => ?_
      rw [Activity.readings_goOn] at hRead
      rcases List.mem_append.mp hRead with hOld | hNew
      · exact stocked.jobs work (List.mem_of_getElem? member) hId record hOld
      · have hCurrent := current record (Option.mem_toList.mp hNew)
        have hWork : work.id = id := hId
        rw [hWork] at hCurrent
        exact stocked.records record hCurrent
  | @record n work result record now log member passed key hLog h =>
      have hWork := List.mem_of_getElem? member
      have hReadings (hId : work.id = id) := stocked.jobs work hWork hId
      have hRead : record ∈ work.readings := by
        rw [Activity.readings, hLog]
        simp [Exchange.reading, Exchange.reading?]
      have hWritten (hId : work.id = id) : good (record.settled result now).workspace := by
        rw [Record.settled_workspace, JobResult.kept]
        cases hReturned : result.workspace? with
        | none => exact hReadings hId record hRead
        | some returned =>
            exact returns work hWork hId result returned
              ⟨log, passed, hLog ▸ List.prefix_append _ _⟩ hReturned
      have hPut := stocked.put (record.settled result now) fun hId =>
        hWritten (key.symm.trans ((Record.settled_id ..).symm.trans hId))
      rw [Record.settled_id] at hPut
      refine hPut.set_job fun hId seen hSeen => hReadings hId seen ?_
      -- The last two requests of the job are no readings.
      rw [Activity.readings, hLog, List.filterMap_append]
      change seen ∈ List.filterMap Exchange.reading? (log ++ _) at hSeen
      rw [List.filterMap_append] at hSeen
      exact hSeen
  | @cancel n work member =>
      exact stocked.set_job fun hId => stocked.jobs work (List.mem_of_getElem? member) hId

theorem Quiet.stocked (quiet : Quiet id t)
    (first : ∀ record, t.records.get? id = some record → good record.workspace) :
    Stocked good id t :=
  ⟨first, by simp [quiet.calls], by simp [quiet.jobs]⟩

/-- A job goes by the same name as before, and what it has asked it has asked. -/
theorem Move.log_prefix (move : Move settings tool t u) {n : Nat} {work next : Activity}
    (before : t.jobs[n]? = some work) (after : u.jobs[n]? = some next) :
    next.id = work.id ∧ next.job = work.job ∧ work.log <+: next.log := by
  cases move.job_turn before after with
  | still isCancelled => exact ⟨rfl, rfl, List.prefix_refl _⟩
  | working open_before open_after => exact ⟨rfl, rfl, List.prefix_append _ _⟩
  | @recorded result record now log passed key hLog h written =>
      refine ⟨rfl, rfl, [.writing (record.settled result now)], ?_⟩
      rw [hLog]
      simp

end Traffic

end ServiceBroker
