import ServiceBroker.Proofs.Broker.Move

/-! When at most one job works on a deployment at a time. A deployment is held by the call that has
marked it and not yet started its job, and then by the job until its outcome is recorded. As long
as no two calls stand between finding a deployment idle and marking it, its record is in progress
exactly while somebody holds it, and nobody else does at the same time. -/

namespace ServiceBroker

/-- Who is admitted has found a record that is not in progress and whose workspace can be read. -/
theorem admission_eq_ok_iff {id : String} {record : Record} :
    admission id (.ok record) = .ok () ↔
      record.isInProgress = false ∧
        ∃ workspace, Workspace.ofBytes record.workspace = .ok workspace := by
  simp only [admission]
  cases record.isInProgress <;> cases Workspace.ofBytes record.workspace <;> simp

theorem Record.settled_isInProgress (record : Record) (result : JobResult) (now : Timestamp) :
    (record.settled result now).isInProgress = false := by
  rcases result with ⟨error, _ | workspace⟩ | workspace <;> rfl

theorem workspace_eq_of_writing {id : String} {job : Job} {first second : Record}
    {now later : Timestamp} (h : writing id job first now = writing id job second later) :
    first.workspace = second.workspace := by
  injection h with hRequest
  injection hRequest with hCall
  injection hCall with hPut
  injection hPut with hRecord
  show (first.started job.operation now).workspace = (second.started job.operation later).workspace
  rw [hRecord]

theorem workspace_eq_of_marking {id : String} {job : Job} {first second : Record}
    (h : marking id job first = marking id job second) : first.workspace = second.workspace := by
  injection h with hRequest hNext
  exact workspace_eq_of_writing (congrFun hNext first.updated)

namespace Traffic

/-- A call on the deployment has marked it and is about to start its job. -/
def Call.Starts (id : String) (call : Call) : Prop :=
  call.id = id ∧ call.rest = starting call.id call.job

/-- A job on the deployment has not recorded its outcome yet. -/
def Activity.Works (id : String) (work : Activity) : Prop :=
  work.id = id ∧ work.outcome? = none

/-- Who holds a deployment: a call by its number, or a job by its number. -/
def Holds (id : String) (t : Traffic) : Nat ⊕ Nat → Prop
  | .inl n => ∃ call, t.calls[n]? = some call ∧ call.Starts id
  | .inr n => ∃ work, t.jobs[n]? = some work ∧ work.Works id

/-- What the call is about to write keeps the workspace of a record. -/
def Call.Keeps (call : Call) (record : Record) : Prop :=
  ∀ seen now, call.rest = marking call.id call.job seen ∨
    call.rest = writing call.id call.job seen now → seen.workspace = record.workspace

/-- A deployment is in progress exactly while somebody holds it; only one can. Whoever is about to
mark it, holds it or works on it has seen the record as it is. -/
structure Orderly (id : String) (t : Traffic) : Prop where
  holder : ∃ holder : Option (Nat ⊕ Nat), (∀ slot, t.Holds id slot ↔ holder = some slot) ∧
    ((t.records.get? id).any Record.isInProgress = holder.isSome)
  window : ∀ call ∈ t.calls, call.id = id → call.InWindow →
    ∃ record, t.records.get? id = some record ∧ admission id (.ok record) = .ok () ∧
      call.Keeps record
  marked : ∀ call ∈ t.calls, call.Starts id →
    ∃ record, t.records.get? id = some record ∧ record.operation = call.job.operation
  running : ∀ work ∈ t.jobs, work.Works id →
    ∃ record, t.records.get? id = some record ∧ record.operation = work.job.operation ∧
      ∀ seen ∈ work.readings, seen = record

variable {settings : UpgradeSettings} {tool : ToolBehavior} {t u : Traffic} {id : String}

/-- A record in progress has one holder. -/
theorem Orderly.holder_unique (order : Orderly id t) {first second : Nat ⊕ Nat}
    (hFirst : t.Holds id first) (hSecond : t.Holds id second) : first = second := by
  obtain ⟨holder, hHolds, -⟩ := order.holder
  exact Option.some.inj (((hHolds first).mp hFirst).symm.trans ((hHolds second).mp hSecond))

/-- Nobody holds a deployment while a call finds it idle or is about to mark it. -/
theorem Orderly.not_holds_of_window (order : Orderly id t) {call : Call} (member : call ∈ t.calls)
    (hId : call.id = id) (hWindow : call.InWindow) (slot : Nat ⊕ Nat) : ¬t.Holds id slot := by
  intro hHolds
  obtain ⟨record, hFound, idle, -⟩ := order.window call member hId hWindow
  obtain ⟨holder, hHolder, hProgress⟩ := order.holder
  rw [hFound, (hHolder slot).mp hHolds] at hProgress
  simp [(admission_eq_ok_iff.mp idle).1] at hProgress

/-- A call that did not hold the deployment and does not come to hold it changes no holder. -/
theorem holds_set_call {n : Nat} {call next : Call} (member : t.calls[n]? = some call)
    (before : ¬call.Starts id) (after : ¬next.Starts id) (slot : Nat ⊕ Nat) :
    Holds id { t with calls := t.calls.set n next } slot ↔ t.Holds id slot := by
  cases slot with
  | inr m => exact Iff.rfl
  | inl m =>
      simp only [Holds, List.getElem?_set]
      by_cases hSlot : n = m
      · subst hSlot
        obtain ⟨hLength, hGet⟩ := List.getElem?_eq_some_iff.mp member
        simp [hLength, hGet, before, after]
      · simp [hSlot]

theorem holds_set_job {n : Nat} {work next : Activity} (member : t.jobs[n]? = some work)
    (same : next.Works id ↔ work.Works id) (slot : Nat ⊕ Nat) :
    Holds id { t with jobs := t.jobs.set n next } slot ↔ t.Holds id slot := by
  cases slot with
  | inl m => exact Iff.rfl
  | inr m =>
      simp only [Holds, List.getElem?_set]
      by_cases hSlot : n = m
      · subst hSlot
        obtain ⟨hLength, hGet⟩ := List.getElem?_eq_some_iff.mp member
        simp [hLength, hGet, same]
      · simp [hSlot]

/-- A call goes on without touching the records or coming to hold the deployment. -/
theorem Orderly.set_call (order : Orderly id t) {n : Nat} {call next : Call}
    (member : t.calls[n]? = some call) (before : ¬call.Starts id) (after : ¬next.Starts id)
    (window : next.id = id → next.InWindow → ∃ record, t.records.get? id = some record ∧
      admission id (.ok record) = .ok () ∧ next.Keeps record) :
    Orderly id { t with calls := t.calls.set n next } where
  holder := by
    obtain ⟨holder, hHolds, hProgress⟩ := order.holder
    exact ⟨holder, fun slot => (holds_set_call member before after slot).trans (hHolds slot),
      hProgress⟩
  window other hMember hId hWindow := by
    rcases List.mem_or_eq_of_mem_set hMember with hOld | rfl
    · exact order.window other hOld hId hWindow
    · exact window hId hWindow
  marked other hMember hStarts := by
    rcases List.mem_or_eq_of_mem_set hMember with hOld | rfl
    · exact order.marked other hOld hStarts
    · exact (after hStarts).elim
  running := order.running

/-- A job goes on without touching the records; what it reads is what stands there. -/
theorem Orderly.set_job (order : Orderly id t) {n : Nat} {work next : Activity}
    (member : t.jobs[n]? = some work) (same : next.Works id ↔ work.Works id)
    (hJob : next.job = work.job)
    (reads : work.Works id → ∀ record, t.records.get? id = some record →
      (∀ seen ∈ work.readings, seen = record) → ∀ seen ∈ next.readings, seen = record) :
    Orderly id { t with jobs := t.jobs.set n next } where
  holder := by
    obtain ⟨holder, hHolds, hProgress⟩ := order.holder
    exact ⟨holder, fun slot => (holds_set_job member same slot).trans (hHolds slot), hProgress⟩
  window := order.window
  marked := order.marked
  running other hMember hWorks := by
    rcases List.mem_or_eq_of_mem_set hMember with hOld | rfl
    · exact order.running other hOld hWorks
    · have hBefore := same.mp hWorks
      obtain ⟨record, hFound, hOperation, hReads⟩ :=
        order.running work (List.mem_of_getElem? member) hBefore
      exact ⟨record, hFound, hJob ▸ hOperation, reads hBefore record hFound hReads⟩

theorem not_starts_of_rest {call : Call} (h : call.rest ≠ starting call.id call.job) :
    ¬call.Starts id :=
  fun hStarts => h hStarts.2

theorem arriving_ne_starting (id : String) (job : Job) :
    (dispatch id job).run ≠ starting id job :=
  (starting_ne_arriving id job).symm

theorem admitted_ne_starting (id : String) (job : Job) :
    (admitted id job).run ≠ starting id job := by
  intro h
  rw [admitted_run] at h
  cases h

theorem admitted_ne_marking (id : String) (job : Job) (record : Record) :
    (admitted id job).run ≠ marking id job record := by
  intro h
  rw [admitted_run] at h
  cases h

theorem admitted_ne_writing (id : String) (job : Job) (record : Record) (now : Timestamp) :
    (admitted id job).run ≠ writing id job record now := by
  intro h
  rw [admitted_run] at h
  cases h

theorem not_inWindow_of_starts {call : Call} (h : call.rest = starting call.id call.job) :
    ¬call.InWindow := by
  intro hWindow
  cases hWindow with
  | admitted hRest => exact admitted_ne_starting _ _ (hRest.symm.trans h)
  | marking record hRest | writing record now hRest =>
      rw [h] at hRest
      cases hRest

/-- What is written about another deployment does not matter. -/
theorem Orderly.put (order : Orderly id t) {record : Record} (other : record.id ≠ id) :
    Orderly id { t with records := t.records.put record.id record } := by
  have hSame : Fields.get? (t.records.put record.id record) id = t.records.get? id := by
    rw [Records.get?_put, if_neg (Ne.symm other)]
  refine ⟨?_, ?_, ?_, ?_⟩
  · simpa only [Holds, hSame] using order.holder
  · simpa only [hSame] using order.window
  · simpa only [hSame] using order.marked
  · simpa only [hSame] using order.running

/-- The call that marks a deployment comes to hold it; nobody held it, and no other call was about
to mark it. -/
theorem Orderly.mark (order : Orderly id t) (separate : Separate id t) {n : Nat} {call : Call}
    {record : Record} {now : Timestamp} (member : t.calls[n]? = some call)
    (key : record.id = call.id) (h : call.rest = writing call.id call.job record now) :
    Orderly id
      { t with
        records := t.records.put record.id (record.started call.job.operation now)
        calls := t.calls.set n (call.goOn (starting call.id call.job)) } := by
  have hBefore : ¬call.Starts id := not_starts_of_rest (h ▸ by rintro ⟨⟩)
  by_cases hId : call.id = id
  · have hWindow : call.InWindow := .writing record now h
    have hNobody := order.not_holds_of_window (List.mem_of_getElem? member) hId hWindow
    have hFound : Fields.get? (t.records.put record.id (record.started call.job.operation now)) id =
        some (record.started call.job.operation now) := by
      rw [← hId, ← key]
      exact Fields.get?_put_self ..
    refine ⟨⟨some (.inl n), ?_, by rw [hFound]; rfl⟩, ?_, ?_, ?_⟩
    · rintro (m | m)
      · simp only [Holds, Option.some.injEq, Sum.inl.injEq]
        constructor
        · rintro ⟨other, hOther, hStarts⟩
          rcases getElem?_set_cases hOther with ⟨rfl, -⟩ | ⟨-, hOld⟩
          · rfl
          · exact (hNobody (.inl m) ⟨other, hOld, hStarts⟩).elim
        · rintro rfl
          have hLength := (List.getElem?_eq_some_iff.mp member).1
          exact ⟨_, List.getElem?_set_self hLength, hId, rfl⟩
      · have hNone := hNobody (.inr m)
        simpa [Holds] using hNone
    · intro other hMember hOther hOtherWindow
      obtain ⟨m, hGet⟩ := List.mem_iff_getElem?.mp hMember
      rcases getElem?_set_cases hGet with ⟨-, rfl⟩ | ⟨hSlot, hOld⟩
      · exact (not_inWindow_of_starts rfl hOtherWindow).elim
      · exact (hSlot (separate m n other call hOld member hOther hId hOtherWindow hWindow)).elim
    · intro other hMember hStarts
      obtain ⟨m, hGet⟩ := List.mem_iff_getElem?.mp hMember
      rcases getElem?_set_cases hGet with ⟨-, rfl⟩ | ⟨-, hOld⟩
      · exact ⟨_, hFound, rfl⟩
      · exact (hNobody (.inl m) ⟨other, hOld, hStarts⟩).elim
    · intro work hMember hWorks
      obtain ⟨m, hGet⟩ := List.mem_iff_getElem?.mp hMember
      exact (hNobody (.inr m) ⟨work, hGet, hWorks⟩).elim
  · have hOther : (record.started call.job.operation now).id ≠ id := fun e => hId (key.symm.trans e)
    have hOrder := order.put hOther
    exact hOrder.set_call member hBefore (fun hStarts => hId hStarts.1)
      (fun e _ => (hId e).elim)

theorem Activity.starting_outcome? (id : String) (job : Job) :
    (Activity.starting settings id job).outcome? = none :=
  value?_task id (job.run settings id)

/-- The number of a job that was there before, or of the one that was just started. -/
theorem getElem?_concat_cases {α : Type} {entries : List α} {m : Nat} {new entry : α}
    (h : (entries ++ [new])[m]? = some entry) :
    (m = entries.length ∧ entry = new) ∨ entries[m]? = some entry := by
  rw [List.getElem?_append] at h
  split at h
  · exact .inr h
  · next hLength =>
      obtain ⟨hZero, hEntry⟩ := List.getElem?_eq_some_iff.mp h
      simp only [List.length_singleton] at hZero
      have hIndex : m = entries.length := by omega
      subst hIndex
      exact .inl ⟨rfl, by simpa using hEntry.symm⟩

/-- The call that holds a deployment hands it over to its job. -/
theorem Orderly.start (order : Orderly id t) {n : Nat} {call : Call}
    (member : t.calls[n]? = some call) (h : call.rest = ServiceBroker.starting call.id call.job) :
    Orderly id
      { t with
        calls := t.calls.set n (call.goOn (.done (.ok t.jobs.length)))
        jobs := t.jobs ++ [.starting settings call.id call.job] } := by
  have hEnded : ¬(call.goOn (.done (.ok t.jobs.length))).Starts id := by
    rintro ⟨-, hRest⟩
    cases hRest
  refine ⟨?_, ?_, ?_, ?_⟩
  · obtain ⟨holder, hHolds, hProgress⟩ := order.holder
    by_cases hId : call.id = id
    · have hCall : t.Holds id (.inl n) := ⟨call, member, hId, h⟩
      have hHolder := (hHolds _).mp hCall
      refine ⟨some (.inr t.jobs.length), ?_, by rw [hProgress, hHolder]; rfl⟩
      rintro (m | m)
      · simp only [Option.some.injEq, reduceCtorEq, iff_false]
        rintro ⟨other, hOther, hStarts⟩
        rcases getElem?_set_cases hOther with ⟨-, rfl⟩ | ⟨hSlot, hOld⟩
        · exact hEnded hStarts
        · have hHeld : t.Holds id (.inl m) := ⟨other, hOld, hStarts⟩
          exact hSlot (Sum.inl.inj (order.holder_unique hHeld hCall))
      · simp only [Option.some.injEq, Sum.inr.injEq]
        constructor
        · rintro ⟨other, hOther, hWorks⟩
          rcases getElem?_concat_cases hOther with ⟨rfl, -⟩ | hOld
          · rfl
          · have hHeld : t.Holds id (.inr m) := ⟨other, hOld, hWorks⟩
            cases order.holder_unique hCall hHeld
        · rintro rfl
          exact ⟨_, List.getElem?_concat_length, hId, Activity.starting_outcome? _ _⟩
    · refine ⟨holder, ?_, hProgress⟩
      rintro (m | m)
      · refine (holds_set_call member (fun hStarts => hId hStarts.1) hEnded (.inl m)).trans ?_
        exact hHolds (.inl m)
      · rw [← hHolds (.inr m)]
        constructor
        · rintro ⟨other, hOther, hWorks⟩
          rcases getElem?_concat_cases hOther with ⟨-, rfl⟩ | hOld
          · exact (hId hWorks.1).elim
          · exact ⟨other, hOld, hWorks⟩
        · rintro ⟨other, hOther, hWorks⟩
          have hLength := (List.getElem?_eq_some_iff.mp hOther).1
          exact ⟨other, by rw [List.getElem?_append_left hLength]; exact hOther, hWorks⟩
  · intro other hMember hOther hWindow
    rcases List.mem_or_eq_of_mem_set hMember with hOld | rfl
    · exact order.window other hOld hOther hWindow
    · cases hWindow with
      | admitted hRest =>
          rw [admitted_run] at hRest
          cases hRest
      | marking record hRest | writing record now hRest => cases hRest
  · intro other hMember hStarts
    rcases List.mem_or_eq_of_mem_set hMember with hOld | rfl
    · exact order.marked other hOld hStarts
    · exact (hEnded hStarts).elim
  · intro work hMember hWorks
    rcases List.mem_append.mp hMember with hOld | hNew
    · exact order.running work hOld hWorks
    · rw [List.mem_singleton.mp hNew] at hWorks ⊢
      obtain ⟨record, hFound, hOperation⟩ :=
        order.marked call (List.mem_of_getElem? member) ⟨hWorks.1, h⟩
      exact ⟨record, hFound, hOperation, by simp [Activity.readings, Activity.starting]⟩

/-- The job that records its outcome gives its deployment free. -/
theorem Orderly.record (order : Orderly id t) {n : Nat} {work next : Activity} {record : Record}
    (member : t.jobs[n]? = some work) (is_open : work.outcome? = none)
    (key : record.id = work.id) (idle : record.isInProgress = false) (hId : next.id = work.id)
    (hJob : next.job = work.job) (ended : next.outcome? ≠ none) :
    Orderly id
      { t with
        records := t.records.put record.id record
        jobs := t.jobs.set n next } := by
  by_cases hSame : work.id = id
  · have hWork : t.Holds id (.inr n) := ⟨work, member, hSame, is_open⟩
    have hFree : ∀ slot, Holds id
        { t with
          records := t.records.put record.id record
          jobs := t.jobs.set n next } slot → False := by
      rintro (m | m) ⟨other, hOther, hHolds⟩
      · have hHeld : t.Holds id (.inl m) := ⟨other, hOther, hHolds⟩
        cases order.holder_unique hWork hHeld
      · rcases getElem?_set_cases hOther with ⟨-, rfl⟩ | ⟨hSlot, hOld⟩
        · exact ended hHolds.2
        · have hHeld : t.Holds id (.inr m) := ⟨other, hOld, hHolds⟩
          cases order.holder_unique hWork hHeld
          exact hSlot rfl
    have hFound : Fields.get? (t.records.put record.id record) id = some record := by
      rw [← hSame, ← key]
      exact Fields.get?_put_self ..
    have hNone : ∀ slot, Holds id _ slot ↔ none = some slot := fun slot =>
      ⟨fun hHolds => (hFree slot hHolds).elim, by rintro ⟨⟩⟩
    refine ⟨⟨none, hNone, ?_⟩, ?_, ?_, ?_⟩
    · rw [hFound]
      exact idle
    · intro other hMember hOther hWindow
      exact (order.not_holds_of_window hMember hOther hWindow _ hWork).elim
    · intro other hMember hStarts
      obtain ⟨m, hGet⟩ := List.mem_iff_getElem?.mp hMember
      exact (hFree (.inl m) ⟨other, hGet, hStarts⟩).elim
    · intro other hMember hWorks
      obtain ⟨m, hGet⟩ := List.mem_iff_getElem?.mp hMember
      exact (hFree (.inr m) ⟨other, hGet, hWorks⟩).elim
  · have hOther : record.id ≠ id := fun e => hSame (key.symm.trans e)
    refine (order.put hOther).set_job member ?_ hJob ?_
    · exact ⟨fun hWorks => (hSame (hId.symm.trans hWorks.1)).elim,
        fun hWorks => (hSame hWorks.1).elim⟩
    · exact fun hWorks => (hSame hWorks.1).elim

theorem not_inWindow_of_arriving {call : Call} (h : call.rest = (dispatch call.id call.job).run) :
    ¬call.InWindow := by
  intro hWindow
  cases hWindow with
  | admitted hRest => exact arriving_ne_admitted _ _ (h.symm.trans hRest)
  | marking record hRest => exact marking_ne_arriving _ _ _ (hRest.symm.trans h)
  | writing record now hRest => exact writing_ne_arriving _ _ _ _ (hRest.symm.trans h)

theorem not_inWindow_of_done {call : Call} {outcome : Except BrokerError Nat}
    (h : call.rest = .done outcome) : ¬call.InWindow := by
  intro hWindow
  cases hWindow with
  | admitted hRest =>
      rw [h, admitted_run] at hRest
      cases hRest
  | marking record hRest | writing record now hRest =>
      rw [h] at hRest
      cases hRest

/-- A call that comes in knows nothing yet. -/
theorem Orderly.arrive (order : Orderly id t) (other : String) (job : Job) :
    Orderly id { t with calls := t.calls ++ [.arriving other job] } := by
  have hNew : ¬(Call.arriving other job).Starts id :=
    not_starts_of_rest (arriving_ne_starting other job)
  refine ⟨?_, ?_, ?_, order.running⟩
  · obtain ⟨holder, hHolds, hProgress⟩ := order.holder
    refine ⟨holder, ?_, hProgress⟩
    rintro (m | m)
    · rw [← hHolds (.inl m)]
      constructor
      · rintro ⟨call, hGet, hStarts⟩
        rcases getElem?_concat_cases hGet with ⟨-, rfl⟩ | hOld
        · exact (hNew hStarts).elim
        · exact ⟨call, hOld, hStarts⟩
      · rintro ⟨call, hGet, hStarts⟩
        have hLength := (List.getElem?_eq_some_iff.mp hGet).1
        exact ⟨call, by rw [List.getElem?_append_left hLength]; exact hGet, hStarts⟩
    · exact hHolds (.inr m)
  · intro call hMember hId hWindow
    rcases List.mem_append.mp hMember with hOld | hLast
    · exact order.window call hOld hId hWindow
    · rw [List.mem_singleton.mp hLast] at hWindow
      exact (not_inWindow_of_arriving rfl hWindow).elim
  · intro call hMember hStarts
    rcases List.mem_append.mp hMember with hOld | hLast
    · exact order.marked call hOld hStarts
    · rw [List.mem_singleton.mp hLast] at hStarts
      exact (hNew hStarts).elim

theorem Activity.readings_goOn (work : Activity) (request : JobRequest) (reply : request.Reply)
    (rest : JobProgram (Except BrokerError Unit)) :
    (work.goOn request reply rest).readings =
      work.readings ++ (Exchange.reading? ⟨request, reply⟩).toList := by
  rw [Activity.readings, Activity.goOn, List.filterMap_append, List.filterMap_cons]
  cases Exchange.reading? ⟨request, reply⟩ <;> rfl

/-- A move keeps a deployment in order if no two calls are about to mark it. -/
theorem Move.orderly (move : Move settings tool t u) (separate : Separate id t)
    (order : Orderly id t) : Orderly id u := by
  cases move with
  | arrive other job => exact order.arrive other job
  | refuse member h refused =>
      refine order.set_call member (not_starts_of_rest (h ▸ arriving_ne_starting _ _)) ?_ ?_
      · exact not_starts_of_rest (by rintro ⟨⟩)
      · exact fun _ hWindow => (not_inWindow_of_done rfl hWindow).elim
  | @allow n call record member h hFound idle =>
      refine order.set_call member (not_starts_of_rest (h ▸ arriving_ne_starting _ _)) ?_ ?_
      · exact not_starts_of_rest (admitted_ne_starting _ _)
      · rintro rfl -
        refine ⟨record, hFound, idle, ?_⟩
        rintro seen now (hRest | hRest)
        · exact (admitted_ne_marking _ _ _ hRest).elim
        · exact (admitted_ne_writing _ _ _ _ hRest).elim
  | @reread n call record member h hFound =>
      refine order.set_call member (not_starts_of_rest (h ▸ admitted_ne_starting _ _)) ?_ ?_
      · exact not_starts_of_rest (by rintro ⟨⟩)
      · intro hId _
        obtain ⟨current, hCurrent, idle, -⟩ :=
          order.window call (List.mem_of_getElem? member) hId (.admitted h)
        refine ⟨current, hCurrent, idle, ?_⟩
        rw [← hId] at hCurrent
        obtain rfl : record = current := Option.some.inj (hFound.symm.trans hCurrent)
        rintro seen now (hRest | hRest)
        · exact (workspace_eq_of_marking hRest).symm
        · cases hRest
  | @date n call record now member key h =>
      refine order.set_call member (not_starts_of_rest (h ▸ by rintro ⟨⟩)) ?_ ?_
      · exact not_starts_of_rest (by rintro ⟨⟩)
      · intro hId _
        obtain ⟨current, hCurrent, idle, hKeeps⟩ :=
          order.window call (List.mem_of_getElem? member) hId (.marking record h)
        refine ⟨current, hCurrent, idle, ?_⟩
        rintro seen later (hRest | hRest)
        · cases hRest
        · exact (workspace_eq_of_writing hRest).symm.trans (hKeeps record now (.inl h))
  | mark member key h => exact order.mark separate member key h
  | start member h => exact order.start member h
  | @work n work request reply rest member open_before open_after stage allowed current =>
      refine order.set_job member ?_ rfl ?_
      · exact ⟨fun hWorks => ⟨hWorks.1, open_before⟩, fun hWorks => ⟨hWorks.1, open_after⟩⟩
      · intro hWorks record hFound hReads seen hSeen
        rw [Activity.readings_goOn] at hSeen
        rcases List.mem_append.mp hSeen with hOld | hNew
        · exact hReads seen hOld
        · have hRead := current seen (Option.mem_toList.mp hNew)
          rw [hWorks.1, hFound] at hRead
          exact (Option.some.inj hRead).symm
  | @record n work result record now log member passed key hLog h =>
      have hOpen : work.outcome? = none := by
        rw [Activity.outcome?, h]
        rfl
      have hIdle := Record.settled_isInProgress record result now
      rw [← Record.settled_id record result now] at key ⊢
      exact order.record member hOpen key hIdle rfl rfl (by rintro ⟨⟩)
  | cancel member => exact order.set_job member Iff.rfl rfl fun _ _ _ hReads => hReads

/-- Nobody has called yet, and no operation is in progress on the deployment. -/
structure Quiet (id : String) (t : Traffic) : Prop where
  keyed : t.records.Keyed
  calls : t.calls = []
  jobs : t.jobs = []
  idle : (t.records.get? id).any Record.isInProgress = false

theorem Quiet.grounded (quiet : Quiet id t) : Grounded settings tool t where
  keyed := quiet.keyed
  calls := by simp [quiet.calls]
  jobs := by simp [quiet.jobs]
  present := by simp [quiet.jobs]
  allowed := by simp [quiet.jobs]

theorem Quiet.separate (quiet : Quiet id t) (other : String) : Separate other t := by
  intro m n first second hFirst
  simp [quiet.calls] at hFirst

theorem Quiet.orderly (quiet : Quiet id t) : Orderly id t where
  holder := by
    refine ⟨none, ?_, quiet.idle⟩
    rintro (m | m) <;> simp [Holds, quiet.calls, quiet.jobs]
  window := by simp [quiet.calls]
  marked := by simp [quiet.calls]
  running := by simp [quiet.jobs]

variable {limit : Traffic → Prop}

theorem Run.grounded (run : Run settings tool limit t u) (ground : Grounded settings tool t) :
    Grounded settings tool u := by
  induction run with
  | refl => exact ground
  | tail _ last _ ih => exact (ih.move last).grounded ih

theorem Run.within (run : Run settings tool limit t u) (first : limit t) : limit u := by
  cases run with
  | refl => exact first
  | tail _ _ within => exact within

/-- A deployment stays in order as long as no two calls are about to mark it. -/
theorem Run.orderly (run : Run settings tool limit t u) (ground : Grounded settings tool t)
    (narrow : ∀ v, limit v → Separate id v) (first : limit t) (order : Orderly id t) :
    Orderly id u := by
  induction run with
  | refl => exact order
  | tail prior last _ ih =>
      have hMove := (prior.grounded ground).move last
      exact hMove.orderly (narrow _ (prior.within first)) ih

/-- The record of a database that was provisioned once; its workspace holds nothing. -/
def restingRecord : Record where
  id := "tf:db:"
  workspace := Bytes.ofText "\x7b\"modules\":[],\"instances\":[]\x7d"
  operation := .provision
  state := .succeeded
  created := { date := { year := 2020, month := 1, day := 1 }, hour := 0, minute := 0 }
  updated := { date := { year := 2020, month := 1, day := 1 }, hour := 0, minute := 0 }

/-- A broker that has only this record. -/
def resting : Traffic where
  records := Fields.put [] restingRecord.id restingRecord

/-- No upgrades, and one version of the tool. -/
def plainSettings : UpgradeSettings where
  enabled := false
  defaultVersion := { major := 1, minor := 6, patch := 0 }
  path := []

theorem quiet_resting (id : String) : Quiet id resting where
  keyed := Records.keyed_empty.put restingRecord
  calls := rfl
  jobs := rfl
  idle := by
    rw [resting, Records.get?_put]
    split <;> rfl

theorem admission_resting : admission "tf:db:" (.ok restingRecord) = .ok () := by
  rfl

end Traffic

end ServiceBroker
