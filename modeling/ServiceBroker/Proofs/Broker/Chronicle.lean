import ServiceBroker.Proofs.Broker.Exclusion

/-! The jobs of one deployment, in the order in which they were started. As long as its jobs are
kept apart they follow one another, and each of them begins with the workspace that the one before
it has left in the record. -/

namespace ServiceBroker

/-- The stored workspace when a job has ended that began with `loaded`. -/
def JobResult.kept (loaded : Bytes) (result : JobResult) : Bytes :=
  result.workspace?.elim loaded Workspace.toBytes

theorem Record.settled_workspace (record : Record) (result : JobResult) (now : Timestamp) :
    (record.settled result now).workspace = result.kept record.workspace := by
  rcases result with ⟨error, _ | workspace⟩ | workspace <;> rfl

namespace Traffic

/-- A job that began with the stored workspace `loaded` and has recorded its outcome. -/
inductive Activity.Ran (settings : UpgradeSettings) (tool : ToolBehavior) (work : Activity)
    (loaded : Bytes) : JobResult → Prop where
  | intro {log : List (Exchange jobInterface)} {result : JobResult} {record : Record}
      {now : Timestamp} (run : (work.job.run settings work.id).Passes log (.done result))
      (hLog : work.log =
        log ++ [.reading work.id record, .clock now, .writing (record.settled result now)])
      (loads : ∀ seen ∈ work.readings, seen.workspace = loaded)
      (allowed : ∀ exchange ∈ work.log, exchange.Allowed tool)
      (told : work.rest = .done result.outcome) : work.Ran settings tool loaded result

/-- Jobs that followed one another, from the stored workspace before the first one to that after
the last one. -/
inductive Chronicle (settings : UpgradeSettings) (tool : ToolBehavior) (first : Bytes) :
    List Activity → Bytes → Prop where
  | nil : Chronicle settings tool first [] first
  | snoc {works : List Activity} {loaded : Bytes} {work : Activity} {result : JobResult}
      (earlier : Chronicle settings tool first works loaded)
      (ran : work.Ran settings tool loaded result) :
      Chronicle settings tool first (works ++ [work]) (result.kept loaded)

/-- What a job has done, apart from having been told to stop. -/
def Activity.deeds (work : Activity) : Activity :=
  { work with isCancelled := false }

/-- The jobs of a deployment in the order in which they were started. -/
def jobsOn (id : String) (t : Traffic) : List Activity :=
  t.jobs.filter fun work => work.id = id

/-- What the jobs of a deployment have done. -/
def history (id : String) (jobs : List Activity) : List Activity :=
  (jobs.filter fun work => work.id = id).map Activity.deeds

/-- The jobs of a deployment followed one another, up to the one that is at work now. -/
structure Chronicled (settings : UpgradeSettings) (tool : ToolBehavior) (id : String)
    (first : Bytes) (t : Traffic) (done : List Activity) (running : Option Activity)
    (loaded : Bytes) : Prop where
  jobs : history id t.jobs = done ++ running.toList
  chronicle : Chronicle settings tool first done loaded
  is_open : ∀ work ∈ running, work.outcome? = none
  kept : ∀ record, t.records.get? id = some record → record.workspace = loaded

variable {settings : UpgradeSettings} {tool : ToolBehavior} {t u : Traffic} {id : String}
  {first loaded : Bytes} {done works jobs : List Activity} {running : Option Activity}

theorem Chronicle.ended (chronicle : Chronicle settings tool first works loaded) :
    ∀ work ∈ works, work.outcome? ≠ none := by
  induction chronicle with
  | nil => simp
  | snoc _ ran ih =>
      intro other member
      rcases List.mem_append.mp member with hOld | hNew
      · exact ih other hOld
      · rw [List.mem_singleton.mp hNew]
        obtain ⟨_, _, _, _, told⟩ := ran
        rw [Activity.outcome?, told]
        exact Option.some_ne_none _

theorem history_concat_self {work : Activity} (h : work.id = id) :
    history id (jobs ++ [work]) = history id jobs ++ [work.deeds] := by
  simp [history, h]

theorem history_concat_other {work : Activity} (h : work.id ≠ id) :
    history id (jobs ++ [work]) = history id jobs := by
  simp [history, h]

theorem take_append_cons_drop {n : Nat} {work : Activity} (member : jobs[n]? = some work) :
    jobs = jobs.take n ++ work :: jobs.drop (n + 1) := by
  obtain ⟨hLength, hGet⟩ := List.getElem?_eq_some_iff.mp member
  rw [← hGet, ← List.drop_eq_getElem_cons hLength, List.take_append_drop]

theorem set_eq_take_append_cons_drop {n : Nat} {work next : Activity}
    (member : jobs[n]? = some work) :
    jobs.set n next = jobs.take n ++ next :: jobs.drop (n + 1) := by
  rw [List.set_eq_take_append_cons_drop, if_pos (List.getElem?_eq_some_iff.mp member).1]

/-- The place of a job in the history of its deployment. -/
theorem history_set_self {n : Nat} {work : Activity} (next : Activity)
    (member : jobs[n]? = some work) (hWork : work.id = id) (hNext : next.id = id) :
    ∃ earlier later, history id jobs = earlier ++ work.deeds :: later ∧
      history id (jobs.set n next) = earlier ++ next.deeds :: later := by
  refine ⟨history id (jobs.take n), history id (jobs.drop (n + 1)), ?_, ?_⟩
  · have hSplit := congrArg (history id) (take_append_cons_drop member)
    simpa [history, hWork] using hSplit
  · rw [set_eq_take_append_cons_drop member]
    simp [history, hNext]

theorem history_set_other {n : Nat} {work next : Activity} (member : jobs[n]? = some work)
    (hWork : work.id ≠ id) (hNext : next.id = work.id) :
    history id (jobs.set n next) = history id jobs := by
  have hSplit := congrArg (history id) (take_append_cons_drop member)
  rw [set_eq_take_append_cons_drop member, hSplit]
  simp [history, hWork, hNext]

/-- Being told to stop is no deed. -/
theorem history_set_cancelled {n : Nat} {work : Activity} (member : jobs[n]? = some work) :
    history id (jobs.set n { work with isCancelled := true }) = history id jobs := by
  by_cases hId : work.id = id
  · obtain ⟨earlier, later, hBefore, hAfter⟩ :=
      history_set_self { work with isCancelled := true } member hId hId
    rw [hBefore, hAfter]
    rfl
  · exact history_set_other member hId rfl

/-- The job at work is the last one in the history. -/
theorem Chronicled.last (told : Chronicled settings tool id first t done running loaded)
    {earlier later : List Activity} {work : Activity}
    (hHistory : history id t.jobs = earlier ++ work :: later) (is_open : work.outcome? = none) :
    earlier = done ∧ later = [] ∧ running = some work := by
  have hEqual := told.jobs.symm.trans hHistory
  rcases List.append_eq_append_iff.mp hEqual with
    ⟨between, hEarlier, hRest⟩ | ⟨between, hDone, hRest⟩
  · cases running with
    | none => cases between <;> cases hRest
    | some other =>
        rcases between with _ | ⟨next, between⟩
        · cases hRest
          exact ⟨by simpa using hEarlier, rfl, rfl⟩
        · simp at hRest
  · rcases between with _ | ⟨next, between⟩
    · cases running with
      | none => cases hRest
      | some other =>
          cases hRest
          exact ⟨by simpa using hDone.symm, rfl, rfl⟩
    · cases hRest
      exact (told.chronicle.ended work (by simp [hDone]) is_open).elim

theorem mem_history {work : Activity} (member : work ∈ history id jobs) :
    ∃ (n : Nat) (other : Activity), jobs[n]? = some other ∧ other.id = id ∧ work = other.deeds := by
  obtain ⟨other, hOther, rfl⟩ := List.mem_map.mp member
  obtain ⟨hJobs, hId⟩ := List.mem_filter.mp hOther
  obtain ⟨n, hGet⟩ := List.mem_iff_getElem?.mp hJobs
  exact ⟨n, other, hGet, by simpa using hId, rfl⟩

/-- If nobody is at work when a job is started, it is the one at work from then on. -/
theorem Chronicled.start (told : Chronicled settings tool id first t done none loaded)
    {work : Activity} (hId : work.id = id) (is_open : work.outcome? = none) (calls : List Call) :
    Chronicled settings tool id first { t with calls, jobs := t.jobs ++ [work] } done
      (some work.deeds) loaded where
  jobs := by
    rw [history_concat_self hId, told.jobs]
    simp
  chronicle := told.chronicle
  is_open := by
    rintro other ⟨⟩
    exact is_open
  kept := told.kept

/-- A move that touches neither the record nor the jobs of a deployment tells nothing new. -/
theorem Chronicled.congr (told : Chronicled settings tool id first t done running loaded)
    (hJobs : history id u.jobs = history id t.jobs)
    (hRecord : u.records.get? id = t.records.get? id) :
    Chronicled settings tool id first u done running loaded where
  jobs := hJobs.trans told.jobs
  chronicle := told.chronicle
  is_open := told.is_open
  kept := hRecord ▸ told.kept

/-- A job that is at work holds its deployment. -/
theorem Chronicled.holds (told : Chronicled settings tool id first t done running loaded)
    {work : Activity} (h : running = some work) : ∃ m, t.Holds id (.inr m) := by
  have member : work ∈ history id t.jobs := by simp [told.jobs, h]
  obtain ⟨m, other, hGet, hId, rfl⟩ := mem_history member
  exact ⟨m, other, hGet, hId, told.is_open other.deeds h⟩

/-- What a job at work has read is what the jobs before it have left. -/
theorem Chronicled.loads (told : Chronicled settings tool id first t done running loaded)
    (order : Orderly id t) {work : Activity} (member : work ∈ t.jobs) (hWorks : work.Works id) :
    ∀ seen ∈ work.readings, seen.workspace = loaded := by
  obtain ⟨current, hCurrent, -, hReads⟩ := order.running work member hWorks
  intro seen hSeen
  rw [hReads seen hSeen]
  exact told.kept current hCurrent

/-- The jobs of a deployment keep following one another as long as they are kept apart. -/
theorem Move.chronicled (move : Move settings tool t u) (ground : Grounded settings tool t)
    (order : Orderly id t)
    (told : Chronicled settings tool id first t done running loaded) :
    ∃ done running loaded, Chronicled settings tool id first u done running loaded := by
  have hGround := move.grounded ground
  cases move with
  | arrive | refuse | allow | reread | date => exact ⟨_, _, _, told.congr rfl rfl⟩
  | @mark n call record now member key h =>
      refine ⟨done, running, loaded, told.jobs, told.chronicle, told.is_open, ?_⟩
      intro found hFound
      change Fields.get? (t.records.put (record.started call.job.operation now).id _) id = _ at hFound
      rw [Records.get?_put] at hFound
      split at hFound
      · next hId =>
          cases hFound
          -- The call writes the workspace that it has read, and nobody has changed it since.
          obtain ⟨current, hCurrent, -, hKeeps⟩ := order.window call (List.mem_of_getElem? member)
            (key.symm.trans hId.symm) (.writing record now h)
          rw [← told.kept current hCurrent]
          exact hKeeps record now (.inr h)
      · exact told.kept found hFound
  | @start n call member h =>
      by_cases hId : call.id = id
      · have hCall : t.Holds id (.inl n) := ⟨call, member, hId, h⟩
        cases running with
        | none => exact ⟨_, _, _, told.start hId (Activity.starting_outcome? _ _) _⟩
        | some work =>
            obtain ⟨m, hHeld⟩ := told.holds rfl
            cases order.holder_unique hCall hHeld
      · exact ⟨_, _, _, told.congr (history_concat_other hId) rfl⟩
  | @work n work request reply rest member open_before open_after stage allowed current =>
      by_cases hId : work.id = id
      · obtain ⟨earlier, later, hBefore, hAfter⟩ :=
          history_set_self (work.goOn request reply rest) member hId hId
        obtain ⟨rfl, rfl, -⟩ := told.last hBefore open_before
        refine ⟨earlier, some (work.goOn request reply rest).deeds, loaded, hAfter,
          told.chronicle, ?_, told.kept⟩
        rintro other ⟨⟩
        exact open_after
      · exact ⟨_, _, _, told.congr (history_set_other member hId rfl) rfl⟩
  | @record n work result record now log member passed key hLog h =>
      have hOpen : work.outcome? = none := by
        rw [Activity.outcome?, h]
        rfl
      have hLength := (List.getElem?_eq_some_iff.mp member).1
      have hWritten := Records.get?_put t.records (record.settled result now) id
      rw [Record.settled_id] at hWritten
      by_cases hId : work.id = id
      · have hRead : record ∈ work.readings := by
          rw [Activity.readings, hLog]
          simp [Exchange.reading, Exchange.reading?]
        have hLoads := told.loads order (List.mem_of_getElem? member) ⟨hId, hOpen⟩
        let next : Activity :=
          { work with
            log := log ++ [.reading work.id record, .clock now, .writing (record.settled result now)]
            rest := .done result.outcome }
        obtain ⟨earlier, later, hBefore, hAfter⟩ := history_set_self next member hId hId
        obtain ⟨rfl, rfl, -⟩ := told.last hBefore hOpen
        refine ⟨_, none, result.kept loaded, by simpa using hAfter, told.chronicle.snoc ?_,
          by rintro other ⟨⟩, ?_⟩
        · refine .intro passed rfl ?_ (hGround.allowed next (List.mem_set hLength next)) rfl
          intro seen hSeen
          refine hLoads seen ?_
          -- The last two requests of the job are no readings.
          change seen ∈ List.filterMap Exchange.reading? (log ++ _) at hSeen
          rw [Activity.readings, hLog]
          rw [List.filterMap_append] at hSeen ⊢
          exact hSeen
        · intro found hFound
          rw [hWritten, if_pos (hId.symm.trans key.symm)] at hFound
          cases hFound
          rw [Record.settled_workspace, hLoads record hRead]
      · refine ⟨_, _, _, told.congr (history_set_other member hId rfl) ?_⟩
        rw [hWritten, if_neg fun e => hId (key.symm.trans e.symm)]
  | cancel member => exact ⟨_, _, _, told.congr (history_set_cancelled member) rfl⟩

/-- Once all its jobs have ended, the history of a deployment is complete. -/
theorem Chronicled.complete (told : Chronicled settings tool id first t done running loaded)
    (ended : ∀ work ∈ t.jobsOn id, work.outcome? ≠ none) :
    (t.jobsOn id).map Activity.deeds = done := by
  have hHistory : (t.jobsOn id).map Activity.deeds = done ++ running.toList := told.jobs
  cases running with
  | none => simpa using hHistory
  | some work =>
      obtain ⟨m, other, hGet, hId, hOpen⟩ := told.holds rfl
      exact (ended other (by simp [jobsOn, List.mem_of_getElem? hGet, hId]) hOpen).elim

variable {limit : Traffic → Prop}

theorem Quiet.chronicled (quiet : Quiet id t)
    (kept : ∀ record, t.records.get? id = some record → record.workspace = first) :
    Chronicled settings tool id first t [] none first where
  jobs := by simp [history, quiet.jobs]
  chronicle := .nil
  is_open := by simp
  kept := kept

/-- The jobs of a deployment follow one another as long as they are kept apart. -/
theorem Run.chronicled (run : Run settings tool limit t u) (quiet : Quiet id t)
    (narrow : ∀ v, limit v → Separate id v) (within : limit t)
    (kept : ∀ record, t.records.get? id = some record → record.workspace = first) :
    ∃ done running loaded, Chronicled settings tool id first u done running loaded := by
  induction run with
  | refl => exact ⟨_, _, _, quiet.chronicled kept⟩
  | tail prior last _ ih =>
      obtain ⟨_, _, _, told⟩ := ih
      have ground := prior.grounded quiet.grounded
      exact (ground.move last).chronicled ground
        (prior.orderly quiet.grounded narrow within quiet.orderly) told

end Traffic

end ServiceBroker
