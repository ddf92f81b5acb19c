import ServiceBroker.Broker.World
import ServiceBroker.Proofs.Job.Effort

/-! Work that nobody disturbs. In a world in which no job is at work, whatever is done in the
foreground is answered request by request, and a job that is started and joined comes to what it
would have come to in the foreground: each round of the background takes it to its next run of the
tool, and there are rounds enough. -/

namespace ServiceBroker

namespace World

variable {α : Type} {world after : World}

/-- No job is at work or about to be. -/
structure AtRest (world : World) : Prop where
  ended : ∀ task ∈ world.tasks, ∃ outcome, task.state = .ended outcome
  queue : world.queue = []

/-- What is answered to a request while nobody else is at work. A run of the tool takes its time and
ends. -/
def serve : (request : JobRequest) → World → request.Reply × World
  | .store call, world => world.callStore call
  | .now, world => (world.clock world.time, world)
  | .tool run, world =>
    let (ongoing, world) := world.begin run
    (world.conclude ongoing, { world with time := ongoing.due })

/-- The same world with other jobs. -/
def employ (world : World) (tasks : List Task) (queue : List Nat) : World :=
  { world with tasks, queue }

theorem AtRest.serve (rest : world.AtRest) (request : JobRequest) :
    (World.serve request world).2.AtRest := by
  cases request <;> exact ⟨rest.ended, rest.queue⟩

theorem AtRest.due? (rest : world.AtRest) : ∀ task ∈ world.tasks, Task.due? task = none := by
  intro task member
  obtain ⟨outcome, hEnded⟩ := rest.ended task member
  rw [Task.due?, hEnded]

/-- Where no job is at work none goes on. -/
theorem AtRest.settle (rest : world.AtRest) : world.settle = world := by
  have hNone : world.dueNow = [] := by
    refine List.filter_eq_nil_iff.mpr fun handle _ => ?_
    cases hTask : world.tasks[handle]? with
    | none => simp
    | some task => simp [rest.due? task (List.mem_of_getElem? hTask)]
  rw [World.settle, hNone, rest.queue]
  change { world with queue := [] } = world
  rw [← rest.queue]

theorem AtRest.nextDue? (rest : world.AtRest) : world.nextDue? = none := by
  rw [World.nextDue?, List.filterMap_eq_nil_iff.mpr rest.due?]
  rfl

/-- Where no job is at work, time passes and nothing else happens. -/
theorem AtRest.waitUntil (rest : world.AtRest) {time : Nat} (h : world.time ≤ time) :
    world.waitUntil time = { world with time } := by
  rw [World.waitUntil]
  split
  · next hPast =>
      obtain rfl := Nat.le_antisymm h hPast
      rfl
  · simp only [manyRounds, runUntil, rest.settle, rest.nextDue?]
    exact if_neg Bool.false_ne_true

/-- A run of the tool is waited for until it ends. -/
theorem AtRest.await (rest : world.AtRest) {ongoing : OngoingRun} (h : world.time ≤ ongoing.due) :
    world.await none ongoing = (world.conclude ongoing, { world with time := ongoing.due }) := by
  change ((world.waitUntil ongoing.due).conclude ongoing, world.waitUntil ongoing.due) = _
  rw [rest.waitUntil h]
  rfl

/-- What is done in the foreground is answered request by request. -/
theorem AtRest.work (rest : world.AtRest) (program : JobProgram α) :
    world.work none program.toBroker = program.run World.serve world := by
  induction program generalizing world with
  | done value => rfl
  | ask request next ih =>
      refine Eq.trans ?_ (ih _ (rest.serve request))
      cases request with
      | store call | now => rfl
      | tool run =>
          have begun : (world.begin run).2.AtRest := ⟨rest.ended, rest.queue⟩
          have hDue : world.time ≤ (world.begin run).1.due := Nat.le_add_right _ _
          have hAwait : (world.begin run).2.await none (world.begin run).1 =
              World.serve (.tool run) world := begun.await hDue
          exact congrArg
            (fun served => work none (JobProgram.toBroker (next served.1)) served.2) hAwait

/-- A job that goes on ends or comes to wait for a run of the tool. What it comes to in the end is
what it would come to alone. -/
theorem advance_cases {program : JobProgram (Except BrokerError Unit)} {n : Nat}
    (few : program.RunsAtMost n) (world : World) :
    (∃ outcome after, advance false program world = (.ended outcome, after) ∧
        program.run World.serve world = (outcome, after)) ∨
      ∃ m < n, ∃ ongoing next after, advance false program world = (.busy ongoing next, after) ∧
        (∀ answer, (next answer).RunsAtMost m) ∧
        program.run World.serve world =
          (next (after.conclude ongoing)).run World.serve { after with time := ongoing.due } := by
  induction few generalizing world with
  | done value n => exact .inl ⟨value, world, rfl, rfl⟩
  | store later ih => exact ih _ _
  | now later ih => exact ih _ _
  | @tool run next n later ih =>
      by_cases hDue : (world.begin run).1.due ≤ world.time
      · -- The run ends at once, and no time has passed.
        have hAdvance : advance false (.ask (I := jobInterface) (.tool run) next) world =
            advance false (next ((world.begin run).2.conclude (world.begin run).1))
              (world.begin run).2 := if_pos hDue
        have hNow : (world.begin run).1.due = world.time :=
          Nat.le_antisymm hDue (Nat.le_add_right _ _)
        have hRun : Program.run serve (.ask (I := jobInterface) (.tool run) next) world =
            (next ((world.begin run).2.conclude (world.begin run).1)).run serve
              { (world.begin run).2 with time := world.time } :=
          congrArg (fun time => (next ((world.begin run).2.conclude (world.begin run).1)).run serve
            { (world.begin run).2 with time }) hNow
        rw [hAdvance, hRun]
        refine (ih _ _).imp id ?_
        rintro ⟨m, hFewer, busy⟩
        exact ⟨m, by omega, busy⟩
      · exact .inr ⟨n, n.lt_succ_self, (world.begin run).1, next, (world.begin run).2, if_neg hDue,
          later, rfl⟩

/-- Nobody looks at the jobs while one of them goes on. -/
theorem advance_employ (program : JobProgram (Except BrokerError Unit)) (world : World)
    (tasks : List Task) (queue : List Nat) :
    advance false program (world.employ tasks queue) =
      ((advance false program world).1, (advance false program world).2.employ tasks queue) := by
  induction program generalizing world with
  | done outcome => rfl
  | ask request next ih =>
      cases request with
      | store call => exact ih (world.callStore call).1 (world.callStore call).2
      | now => exact ih (world.clock world.time) world
      | tool run =>
          have hGoOn (world : World) :
              advance false (.ask (I := jobInterface) (.tool run) next) world =
              if (world.begin run).1.due ≤ world.time then
                advance false (next ((world.begin run).2.conclude (world.begin run).1))
                  (world.begin run).2
              else (.busy (world.begin run).1 next, (world.begin run).2) := rfl
          by_cases hDue : (world.begin run).1.due ≤ world.time
          · refine (if_pos hDue).trans ((ih _ (world.begin run).2).trans ?_)
            rw [hGoOn, if_pos hDue]
            rfl
          · refine (if_neg hDue).trans ?_
            rw [hGoOn, if_neg hDue]
            rfl

section Background

variable {others : List Task} {task : Task} {n rounds : Nat}
  {program : JobProgram (Except BrokerError Unit)}

/-- All jobs but the last one have ended. -/
theorem dueNow_last (ended : ∀ task ∈ others, Task.due? task = none) (queue : List Nat) :
    (world.employ (others ++ [task]) queue).dueNow =
      if (Task.due? task).any (· ≤ world.time) && !queue.contains others.length then [others.length]
      else [] := by
  have hOthers : (List.range others.length).filter (fun handle =>
      ((others ++ [task])[handle]?.bind Task.due?).any (· ≤ world.time) &&
        !queue.contains handle) = [] := by
    refine List.filter_eq_nil_iff.mpr fun handle hHandle => ?_
    have hLength := List.mem_range.mp hHandle
    rw [List.getElem?_append_left hLength, List.getElem?_eq_getElem hLength, Option.bind_some,
      ended _ (List.getElem_mem hLength)]
    simp
  change (List.range (others ++ [task]).length).filter (fun handle =>
    ((others ++ [task])[handle]?.bind Task.due?).any (· ≤ world.time) &&
      !queue.contains handle) = _
  rw [List.length_append, List.length_singleton, List.range_succ, List.filter_append, hOthers,
    List.nil_append]
  simp only [List.filter_cons, List.filter_nil, List.getElem?_concat_length, Option.bind_some]

/-- The last job goes on with a program. -/
theorem resumeAt_last (h : (world.employ (others ++ [task]) []).resume task =
      advance false program (world.employ (others ++ [task]) [])) :
    (world.employ (others ++ [task]) []).resumeAt others.length =
      (advance false program world).2.employ
        (others ++ [{ task with state := (advance false program world).1 }]) [] := by
  have hTask : (world.employ (others ++ [task]) []).tasks[others.length]? = some task :=
    List.getElem?_concat_length
  simp only [resumeAt, hTask, h, advance_employ]
  simp [employ]

theorem settle_ready (ended : ∀ task ∈ others, Task.due? task = none) {id : String} {job : Job} :
    (world.employ (others ++ [{ id, job, state := .ready program }]) [others.length]).settle =
      (advance false program world).2.employ
        (others ++ [{ id, job, state := (advance false program world).1 }]) [] := by
  let task : Task := { id, job, state := .ready program }
  have hDue := @dueNow_last world others task ended [others.length]
  have hResume : (world.employ (others ++ [task]) []).resume task =
      advance false program (world.employ (others ++ [task]) []) := rfl
  rw [settle, hDue]
  exact resumeAt_last hResume

theorem settle_busy (ended : ∀ task ∈ others, Task.due? task = none) {id : String} {job : Job}
    {ongoing : OngoingRun}
    {next : Except BrokerError ToolReport → JobProgram (Except BrokerError Unit)}
    (due : ongoing.due ≤ world.time) :
    (world.employ (others ++ [{ id, job, state := .busy ongoing next }]) []).settle =
      (advance false (next (world.conclude ongoing)) world).2.employ
        (others ++
          [{ id, job, state := (advance false (next (world.conclude ongoing)) world).1 }]) [] := by
  let task : Task := { id, job, state := .busy ongoing next }
  have hDue := @dueNow_last world others task ended []
  have hNow : ((Task.due? task).any (· ≤ world.time) &&
      !([] : List Nat).contains others.length) = true := by
    simpa [task, Task.due?] using due
  have hResume : (world.employ (others ++ [task]) []).resume task =
      advance false (next (world.conclude ongoing)) (world.employ (others ++ [task]) []) :=
    if_pos due
  rw [settle, hDue, if_pos hNow]
  exact resumeAt_last hResume

theorem outcome?_last (state : TaskState) {id : String} {job : Job} {queue : List Nat} :
    (world.employ (others ++ [{ id, job, state := state }]) queue).outcome? others.length =
      match state with
      | .ended outcome => some outcome
      | _ => none := by
  let task : Task := { id, job, state := state }
  have hTask : (world.employ (others ++ [task]) queue).tasks[others.length]? = some task :=
    List.getElem?_concat_length
  rw [outcome?, hTask]
  cases state <;> rfl

/-- The background takes the last job to its end. Each round but the last one ends a run of the
tool. -/
theorem runUntil_last (ended : ∀ task ∈ others, Task.due? task = none) {id : String} {job : Job}
    (few : program.RunsAtMost n) (enough : n < rounds) {start : World}
    (h : start.settle = (advance false program world).2.employ
      (others ++ [{ id, job, state := (advance false program world).1 }]) []) :
    start.runUntil (fun world => (world.outcome? others.length).isSome) none rounds =
      (program.run serve world).2.employ
        (others ++ [{ id, job, state := .ended (program.run serve world).1 }]) [] := by
  -- The program that is left after a round runs the tool less often, so that it needs fewer rounds.
  induction rounds generalizing n program world start with
  | zero => exact absurd enough (Nat.not_lt_zero _)
  | succ rounds ih =>
      rcases advance_cases few world with
        ⟨outcome, after, hAdvance, hRun⟩ | ⟨m, hFewer, ongoing, next, after, hAdvance, fewer, hRun⟩
      · rw [hAdvance] at h
        simp only [runUntil, h, hRun, outcome?_last]
        rfl
      · rw [hAdvance] at h
        have hNext : start.settle.nextDue? = some ongoing.due := by
          rw [h]
          let task : Task := { id, job, state := .busy ongoing next }
          change ((others ++ [task]).filterMap Task.due?).min? = _
          rw [List.filterMap_append, List.filterMap_eq_nil_iff.mpr ended]
          rfl
        let later : World := { after with time := ongoing.due }
        have hSettle := @settle_busy later others ended id job ongoing next (Nat.le_refl _)
        have hLater := ih (fewer (after.conclude ongoing)) (by omega) hSettle
        rw [hRun]
        refine Eq.trans ?_ hLater
        simp only [runUntil, hNext]
        rw [h]
        simp only [outcome?_last]
        rfl

end Background

/-- Whoever joins a job that has not ended lets the background run until it has. -/
theorem join_of_open {handle : Nat} {outcome : Except BrokerError Unit}
    (h : world.outcome? handle = none)
    (hRun : world.runUntil (fun world => (world.outcome? handle).isSome) none world.manyRounds =
      after)
    (hAfter : after.outcome? handle = some outcome) : world.join handle = (outcome, after) := by
  simp [join, h, hRun, hAfter]

/-- A job that is started and joined while nobody else is at work comes to what it would come to in
the foreground. -/
theorem AtRest.join_start (rest : world.AtRest) (id : String) (job : Job) :
    (world.start id job).2.join (world.start id job).1 =
      (((job.task world.settings id).run World.serve world).1,
        ((job.task world.settings id).run World.serve world).2.employ
          (world.tasks ++ [{
            id, job
            state := .ended ((job.task world.settings id).run World.serve world).1 }]) []) := by
  have hStart : (world.start id job).2 = world.employ
      (world.tasks ++ [{ id, job, state := .ready (job.task world.settings id) }])
      [world.tasks.length] := by
    rw [start, rest.queue]
    rfl
  have hRounds : world.settings.path.length + 4 < manyRounds (world.start id job).2 := by
    have hTasks : (world.start id job).2.tasks.length = world.tasks.length + 1 := by
      rw [hStart]
      exact List.length_append
    rw [manyRounds, hTasks, Nat.succ_mul]
    exact Nat.lt_succ_of_le (Nat.le_add_left _ _)
  have hOpen : (world.start id job).2.outcome? world.tasks.length = none := by
    rw [hStart, outcome?_last]
  have hSettle := @settle_ready world world.tasks (job.task world.settings id) rest.due? id job
  have hRun := runUntil_last rest.due? (Job.task_runsAtMost world.settings id job) hRounds
    (hStart ▸ hSettle)
  exact join_of_open hOpen hRun (outcome?_last _)

end World

end ServiceBroker
