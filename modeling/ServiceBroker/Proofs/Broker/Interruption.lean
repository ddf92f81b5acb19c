import ServiceBroker.Proofs.Broker.Attempt

/-! What a job keeps that is told to stop. From that moment on no run of the tool is noted. If the
job had no run to wait for or to begin any more, it ends as if nobody had told it to stop; otherwise
it is cancelled. In either case its state is the one that the last run has written that had ended
by then. -/

namespace ServiceBroker

namespace ScriptedTool

/-- What a run of a scripted tool writes: nothing if it fails, and otherwise what its command
writes, if that writes a state. -/
theorem state?_scripted {tool : ScriptedTool} {run : ToolRun}
    {answer : Except BrokerError ToolReport} (h : Exchange.Scripted tool ⟨.tool run, answer⟩) :
    Exchange.state? ⟨.tool run, answer⟩ =
      if tool.fault? ⟨run.command, run.version⟩ = none ∧ run.command ≠ .showState ∧
        run.command ≠ .plan then some (tool.stateOf ⟨run.command, run.version⟩) else none := by
  cases hFault : tool.fault? ⟨run.command, run.version⟩ with
  | some reason =>
      rw [answer_of_fault h hFault, if_neg (by simp)]
      rfl
  | none =>
      rw [answer_of_sound h hFault]
      obtain ⟨command, version, workspace, resources⟩ := run
      cases command with
      | apply | destroy | importResources | showState | plan => rfl

end ScriptedTool

namespace Job

variable {settings : UpgradeSettings} {id : String} {job : Job} {record : Record}
  {loaded : Workspace} {log done commands more : List (Exchange jobInterface)}
  {rest : JobProgram JobResult} {alone result : JobResult} {tool : ScriptedTool}

/-- The work of a job goes on where it was told to stop, if it has a run of the tool to ask for,
with that run being cancelled. Otherwise it ends as it would have ended. -/
theorem stopped_cases (hLoaded : Workspace.ofBytes record.workspace = .ok loaded)
    (hDone : (job.workOn settings loaded).Passes done rest)
    (scripted : ∀ exchange ∈ done, exchange.Scripted tool) (hMore : rest.Passes more (.done result))
    (abandons : ∀ run answer, (⟨.tool run, answer⟩ : Exchange jobInterface) ∈ more →
      answer = World.cancelledRun)
    (hAlone : (job.workOn settings loaded).Passes commands (.done alone))
    (follows : ∀ exchange ∈ commands, exchange.Scripted tool) :
    (done = commands ∧ rest = .done alone ∧ more = [] ∧ result = alone) ∨
      ∃ run next answer later, rest = .ask (I := jobInterface) (.tool run) next ∧
        commands = done ++ ⟨.tool run, answer⟩ :: later ∧
        more = [.failing run (.job .cancelled)] ∧
        result = .error { error := .job .cancelled, workspace := some run.workspace } := by
  obtain ⟨left, rfl, hLeft⟩ := hDone.exists_rest hAlone fun request reply other hFirst hSecond => by
    obtain ⟨run, answer, hRun⟩ := exists_run_of_mem hDone hFirst
    cases hRun
    have hAnswer : answer = tool.conclude run (tool.reason? run) := scripted _ hFirst
    have hOther : other = tool.conclude run (tool.reason? run) := follows _ hSecond
    rw [hAnswer, hOther]
  cases rest with
  | done value =>
      obtain ⟨rfl, hResult⟩ := Program.done_passes_iff.mp hMore
      obtain ⟨rfl, hValue⟩ := Program.done_passes_iff.mp hLeft
      cases hResult
      cases hValue
      exact .inl ⟨(List.append_nil _).symm, rfl, rfl, rfl⟩
  | ask request next =>
      obtain ⟨reply, later, rfl, -⟩ := Program.ask_passes_done_iff.mp hLeft
      obtain ⟨run, answer, hRun⟩ := exists_run_of_mem hAlone
        (List.mem_append_right done List.mem_cons_self)
      cases hRun
      obtain ⟨stopped, afterwards, rfl, hAfter⟩ := Program.ask_passes_done_iff.mp hMore
      obtain rfl := abandons run stopped List.mem_cons_self
      have hFailed : (job.run settings record.id).Passes
          (.reading record.id record :: (done ++ .failing run (.job .cancelled) :: afterwards))
          (.done result) :=
        passes_of_workOn hLoaded (hDone.trans (.ask hAfter))
      obtain ⟨rfl, rfl⟩ := ((ended_of_passes hFailed).course hLoaded).of_failing
      exact .inr ⟨run, next, answer, later, rfl, rfl, rfl, rfl⟩

end Job

namespace Attempt

variable {world : World} {settings : UpgradeSettings} {id : String} {job : Job} {record : Record}
  {loaded : Workspace} {a b : Attempt} {later : List (Exchange jobInterface)} {result : JobResult}

/-- A job that was told to stop can come to its end. -/
theorem exists_end (a : Attempt) (cancelled : a.isCancelled = true) :
    ∃ b result, Run a b ∧ b.rest = .done result := by
  generalize hProgram : a.rest = program
  induction program generalizing a with
  | done result => exact ⟨a, result, .refl a, hProgram⟩
  | ask request next ih =>
      have hStep : ∃ reply : request.Reply, ∃ after,
          Step a (a.goOn after request reply (next reply)) := by
        cases request with
        | store call | now => exact ⟨_, _, .reply hProgram trivial⟩
        | tool run => exact ⟨_, _, .abandon hProgram cancelled⟩
      obtain ⟨reply, after, step⟩ := hStep
      obtain ⟨b, result, hRun, hDone⟩ :=
        ih reply (a.goOn after request reply (next reply)) cancelled rfl
      exact ⟨b, result, step.run.trans hRun, hDone⟩

/-- A job that is told to stop has ended some runs of the tool before, and what it asks for
afterwards is what is left of its work. -/
theorem Stopped.exists_rest (undisturbed : a.Undisturbed world settings id job)
    (stopped : Stopped id a b later) (h : world.store.records.get? id = some record)
    (hLoaded : Workspace.ofBytes record.workspace = .ok loaded) (ended : b.rest = .done result) :
    ∃ rest more, (job.workOn settings loaded).Passes a.ended rest ∧
      rest.Passes more (.done result) ∧
      (∀ run answer, (⟨.tool run, answer⟩ : Exchange jobInterface) ∈ more →
        answer = World.cancelledRun) ∧
      ∀ run next, a.rest = .ask (I := jobInterface) (.tool run) next → rest = a.rest := by
  have hLater := stopped.passes
  rw [ended] at hLater
  rcases Job.passes_cases undisturbed.passes with ⟨hLog, hRest⟩ | ⟨answer, done, hLog, hWork, -⟩
  · -- The job has not read the record yet, and does so before it learns that it is to stop.
    rw [hRest] at hLater
    rcases Job.passes_cases hLater with ⟨-, hDone⟩ | ⟨answer, more, hMore, hWork, -⟩
    · rw [Job.run_eq] at hDone
      cases hDone
    · have hAnswer := stopped.reads answer (by simp [hMore])
      rw [undisturbed.leaves.found id, Traffic.found_of_get? h] at hAnswer
      have hEnded : a.ended = [] := by rw [Attempt.ended, hLog]; rfl
      refine ⟨_, more, hEnded ▸ .refl _, hWork record loaded hAnswer hLoaded,
        fun run answer member => stopped.abandons run answer (by simp [hMore, member]),
        fun run next hAsks => ?_⟩
      rw [hRest, Job.run_eq] at hAsks
      cases hAsks
  · have hAnswer := undisturbed.reads answer (by simp [hLog])
    rw [Traffic.found_of_get? h] at hAnswer
    have hDone := hWork record loaded hAnswer hLoaded
    have hRuns : ∀ exchange ∈ done, exchange.isRun = true := by
      intro exchange member
      obtain ⟨run, answer, rfl⟩ := Job.exists_run_of_mem hDone member
      rfl
    have hEnded : a.ended = done := by
      rw [Attempt.ended, hLog, List.filter_cons_of_neg (by simp [Exchange.isRun]),
        List.filter_eq_self.mpr hRuns]
    exact ⟨a.rest, later, hEnded ▸ hDone, hLater, stopped.abandons, fun _ _ _ => rfl⟩

/-- A request that is no run of the tool is not noted. -/
theorem toolCalls_ended (a : Attempt) : toolCalls a.ended = toolCalls a.log := by
  rw [toolCalls, Attempt.ended, List.filterMap_filter, toolCalls]
  congr 1
  funext exchange
  obtain ⟨request, reply⟩ := exchange
  cases request <;> rfl

/-- A job that waits for a run of the tool has asked for it. -/
theorem Undisturbed.noted_cases (undisturbed : a.Undisturbed world settings id job) :
    a.noted = [] ∨ ∃ run next, a.rest = .ask (I := jobInterface) (.tool run) next ∧
      a.noted = [⟨run.command, run.version⟩] := by
  cases hOngoing : a.ongoing with
  | none =>
      rw [noted, hOngoing]
      exact .inl rfl
  | some ongoing =>
      obtain ⟨⟨next, hAsks⟩, -⟩ := undisturbed.waits ongoing hOngoing
      rw [noted, hOngoing]
      exact .inr ⟨ongoing.run, next, hAsks, rfl⟩

/-- How a job ends that was told to stop, compared with how it ends alone. -/
theorem Stopped.cases (undisturbed : a.Undisturbed world settings id job)
    (stopped : Stopped id a b later) (h : world.store.records.get? id = some record)
    (hLoaded : Workspace.ofBytes record.workspace = .ok loaded) (ended : b.rest = .done result)
    {commands : List (Exchange jobInterface)} {alone : JobResult}
    (hAlone : (job.workOn settings loaded).Passes commands (.done alone))
    (follows : ∀ exchange ∈ commands, exchange.Scripted world.tool) :
    (a.ended = commands ∧ a.noted = [] ∧ result = alone ∧
        Job.Course loaded a.ended result) ∨
      ∃ run answer rest, commands = a.ended ++ ⟨.tool run, answer⟩ :: rest ∧
        (a.noted = [] ∨ a.noted = [⟨run.command, run.version⟩]) ∧
        result = .error { error := .job .cancelled, workspace := some run.workspace } ∧
        Job.Course loaded (a.ended ++ [.failing run (.job .cancelled)]) result := by
  obtain ⟨rest, more, hDone, hMore, abandons, hWaits⟩ :=
    stopped.exists_rest undisturbed h hLoaded ended
  have hScripted : ∀ exchange ∈ a.ended, exchange.Scripted world.tool := fun exchange member =>
    undisturbed.scripted exchange (List.mem_filter.mp member).1
  have hPasses : (job.run settings id).Passes (.reading id record :: (a.ended ++ more))
      (.done result) := Job.passes_of_workOn hLoaded (hDone.trans hMore)
  have hCourse : Job.Course loaded (a.ended ++ more) result :=
    (Job.ended_of_passes hPasses).course hLoaded
  rcases Job.stopped_cases hLoaded hDone hScripted hMore abandons hAlone follows with
    ⟨hAll, hRest, rfl, hResult⟩ | ⟨run, next, answer, left, hRest, hCommands, rfl, hResult⟩
  · refine .inl ⟨hAll, ?_, hResult, by simpa using hCourse⟩
    rcases undisturbed.noted_cases with hNone | ⟨run, next, hAsks, -⟩
    · exact hNone
    · rw [hWaits run next hAsks, hAsks] at hRest
      cases hRest
  · refine .inr ⟨run, answer, left, hCommands, ?_, hResult, hCourse⟩
    rcases undisturbed.noted_cases with hNone | ⟨other, after, hAsks, hNoted⟩
    · exact .inl hNone
    · rw [hWaits other after hAsks, hAsks] at hRest
      cases hRest
      exact .inr hNoted

/-- Whatever a job can come to with these answers, it can come to while nobody disturbs it. -/
theorem Undisturbed.exists_run (undisturbed : a.Undisturbed world settings id job)
    (idle : a.ongoing = none) {log : List (Exchange jobInterface)} {rest : JobProgram JobResult}
    (passes : a.rest.Passes log rest) (answered : ∀ exchange ∈ log, exchange.Scripted world.tool)
    (reads : ∀ answer : Except StoreError Record,
      (⟨.store (.get id), answer⟩ : Exchange jobInterface) ∈ log →
        answer = world.traffic.found id) :
    ∃ b, Run a b ∧ b.Undisturbed world settings id job ∧ b.ongoing = none ∧
      b.log = a.log ++ log ∧ b.rest = rest := by
  generalize hProgram : a.rest = program at passes
  induction passes generalizing a with
  | refl => exact ⟨a, .refl a, undisturbed, idle, (List.append_nil _).symm, hProgram⟩
  | @ask request next reply log rest later ih =>
      -- The request is answered in some way, and there is but one way to answer it.
      have hAnswered : ∃ b reply', Run a b ∧ b.Undisturbed world settings id job ∧
          b.ongoing = none ∧ b.log = a.log ++ [⟨request, reply'⟩] ∧ b.rest = next reply' := by
        have hKind := undisturbed.asks hProgram
        cases request with
        | store call | now =>
            have step := Step.reply hProgram trivial
            exact ⟨_, _, step.run, undisturbed.step step undisturbed.active, rfl, rfl, rfl⟩
        | tool run =>
            let begun := (a.world.begin run).2
            let ongoing := (a.world.begin run).1
            let waiting : Attempt := { a with world := { begun with time := ongoing.due }, ongoing }
            have hWaiting : Run a waiting :=
              (Step.begin hProgram idle undisturbed.active).run.tail (.wait _ (Nat.le_add_right _ _))
            have hLater : waiting.Undisturbed world settings id job :=
              (undisturbed.step (.begin hProgram idle undisturbed.active) undisturbed.active).step
                (.wait _ (Nat.le_add_right _ _)) undisturbed.active
            have step := @Step.finish waiting ongoing _ hProgram rfl undisturbed.active
              (Nat.le_refl _)
            exact ⟨_, _, hWaiting.tail step, hLater.step step undisturbed.active, rfl, rfl, rfl⟩
      obtain ⟨b, reply', hRun, hNext, hIdle, hLog, hRest⟩ := hAnswered
      have hSame : reply' = reply := by
        rcases undisturbed.asks hProgram with rfl | hRuns
        · rw [reads reply List.mem_cons_self, hNext.reads reply' (by simp [hLog])]
        · cases request with
          | store call | now => exact hRuns.elim
          | tool run =>
              have hOld : reply = world.tool.conclude run (world.tool.reason? run) :=
                answered _ List.mem_cons_self
              have hNew : reply' = world.tool.conclude run (world.tool.reason? run) :=
                hNext.scripted ⟨.tool run, reply'⟩ (by simp [hLog])
              rw [hOld, hNew]
      subst hSame
      obtain ⟨c, hMore, hDone, hRested, hWhole, hLeft⟩ := ih hNext hIdle
        (fun exchange member => answered exchange (List.mem_cons_of_mem _ member))
        (fun answer member => reads answer (List.mem_cons_of_mem _ member)) hRest
      refine ⟨c, hRun.trans hMore, hDone, hRested, ?_, hLeft⟩
      rw [hWhole, hLog, List.append_assoc]
      rfl

theorem exists_run_of_passes (calm : world.Calm) (h : world.store.records.get? id = some record)
    (hLoaded : Workspace.ofBytes record.workspace = .ok loaded) {rest : JobProgram JobResult}
    {log : List (Exchange jobInterface)}
    (passes : (job.run settings id).Passes (.reading id record :: log) rest)
    (answered : ∀ exchange ∈ log, exchange.Scripted world.tool) :
    ∃ a, Run (starting world settings id job) a ∧ a.Undisturbed world settings id job ∧
      a.ongoing = none ∧ a.log = .reading id record :: log ∧ a.rest = rest := by
  refine (undisturbed_starting calm).exists_run rfl passes
    (List.forall_mem_cons.mpr ⟨trivial, answered⟩) fun answer member => ?_
  rcases List.mem_cons.mp member with hFirst | hLater
  · cases hFirst
    exact (Traffic.found_of_get? h).symm
  · obtain ⟨run, _, hRun⟩ := Job.exists_run_of_mem (Job.workOn_of_passes hLoaded passes) hLater
    cases hRun

/-- A job that is told to stop, at whatever moment: before it has begun, between two runs of the
tool, during one, or after the last one. The runs that had begun by then are the first ones of
those that the job comes to alone, all of them but at most one had ended, and no other run is noted
from then on. The job comes to an end. If all runs had ended that it comes to alone, it ends as it
does alone; otherwise it is cancelled, and so it is if a run was begun and had not ended. Apart
from that it can only fail because the last run has failed, or by a check of its own. In any case
the state of the workspace that it returns is the last one that was written by a run that had
ended, or the loaded one if none had written a state; a run writes one if it does not fail and is
neither a plan nor a showing. -/
theorem cancelled_keeps_state (calm : world.Calm)
    (h : world.store.records.get? id = some record)
    (hLoaded : Workspace.ofBytes record.workspace = .ok loaded)
    (before : Run (starting world settings id job) a) (active : a.isCancelled = false) :
    ∃ commands alone after, (job.run settings id).run World.serve world = (alone, after) ∧
      after.tool.calls = world.tool.calls ++ toolCalls commands ∧
      (∀ exchange ∈ commands, exchange.Scripted world.tool) ∧
      (∀ run answer, ⟨.tool run, answer⟩ ∈ commands → Exchange.state? ⟨.tool run, answer⟩ =
        if world.tool.fault? ⟨run.command, run.version⟩ = none ∧ run.command ≠ .showState ∧
          run.command ≠ .plan then some (world.tool.stateOf ⟨run.command, run.version⟩) else none) ∧
      a.ended <+: commands ∧
      a.world.tool.calls = world.tool.calls ++ toolCalls a.ended ++ a.noted ∧
      toolCalls a.ended ++ a.noted <+: toolCalls commands ∧
      (∃ b result, Run a.cancel b ∧ b.rest = .done result) ∧
      ∀ b, Run a.cancel b → b.world.tool.calls = a.world.tool.calls ∧
        ∀ result, b.rest = .done result →
          (a.ended = commands → result = alone) ∧
          (a.ended ≠ commands →
            ∃ kept, result = .error { error := .job .cancelled, workspace := some kept }) ∧
          (a.ongoing ≠ none → a.ended ≠ commands) ∧
          (∀ e, result.failure? = some e → e = .job .cancelled ∨ e.IsCheck ∨
            ∃ run, a.ended.getLast? = some (.failing run e)) ∧
          ∀ kept, result.workspace? = some kept →
            kept.state = stateLeft loaded.state a.ended := by
  obtain ⟨commands, passes, follows, hLeaves⟩ := calm.run_job h settings job
  have hAlone := Job.workOn_of_passes hLoaded passes
  have undisturbed := before.undisturbed calm active
  obtain ⟨last, ending, hRun, hEnding⟩ := exists_end a.cancel rfl
  obtain ⟨_, hStopped⟩ := hRun.stopped undisturbed
  have hCalls : a.world.tool.calls = world.tool.calls ++ toolCalls a.ended ++ a.noted := by
    rw [undisturbed.leaves.tool, toolCalls_ended, List.append_assoc]
  have hFirst : a.ended <+: commands ∧
      toolCalls a.ended ++ a.noted <+: toolCalls commands := by
    rcases hStopped.cases undisturbed h hLoaded hEnding hAlone follows with
      ⟨hAll, hNone, -, -⟩ | ⟨run, answer, rest, rfl, hNoted, -, -⟩
    · rw [hAll, hNone, List.append_nil]
      exact ⟨List.prefix_refl _, List.prefix_refl _⟩
    · refine ⟨List.prefix_append _ _, ?_⟩
      rw [toolCalls_append, List.prefix_append_right_inj]
      rcases hNoted with hNone | hOne
      · exact hNone ▸ List.nil_prefix
      · exact hOne ▸ ⟨toolCalls rest, rfl⟩
  refine ⟨commands, _, _, rfl, congrArg (·.calls) hLeaves.tool, follows,
    fun run answer member => ScriptedTool.state?_scripted (follows _ member), hFirst.1, hCalls,
    hFirst.2, ⟨last, ending, hRun, hEnding⟩, fun b hAfter => ?_⟩
  obtain ⟨later, stopped⟩ := hAfter.stopped undisturbed
  have hNone : b.world.tool.calls = a.world.tool.calls := by
    rw [stopped.leaves.tool, List.append_nil]
  refine ⟨hNone, fun result ended => ?_⟩
  rcases stopped.cases undisturbed h hLoaded ended hAlone follows with
    ⟨hAll, hNoted, hResult, course⟩ | ⟨run, answer, rest, hCommands, -, hResult, course⟩
  · have idle : a.ongoing = none := by simpa [noted] using hNoted
    exact ⟨fun _ => hResult, fun hOther => (hOther hAll).elim, fun hOngoing => (hOngoing idle).elim,
      fun e hFailure => .inr (course.failure hFailure), fun kept hKept => course.state hKept⟩
  · have hShort : a.ended ≠ commands := by
      intro hAll
      rw [← hAll] at hCommands
      simp at hCommands
    refine ⟨fun hAll => (hShort hAll).elim, fun _ => ⟨run.workspace, hResult⟩, fun _ => hShort,
      fun e hFailure => ?_, fun kept hKept => ?_⟩
    · rw [hResult] at hFailure
      exact .inl (Option.some.inj hFailure).symm
    · rw [course.state hKept, stateLeft_concat_failing]

section

open Traffic

/-- A deployment whose state the old version wrote, with a tool of which the last version is slow.
-/
def slowWorld : World where
  settings := upgradingSettings
  store := { records := (restingAt (ToolState.document oldVersion [])).records }
  tool := { delays := [(lastVersion, 30)] }
  clock := fun _ => restingRecord.created

theorem slowWorld_calm : slowWorld.Calm :=
  rfl

/-- An update comes to wait for the last version when the one in between was applied. -/
theorem exists_waiting : ∃ a,
    Run (starting slowWorld upgradingSettings restingRecord.id (.update [])) a ∧
      a.isCancelled = false ∧
      a.ended = [applying nextVersion (ToolState.document oldVersion [])
        (ToolState.document nextVersion [])] ∧
      a.noted = [⟨.apply, lastVersion⟩] := by
  let before := ToolState.document oldVersion []
  let between := ToolState.document nextVersion []
  let record := restingWith (modestWorkspace before).toBytes
  have passes : (Job.run upgradingSettings restingRecord.id (.update [])).Passes
      ([.reading restingRecord.id record, applying nextVersion before between] ++
        [crashing lastVersion between]) _ :=
    Job.passes_of_ends (ofBytes_restingWith _) rfl
      (ends_interrupted (stateVersion_modestWorkspace oldVersion))
  obtain ⟨rest, hFirst, hLast⟩ := passes.split
  have hScripted : ∀ exchange ∈ [applying nextVersion before between],
      exchange.Scripted slowWorld.tool := by
    intro exchange member
    rw [List.mem_singleton.mp member]
    rfl
  obtain ⟨a, hRun, undisturbed, idle, hLog, hRest⟩ :=
    exists_run_of_passes slowWorld_calm (get?_restingAt before) (ofBytes_restingWith _) hFirst
      hScripted
  obtain ⟨next, hAsks⟩ : ∃ next,
      rest = .ask (I := jobInterface) (.tool (application lastVersion between)) next := by
    cases hLast with
    | ask => exact ⟨_, rfl⟩
  refine ⟨_, hRun.tail (.begin (hRest.trans hAsks) idle undisturbed.active), undisturbed.active, ?_,
    rfl⟩
  rw [Attempt.ended, hLog]
  rfl

theorem cancelled_keeps_state_waiting : ∃ a b kept,
    Run (starting slowWorld upgradingSettings restingRecord.id (.update [])) a ∧
      a.isCancelled = false ∧ a.noted = [⟨.apply, lastVersion⟩] ∧ Run a.cancel b ∧
      b.rest = .done (.error { error := .job .cancelled, workspace := some kept }) ∧
      b.world.tool.calls = [⟨.apply, nextVersion⟩, ⟨.apply, lastVersion⟩] ∧
      kept.state = ToolState.document nextVersion [] := by
  obtain ⟨a, before, active, hEnded, hNoted⟩ := exists_waiting
  obtain ⟨commands, alone, after, -, -, -, -, -, hCalls, -, ⟨b, result, hRun, hDone⟩, hStops⟩ :=
    cancelled_keeps_state slowWorld_calm (get?_restingAt _) (ofBytes_restingWith _) before active
  obtain ⟨hSame, hResult⟩ := hStops b hRun
  obtain ⟨-, hCancelled, hWaits, -, hState⟩ := hResult result hDone
  have busy : a.ongoing ≠ none := by
    intro idle
    rw [noted, idle] at hNoted
    cases hNoted
  obtain ⟨kept, rfl⟩ := hCancelled (hWaits busy)
  refine ⟨a, b, kept, before, active, hNoted, hRun, hDone, ?_, ?_⟩
  · rw [hSame, hCalls, hEnded, hNoted]
    rfl
  · rw [hState kept rfl, hEnded]
    rfl

end

end Attempt

end ServiceBroker
