import ServiceBroker.Proofs.Broker.Result
import ServiceBroker.Proofs.Job.Course

/-! A job at work in a world, told to stop at any moment: before it has begun, between two runs of
the tool, during one, or after the last one. A run of the tool is noted when it begins, and the job
waits until its time has passed. A job that was told to stop begins no other run and waits for none:
it is answered that it was cancelled, and what the abandoned run would have written is lost. Between
two requests any time may pass. -/

namespace ServiceBroker

/-- A job at work: whether it was told to stop, the run of the tool that it waits for, what it has
asked and was answered, and what is left of it. -/
structure Attempt where
  world : World
  isCancelled : Bool := false
  ongoing : Option OngoingRun := none
  log : List (Exchange jobInterface) := []
  rest : JobProgram JobResult

/-- The request is answered while the job is asked to wait for nothing. -/
def JobRequest.IsQuick : JobRequest → Prop
  | tool _ => False
  | _ => True

/-- The exchange is a run of the tool. -/
def Exchange.isRun : Exchange jobInterface → Bool
  | ⟨.tool _, _⟩ => true
  | _ => false

namespace Attempt

/-- A job that has asked nothing yet. -/
def starting (world : World) (settings : UpgradeSettings) (id : String) (job : Job) : Attempt :=
  { world, rest := job.run settings id }

/-- The job is told to stop. -/
def cancel (a : Attempt) : Attempt :=
  { a with isCancelled := true }

/-- The job is answered and goes on in a world. -/
def goOn (a : Attempt) (world : World) (request : JobRequest) (reply : request.Reply)
    (rest : JobProgram JobResult) : Attempt :=
  { a with world, ongoing := none, log := a.log ++ [⟨request, reply⟩], rest }

/-- One thing that can happen. -/
inductive Step : Attempt → Attempt → Prop where
  | cancel (a : Attempt) : Step a a.cancel
  | wait (a : Attempt) {time : Nat} (later : a.world.time ≤ time) :
      Step a { a with world := { a.world with time } }
  /-- The store or the clock answers. -/
  | reply {a : Attempt} {request : JobRequest} {next : request.Reply → JobProgram JobResult}
      (asks : a.rest = .ask request next) (quick : request.IsQuick) :
      Step a (a.goOn (World.serve request a.world).2 request (World.serve request a.world).1
        (next (World.serve request a.world).1))
  /-- A run of the tool begins and is noted. -/
  | begin {a : Attempt} {run : ToolRun}
      {next : Except BrokerError ToolReport → JobProgram JobResult}
      (asks : a.rest = .ask (I := jobInterface) (.tool run) next) (idle : a.ongoing = none)
      (active : a.isCancelled = false) :
      Step a { a with world := (a.world.begin run).2, ongoing := some (a.world.begin run).1 }
  /-- The time of a run has passed. -/
  | finish {a : Attempt} {ongoing : OngoingRun}
      {next : Except BrokerError ToolReport → JobProgram JobResult}
      (asks : a.rest = .ask (I := jobInterface) (.tool ongoing.run) next)
      (busy : a.ongoing = some ongoing) (active : a.isCancelled = false)
      (due : ongoing.due ≤ a.world.time) :
      Step a (a.goOn a.world (.tool ongoing.run) (a.world.conclude ongoing)
        (next (a.world.conclude ongoing)))
  /-- A run is abandoned, or not even begun. -/
  | abandon {a : Attempt} {run : ToolRun}
      {next : Except BrokerError ToolReport → JobProgram JobResult}
      (asks : a.rest = .ask (I := jobInterface) (.tool run) next)
      (cancelled : a.isCancelled = true) :
      Step a (a.goOn a.world (.tool run) World.cancelledRun (next World.cancelledRun))

/-- One thing after another. -/
inductive Run : Attempt → Attempt → Prop where
  | refl (a : Attempt) : Run a a
  | tail {a b c : Attempt} (prior : Run a b) (last : Step b c) : Run a c

variable {a b c : Attempt} {world : World} {settings : UpgradeSettings} {id : String} {job : Job}

theorem Step.run (step : Step a b) : Run a b :=
  .tail (.refl a) step

theorem Run.trans (first : Run a b) (second : Run b c) : Run a c := by
  induction second with
  | refl => exact first
  | tail _ last ih => exact .tail ih last

/-- Nobody takes back that a job is to stop. -/
theorem Step.isCancelled (step : Step a b) (h : a.isCancelled = true) : b.isCancelled = true := by
  cases step with
  | cancel => rfl
  | wait | reply | begin | finish | abandon => exact h

/-- There was a moment at which the job was told to stop. -/
theorem Run.exists_cancelled (run : Run a b) (active : a.isCancelled = false)
    (cancelled : b.isCancelled = true) :
    ∃ moment, Run a moment ∧ moment.isCancelled = false ∧ Run moment.cancel b := by
  induction run with
  | refl => cases active.symm.trans cancelled
  | @tail b c prior last ih =>
      cases hBefore : b.isCancelled with
      | true =>
          obtain ⟨moment, hPrior, hActive, hLater⟩ := ih hBefore
          exact ⟨moment, hPrior, hActive, hLater.tail last⟩
      | false =>
          cases last with
          | cancel => exact ⟨b, prior, hBefore, .refl _⟩
          | wait | reply | begin | finish | abandon => cases hBefore.symm.trans cancelled

/-- The runs of the tool that have ended. -/
def ended (a : Attempt) : List (Exchange jobInterface) :=
  a.log.filter Exchange.isRun

/-- The run of the tool that the job waits for, as it is noted. -/
def noted (a : Attempt) : List ToolCall :=
  a.ongoing.toList.map fun ongoing => ⟨ongoing.run.command, ongoing.run.version⟩

/-- The job on a deployment was not told to stop. It has been answered what stands in the records
and what the script says, and the runs that it has begun are noted. -/
structure Undisturbed (world : World) (settings : UpgradeSettings) (id : String) (job : Job)
    (a : Attempt) : Prop where
  active : a.isCancelled = false
  passes : (job.run settings id).Passes a.log a.rest
  leaves : world.Leaves a.world (toolCalls a.log ++ a.noted) world.store.records []
  scripted : ∀ exchange ∈ a.log, exchange.Scripted world.tool
  reads : ∀ answer : Except StoreError Record,
    (⟨.store (.get id), answer⟩ : Exchange jobInterface) ∈ a.log → answer = world.traffic.found id
  waits : ∀ ongoing, a.ongoing = some ongoing →
    (∃ next, a.rest = .ask (I := jobInterface) (.tool ongoing.run) next) ∧
      ongoing.reason = world.tool.reason? ongoing.run

theorem undisturbed_starting (calm : world.Calm) :
    (starting world settings id job).Undisturbed world settings id job where
  active := rfl
  passes := .refl _
  leaves := calm.leaves_self
  scripted := by simp [starting]
  reads := by simp [starting]
  waits := by simp [starting]

/-- What a job can ask. -/
theorem Undisturbed.asks (undisturbed : a.Undisturbed world settings id job)
    {request : JobRequest} {next : request.Reply → JobProgram JobResult}
    (asks : a.rest = .ask request next) :
    request = .store (.get id) ∨ request.IsRun (job.MayRun settings) := by
  have hAsks := (undisturbed.passes.asks (Job.run_asks settings id job)).2
  rw [asks] at hAsks
  exact hAsks.1

/-- A job that does not wait for the tool is answered. -/
theorem Undisturbed.goOn (undisturbed : a.Undisturbed world settings id job)
    {request : JobRequest} {next : request.Reply → JobProgram JobResult}
    (asks : a.rest = .ask request next) {after : World} {reply : request.Reply}
    (leaves : world.Leaves after (toolCalls (a.log ++ [⟨request, reply⟩])) world.store.records [])
    (scripted : Exchange.Scripted world.tool ⟨request, reply⟩)
    (reads : ∀ answer : Except StoreError Record,
      (⟨.store (.get id), answer⟩ : Exchange jobInterface) = ⟨request, reply⟩ →
        answer = world.traffic.found id) :
    (a.goOn after request reply (next reply)).Undisturbed world settings id job where
  active := undisturbed.active
  passes := by
    have hPasses := undisturbed.passes
    rw [asks] at hPasses
    exact hPasses.snoc reply
  leaves := by
    rw [← List.append_nil (toolCalls _)] at leaves
    exact leaves
  scripted := by
    refine List.forall_mem_append.mpr ⟨undisturbed.scripted, ?_⟩
    simpa using scripted
  reads answer member := by
    rcases List.mem_append.mp member with hOld | hNew
    · exact undisturbed.reads answer hOld
    · exact reads answer (List.mem_singleton.mp hNew)
  waits := by simp [Attempt.goOn]

theorem Undisturbed.step (undisturbed : a.Undisturbed world settings id job) (step : Step a b)
    (active : b.isCancelled = false) : b.Undisturbed world settings id job := by
  cases step with
  | cancel => cases active
  | wait later =>
      have leaves := undisturbed.leaves
      exact ⟨active, undisturbed.passes, ⟨leaves.calm, leaves.settings, leaves.tool, leaves.records,
        leaves.tasks, leaves.queue⟩, undisturbed.scripted, undisturbed.reads, undisturbed.waits⟩
  | @reply request next asks quick =>
      have idle : a.ongoing = none := by
        cases hOngoing : a.ongoing with
        | none => rfl
        | some ongoing =>
            obtain ⟨⟨_, hRest⟩, -⟩ := undisturbed.waits ongoing hOngoing
            cases asks.symm.trans hRest
            exact quick.elim
      have hBefore := undisturbed.leaves
      obtain ⟨hAfter, hScripted, hReads⟩ :=
        hBefore.calm.leaves_of_asked (undisturbed.asks asks)
      have leaves := hBefore.trans hAfter
      rw [Attempt.noted, idle] at leaves
      refine undisturbed.goOn asks ?_ (hBefore.scripted hScripted) fun answer same => ?_
      · simpa [hBefore.records] using leaves
      · exact (hReads answer same).trans (hBefore.found id)
  | @begin run next asks idle _ =>
      have hBefore := undisturbed.leaves
      have hRuns := hBefore.calm.runs run
      have hNoted : a.world.Leaves (a.world.begin run).2 [⟨run.command, run.version⟩]
          a.world.store.records [] :=
        ⟨hRuns.calm, hRuns.settings, hRuns.tool, hRuns.records, hRuns.tasks, hRuns.queue⟩
      have leaves := hBefore.trans hNoted
      rw [Attempt.noted, idle, hBefore.records] at leaves
      refine ⟨active, undisturbed.passes, ?_, undisturbed.scripted, undisturbed.reads, ?_⟩
      · simpa [Attempt.noted, World.begin] using leaves
      · rintro ongoing ⟨⟩
        refine ⟨⟨next, asks⟩, ?_⟩
        change a.world.tool.reason? run = world.tool.reason? run
        rw [hBefore.tool]
        rfl
  | @finish ongoing next asks busy _ due =>
      have leaves := undisturbed.leaves
      rw [Attempt.noted, busy] at leaves
      refine undisturbed.goOn asks ?_ ?_ fun answer same => ?_
      · rw [toolCalls_append]
        exact leaves
      · change a.world.tool.conclude ongoing.run ongoing.reason = _
        rw [(undisturbed.waits ongoing busy).2, leaves.tool]
        rfl
      · cases same
  | abandon asks cancelled => cases undisturbed.active.symm.trans cancelled

/-- As long as a job is not told to stop, it is undisturbed. -/
theorem Run.undisturbed (run : Run (starting world settings id job) a) (calm : world.Calm)
    (active : a.isCancelled = false) : a.Undisturbed world settings id job := by
  induction run with
  | refl => exact undisturbed_starting calm
  | @tail b c prior last ih =>
      have hBefore : b.isCancelled = false := by
        cases hCancelled : b.isCancelled with
        | false => rfl
        | true => cases (last.isCancelled hCancelled).symm.trans active
      exact (ih hBefore).step last active

/-- Since a job on a deployment was told to stop, it has been answered that its runs of the tool are
cancelled; none was noted. -/
structure Stopped (id : String) (a b : Attempt) (later : List (Exchange jobInterface)) :
    Prop where
  cancelled : b.isCancelled = true
  log : b.log = a.log ++ later
  passes : a.rest.Passes later b.rest
  leaves : a.world.Leaves b.world [] a.world.store.records []
  abandons : ∀ run answer, (⟨.tool run, answer⟩ : Exchange jobInterface) ∈ later →
    answer = World.cancelledRun
  reads : ∀ answer : Except StoreError Record,
    (⟨.store (.get id), answer⟩ : Exchange jobInterface) ∈ later → answer = a.world.traffic.found id

theorem stopped_cancel (calm : a.world.Calm) : Stopped id a a.cancel [] where
  cancelled := rfl
  log := (List.append_nil _).symm
  passes := .refl _
  leaves := calm.leaves_self
  abandons := by simp
  reads := by simp

/-- A job that was told to stop is answered. -/
theorem Stopped.goOn {later : List (Exchange jobInterface)} (stopped : Stopped id a b later)
    {request : JobRequest} {next : request.Reply → JobProgram JobResult}
    (asks : b.rest = .ask request next) {after : World} {reply : request.Reply}
    (leaves : b.world.Leaves after [] b.world.store.records [])
    (abandons : ∀ run answer, (⟨.tool run, answer⟩ : Exchange jobInterface) = ⟨request, reply⟩ →
      answer = World.cancelledRun)
    (reads : ∀ answer : Except StoreError Record,
      (⟨.store (.get id), answer⟩ : Exchange jobInterface) = ⟨request, reply⟩ →
        answer = b.world.traffic.found id) :
    Stopped id a (b.goOn after request reply (next reply)) (later ++ [⟨request, reply⟩]) where
  cancelled := stopped.cancelled
  log := by
    rw [← List.append_assoc, ← stopped.log]
    rfl
  passes := by
    have hPasses := stopped.passes
    rw [asks] at hPasses
    exact hPasses.snoc reply
  leaves := by
    have hLeaves := stopped.leaves.trans leaves
    rwa [stopped.leaves.records] at hLeaves
  abandons run answer member := by
    rcases List.mem_append.mp member with hOld | hNew
    · exact stopped.abandons run answer hOld
    · exact abandons run answer (List.mem_singleton.mp hNew)
  reads answer member := by
    rcases List.mem_append.mp member with hOld | hNew
    · exact stopped.reads answer hOld
    · exact (reads answer (List.mem_singleton.mp hNew)).trans (stopped.leaves.found id)

theorem Stopped.step {later : List (Exchange jobInterface)} {versions : Version → Prop}
    (stopped : Stopped id a b later)
    (kind : a.rest.Asks fun request : JobRequest =>
      request = .store (.get id) ∨ request.IsRun versions)
    (step : Step b c) : ∃ more, Stopped id a c (later ++ more) := by
  cases step with
  | cancel =>
      refine ⟨[], ?_⟩
      rw [List.append_nil]
      exact ⟨rfl, stopped.log, stopped.passes, stopped.leaves, stopped.abandons, stopped.reads⟩
  | wait =>
      refine ⟨[], ?_⟩
      rw [List.append_nil]
      have leaves := stopped.leaves
      exact ⟨stopped.cancelled, stopped.log, stopped.passes, ⟨leaves.calm, leaves.settings,
        leaves.tool, leaves.records, leaves.tasks, leaves.queue⟩, stopped.abandons, stopped.reads⟩
  | @reply request next asks quick =>
      have hKind := (stopped.passes.asks kind).2
      rw [asks] at hKind
      rcases hKind.1 with rfl | hRun
      · obtain ⟨hAnswer, leaves⟩ := stopped.leaves.calm.reads id
        refine ⟨_, stopped.goOn asks leaves (fun run answer same => ?_) fun answer same => ?_⟩
        · cases same
        · cases same
          exact hAnswer
      · cases request with
        | tool run => exact quick.elim
        | store call | now => exact hRun.elim
  | begin asks idle active | finish asks busy active due =>
      cases active.symm.trans stopped.cancelled
  | abandon asks cancelled =>
      refine ⟨_, stopped.goOn asks stopped.leaves.calm.leaves_self (fun run answer same => ?_)
        fun answer same => ?_⟩
      · cases same
        rfl
      · cases same

/-- What happens once a job was told to stop. -/
theorem Run.stopped (run : Run a.cancel b) (undisturbed : a.Undisturbed world settings id job) :
    ∃ later, Stopped id a b later := by
  have kind := (undisturbed.passes.asks (Job.run_asks settings id job)).2
  induction run with
  | refl => exact ⟨[], stopped_cancel undisturbed.leaves.calm⟩
  | tail _ last ih =>
      obtain ⟨later, stopped⟩ := ih
      obtain ⟨more, hMore⟩ := stopped.step kind last
      exact ⟨_, hMore⟩

/-- What a job has been answered, it has been answered before it was told to stop, unless that was
that it is cancelled; and its runs of the tool were noted before as well. -/
theorem Run.exists_undisturbed (run : Run (starting world settings id job) b) (calm : world.Calm) :
    ∃ (a : Attempt) (later : List (Exchange jobInterface)),
      a.Undisturbed world settings id job ∧ b.log = a.log ++ later ∧
      a.rest.Passes later b.rest ∧ b.world.tool.calls = a.world.tool.calls ∧
      (∀ run answer, (⟨.tool run, answer⟩ : Exchange jobInterface) ∈ later →
        answer = World.cancelledRun) ∧
      ∀ answer : Except StoreError Record,
        (⟨.store (.get id), answer⟩ : Exchange jobInterface) ∈ b.log →
          answer = world.traffic.found id := by
  cases hCancelled : b.isCancelled with
  | false =>
      have undisturbed := run.undisturbed calm hCancelled
      exact ⟨b, [], undisturbed, (List.append_nil _).symm, .refl _, rfl, by simp, undisturbed.reads⟩
  | true =>
      obtain ⟨a, before, active, after⟩ := run.exists_cancelled rfl hCancelled
      have undisturbed := before.undisturbed calm active
      obtain ⟨later, stopped⟩ := after.stopped undisturbed
      refine ⟨a, later, undisturbed, stopped.log, stopped.passes, ?_, stopped.abandons,
        fun answer member => ?_⟩
      · rw [stopped.leaves.tool, List.append_nil]
      · rw [stopped.log] at member
        rcases List.mem_append.mp member with hOld | hNew
        · exact undisturbed.reads answer hOld
        · exact (stopped.reads answer hNew).trans (undisturbed.leaves.found id)

/-- A job that waits for a run of the tool has asked for it. -/
theorem Run.waits (run : Run (starting world settings id job) b) {ongoing : OngoingRun}
    (h : b.ongoing = some ongoing) :
    ∃ next, b.rest = .ask (I := jobInterface) (.tool ongoing.run) next := by
  induction run with
  | refl => cases h
  | tail prior last ih =>
      cases last with
      | cancel | wait => exact ih h
      | begin asks idle active =>
          cases h
          exact ⟨_, asks⟩
      | reply | finish | abandon => cases h

section Foreground

variable {cancelAt : Option Nat}

/-- In a world at rest a run of the tool is waited for until it ends, unless the work is to stop
before that. -/
theorem await_cases (rest : world.AtRest) (still_going : world.isPast cancelAt = false)
    {ongoing : OngoingRun} (h : world.time ≤ ongoing.due) :
    ∃ time, world.time ≤ time ∧
      if World.isPast { world with time } cancelAt then
        world.await cancelAt ongoing = (World.cancelledRun, { world with time })
      else ongoing.due ≤ time ∧
        world.await cancelAt ongoing = (world.conclude ongoing, { world with time }) := by
  let time := cancelAt.elim ongoing.due (min ongoing.due)
  have hTime : world.time ≤ time := by
    cases cancelAt with
    | none => exact h
    | some moment =>
        have hLater : world.time < moment := by simpa [World.isPast] using still_going
        exact Nat.le_min.mpr ⟨h, Nat.le_of_lt hLater⟩
  have hAwait : world.await cancelAt ongoing =
      if World.isPast { world with time } cancelAt then (World.cancelledRun, { world with time })
      else (world.conclude ongoing, { world with time }) := by
    rw [World.await, rest.waitUntil hTime]
    rfl
  refine ⟨time, hTime, ?_⟩
  rw [hAwait]
  split
  · rfl
  · next hOpen =>
      refine ⟨?_, rfl⟩
      cases cancelAt with
      | none => exact Nat.le_refl _
      | some moment =>
          have hBefore : ¬moment ≤ min ongoing.due moment := fun hLater =>
            hOpen (decide_eq_true hLater)
          change ongoing.due ≤ min ongoing.due moment
          omega

/-- The job is told to stop, if it was not before, and its next run of the tool is abandoned. -/
theorem run_abandon {run : ToolRun} {next : Except BrokerError ToolReport → JobProgram JobResult}
    (asks : a.rest = .ask (I := jobInterface) (.tool run) next) :
    Run a (a.cancel.goOn a.world (.tool run) World.cancelledRun (next World.cancelledRun)) :=
  (Step.cancel a).run.tail (.abandon (a := a.cancel) asks rfl)

/-- Work in the foreground of a world at rest is a run of this kind, at whatever time it is to
stop. -/
theorem exists_run_of_work (rest : a.world.AtRest) (idle : a.ongoing = none)
    (past : a.isCancelled = true → a.world.isPast cancelAt = true) :
    ∃ b, Run a b ∧ b.rest = .done (a.world.work cancelAt (JobProgram.toBroker a.rest)).1 ∧
      b.world = (a.world.work cancelAt (JobProgram.toBroker a.rest)).2 := by
  generalize hProgram : a.rest = program
  induction program generalizing a with
  | done result => exact ⟨a, .refl a, hProgram, rfl⟩
  | ask request next ih =>
      cases request with
      | store call =>
          let served := World.serve (.store call) a.world
          obtain ⟨b, hRun, hDone⟩ := ih served.1
            (a := a.goOn served.2 (.store call) served.1 (next served.1)) (rest.serve _) rfl past rfl
          exact ⟨b, (Step.reply hProgram trivial).run.trans hRun, hDone⟩
      | now =>
          let shown := a.world.clock a.world.time
          obtain ⟨b, hRun, hDone⟩ := ih shown (a := a.goOn a.world .now shown (next shown)) rest rfl
            past rfl
          exact ⟨b, (Step.reply hProgram trivial).run.trans hRun, hDone⟩
      | tool run =>
          cases hPast : a.world.isPast cancelAt with
          | true =>
              have hWork : a.world.work cancelAt
                  (JobProgram.toBroker (.ask (I := jobInterface) (.tool run) next)) =
                  a.world.work cancelAt (JobProgram.toBroker (next World.cancelledRun)) :=
                if_pos hPast
              rw [hWork]
              obtain ⟨b, hRun, hDone⟩ := ih World.cancelledRun
                (a := a.cancel.goOn a.world (.tool run) World.cancelledRun _) rest rfl
                (fun _ => hPast) rfl
              exact ⟨b, (run_abandon hProgram).trans hRun, hDone⟩
          | false =>
              have active : a.isCancelled = false := by
                cases hCancelled : a.isCancelled with
                | false => rfl
                | true => cases (past hCancelled).symm.trans hPast
              let begun := (a.world.begin run).2
              let ongoing := (a.world.begin run).1
              have hRest : begun.AtRest := ⟨rest.ended, rest.queue⟩
              have hLater : begun.time ≤ ongoing.due := Nat.le_add_right _ _
              obtain ⟨time, hTime, hAwait⟩ :=
                await_cases hRest hPast hLater
              have hWork : a.world.work cancelAt
                  (JobProgram.toBroker (.ask (I := jobInterface) (.tool run) next)) =
                  (begun.await cancelAt ongoing).2.work cancelAt
                    (JobProgram.toBroker (next (begun.await cancelAt ongoing).1)) :=
                if_neg (by simp [hPast])
              rw [hWork]
              let waiting : Attempt := { a with world := { begun with time }, ongoing }
              have hWaiting : Run a waiting :=
                (Step.begin hProgram idle active).run.tail (.wait _ hTime)
              split at hAwait
              · next hStop =>
                  rw [hAwait]
                  obtain ⟨b, hRun, hDone⟩ := ih World.cancelledRun
                    (a := waiting.cancel.goOn waiting.world (.tool run) World.cancelledRun _)
                    ⟨rest.ended, rest.queue⟩ rfl (fun _ => hStop) rfl
                  exact ⟨b, (hWaiting.trans (run_abandon hProgram)).trans hRun, hDone⟩
              · obtain ⟨hDue, hAwait⟩ := hAwait
                rw [hAwait]
                obtain ⟨b, hRun, hDone⟩ := ih (begun.conclude ongoing)
                  (a := waiting.goOn waiting.world (.tool run) (begun.conclude ongoing) _)
                  ⟨rest.ended, rest.queue⟩ rfl (fun h => nomatch active.symm.trans h) rfl
                refine ⟨b, (hWaiting.tail ?_).trans hRun, hDone⟩
                exact @Step.finish waiting ongoing _ hProgram rfl active hDue

end Foreground

end Attempt

end ServiceBroker
