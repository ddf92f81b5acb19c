import ServiceBroker.Broker.Rehearsal
import ServiceBroker.Proofs.Job.Ending

/-! The commands that a job which walks asks of a scripted tool: an application for each version on
the way and then its own command, up to the first one that fails. What it leaves is the state of the
last command that was completed, and variables are set once the whole way lies behind. -/

namespace ServiceBroker

/-- The command writes a state. -/
def Command.Writes : Command → Prop
  | apply | destroy | importResources => True
  | showState | plan => False

/-- What is said of a command that failed. -/
def ToolCall.failure (call : ToolCall) (reason : String) : BrokerError :=
  .tool (.commandFailed call.command.name call.version.text reason)

namespace ScriptedTool

variable {tool : ScriptedTool} {planned begun completed later : List ToolCall} {call : ToolCall}
  {failure : Option BrokerError}

/-- Why a command fails, if it does: the first scripted failure counts that fits. -/
def fault? (tool : ScriptedTool) (call : ToolCall) : Option String :=
  (tool.faults.find? fun fault =>
    fault.command == call.command && fault.version.all (· == call.version)).map (·.reason)

/-- The state that a command writes. -/
def stateOf (tool : ScriptedTool) (call : ToolCall) : Bytes :=
  ToolState.document call.version (if call.command = .apply then tool.outputs else [])

/-- The state after some commands were completed that write one. -/
def stateAfter (tool : ScriptedTool) (before : Bytes) (completed : List ToolCall) : Bytes :=
  (completed.getLast?.map tool.stateOf).getD before

/-- Of the commands that are planned, those that are begun and those that are completed: all of
them, or those up to and before the first one that fails. -/
inductive Carried (tool : ScriptedTool) :
    List ToolCall → List ToolCall → List ToolCall → Option BrokerError → Prop where
  | all {planned : List ToolCall} (sound : ∀ call ∈ planned, tool.fault? call = none) :
      Carried tool planned planned planned none
  | upTo {completed later : List ToolCall} {failing : ToolCall} {reason : String}
      (sound : ∀ call ∈ completed, tool.fault? call = none)
      (fails : tool.fault? failing = some reason) :
      Carried tool (completed ++ failing :: later) (completed ++ [failing]) completed
        (some (failing.failure reason))

theorem stateAfter_cons (before : Bytes) :
    tool.stateAfter before (call :: completed) = tool.stateAfter (tool.stateOf call) completed := by
  cases completed with
  | nil => simp [stateAfter]
  | cons next completed => simp [stateAfter, List.getLast?_cons]

theorem stateAfter_append (before : Bytes) :
    tool.stateAfter before (completed ++ later) =
      tool.stateAfter (tool.stateAfter before completed) later := by
  induction completed generalizing before with
  | nil => simp [stateAfter]
  | cons call completed ih => rw [List.cons_append, stateAfter_cons, stateAfter_cons, ih]

theorem state_report {run : ToolRun} (writes : run.command.Writes) :
    (tool.report run).state = some (tool.stateOf ⟨run.command, run.version⟩) := by
  obtain ⟨command, version, workspace, resources⟩ := run
  cases command with
  | apply | destroy | importResources => rfl
  | showState | plan => exact writes.elim

theorem Carried.prepend (sound : ∀ call ∈ later, tool.fault? call = none)
    (carried : Carried tool planned begun completed failure) :
    Carried tool (later ++ planned) (later ++ begun) (later ++ completed) failure := by
  have hSound {more : List ToolCall} (h : ∀ call ∈ more, tool.fault? call = none) :
      ∀ call ∈ later ++ more, tool.fault? call = none :=
    fun call hCall => (List.mem_append.mp hCall).elim (sound call) (h call)
  cases carried with
  | all rest => exact .all (hSound rest)
  | upTo rest fails =>
      rw [← List.append_assoc, ← List.append_assoc]
      exact .upTo (hSound rest) fails

/-- What comes after the command that fails does not matter. -/
theorem Carried.append {e : BrokerError} (carried : Carried tool planned begun completed (some e))
    (later : List ToolCall) : Carried tool (planned ++ later) begun completed (some e) := by
  cases carried with
  | upTo sound fails =>
      rw [List.append_assoc, List.cons_append]
      exact .upTo sound fails

/-- The script determines how far the commands are carried out. -/
theorem Carried.det {begun₂ completed₂ : List ToolCall} {failure₂ : Option BrokerError}
    (left : Carried tool planned begun completed failure)
    (right : Carried tool planned begun₂ completed₂ failure₂) :
    begun = begun₂ ∧ completed = completed₂ ∧ failure = failure₂ := by
  have hClash {calls : List ToolCall} {failing : ToolCall} {reason : String} {result : Prop}
      (sound : ∀ call ∈ calls, tool.fault? call = none) (member : failing ∈ calls)
      (fails : tool.fault? failing = some reason) : result := by
    rw [sound failing member] at fails
    cases fails
  cases left with
  | all sound =>
      cases right with
      | all => exact ⟨rfl, rfl, rfl⟩
      | upTo _ fails => exact hClash sound (by simp) fails
  | upTo sound fails =>
      generalize hPlanned : _ ++ _ :: _ = planned at right
      cases right with
      | all sound₂ => exact hClash sound₂ (by simp [← hPlanned]) fails
      | upTo sound₂ fails₂ =>
          -- If one of them stopped earlier, its failing command was completed by the other one.
          rcases List.append_eq_append_iff.mp hPlanned with ⟨more, rfl, h⟩ | ⟨more, rfl, h⟩
          · cases more with
            | nil =>
                obtain ⟨rfl, -⟩ := List.cons_eq_cons.mp h
                cases fails.symm.trans fails₂
                simp
            | cons head more =>
                obtain ⟨rfl, -⟩ := List.cons_eq_cons.mp h
                exact hClash sound₂ (by simp) fails
          · cases more with
            | nil =>
                obtain ⟨rfl, -⟩ := List.cons_eq_cons.mp h
                cases fails.symm.trans fails₂
                simp
            | cons head more =>
                obtain ⟨rfl, -⟩ := List.cons_eq_cons.mp h
                exact hClash sound (by simp) fails₂

/-- If no command fails, all are carried out. -/
theorem Carried.eq_of_none (carried : Carried tool planned begun completed none) :
    begun = planned ∧ completed = planned ∧ ∀ call ∈ planned, tool.fault? call = none := by
  cases carried with
  | all sound => exact ⟨rfl, rfl, sound⟩

/-- All commands are completed if none fails, and otherwise one is left at least. -/
theorem Carried.length_completed (carried : Carried tool planned begun completed failure) :
    if failure = none then completed = planned else completed.length < planned.length := by
  cases carried with
  | all => rw [if_pos rfl]
  | upTo =>
      rw [if_neg (by simp)]
      simp

end ScriptedTool

/-- The tool has answered as its script says. -/
def Exchange.Scripted (tool : ScriptedTool) : Exchange jobInterface → Prop
  | ⟨.tool run, answer⟩ => answer = tool.conclude run (tool.reason? run)
  | _ => True

namespace ScriptedTool

variable {tool : ScriptedTool} {run : ToolRun} {answer : Except BrokerError ToolReport}

theorem answer_of_sound (h : Exchange.Scripted tool ⟨.tool run, answer⟩)
    (sound : tool.fault? ⟨run.command, run.version⟩ = none) : answer = .ok (tool.report run) := by
  have hReason : tool.reason? run = none := sound
  obtain rfl : answer = tool.conclude run (tool.reason? run) := h
  rw [hReason]
  rfl

theorem answer_of_fault {reason : String} (h : Exchange.Scripted tool ⟨.tool run, answer⟩)
    (fails : tool.fault? ⟨run.command, run.version⟩ = some reason) :
    answer = .error (ToolCall.failure ⟨run.command, run.version⟩ reason) := by
  have hReason : tool.reason? run = some reason := fails
  obtain rfl : answer = tool.conclude run (tool.reason? run) := h
  rw [hReason]
  rfl

end ScriptedTool

/-- The command that was asked for. -/
def Exchange.toolCall? : Exchange jobInterface → Option ToolCall
  | ⟨.tool run, _⟩ => some ⟨run.command, run.version⟩
  | _ => none

/-- The commands that were asked for, in order. -/
def toolCalls (log : List (Exchange jobInterface)) : List ToolCall :=
  log.filterMap Exchange.toolCall?

@[simp]
theorem toolCalls_append (before after : List (Exchange jobInterface)) :
    toolCalls (before ++ after) = toolCalls before ++ toolCalls after :=
  List.filterMap_append

/-- The applications of some versions. -/
def applications (versions : List Version) : List ToolCall :=
  versions.map fun version => { command := .apply, version }

namespace Workspace

/-- The workspace with another configuration of its first instance and another state. -/
def revised (workspace : Workspace) (configuration : Params) (state : Bytes) : Workspace :=
  { workspace with
    state
    instances :=
      match workspace.instances with
      | [] => []
      | first :: others => { first with configuration } :: others }

/-- The versions to apply before the default one touches the state. -/
def stepsAhead (workspace : Workspace) (settings : UpgradeSettings) :
    Except BrokerError (List Version) :=
  match workspace.stateVersion with
  | .error e => .error (.workspace e)
  | .ok current => (settings.stepsFrom current).mapError .job

variable {workspace : Workspace} {first : ModuleInstance} {others : List ModuleInstance}

theorem revised_self (h : workspace.instances = first :: others) (state : Bytes) :
    workspace.revised first.configuration state = { workspace with state } := by
  simp [revised, h]

theorem configure_eq_revised (h : workspace.instances = first :: others) (vars : Params) :
    workspace.configure vars =
      .ok (workspace.revised (first.configuration.merge vars) workspace.state) := by
  rw [configure, h]
  simp [revised, h]
  rfl

theorem reconfigure_eq_revised (h : workspace.instances = first :: others) (vars : Params) :
    workspace.reconfigure vars = .ok (workspace.revised vars workspace.state) := by
  rw [reconfigure, h]
  simp [revised, h]
  rfl

end Workspace

namespace Job

/-- The command that a job which walks comes to in the end. -/
def last : Job → Command
  | deprovision _ => .destroy
  | _ => .apply

/-- The variables that join the configuration once a job has walked. -/
def joining : Job → Params
  | update vars | upgrade vars => vars
  | _ => []

/-- The configuration with which a job begins. Of a deployment that is destroyed the declared inputs
alone are left. -/
def initial (workspace : Workspace) (configuration : Params) : Job → Params
  | deprovision vars =>
    match workspace.inputs with
    | .ok names => names.map fun name => (name, (vars.get? name).getD .null)
    | .error _ => configuration
  | _ => configuration

/-- The commands of a job which walks. -/
def commands (settings : UpgradeSettings) (steps : List Version) (job : Job) : List ToolCall :=
  applications steps ++ [{ command := job.last, version := settings.defaultVersion }]

theorem prepare_eq {workspace : Workspace} {first : ModuleInstance} {others : List ModuleInstance}
    (hModules : workspace.modules ≠ []) (hInstances : workspace.instances = first :: others)
    (job : Job) : job.prepare workspace =
      .ok (workspace.revised (job.initial workspace first.configuration) workspace.state) := by
  cases job with
  | deprovision vars =>
      obtain ⟨m, others, hFirst⟩ := List.exists_cons_of_ne_nil hModules
      obtain ⟨names, hNames⟩ : ∃ names, workspace.inputs = .ok names := by
        rw [Workspace.inputs, hFirst]
        exact ⟨_, rfl⟩
      simp only [prepare, initial, Workspace.restrict, hNames]
      exact Workspace.reconfigure_eq_revised hInstances _
  | provision | update vars | upgrade vars | importResources resources =>
      rw [initial, Workspace.revised_self hInstances]
      · rfl
      all_goals simp

namespace Body

variable {tool : ScriptedTool} {workspace reached : Workspace}
  {log : List (Exchange jobInterface)} {outcome : Except BrokerError Unit}

/-- Carries out one command after another. -/
def carryOut : List ToolCall → Body Unit
  | [] => pure ()
  | call :: calls => do
    let _ ← runTool call.version call.command
    carryOut calls

theorem walk_eq_carryOut (versions : List Version) :
    walk versions = carryOut (applications versions) := by
  induction versions with
  | nil => rfl
  | cons version versions ih =>
      rw [walk, ih]
      rfl

/-- A command that writes a state does so or fails. -/
theorem ends_runTool_scripted {call : ToolCall} {outcome : Except BrokerError String}
    (ends : Ends (runTool call.version call.command) workspace log outcome reached)
    (writes : call.command.Writes) (scripted : ∀ exchange ∈ log, exchange.Scripted tool) :
    toolCalls log = [call] ∧
      ((∃ output, tool.fault? call = none ∧ outcome = .ok output ∧
          reached = { workspace with state := tool.stateOf call }) ∨
        ∃ reason, tool.fault? call = some reason ∧ outcome = .error (call.failure reason) ∧
          reached = workspace) := by
  obtain ⟨answer, rfl, hAnswer⟩ := ends_runTool_iff.mp ends
  refine ⟨rfl, ?_⟩
  have hScript := scripted _ (List.mem_singleton_self _)
  cases hFault : tool.fault? call with
  | none =>
      rw [ScriptedTool.answer_of_sound hScript hFault] at hAnswer
      obtain ⟨rfl, rfl⟩ := hAnswer
      have hState := @ScriptedTool.state_report tool
        ⟨call.command, call.version, workspace, []⟩ writes
      refine .inl ⟨_, rfl, rfl, ?_⟩
      simp only [ranTool, hState, Option.getD_some]
  | some reason =>
      rw [ScriptedTool.answer_of_fault hScript hFault] at hAnswer
      exact .inr ⟨reason, rfl, hAnswer.1, hAnswer.2⟩

/-- Commands that write states are carried out up to the first one that fails, and leave the state
of the last one that was completed. -/
theorem ends_carryOut {calls : List ToolCall}
    (ends : Ends (carryOut calls) workspace log outcome reached)
    (writes : ∀ call ∈ calls, call.command.Writes)
    (scripted : ∀ exchange ∈ log, exchange.Scripted tool) :
    ∃ completed failure, tool.Carried calls (toolCalls log) completed failure ∧
      outcome = failure.elim (.ok ()) .error ∧
      reached = { workspace with state := tool.stateAfter workspace.state completed } := by
  induction calls generalizing workspace log with
  | nil =>
      obtain ⟨rfl, rfl, rfl⟩ := ends_pure_iff.mp ends
      exact ⟨[], none, .all (by simp), rfl, rfl⟩
  | cons call calls ih =>
      have writesFirst := writes call (by simp)
      rcases ends_bind_iff.mp ends with
        ⟨e, hFirst, rfl⟩ | ⟨before, after, output, between, rfl, hFirst, hRest⟩
      · obtain ⟨hLog, ⟨_, -, hOutcome, -⟩ | ⟨reason, hFault, hOutcome, rfl⟩⟩ :=
          ends_runTool_scripted hFirst writesFirst scripted
        · cases hOutcome
        · cases hOutcome
          rw [hLog]
          have hCarried : tool.Carried ([] ++ call :: calls) ([] ++ [call]) [] _ :=
            .upTo (by simp) hFault
          exact ⟨[], _, hCarried, rfl, rfl⟩
      · obtain ⟨hLog, ⟨_, hFault, -, rfl⟩ | ⟨_, -, hOutcome, -⟩⟩ :=
          ends_runTool_scripted hFirst writesFirst
            fun exchange h => scripted exchange (by simp [h])
        · have writesRest next (h : next ∈ calls) := writes next (by simp [h])
          obtain ⟨completed, failure, hCarried, hOutcome, rfl⟩ :=
            ih hRest writesRest fun exchange h => scripted exchange (by simp [h])
          rw [toolCalls_append, hLog]
          have hSound : ∀ first ∈ [call], tool.fault? first = none := by simpa using hFault
          refine ⟨call :: completed, failure, hCarried.prepend hSound, hOutcome, ?_⟩
          simp only [ScriptedTool.stateAfter_cons]
        · cases hOutcome

theorem writes_applications (versions : List Version) :
    ∀ call ∈ applications versions, call.command.Writes := by
  intro call hCall
  obtain ⟨version, -, rfl⟩ := List.mem_map.mp hCall
  exact trivial

/-- What a job does that walks once it has walked. -/
def afterWalk (settings : UpgradeSettings) (job : Job) : Body Unit :=
  let last := carryOut [{ command := job.last, version := settings.defaultVersion }]
  match job with
  | .update vars | .upgrade vars => do
    change (·.configure vars)
    last
  | _ => last

theorem body_eq_afterWalk (settings : UpgradeSettings) {job : Job} (walks : job.walks = true) :
    job.body settings = (upgradeState settings >>= fun _ => afterWalk settings job) := by
  cases job with
  | provision | importResources resources => cases walks
  | update vars | upgrade vars | deprovision vars => rfl

/-- There may be no way to the default version. If there is one, it is gone first. -/
theorem ends_upgradeState {settings : UpgradeSettings}
    (ends : Ends (upgradeState settings) workspace log outcome reached) :
    (∃ e, workspace.stepsAhead settings = .error e ∧ log = [] ∧ outcome = .error e ∧
        reached = workspace) ∨
      ∃ steps, workspace.stepsAhead settings = .ok steps ∧
        Ends (carryOut (applications steps)) workspace log outcome reached := by
  change Ends (orFail workspace.stateVersion >>= fun current =>
    orFail (settings.stepsFrom current) >>= walk) workspace log outcome reached at ends
  rcases ends_orFail_bind_iff.mp ends with ⟨e, hVersion, hNothing⟩ | ⟨current, hVersion, hSteps⟩
  · refine .inl ⟨.workspace e, ?_, hNothing⟩
    rw [Workspace.stepsAhead, hVersion]
  · rcases ends_orFail_bind_iff.mp hSteps with ⟨e, hRefused, hNothing⟩ | ⟨steps, hFound, hWalk⟩
    · refine .inl ⟨.job e, ?_, hNothing⟩
      simp only [Workspace.stepsAhead, hVersion, hRefused]
      rfl
    · refine .inr ⟨steps, ?_, walk_eq_carryOut steps ▸ hWalk⟩
      simp only [Workspace.stepsAhead, hVersion, hFound]
      rfl

/-- Setting variables of a workspace with an instance does not fail. -/
theorem ends_configure_bind_iff {first : ModuleInstance} {others : List ModuleInstance}
    {vars : Params} {next : Body Unit} (hInstances : workspace.instances = first :: others) :
    Ends (change (·.configure vars) >>= fun _ => next) workspace log outcome reached ↔
      Ends next (workspace.revised (first.configuration.merge vars) workspace.state) log outcome
        reached := by
  have hConfigure := Workspace.configure_eq_revised hInstances vars
  constructor
  · intro ends
    rcases ends_bind_iff.mp ends with ⟨e, hChange, rfl⟩ | ⟨_, last, _, _, rfl, hChange, hRest⟩
    · obtain ⟨rfl, ⟨-, hOutcome⟩ | ⟨_, hRefused, -, -⟩⟩ := ends_change_iff.mp hChange
      · cases hOutcome
      · cases hConfigure.symm.trans hRefused
    · obtain ⟨rfl, hConfigured⟩ := ends_change_ok_iff.mp hChange
      obtain rfl := Except.ok.inj (hConfigure.symm.trans hConfigured)
      exact hRest
  · intro hRest
    exact ends_bind_iff.mpr
      (.inr ⟨[], log, (), _, rfl, ends_change_ok_iff.mpr ⟨rfl, hConfigure⟩, hRest⟩)

/-- After the walk variables are set, if there are any, and one more command is carried out. -/
theorem ends_afterWalk {settings : UpgradeSettings} {job : Job} {first : ModuleInstance}
    {others : List ModuleInstance} (walks : job.walks = true)
    (hInstances : workspace.instances = first :: others)
    (ends : Ends (afterWalk settings job) workspace log outcome reached)
    (scripted : ∀ exchange ∈ log, exchange.Scripted tool) :
    ∃ completed failure,
      tool.Carried [{ command := job.last, version := settings.defaultVersion }] (toolCalls log)
        completed failure ∧
      outcome = failure.elim (.ok ()) .error ∧
      reached = workspace.revised (first.configuration.merge job.joining)
        (tool.stateAfter workspace.state completed) := by
  have hLast {before : Workspace} (writes : job.last.Writes)
      (hEnds : Ends (carryOut [{ command := job.last, version := settings.defaultVersion }]) before
        log outcome reached) :=
    ends_carryOut hEnds (by simpa using writes) scripted
  cases job with
  | provision | importResources resources => cases walks
  | update vars | upgrade vars => exact hLast trivial ((ends_configure_bind_iff hInstances).mp ends)
  | deprovision vars =>
      obtain ⟨completed, failure, hCarried, hOutcome, rfl⟩ := hLast trivial ends
      refine ⟨completed, failure, hCarried, hOutcome, ?_⟩
      exact (Workspace.revised_self hInstances _).symm

/-- The whole work of a job which walks. If there is no way to the default version, nothing is done.
Otherwise the commands are carried out up to the first one that fails, and the variables are set
exactly if all versions on the way were applied. -/
theorem ends_body_scripted {settings : UpgradeSettings} {job : Job} {first : ModuleInstance}
    {others : List ModuleInstance} (walks : job.walks = true)
    (hInstances : workspace.instances = first :: others)
    (ends : Ends (job.body settings) workspace log outcome reached)
    (scripted : ∀ exchange ∈ log, exchange.Scripted tool) :
    (∃ e, workspace.stepsAhead settings = .error e ∧ log = [] ∧ outcome = .error e ∧
        reached = workspace) ∨
      ∃ steps completed failure, workspace.stepsAhead settings = .ok steps ∧
        tool.Carried (job.commands settings steps) (toolCalls log) completed failure ∧
        outcome = failure.elim (.ok ()) .error ∧
        reached = workspace.revised
          (if steps.length ≤ completed.length then first.configuration.merge job.joining
            else first.configuration)
          (tool.stateAfter workspace.state completed) := by
  rw [body_eq_afterWalk settings walks] at ends
  rcases ends_bind_iff.mp ends with ⟨e, hWalk, rfl⟩ | ⟨walked, later, _, _, rfl, hWalk, hRest⟩
  · rcases ends_upgradeState hWalk with ⟨_, hSteps, rfl, hOutcome, rfl⟩ | ⟨steps, hSteps, hApplied⟩
    · cases hOutcome
      exact .inl ⟨e, hSteps, rfl, rfl, rfl⟩
    · obtain ⟨completed, _ | failure, hCarried, hOutcome, rfl⟩ :=
        ends_carryOut hApplied (writes_applications steps) scripted
      · cases hOutcome
      · cases hOutcome
        have hShort : completed.length < steps.length := by
          simpa [applications] using hCarried.length_completed
        refine .inr ⟨steps, completed, some e, hSteps, hCarried.append _, rfl, ?_⟩
        rw [if_neg (Nat.not_le.mpr hShort), Workspace.revised_self hInstances]
  · rcases ends_upgradeState hWalk with ⟨_, _, _, hOutcome, _⟩ | ⟨steps, hSteps, hApplied⟩
    · cases hOutcome
    · obtain ⟨completed, _ | failure, hCarried, hOutcome, rfl⟩ := ends_carryOut hApplied
        (writes_applications steps) fun exchange h => scripted exchange (by simp [h])
      · let between : Workspace :=
          { workspace with state := tool.stateAfter workspace.state completed }
        have hBetween : between.instances = first :: others := hInstances
        obtain ⟨last, failure, hLast, rfl, rfl⟩ := ends_afterWalk walks hBetween hRest
          fun exchange h => scripted exchange (by simp [h])
        obtain ⟨hBegun, rfl, hSound⟩ := hCarried.eq_of_none
        refine .inr ⟨steps, applications steps ++ last, failure, hSteps, ?_, rfl, ?_⟩
        · rw [toolCalls_append, hBegun]
          exact hLast.prepend hSound
        · rw [if_pos (by simp [applications]), ScriptedTool.stateAfter_append]
          rfl
      · cases hOutcome

/-- A job which walks and succeeds has carried out its own command last, whatever the workspace. -/
theorem state_of_ends_ok {settings : UpgradeSettings} {job : Job} (walks : job.walks = true)
    (ends : Ends (job.body settings) workspace log (.ok ()) reached)
    (scripted : ∀ exchange ∈ log, exchange.Scripted tool) :
    reached.state = tool.stateOf { command := job.last, version := settings.defaultVersion } := by
  have hLast {before : Workspace} {later : List (Exchange jobInterface)} (writes : job.last.Writes)
      (hEnds : Ends (carryOut [{ command := job.last, version := settings.defaultVersion }]) before
        later (.ok ()) reached) (hScripted : ∀ exchange ∈ later, exchange.Scripted tool) :
      reached.state = tool.stateOf { command := job.last, version := settings.defaultVersion } := by
    obtain ⟨completed, _ | failure, hCarried, hOutcome, rfl⟩ :=
      ends_carryOut hEnds (by simpa using writes) hScripted
    · obtain ⟨-, rfl, -⟩ := hCarried.eq_of_none
      simp only [ScriptedTool.stateAfter, List.getLast?_singleton, Option.map_some,
        Option.getD_some]
    · cases hOutcome
  rw [body_eq_afterWalk settings walks] at ends
  obtain ⟨walked, later, _, between, rfl, -, hRest⟩ := ends_bind_ok_iff.mp ends
  have hScripted exchange (h : exchange ∈ later) := scripted exchange (by simp [h])
  cases job with
  | provision | importResources resources => cases walks
  | deprovision vars => exact hLast trivial hRest hScripted
  | update vars | upgrade vars =>
      obtain ⟨_, last, _, _, rfl, -, hApply⟩ := ends_bind_ok_iff.mp hRest
      exact hLast trivial hApply fun exchange h => hScripted exchange (by simp [h])

end Body

/-- What a job which walks returns that has found a workspace with a module and an instance. -/
theorem Ended.scripted {tool : ScriptedTool} {settings : UpgradeSettings} {job : Job}
    {record : Record} {workspace : Workspace} {first : ModuleInstance}
    {others : List ModuleInstance} {log : List (Exchange jobInterface)} {result : JobResult}
    (ended : Ended settings job record log result) (walks : job.walks = true)
    (hLoaded : Workspace.ofBytes record.workspace = .ok workspace)
    (hModules : workspace.modules ≠ []) (hInstances : workspace.instances = first :: others)
    (scripted : ∀ exchange ∈ log, exchange.Scripted tool) :
    let configuration := job.initial workspace first.configuration
    (∃ e, workspace.stepsAhead settings = .error e ∧ toolCalls log = [] ∧
        result = .error {
          error := e
          workspace := some (workspace.revised configuration workspace.state) }) ∨
      ∃ steps completed failure, workspace.stepsAhead settings = .ok steps ∧
        tool.Carried (job.commands settings steps) (toolCalls log) completed failure ∧
        result.failure? = failure ∧
        result.workspace? = some (workspace.revised
          (if steps.length ≤ completed.length then configuration.merge job.joining
            else configuration)
          (tool.stateAfter workspace.state completed)) := by
  have hPrepared := job.prepare_eq hModules hInstances
  cases ended with
  | unreadable h => cases hLoaded.symm.trans h
  | unprepared h unprepared =>
      obtain rfl := Except.ok.inj (hLoaded.symm.trans h)
      cases hPrepared.symm.trans unprepared
  | worked h hPrepare work =>
      obtain rfl := Except.ok.inj (hLoaded.symm.trans h)
      obtain rfl := Except.ok.inj (hPrepared.symm.trans hPrepare)
      let configuration := job.initial workspace first.configuration
      have hBegun : (workspace.revised configuration workspace.state).instances =
          { first with configuration } :: others := by
        simp [Workspace.revised, hInstances]
      have hSame (other : Params) (state : Bytes) :
          (workspace.revised configuration workspace.state).revised other state =
            workspace.revised other state := by
        simp [Workspace.revised, hInstances]
      rcases Body.ends_body_scripted walks hBegun work scripted with
        ⟨e, hSteps, rfl, rfl, rfl⟩ | ⟨steps, completed, failure, hSteps, hCarried, rfl, rfl⟩
      · exact .inl ⟨e, hSteps, rfl, rfl⟩
      · refine .inr ⟨steps, completed, failure, hSteps, hCarried, ?_⟩
        rw [hSame]
        cases failure <;> exact ⟨rfl, rfl⟩

end Job

end ServiceBroker
