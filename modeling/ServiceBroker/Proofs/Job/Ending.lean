import ServiceBroker.Proofs.Job.Requests

/-! How the work of a job ends: with a value or an error, and with the workspace as far as it got.
Work on a workspace is taken apart into its steps; each of them is described by what it asked, how
it ended and what it left. -/

namespace ServiceBroker

namespace Job.Body

variable {α β : Type} {workspace reached : Workspace} {log : List (Exchange jobInterface)}

/-- Answered as recorded, work on a workspace ends with an outcome and leaves a workspace. -/
def Ends (work : Body α) (workspace : Workspace) (log : List (Exchange jobInterface))
    (outcome : Except BrokerError α) (reached : Workspace) : Prop :=
  (work.run.run workspace).Passes log (.done (outcome, reached))

theorem ends_pure_iff {value : α} {outcome : Except BrokerError α} :
    Ends (pure value) workspace log outcome reached ↔
      log = [] ∧ outcome = .ok value ∧ reached = workspace := by
  change Program.Passes (.done (Except.ok value, workspace)) log _ ↔ _
  simp

/-- The first part has failed and the second one was left out, or one has ended after the other. -/
theorem ends_bind_iff {first : Body α} {next : α → Body β} {outcome : Except BrokerError β} :
    Ends (first >>= next) workspace log outcome reached ↔
      (∃ e, first.Ends workspace log (.error e) reached ∧ outcome = .error e) ∨
        ∃ before after value between, log = before ++ after ∧
          first.Ends workspace before (.ok value) between ∧
          (next value).Ends between after outcome reached := by
  change (Program.bind (first.run.run workspace) _).Passes log _ ↔ _
  rw [Program.passes_bind_done_iff]
  constructor
  · rintro ⟨before, after, ⟨ending, between⟩, rfl, hFirst, hNext⟩
    cases ending with
    | error e =>
        obtain ⟨rfl, hDone⟩ := Program.done_passes_iff.mp hNext
        cases hDone
        rw [List.append_nil]
        exact .inl ⟨e, hFirst, rfl⟩
    | ok value => exact .inr ⟨before, after, value, between, rfl, hFirst, hNext⟩
  · rintro (⟨e, hFirst, rfl⟩ | ⟨before, after, value, between, rfl, hFirst, hNext⟩)
    · exact ⟨log, [], (.error e, reached), by simp, hFirst, .refl _⟩
    · exact ⟨before, after, (.ok value, between), rfl, hFirst, hNext⟩

/-- Both parts have succeeded, one after the other. -/
theorem ends_bind_ok_iff {first : Body α} {next : α → Body β} {value : β} :
    Ends (first >>= next) workspace log (.ok value) reached ↔
      ∃ before after found between, log = before ++ after ∧
        first.Ends workspace before (.ok found) between ∧
        (next found).Ends between after (.ok value) reached := by
  rw [ends_bind_iff]
  constructor
  · rintro (⟨e, -, hError⟩ | both)
    · cases hError
    · exact both
  · exact .inr

/-- Looking at the workspace asks nothing. -/
theorem ends_get_bind_iff {next : Workspace → Body β} {outcome : Except BrokerError β} :
    Ends (get >>= next) workspace log outcome reached ↔
      (next workspace).Ends workspace log outcome reached :=
  Iff.rfl

/-- What can fail by itself asks nothing. -/
theorem ends_orFail_bind_iff {ε : Type} [Coe ε BrokerError] {result : Except ε α}
    {next : α → Body β} {outcome : Except BrokerError β} :
    Ends (orFail result >>= next) workspace log outcome reached ↔
      (∃ e, result = .error e ∧ log = [] ∧ outcome = .error (e : BrokerError) ∧
          reached = workspace) ∨
        ∃ value, result = .ok value ∧ (next value).Ends workspace log outcome reached := by
  cases result with
  | error e =>
      change Program.Passes (.done (Except.error (e : BrokerError), workspace)) log _ ↔ _
      simp
  | ok value =>
      change (next value).Ends workspace log outcome reached ↔ _
      simp

theorem ends_orFail_bind_ok_iff {ε : Type} [Coe ε BrokerError] {result : Except ε α}
    {next : α → Body β} {value : β} :
    Ends (orFail result >>= next) workspace log (.ok value) reached ↔
      ∃ found, result = .ok found ∧ (next found).Ends workspace log (.ok value) reached := by
  rw [ends_orFail_bind_iff]
  constructor
  · rintro (⟨e, -, -, hError, -⟩ | found)
    · cases hError
    · exact found
  · exact .inr

/-- A change asks nothing; it is made, or it fails and nothing is changed. -/
theorem ends_change_iff {edit : Workspace → Except WorkspaceError Workspace}
    {outcome : Except BrokerError Unit} :
    Ends (change edit) workspace log outcome reached ↔
      log = [] ∧ ((edit workspace = .ok reached ∧ outcome = .ok ()) ∨
        ∃ e, edit workspace = .error e ∧ outcome = .error (e : BrokerError) ∧
          reached = workspace) := by
  have hSet (changed : Workspace) :
      Ends (set changed) workspace log outcome reached ↔
        log = [] ∧ outcome = .ok () ∧ reached = changed := by
    change Program.Passes (.done (Except.ok (), changed)) log _ ↔ _
    simp
  change Ends (orFail (edit workspace) >>= set) workspace log outcome reached ↔ _
  rw [ends_orFail_bind_iff]
  constructor
  · rintro (⟨e, hEdit, rfl, rfl, rfl⟩ | ⟨changed, hEdit, hDone⟩)
    · exact ⟨rfl, .inr ⟨e, hEdit, rfl, rfl⟩⟩
    · obtain ⟨rfl, rfl, rfl⟩ := (hSet changed).mp hDone
      exact ⟨rfl, .inl ⟨hEdit, rfl⟩⟩
  · rintro ⟨rfl, ⟨hEdit, rfl⟩ | ⟨e, hEdit, rfl, rfl⟩⟩
    · exact .inr ⟨reached, hEdit, (hSet reached).mpr ⟨rfl, rfl, rfl⟩⟩
    · exact .inl ⟨e, hEdit, rfl, rfl, rfl⟩

theorem ends_change_ok_iff {edit : Workspace → Except WorkspaceError Workspace} :
    Ends (change edit) workspace log (.ok ()) reached ↔ log = [] ∧ edit workspace = .ok reached := by
  rw [ends_change_iff]
  refine and_congr_right fun _ => ⟨?_, fun h => .inl ⟨h, rfl⟩⟩
  rintro (⟨hEdit, -⟩ | ⟨e, -, hError, -⟩)
  · exact hEdit
  · cases hError

/-- What one run of the tool leaves. -/
def ranTool (workspace : Workspace) (report : ToolReport) : Workspace :=
  { workspace with state := report.state.getD workspace.state }

/-- A run of the tool is one request; if it fails it leaves the workspace as it was. -/
theorem ends_runTool_iff {version : Version} {command : Command}
    {resources : List ExistingResource} {outcome : Except BrokerError String} :
    Ends (runTool version command resources) workspace log outcome reached ↔
      ∃ answer : Except BrokerError ToolReport,
        log = [⟨.tool { command, version, workspace, resources }, answer⟩] ∧
        match answer with
        | .ok report => outcome = .ok report.output ∧ reached = ranTool workspace report
        | .error e => outcome = .error e ∧ reached = workspace := by
  refine Iff.trans (Program.ask_passes_done_iff (I := jobInterface)) ?_
  constructor
  · rintro ⟨answer, later, rfl, run⟩
    cases answer with
    | error e =>
        obtain ⟨rfl, hDone⟩ := Program.done_passes_iff.mp run
        cases hDone
        exact ⟨_, rfl, rfl, rfl⟩
    | ok report =>
        obtain ⟨rfl, hDone⟩ := Program.done_passes_iff.mp run
        cases hDone
        exact ⟨_, rfl, rfl, rfl⟩
  · rintro ⟨answer, rfl, h⟩
    refine ⟨answer, [], rfl, ?_⟩
    cases answer with
    | error e =>
        obtain ⟨rfl, rfl⟩ := h
        exact .refl _
    | ok report =>
        obtain ⟨rfl, rfl⟩ := h
        exact .refl _

/-- A run of the tool that succeeds has reported. -/
theorem exists_report_of_runTool {version : Version} {command : Command}
    {resources : List ExistingResource} {output : String}
    (ends : Ends (runTool version command resources) workspace log (.ok output) reached) :
    ∃ report : ToolReport,
      log = [⟨.tool { command, version, workspace, resources }, .ok report⟩] ∧
        output = report.output ∧ reached = ranTool workspace report := by
  obtain ⟨answer, hLog, hAnswer⟩ := ends_runTool_iff.mp ends
  cases answer with
  | error e => cases hAnswer.1
  | ok report => exact ⟨report, hLog, Except.ok.inj hAnswer.1, hAnswer.2⟩

end Job.Body

namespace Job

/-- How a job ends that has read the record of its deployment. -/
inductive Ended (settings : UpgradeSettings) (job : Job) (record : Record) :
    List (Exchange jobInterface) → JobResult → Prop where
  | unreadable {e : WorkspaceError} (h : Workspace.ofBytes record.workspace = .error e) :
      Ended settings job record [] (.error { error := .workspace e })
  | unprepared {workspace : Workspace} {e : WorkspaceError}
      (h : Workspace.ofBytes record.workspace = .ok workspace)
      (unprepared : job.prepare workspace = .error e) :
      Ended settings job record [] (.error { error := .workspace e })
  | worked {workspace prepared reached : Workspace} {log : List (Exchange jobInterface)}
      {outcome : Except BrokerError Unit} (h : Workspace.ofBytes record.workspace = .ok workspace)
      (hPrepare : job.prepare workspace = .ok prepared)
      (work : (job.body settings).Ends prepared log outcome reached) :
      Ended settings job record log (resultOf (outcome, reached))

variable {settings : UpgradeSettings} {id : String} {job : Job} {log : List (Exchange jobInterface)}
  {result : JobResult}

/-- How a job ends depends on nothing in the record but the workspace. -/
theorem Ended.congr {record other : Record} (ended : Ended settings job record log result)
    (same : other.workspace = record.workspace) : Ended settings job other log result := by
  cases ended with
  | unreadable h => exact .unreadable (same ▸ h)
  | unprepared h unprepared => exact .unprepared (same ▸ h) unprepared
  | worked h hPrepare work => exact .worked (same ▸ h) hPrepare work

/-- A job has read the record and worked on what it found there, if anything. -/
theorem exists_ended (run : (job.run settings id).Passes log (.done result)) :
    (∃ e, log = [⟨.store (.get id), (.error e : Except StoreError Record)⟩] ∧
        result = .error { error := .store e }) ∨
      ∃ record later, log = Exchange.reading id record :: later ∧
        Ended settings job record later result := by
  rw [run_eq] at run
  obtain ⟨answer, later, rfl, hRest⟩ := Program.ask_passes_done_iff.mp run
  cases answer with
  | error e =>
      obtain ⟨rfl, hDone⟩ := Program.done_passes_iff.mp hRest
      cases hDone
      exact .inl ⟨e, rfl, rfl⟩
  | ok record =>
      refine .inr ⟨record, later, rfl, ?_⟩
      simp only [loaded] at hRest
      cases hLoad : Workspace.ofBytes record.workspace with
      | error e =>
          rw [hLoad] at hRest
          obtain ⟨rfl, hDone⟩ := Program.done_passes_iff.mp hRest
          cases hDone
          exact .unreadable hLoad
      | ok workspace =>
          rw [hLoad] at hRest
          change (job.workOn settings workspace).Passes later _ at hRest
          rw [workOn] at hRest
          split at hRest
          · next e hPrepare =>
              obtain ⟨rfl, hDone⟩ := Program.done_passes_iff.mp hRest
              cases hDone
              exact .unprepared hLoad hPrepare
          · next prepared hPrepare =>
              obtain ⟨before, after, ⟨outcome, reached⟩, rfl, work, hEnd⟩ :=
                Program.passes_bind_done_iff.mp hRest
              obtain ⟨rfl, hResult⟩ := Program.done_passes_iff.mp hEnd
              cases hResult
              rw [List.append_nil]
              exact .worked hLoad hPrepare work

/-- A job that has read a record ends as its work on that record does. -/
theorem ended_of_passes {record : Record}
    (passes : (job.run settings id).Passes (.reading id record :: log) (.done result)) :
    Ended settings job record log result := by
  rcases exists_ended passes with ⟨e, hLog, -⟩ | ⟨found, later, hLog, ended⟩
  · cases hLog
  · cases hLog
    exact ended

theorem loaded_of_ofBytes {record : Record} {workspace : Workspace}
    (h : Workspace.ofBytes record.workspace = .ok workspace) :
    loaded (.ok record) = .ok workspace := by
  rw [loaded, h]
  rfl

/-- A job that finds a workspace in the record works on it. -/
theorem passes_of_workOn {record : Record} {workspace : Workspace} {rest : JobProgram JobResult}
    (h : Workspace.ofBytes record.workspace = .ok workspace)
    (work : (job.workOn settings workspace).Passes log rest) :
    (job.run settings id).Passes (.reading id record :: log) rest := by
  rw [run_eq]
  refine .ask ?_
  simpa only [loaded_of_ofBytes h] using work

/-- What a job does depends on nothing in the record but the workspace that is read from it. -/
theorem passes_congr {first second : Record} {rest : JobProgram JobResult}
    (same : Workspace.ofBytes first.workspace = Workspace.ofBytes second.workspace) :
    (job.run settings id).Passes (.reading id first :: log) rest ↔
      (job.run settings id).Passes (.reading id second :: log) rest := by
  have hGoOn {one other : Record} (hSame : loaded (.ok one) = loaded (.ok other))
      (passes : (job.run settings id).Passes (.reading id one :: log) rest) :
      (job.run settings id).Passes (.reading id other :: log) rest := by
    rw [run_eq] at passes ⊢
    rcases Program.ask_passes_iff.mp passes with ⟨hNone, -⟩ | ⟨answer, later, hLog, hLater⟩
    · cases hNone
    · cases hLog
      rw [hSame] at hLater
      exact .ask hLater
  have hLoaded : loaded (.ok first) = loaded (.ok second) := by rw [loaded, loaded, same]
  exact ⟨hGoOn hLoaded, hGoOn hLoaded.symm⟩

/-- Whatever the work on a workspace can come to, the job can come to. -/
theorem passes_of_ends {record : Record} {workspace prepared reached : Workspace}
    {outcome : Except BrokerError Unit} (h : Workspace.ofBytes record.workspace = .ok workspace)
    (hPrepare : job.prepare workspace = .ok prepared)
    (ends : (job.body settings).Ends prepared log outcome reached) :
    (job.run settings id).Passes (.reading id record :: log)
      (.done (resultOf (outcome, reached))) := by
  refine passes_of_workOn h ?_
  simp only [workOn, hPrepare]
  rw [← List.append_nil log]
  exact (ends.bind fun ending => .done (resultOf ending)).trans (.refl _)

section

variable {record : Record} {loaded : Workspace} {rest : JobProgram JobResult}

/-- A job has asked nothing yet, or it has read the record. Then it works on the workspace there, if
there is one, and otherwise it has ended. -/
theorem passes_cases (passes : (job.run settings id).Passes log rest) :
    (log = [] ∧ rest = job.run settings id) ∨
      ∃ (answer : Except StoreError Record) (later : List (Exchange jobInterface)),
        log = ⟨.store (.get id), answer⟩ :: later ∧
        (∀ record workspace, answer = .ok record → Workspace.ofBytes record.workspace = .ok workspace →
          (job.workOn settings workspace).Passes later rest) ∧
        ∀ e, Job.loaded answer = .error e → later = [] ∧ rest = .done (.error { error := e }) := by
  rw [run_eq] at passes ⊢
  rcases Program.ask_passes_iff.mp passes with ⟨rfl, rfl⟩ | ⟨answer, later, rfl, hLater⟩
  · exact .inl ⟨rfl, rfl⟩
  · refine .inr ⟨answer, later, rfl, fun record workspace hAnswer hLoaded => ?_, fun e hFailed => ?_⟩
    · subst hAnswer
      simpa only [loaded_of_ofBytes hLoaded] using hLater
    · simpa only [hFailed, Program.done_passes_iff] using hLater

/-- What a job does that has read a record, it does with the workspace there. -/
theorem workOn_of_passes (hLoaded : Workspace.ofBytes record.workspace = .ok loaded)
    (passes : (job.run settings id).Passes (.reading id record :: log) rest) :
    (job.workOn settings loaded).Passes log rest := by
  rcases passes_cases passes with ⟨hLog, -⟩ | ⟨answer, later, hLog, hWork, -⟩
  · cases hLog
  · cases hLog
    exact hWork record loaded rfl hLoaded

/-- Work on a workspace asks for nothing but runs of the tool. -/
theorem exists_run_of_mem (passes : (job.workOn settings loaded).Passes log rest)
    {exchange : Exchange jobInterface} (member : exchange ∈ log) :
    ∃ run answer, exchange = ⟨.tool run, answer⟩ := by
  have hKind := (passes.asks (workOn_asks settings job loaded)).1 exchange member
  obtain ⟨request, reply⟩ := exchange
  cases request with
  | store call | now => exact hKind.elim
  | tool run => exact ⟨run, reply, rfl⟩

end

end Job

end ServiceBroker
