import ServiceBroker.Proofs.Broker.Stock
import ServiceBroker.Proofs.Job.Keeping
import ServiceBroker.Proofs.Upgrade.StateVersion

/-! Whether a stored workspace can be read again. A workspace can be written however deep its values
nest, but is read only up to a depth of 127, and a value stands four levels deeper in a stored
workspace than by itself. So a deployment stays readable as long as no job brings a value that nests
deeper than 123; a variable may do so, since a request is read up to the same depth as a workspace,
and leaves it unreadable. -/

namespace ServiceBroker

open Decoder

/-- The variables of the job were decoded from a JSON text. -/
def Job.Decoded (job : Job) : Prop :=
  ∃ text, Json.decode params text = .ok job.vars

/-- There is room for the values in a stored workspace, and their numbers read back. -/
def Fit (values : Params) : Prop :=
  ∀ field ∈ values, field.2.Faithful ∧ field.2.depth ≤ 123

/-- The stored workspace can be read, and the numbers in it read back. -/
def Legible (bytes : Bytes) : Prop :=
  ∃ workspace, Workspace.ofBytes bytes = .ok workspace ∧ workspace.toJson.Faithful

theorem Json.proper_null : Json.null.Proper :=
  ⟨distinct_of_isAtom trivial, (throughout_iff_of_isAtom (show null.IsAtom from trivial)).mpr trivial⟩

theorem Json.storable_null : Json.null.Storable :=
  ⟨proper_null, by simp [depth]⟩

theorem Workspace.Holds.legible {workspace : Workspace} (holds : workspace.Holds Json.Storable) :
    Workspace.ofBytes workspace.toBytes = .ok workspace ∧ Legible workspace.toBytes := by
  obtain ⟨proper, hDepth⟩ := holds_storable_iff.mp holds
  have hRead := proper.readable_iff.mpr hDepth
  exact ⟨hRead, workspace, hRead, (holds_proper_iff.mp proper).2⟩

namespace Job

variable {settings : UpgradeSettings} {id : String} {job : Job} {record : Record}
  {loaded returned : Workspace} {log : List (Exchange jobInterface)} {result : JobResult}

theorem Decoded.names (decoded : job.Decoded) : job.vars.names.Nodup := by
  obtain ⟨text, hText⟩ := decoded
  exact (yields_json.fields.decode hText).1

/-- A value that a job brings was decoded, or is what a literal stands for; in either case it names
nothing twice. -/
theorem Decoded.proper (decoded : job.Decoded)
    (faithful : ∀ field ∈ job.brought log, field.2.Faithful) :
    ∀ field ∈ job.brought log, field.2.Proper := by
  refine fun field hField => ⟨?_, faithful field hField⟩
  cases job with
  | importResources resources =>
      obtain ⟨exchange, -, hCaptured⟩ := List.mem_flatMap.mp hField
      exact exchange.distinct_captured field hCaptured
  | provision | update vars | deprovision vars | upgrade vars =>
      obtain ⟨text, hText⟩ := decoded
      exact ((yields_json.fields.decode hText).2 field hField).2

/-- What a job brings is storable if it fits. -/
theorem storable_of_fit (decoded : job.Decoded) (fit : Fit (job.brought log)) :
    ∀ field ∈ job.brought log, field.2.Storable := fun field hField =>
  ⟨decoded.proper (fun other hOther => (fit other hOther).1) field hField, (fit field hField).2⟩

/-- What a job returns that succeeds and destroys nothing can only be read if the values that it
brought leave room. -/
theorem Ended.shallow_of_depth (ended : Ended settings job record log (.ok returned))
    (retains : job.operation ≠ .deprovision) (once : job.vars.names.Nodup)
    (hDepth : returned.toJson.depth ≤ 127) : ∀ field ∈ job.brought log, field.2.depth ≤ 123 := by
  intro field hField
  obtain ⟨prepared, ends⟩ := ended.exists_ends
  obtain ⟨i, hInstance, hConfigured⟩ := ends.configured retains once field hField
  exact Workspace.depth_toJson_le_iff.mp hDepth i hInstance field hConfigured

end Job

namespace Traffic

/-- The variables of the job were decoded, and the values that it brings fit. -/
structure Activity.Modest (work : Activity) : Prop where
  decoded : work.job.Decoded
  fit : Fit (work.job.brought work.log)

variable {settings : UpgradeSettings} {tool : ToolBehavior} {limit : Traffic → Prop} {t u : Traffic}
  {id : String}

theorem Activity.Modest.prior {work next : Activity} (modest : next.Modest)
    (hJob : next.job = work.job) (hLog : work.log <+: next.log) : work.Modest where
  decoded := hJob ▸ modest.decoded
  fit field hField := modest.fit field (by
    rw [hJob]
    exact work.job.brought_subset hLog.subset hField)

/-- What a modest job returns can be stored, if it began with something legible. -/
theorem Activity.Modest.holds {work : Activity} (modest : work.Modest)
    (reads : ∀ record ∈ work.readings, Legible record.workspace) {result : JobResult}
    (passed : work.Returned settings result) {returned : Workspace}
    (hReturned : result.workspace? = some returned) : returned.Holds Json.Storable := by
  obtain ⟨log, passes, hLog⟩ := passed
  rcases Job.exists_ended passes with ⟨e, -, rfl⟩ | ⟨record, later, rfl, ended⟩
  · cases hReturned
  · have hRead : record ∈ work.readings :=
      List.mem_filterMap.mpr ⟨_, hLog.subset List.mem_cons_self, rfl⟩
    obtain ⟨loaded, hLoaded, faithful⟩ := reads record hRead
    have hLater : later ⊆ work.log := fun exchange hMember =>
      hLog.subset (List.mem_cons_of_mem _ hMember)
    have fit : Fit (work.job.brought later) := fun field hField =>
      modest.fit field (work.job.brought_subset hLater hField)
    exact ended.holds hLoaded (Workspace.holds_of_ofBytes hLoaded faithful) Json.storable_null
      (Job.storable_of_fit modest.decoded fit) hReturned

/-- As long as its jobs are modest, all workspaces of a deployment are legible. -/
theorem Run.legible {start : Traffic} (run : Run settings tool limit start t)
    (quiet : Quiet id start)
    (first : ∀ record, start.records.get? id = some record → Legible record.workspace)
    (modest : ∀ work ∈ t.jobs, work.id = id → work.Modest) : Stocked Legible id t := by
  induction run with
  | refl => exact quiet.stocked first
  | @tail t u prior last _ ih =>
      have move := (prior.grounded quiet.grounded).move last
      have hPrior : ∀ work ∈ t.jobs, work.id = id → work.Modest := by
        intro work hMember hId
        obtain ⟨n, hGet⟩ := List.mem_iff_getElem?.mp hMember
        obtain ⟨next, hNext⟩ := last.exists_job hGet
        obtain ⟨hSame, hJob, hLog⟩ := move.log_prefix hGet hNext
        exact (modest next (List.mem_of_getElem? hNext) (hSame.trans hId)).prior hJob hLog
      have stocked := ih hPrior
      refine move.stocked stocked fun work hMember hId result returned passed hReturned => ?_
      have reads := stocked.jobs work hMember hId
      exact ((hPrior work hMember hId).holds reads passed hReturned).legible.2

/-- What a job has written is what its runner has returned, or what it found if that is nothing. -/
theorem Grounded.written (ground : Grounded settings tool t) {work : Activity}
    (member : work ∈ t.jobs) {record : Record}
    (hWritten : record ∈ work.log.filterMap Exchange.written?) :
    ∃ result, work.Returned settings result ∧ ∃ before ∈ work.readings,
      record.workspace = result.kept before.workspace := by
  cases ground.jobs work member with
  | running program passed h =>
      rw [written_of_passes passed] at hWritten
      cases hWritten
  | settling result seen log passed key hLog h =>
      rw [hLog, List.filterMap_append, written_of_passes passed] at hWritten
      cases hWritten
  | storing result seen now log passed key hLog h =>
      rw [hLog, List.filterMap_append, written_of_passes passed] at hWritten
      cases hWritten
  | recorded result seen now log passed key hLog h =>
      refine ⟨result, ⟨log, passed, hLog ▸ List.prefix_append _ _⟩, seen, ?_, ?_⟩
      · rw [Activity.readings, hLog]
        simp [Exchange.reading, Exchange.reading?]
      · rw [hLog, List.filterMap_append, written_of_passes passed] at hWritten
        have hRecord : record = seen.settled result now := List.mem_singleton.mp hWritten
        rw [hRecord, Record.settled_workspace]

/-- A stored workspace stays readable as long as what jobs bring is shallow. Of a workspace that can
be read every job, however it ends, makes one that is read back as it was returned if its text nests
to a depth of at most 127, and that cannot be read otherwise. It does not nest deeper if none of the
values that the job brought nests deeper than 123; if the job succeeds and destroys nothing, then
only if none does. So however the jobs of a deployment overlap, with each other and with calls, and
whatever the tool does, the workspace in its record can be read as long as they bring only such
values, and what a job has written is read back as its runner returned it. -/
theorem readable_while_shallow (settings : UpgradeSettings) :
    (∀ (id : String) (job : Job) (record : Record) (loaded returned : Workspace)
        (log : List (Exchange jobInterface)) (result : JobResult),
      (job.run settings id).Passes (.reading id record :: log) (.done result) →
      Workspace.ofBytes record.workspace = .ok loaded → loaded.toJson.Faithful → job.Decoded →
      (∀ field ∈ job.brought log, field.2.Faithful) → result.workspace? = some returned →
      (Workspace.ofBytes returned.toBytes =
        if returned.toJson.depth ≤ 127 then .ok returned
        else .error (.undecodable DecodeError.tooDeep.message)) ∧
      ((∀ field ∈ job.brought log, field.2.depth ≤ 123) → returned.toJson.depth ≤ 127) ∧
      (result = .ok returned → job.operation ≠ .deprovision →
        (returned.toJson.depth ≤ 127 ↔ ∀ field ∈ job.brought log, field.2.depth ≤ 123))) ∧
    ∀ (tool : ToolBehavior) (limit : Traffic → Prop) (id : String) (start t : Traffic),
      Quiet id start → Run settings tool limit start t →
      (∀ record, start.records.get? id = some record → Legible record.workspace) →
      (∀ work ∈ t.jobs, work.id = id → work.Modest) →
      (∀ record, t.records.get? id = some record → Legible record.workspace) ∧
        ∀ work ∈ t.jobs, work.id = id → ∀ record ∈ work.log.filterMap Exchange.written?,
          Legible record.workspace ∧
            ∃ result, (∀ other, work.Returned settings other ↔ other = result) ∧
              ∀ returned, result.workspace? = some returned →
                Workspace.ofBytes record.workspace = .ok returned := by
  refine ⟨?_, ?_⟩
  · intro id job record loaded returned log result passes hLoaded faithful decoded hFaithful
      hReturned
    have ended := Job.ended_of_passes passes
    have hStored := Workspace.holds_of_ofBytes hLoaded faithful
    have proper := ended.holds hLoaded (hStored.mono fun _ h => h.proper) Json.proper_null
      (decoded.proper hFaithful) hReturned
    have room (shallow : ∀ field ∈ job.brought log, field.2.depth ≤ 123) :
        returned.toJson.depth ≤ 127 := by
      have fit : Fit (job.brought log) := fun field hField =>
        ⟨hFaithful field hField, shallow field hField⟩
      have holds := ended.holds hLoaded hStored Json.storable_null
        (Job.storable_of_fit decoded fit) hReturned
      exact (Workspace.holds_storable_iff.mp holds).2
    refine ⟨proper.ofBytes_toBytes, room, fun succeeded retains => ⟨?_, room⟩⟩
    rw [succeeded] at ended
    exact ended.shallow_of_depth retains decoded.names
  · intro tool limit id start t quiet run first modest
    have stocked := run.legible quiet first modest
    refine ⟨stocked.records, fun work hMember hId record hWritten => ?_⟩
    obtain ⟨result, passed, before, hBefore, hKept⟩ :=
      (run.grounded quiet.grounded).written hMember hWritten
    have reads := stocked.jobs work hMember hId
    have hRead (returned : Workspace) (hReturned : result.workspace? = some returned) :
        Workspace.ofBytes record.workspace = .ok returned ∧ Legible record.workspace := by
      rw [hKept, JobResult.kept, hReturned]
      exact ((modest work hMember hId).holds reads passed hReturned).legible
    have once (other : JobResult) : work.Returned settings other ↔ other = result :=
      ⟨passed.unique, fun h => h ▸ passed⟩
    refine ⟨?_, result, once, fun returned hReturned => (hRead returned hReturned).1⟩
    cases hReturned : result.workspace? with
    | some returned => exact (hRead returned hReturned).2
    | none =>
        rw [hKept, JobResult.kept, hReturned]
        exact reads before hBefore

/-- An array in an array, and so on, to a depth. -/
def nested : Nat → Json
  | 0 => .array []
  | depth + 1 => .array [nested depth]

theorem nested_depth (n : Nat) : (nested n).depth = n + 1 := by
  induction n with
  | zero => rfl
  | succ n ih => simp [nested, Json.depth, Json.itemsDepth, ih]

theorem nested_proper (n : Nat) : (nested n).Proper := by
  induction n with
  | zero => exact ⟨Json.distinct_array_iff.mpr (by simp), Json.faithful_array_iff.mpr (by simp)⟩
  | succ n ih =>
      exact ⟨Json.distinct_array_iff.mpr (by simpa using ih.distinct),
        Json.faithful_array_iff.mpr (by simpa using ih.faithful)⟩

/-- A variable with a nested value. -/
def deepVars (n : Nat) : Params :=
  [("v", nested n)]

theorem forall_mem_deepVars {n : Nat} (p : Json → Prop) :
    (∀ field ∈ deepVars n, p field.2) ↔ p (nested n) :=
  List.forall_mem_singleton

/-- The variable can come with a request, which has room for values of a depth of 126. -/
theorem decoded_deepVars {n : Nat} (h : n ≤ 125) : (Job.update (deepVars n)).Decoded := by
  refine ⟨(Json.object (deepVars n)).render, ?_⟩
  have proper := (forall_mem_deepVars Json.Proper).mpr (nested_proper n)
  have hFaithful : (Json.object (deepVars n)).Faithful :=
    Json.faithful_object_iff.mpr fun field hField => (proper field hField).faithful
  have hDepth : ∀ field ∈ deepVars n, field.2.depth ≤ 126 :=
    (forall_mem_deepVars (·.depth ≤ 126)).mpr (by rw [nested_depth]; omega)
  have once : (deepVars n).names.Nodup := by simp [deepVars, Fields.names]
  have hVars := fields_toDocument json id (fun value => value.depth ≤ 126) 126 once
    fun field hField => value_toDocument (proper field hField).distinct 126
  rw [if_pos hDepth] at hVars
  rw [Json.decode_render, hFaithful.reread?_eq]
  exact hVars

/-- What the update of a modest workspace makes of it. -/
def deepWorkspace (n : Nat) : Workspace :=
  { modestWorkspace (ToolState.document lastVersion []) with
    instances := [{ moduleName := "m", name := "db", configuration := deepVars n }] }

theorem ofBytes_deepWorkspace (n : Nat) :
    Workspace.ofBytes (deepWorkspace n).toBytes =
      if n < 123 then .ok (deepWorkspace n)
      else .error (.undecodable DecodeError.tooDeep.message) := by
  have holds : (deepWorkspace n).Holds Json.Proper :=
    ⟨by simp [deepWorkspace, modestWorkspace], by simp [deepWorkspace, deepVars, Fields.names],
      by simpa [deepWorkspace, deepVars] using nested_proper n⟩
  have hDepth : (deepWorkspace n).toJson.depth ≤ 127 ↔ n < 123 := by
    have hShallow : (deepWorkspace n).Shallow ↔ ∀ field ∈ deepVars n, field.2.depth ≤ 123 :=
      List.forall_mem_singleton
    rw [Workspace.depth_toJson_le_iff, hShallow, forall_mem_deepVars (·.depth ≤ 123), nested_depth]
    exact Nat.succ_le_iff
  rw [holds.ofBytes_toBytes]
  simp only [hDepth]

/-- The update succeeds, however deep the value is. -/
theorem passes_deep_update (n : Nat) (record : Record)
    (h : Workspace.ofBytes record.workspace =
      .ok (modestWorkspace (ToolState.document lastVersion []))) :
    ∃ log, (∀ exchange ∈ log, ∀ records : Records,
        Answered recording false records records exchange.request exchange.reply) ∧
      (Job.run upgradingSettings restingRecord.id (.update (deepVars n))).Passes
        (.reading restingRecord.id record :: log) (.done (.ok (deepWorkspace n))) := by
  let state := ToolState.document lastVersion []
  let run : ToolRun := { command := .apply, version := lastVersion, workspace := deepWorkspace n }
  let report : ToolReport := { state := some state }
  have hAhead : upgradingSettings.ahead lastVersion = [] := by decide
  have hWalk : (Job.walk (upgradingSettings.ahead lastVersion)).Ends (modestWorkspace state) []
      (.ok ()) (modestWorkspace state) := by
    rw [hAhead]
    exact Job.Body.ends_pure_iff.mpr ⟨rfl, rfl, rfl⟩
  have hUpgrade : (Job.upgradeState upgradingSettings).Ends (modestWorkspace state) [] (.ok ())
      (modestWorkspace state) :=
    (Job.Body.ends_upgradeState_iff rfl (by simp [upgradingSettings])).mpr
      (.inr ⟨lastVersion, stateVersion_modestWorkspace lastVersion, hWalk⟩)
  have hChange : (Job.change (·.configure (deepVars n))).Ends (modestWorkspace state) [] (.ok ())
      (deepWorkspace n) :=
    Job.Body.ends_change_ok_iff.mpr ⟨rfl, rfl⟩
  have hApply : (Job.runTool lastVersion .apply).Ends (deepWorkspace n)
      [⟨.tool run, (.ok report : Except BrokerError ToolReport)⟩] (.ok "") (deepWorkspace n) :=
    Job.Body.ends_runTool_iff.mpr ⟨.ok report, rfl, rfl, rfl⟩
  refine ⟨[⟨.tool run, (.ok report : Except BrokerError ToolReport)⟩], ?_, ?_⟩
  · intro exchange hMember records
    rw [List.mem_singleton.mp hMember]
    exact ⟨rfl, {}, none, rfl⟩
  · have hUpdate : (Job.body upgradingSettings (.update (deepVars n))).Ends (modestWorkspace state)
        [⟨.tool run, (.ok report : Except BrokerError ToolReport)⟩] (.ok ()) (deepWorkspace n) := by
      rw [Job.Body.body_update]
      refine Job.Body.ends_bind_ok_iff.mpr ⟨[], _, (), _, rfl, hUpgrade, ?_⟩
      refine Job.Body.ends_bind_ok_iff.mpr ⟨[], _, (), _, rfl, hChange, ?_⟩
      exact Job.Body.ends_bind_ok_iff.mpr
        ⟨_, [], "", _, rfl, hApply, Job.Body.ends_pure_iff.mpr ⟨rfl, rfl, rfl⟩⟩
    exact Job.passes_of_ends h rfl hUpdate

theorem run_deep_update (n : Nat) : ∃ (t : Traffic) (work : Activity) (record : Record),
    Run upgradingSettings recording (Separate restingRecord.id)
        (restingAt (ToolState.document lastVersion [])) t ∧
      t.jobs = [work] ∧ work.id = restingRecord.id ∧ work.job = .update (deepVars n) ∧
      work.outcome? = some (.ok ()) ∧ t.records.get? restingRecord.id = some record ∧
      record.isInProgress = false ∧ record.workspace = (deepWorkspace n).toBytes := by
  obtain ⟨alone, record, hFound, key, idle, hWorkspace⟩ :=
    restsAt_restingAt (ToolState.document lastVersion [])
  have hRead : Workspace.ofBytes record.workspace =
      .ok (modestWorkspace (ToolState.document lastVersion [])) := by
    rw [hWorkspace, ofBytes_modestWorkspace]
  let begun := record.started .update restingRecord.created
  obtain ⟨log, answered, passes⟩ := passes_deep_update n begun hRead
  obtain ⟨t, work, run, -, hWritten, hJobs, hId, hJob, hOutcome, -⟩ := exists_run_of_operation
    alone hFound key (admission_eq_ok_iff.mpr ⟨idle, _, hRead⟩) passes answered
  exact ⟨t, work, _, run, hJobs, hId, hJob, hOutcome, hWritten, Record.settled_isInProgress ..,
    Record.settled_workspace ..⟩

theorem legible_restingAt : ∀ record,
    (restingAt (ToolState.document lastVersion [])).records.get? restingRecord.id = some record →
      Legible record.workspace := by
  intro record hFound
  obtain rfl := Option.some.inj ((get?_restingAt _).symm.trans hFound)
  exact ⟨_, ofBytes_restingWith _, Workspace.faithful_toJson_iff.mpr (by simp [modestWorkspace])⟩

/-- An update with a value that is as deep as there is room for. -/
theorem readable_while_shallow_nested :
    Workspace.ofBytes (deepWorkspace 122).toBytes = .ok (deepWorkspace 122) ∧
      (deepWorkspace 122).toJson.depth ≤ 127 ∧
      ∃ t, Run upgradingSettings recording (Separate restingRecord.id)
          (restingAt (ToolState.document lastVersion [])) t ∧ t.jobs.length = 1 ∧
        ∀ record, t.records.get? restingRecord.id = some record → Legible record.workspace := by
  obtain ⟨hJob, hRun⟩ := readable_while_shallow upgradingSettings
  have decoded : (Job.update (deepVars 122)).Decoded := decoded_deepVars (by decide)
  have faithful := (forall_mem_deepVars Json.Faithful).mpr (nested_proper 122).faithful
  have shallow : ∀ field ∈ deepVars 122, field.2.depth ≤ 123 :=
    (forall_mem_deepVars (·.depth ≤ 123)).mpr (Nat.le_of_eq (nested_depth 122))
  obtain ⟨log, -, passes⟩ := passes_deep_update 122 _ (ofBytes_restingWith _)
  obtain ⟨hRead, room, -⟩ := hJob _ _ _ _ _ _ _ passes (ofBytes_restingWith _)
    (Workspace.faithful_toJson_iff.mpr (by simp [modestWorkspace])) decoded faithful rfl
  have hDepth := room shallow
  rw [if_pos hDepth] at hRead
  obtain ⟨t, work, record, run, hJobs, hId, hUpdate, -⟩ := run_deep_update 122
  have modest : ∀ other ∈ t.jobs, other.id = restingRecord.id → other.Modest := by
    intro other hMember _
    rw [hJobs] at hMember
    rw [List.mem_singleton.mp hMember]
    refine ⟨hUpdate ▸ decoded, ?_⟩
    rw [hUpdate]
    exact fun field hField => ⟨faithful field hField, shallow field hField⟩
  exact ⟨hRead, hDepth, t, run, by rw [hJobs]; rfl,
    (hRun _ _ _ _ t (quiet_restingAt _ _) run legible_restingAt modest).1⟩

/-- An update that a request can bring succeeds, and no job is admitted after it. -/
theorem unreadable_after_deep_update :
    (Job.update (deepVars 123)).Decoded ∧
      Quiet restingRecord.id (restingAt (ToolState.document lastVersion [])) ∧
      (∀ record, (restingAt (ToolState.document lastVersion [])).records.get? restingRecord.id =
        some record → Legible record.workspace) ∧
      ∃ (t : Traffic) (work : Activity) (record : Record),
        Run upgradingSettings recording (Separate restingRecord.id)
            (restingAt (ToolState.document lastVersion [])) t ∧
          t.jobs = [work] ∧ work.id = restingRecord.id ∧ work.job = .update (deepVars 123) ∧
          work.outcome? = some (.ok ()) ∧ t.records.get? restingRecord.id = some record ∧
          record.workspace = (deepWorkspace 123).toBytes ∧
          Workspace.ofBytes record.workspace =
            .error (.undecodable DecodeError.tooDeep.message) ∧
          admission restingRecord.id (.ok record) =
            .error (.workspace (.undecodable DecodeError.tooDeep.message)) := by
  obtain ⟨t, work, record, run, hJobs, hId, hUpdate, hOutcome, hFound, idle, hWorkspace⟩ :=
    run_deep_update 123
  have hUnreadable : Workspace.ofBytes record.workspace =
      .error (.undecodable DecodeError.tooDeep.message) := by
    rw [hWorkspace, ofBytes_deepWorkspace]
    rfl
  refine ⟨decoded_deepVars (by decide), quiet_restingAt _ _, legible_restingAt, t, work, record,
    run, hJobs, hId, hUpdate, hOutcome, hFound, hWorkspace, hUnreadable, ?_⟩
  simp only [admission, idle, hUnreadable]
  rfl

end Traffic

end ServiceBroker
